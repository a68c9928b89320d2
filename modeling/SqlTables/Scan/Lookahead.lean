import SqlTables.Token

/-!
# Looking ahead

What a token means may depend on those after it. The functions here answer such questions from the
tokens that follow; two of them, `looksLikeCte` and `hasQueryBody`, may look arbitrarily far.
-/

namespace SqlTables

namespace Scan

/-- Keywords that start no clause, so that they can name a table, as in `FROM location`. -/
def nonReserved : List Keyword :=
  [.ADD, .ASC, .CLUSTERED, .COMMENT, .CUBE, .DESC, .DESCRIBE, .DFS, .DIRECTORY, .EXPLAIN,
    .EXTERNAL, .GLOBAL, .GROUPING, .LIST, .LOAD, .LOCAL, .LOCATION, .MATERIALIZED, .MSCK,
    .PARTITIONED, .RECURSIVE, .RELOAD, .REPLACE, .RESET, .ROLLUP, .ROW, .SETS, .SHOW, .STORED,
    .TBLPROPERTIES, .TEMP, .TEMPORARY, .TRANSACTIONAL, .TRUNCATE, .USE]

/-- Whether the token can name a table where a table is expected. -/
def isCandidate (t : Token) : Bool := t.isName || t.isAnyKeyword nonReserved

/-- Whether the token starts a query at the start of a parenthesis. -/
def startsSubquery (t : Token) : Bool := t.isAnyKeyword [.SELECT, .WITH, .VALUES]

/-- The tokens after the parenthesis that closes the innermost open one, when `depth` further ones
are open inside it. -/
def afterClosing? (depth : Nat) : List Token → Option (List Token)
  | [] => none
  | t :: rest =>
    if t.isMark '(' then afterClosing? (depth + 1) rest
    else if t.isMark ')' then
      match depth with
      | 0 => some rest
      | d + 1 => afterClosing? d rest
    else afterClosing? depth rest

/-- Whether the tokens after a `WITH` start the definition of a common table expression:
`RECURSIVE`, `name AS (`, `name AS [NOT] MATERIALIZED`, or `name (…) AS`. -/
def looksLikeCte : List Token → Bool
  | [] => false
  | name :: rest =>
    name.isKeyword .RECURSIVE ||
      name.isName &&
        match rest with
        | [] => false
        | t :: after =>
          if t.isKeyword .AS then
            after.head?.any fun u => u.isMark '(' || u.isAnyKeyword [.NOT, .MATERIALIZED]
          else if t.isMark '(' then
            (afterClosing? 0 after).any fun tail => tail.head?.any fun u => u.isKeyword .AS
          else false

/-- Whether the token after an `AS` starts the query of a `CREATE` statement. -/
def startsBody (t : Token) : Bool := t.isAnyKeyword [.SELECT, .WITH, .FROM] || t.isMark '('

/-- Whether `AS` and the start of a query stand among the tokens where as many parentheses are
closed as opened, `depth` of them being open before. -/
def hasQueryBody (depth : Int) : List Token → Bool
  | [] => false
  | t :: rest =>
    if t.isMark '(' then hasQueryBody (depth + 1) rest
    else if t.isMark ')' then hasQueryBody (depth - 1) rest
    else
      (depth == 0 && t.isKeyword .AS && rest.head?.any startsBody) || hasQueryBody depth rest

end Scan

end SqlTables
