import SqlTables.Statement

/-!
# Kinds of statements

`Statement.kind` tells a statement by its first word. A statement that starts with `WITH` or `FROM`
writes data if a writing keyword stands outside its parentheses, as in `FROM s INSERT INTO t …`, and
is a query otherwise. A statement of a kind that is not known still counts as one that may touch
tables; only a session command never does.
-/

namespace SqlTables

inductive StatementKind
  | query
  | dml
  | ddl
  | session
  | unknown
deriving DecidableEq

namespace StatementKind

def text : StatementKind → String
  | query => "query"
  | dml => "dml"
  | ddl => "ddl"
  | session => "session"
  | unknown => "unknown"

/-- The words that start a session command. -/
def sessionWords : List String :=
  ["SET", "RESET", "USE", "SHOW", "DESCRIBE", "DESC", "ADD", "LIST", "RELOAD", "DFS", "GRANT",
    "REVOKE"]

/-- The keywords of statements that write data. -/
def writeKeywords : List Keyword := [.INSERT, .UPDATE, .DELETE, .MERGE, .LOAD]

def definitionWords : List String := ["CREATE", "ALTER", "DROP", "TRUNCATE", "MSCK"]

end StatementKind

namespace Statement

/-- Whether one of the keywords stands outside any parentheses, `depth` of which are open. A
closing parenthesis without an opening one does not count. -/
def hasOuterKeyword (words : List Keyword) (depth : Nat) : List Token → Bool
  | [] => false
  | t :: rest =>
    if t.isMark '(' then hasOuterKeyword words (depth + 1) rest
    else if t.isMark ')' then hasOuterKeyword words (depth - 1) rest
    else (depth == 0 && t.isAnyKeyword words) || hasOuterKeyword words depth rest

/-- The upper-cased first word, which is empty if the first token is no bare word. -/
def headWord (head : Token) : String :=
  match head.kind with
  | .keyword _ | .identifier => head.upper
  | _ => ""

def kind (s : Statement) : StatementKind :=
  match s.tokens with
  | [] => .unknown
  | head :: _ =>
    let word := headWord head
    if StatementKind.sessionWords.contains word then .session
    else if (StatementKind.writeKeywords.map Keyword.text).contains word then .dml
    else if StatementKind.definitionWords.contains word then .ddl
    else if word = "WITH" ∨ word = "FROM" then
      if hasOuterKeyword StatementKind.writeKeywords 0 s.tokens then .dml else .query
    else if word = "SELECT" ∨ word = "VALUES" ∨ head.isMark '(' then .query
    else .unknown

/-- The database that a statement `USE [DATABASE|SCHEMA] name` switches to. -/
def usedDatabase? (s : Statement) : Option String :=
  match s.tokens with
  | [use, name] => if use.isKeyword .USE ∧ name.isName then some name.value else none
  | [use, unit, name] =>
    if use.isKeyword .USE ∧ unit.kind = .identifier
        ∧ (unit.upper = "DATABASE" ∨ unit.upper = "SCHEMA") ∧ name.isName then
      some name.value
    else none
  | _ => none

end Statement

end SqlTables
