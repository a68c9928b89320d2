import SqlTables.Grammar.Identifier

/-!
# Primary expressions

Literals, stars and what is in parentheses, and the alias after an expression. Of an expression only
the queries inside it matter for the tables of a statement.
-/

namespace SqlTables

namespace Grammar

open Reading

namespace Expression

variable (r : Readers)

/-- An expression that has no parts of interest. -/
def leaf : Tree := .node .expression []

/-! ## Aliases -/

/-- Whether `LIMIT` or `OFFSET` comes next and is no alias, as something to count by follows. -/
def startsLimit : Reading Bool :=
  wouldGive do
    if ← anyWord ["LIMIT", "OFFSET"] then nested Room.operator r.calculation else pure none

/-- An expression with the alias after it, if it has one; `explicit` asks for the word `AS`. -/
def aliased (explicit : Bool) (t : Option Tree) : Reading (Option Tree) := do
  if ← startsLimit r then return t
  let forced ← word "AS"
  if explicit && !forced then return t
  if ← nextIsMark "(" then
    Identifier.wrapped
    return some (.node .expression [← present t])
  let d ← dialect
  let name ← Identifier.read? .any forced
  let other ← if name.isNone && d.hasTextAliases then Identifier.text? else pure none
  match name.or other with
  | some _ => pure (some (.node .expression [← present t]))
  | none => pure t

/-- An expression with its alias, one level down. -/
def nestedAliased (explicit : Bool) : Reading (Option Tree) := do
  aliased r explicit (← r.expression)

/-! ## Primary expressions -/

/-- What `EXCEPT`, `REPLACE` or `RENAME` after a star takes: a list in parentheses or one
expression, which may be absent. -/
def starItems : Reading (List Tree) :=
  nested Room.parenthesis do
    if ← nextIsMark "(" then wrapped (nestedAliased r false)
    else pure (← nestedAliased r true).toList

/-- What follows a star among the results of a query. -/
def star : Reading Tree := do
  let excepted ← if ← anyText ["EXCEPT", "EXCLUDE"] then starItems r else pure []
  let replaced ← if ← anyText ["REPLACE"] then starItems r else pure []
  let renamed ← if ← anyText ["RENAME"] then starItems r else pure []
  pure (.node .expression (excepted ++ replaced ++ renamed))

/-- A query in parentheses, with the clauses that may follow it, and the set operations that may if
it is in parentheses of its own. -/
def wrappedQuery (t : Tree) : Reading Tree := do
  let modified ← r.modified t
  let whole ← if modified.kind.isBareQuery then pure modified else r.combined modified
  pure (.node (.subquery "") [whole])

/-- What is in parentheses: a query, nothing, or expressions. -/
def inParentheses : Reading Tree := do
  match ← r.query {} with
  | some q => wrappedQuery r q
  | none =>
    match ← separated (nestedAliased r false) with
    | [] => if ← nextIsMark ")" then pure leaf else fail "an expression is missing"
    | first :: more =>
      if first.kind.isQuery || first.kind = .rows then wrappedQuery r first
      else pure (.node .expression (first :: more))

/-- A literal, a star, or what is in parentheses. -/
def primary : Reading (Option Tree) := do
  if ← accept (·.kind = .text) then
    let _ ← many (take? (·.kind = .text))
    pure (some leaf)
  else if ← accept fun l => l.kind = .number || l.isAnyWord ["NULL", "TRUE", "FALSE"] then
    pure (some leaf)
  else if ← mark "*" then pure (some (← star r))
  else if ← nextAre (·.isMark ".") (·.kind = .number) then
    skip 2
    pure (some leaf)
  else if ← mark "(" then
    let t ← nested Room.parenthesis (inParentheses r)
    closing ")"
    pure (some t)
  else pure none

end Expression

end Grammar

end SqlTables
