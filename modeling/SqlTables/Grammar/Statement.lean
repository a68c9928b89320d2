import SqlTables.Grammar.Creation

/-!
# Statements

The first word says what a statement is: a change, a creation, a command, or else a query or an
expression. `Readers.ofDepth` ties the knot: the readers of a level read with those of the level
below, and at the lowest level everything is nested too deeply.
-/

namespace SqlTables

namespace Grammar

open Reading

namespace Command

variable (r : Readers)

/-- The words that start a command, of which nothing more is read. -/
def words : List String :=
  ["ANALYZE", "BEGIN", "CACHE", "CALL", "COMMENT", "COMMIT", "COPY", "DESC", "DESCRIBE", "EXECUTE",
    "EXPLAIN", "FETCH", "GRANT", "KILL", "LOAD", "OPTIMIZE", "PRAGMA", "PREPARE", "REFRESH",
    "RENAME", "REVOKE", "ROLLBACK", "SET", "SHOW", "UNCACHE", "USE", "VACUUM"]

/-- The kinds of what can be dropped. -/
def dropped : List String :=
  ["COLUMN", "CONSTRAINT", "DATABASE", "FOREIGN KEY", "FUNCTION", "INDEX", "PROCEDURE", "SCHEMA",
    "TABLE", "VIEW"]

/-- What follows `DROP`. -/
def drop : Reading Tree := do
  let _ ← anyWord ["TEMP", "TEMPORARY"]
  let _ ← phrase ["MATERIALIZED"]
  if !(← anyWord dropped) then Creation.other
  else
    let _ ← phrase ["CONCURRENTLY"]
    let _ ← phrase ["IF", "EXISTS"]
    let _ ← Source.tableName r true
    if ← nextIsMark "(" then skipGroup
    let _ ← phrase ["CASCADE"]
    let _ ← phrase ["RESTRICT"]
    let _ ← phrase ["CONSTRAINTS"]
    let _ ← phrase ["PURGE"]
    let _ ← phrase ["SYNC"]
    pure (.node .other [])

/-- What follows `TRUNCATE`. -/
def truncate : Reading Tree := do
  let _ ← word "DATABASE"
  let _ ← word "TABLE"
  let _ ← phrase ["IF", "EXISTS"]
  let _ ← separated (some <$> Source.table r { columns := true })
  Creation.other

/-- What follows `ALTER`. -/
def alter : Reading Tree := do
  if ← anyWord ["TABLE", "VIEW"] then
    let _ ← phrase ["IF", "EXISTS"]
    let _ ← phrase ["ONLY"]
    let _ ← Source.table r { columns := true, partition := true }
  Creation.other

end Command

namespace Statement

variable (r : Readers)

/-- A statement that starts with none of the words of the others. -/
def plain? : Reading (Option Tree) := do
  let found ←
    match ← Expression.named r with
    | some t => some <$> Query.combined r t
    | none => Query.query? r {}
  match found with
  | some t => some <$> Query.modified r t
  | none => pure none

/-- A statement, if one comes next. -/
def read? : Reading (Option Tree) := do
  let d ← dialect
  if ← word "INSERT" then some <$> Change.insert r
  else if ← word "UPDATE" then some <$> Change.update r
  else if ← word "DELETE" then some <$> Change.delete r
  else if ← word "MERGE" then some <$> Change.merge r
  else if ← word "CREATE" then some <$> Creation.create r
  else if ← word "DROP" then some <$> Command.drop r
  else if (← nextIsWord "TRUNCATE") && !(← second?).any (·.isMark "(") then
    skip 1
    some <$> Command.truncate r
  else if ← word "ALTER" then some <$> Command.alter r
  else if ← (anyWord Command.words <||> Change.anyPhrase d.commands) then
    some <$> Creation.other
  else plain? r

end Statement

namespace Readers

/-- The readers without room. -/
def tooDeep : Readers :=
  let fail {α : Type} : Reading α := throw (.tooDeep "the statement is nested too deeply")
  { statement := fail, query := fun _ => fail, combined := fun _ => fail,
    modified := fun _ => fail, table := fail, joins := fail, expression := fail,
    comparison := fail, calculation := fail, operand := fail }

/-- The readers that read what nests by the given ones. -/
def step (r : Readers) : Readers :=
  { statement := Statement.read? r
    query := Query.query? r
    combined := Query.combined r
    modified := Query.modified r
    table := Source.table r {}
    joins := Source.joins r
    expression := Expression.whole r
    comparison := Expression.comparison r
    calculation := Expression.calculation r
    operand := Expression.operand r }

/-- The readers with so many levels below them. -/
def ofDepth : Nat → Readers
  | 0 => tooDeep
  | depth + 1 => step (ofDepth depth)

/-- The readers of a whole statement, which run out of room before they run out of levels. -/
def whole : Readers := ofDepth (Room.whole + 1)

end Readers

namespace Tree

/-- The tree of a whole statement in a dialect, if it holds one. -/
def ofLexemes? (d : Dialect) (lexemes : List Lexeme) : Except ParseFailure (Option Tree) := do
  let (found, after) ←
    (Readers.whole.statement).run { dialect := d, room := Room.whole, rest := lexemes }
  if after.rest.isEmpty then pure found
  else throw (.rejected "a statement goes on after its end")

end Tree

end Grammar

end SqlTables
