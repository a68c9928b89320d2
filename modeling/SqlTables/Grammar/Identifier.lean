import SqlTables.Grammar.Reading

/-!
# Identifiers, types and columns

The small parts of a statement: names and parameters, types, and the definitions of columns. What
they say does not matter for the tables of a statement, but where they end does.
-/

namespace SqlTables

namespace Grammar

open Reading

namespace Identifier

/-- The name of a parameter after its mark. -/
def parameterName : Reading String := do
  match ← take? Lexeme.isForced with
  | some l => pure l.text
  | none => fail "a parameter has no name"

/-- A parameter between braces or without them, after a dollar sign. -/
def dollarParameter : Reading String := do
  let _ ← mark "\x7b"
  let name ← parameterName
  if ← mark ":" then
    let _ ← parameterName
  let _ ← mark "\x7d"
  pure name

/-- A place that is filled in later, with its name. -/
def placeholder? : Reading (Option String) := do
  let d ← dialect
  if ← mark "?" then pure (some "")
  else if ← mark "@" then return some (← parameterName)
  else if d.hasDollarParameters && (← nextIsMark "$") then
    skip 1
    return some (← dollarParameter)
  else if ← nextAre (·.isMark ":") (fun l => l.kind = .number || l.names .any) then
    let l ← second?
    skip 2
    pure (l.map Lexeme.text)
  else pure none

/-- A name; `forced` says that any word will do. -/
def read? (use : NameUse) (forced : Bool) : Reading (Option String) := do
  match ← take? (·.kind = .name) with
  | some l => pure (some l.text)
  | none =>
    match ← placeholder? with
    | some name => pure (some name)
    | none =>
      let l ← take? fun l => (forced && l.isForced) || l.names use
      pure (l.map Lexeme.text)

/-- A text that stands for a name. -/
def text? : Reading (Option String) := do
  return (← take? (·.kind = .text)).map Lexeme.text

/-- Names in parentheses. -/
def wrapped : Reading Unit := do
  let _ ← Reading.wrapped (read? .any true)

end Identifier

namespace DataType

/-- The number of lexemes up to the angle bracket that closes the first. -/
def angleSize? : (depth : Nat) → List Lexeme → Option Nat
  | _, [] => none
  | depth, l :: rest =>
    if l.isMark "<" then (angleSize? (depth + 1) rest).map (· + 1)
    else if l.isMark ">" then
      if depth ≤ 1 then some 1 else (angleSize? (depth - 1) rest).map (· + 1)
    else (angleSize? depth rest).map (· + 1)

/-- What may follow the word of a type: the types of items, sizes, brackets and further words. -/
def skipRest : Reading Unit := do
  if ← nextIsMark "<" then
    match angleSize? 0 (← get).rest with
    | some size => skip size
    | none => fail "a type is not closed"
  if ← nextIsMark "(" then skipGroup
  let _ ← many do
    if ← nextAre (·.isMark "[") (·.isMark "]") then
      skip 2
      pure (some ())
    else if ← (phrase ["WITH", "TIME", "ZONE"] <||> phrase ["WITHOUT", "TIME", "ZONE"]
        <||> phrase ["WITH", "LOCAL", "TIME", "ZONE"]
        <||> anyWord ["UNSIGNED", "VARYING", "PRECISION", "ARRAY"]) then
      pure (some ())
    else pure none

/-- A type, if one comes next. -/
def read? : Reading (Option Unit) := do
  let d ← dialect
  let isType (l : Lexeme) : Bool :=
    l.isType || (d.hasUserTypes && l.names .any && l.isFunctionName)
  if ← accept isType then
    skipRest
    pure (some ())
  else pure none

end DataType

namespace Column

/-- A part of the definition of a column after its type. -/
def constraint? (calculation : Reading (Option Tree)) : Reading (Option Unit) := do
  if ← (phrase ["NOT", "NULL"]
      <||> anyWord ["NULL", "UNIQUE", "PRIMARY KEY", "AUTO_INCREMENT", "AUTOINCREMENT"]) then
    pure (some ())
  else if ← word "COMMENT" then
    let _ ← accept (·.kind = .text)
    pure (some ())
  else if ← word "DEFAULT" then
    let _ ← calculation
    pure (some ())
  else if ← nextAre (·.isWord "CHECK") (·.isMark "(") then
    skip 1
    skipGroup
    pure (some ())
  else pure none

/-- What follows the name of a column where it is defined: its type and its constraints. -/
def skipRest (calculation : Reading (Option Tree)) : Reading Unit := do
  let _ ← word "AS"
  let _ ← DataType.read?
  let _ ← many (constraint? calculation)

/-- A column in the list after an alias. -/
def named? (calculation : Reading (Option Tree)) : Reading (Option Unit) := do
  match ← Identifier.read? .any true with
  | some _ =>
    skipRest calculation
    pure (some ())
  | none => pure none

/-- The number of lexemes up to the end of an item of a list, and whether it has one. -/
def itemSize (depth : Nat) : List Lexeme → Nat
  | [] => 0
  | l :: rest =>
    if depth = 0 ∧ l.isAnyMark [",", ")"] then 0
    else if l.isMark "(" then itemSize (depth + 1) rest + 1
    else if l.isMark ")" then itemSize (depth - 1) rest + 1
    else itemSize depth rest + 1

/-- The words that start a constraint of a whole table. -/
def tableConstraints : List String :=
  ["CONSTRAINT", "PRIMARY KEY", "FOREIGN KEY", "CHECK", "UNIQUE"]

/-- An item of the list of columns after the name of a table. -/
def item? (calculation : Reading (Option Tree)) : Reading (Option Unit) := do
  if ← nextIs (·.isAnyWord tableConstraints) then
    skip (itemSize 0 (← get).rest)
    pure (some ())
  else named? calculation

/-- The list of columns after the name of a table; a parenthesis in which a query starts is no such
list. -/
def list (calculation : Reading (Option Tree)) : Reading Unit := do
  let startsQuery (l : Lexeme) : Bool := l.isMark "(" || l.isAnyWord ["SELECT", "WITH"]
  if (← nextIsMark "(") && !(← second?).any startsQuery then
    let _ ← Reading.wrapped (item? calculation)

end Column

end Grammar

end SqlTables
