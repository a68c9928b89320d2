import SqlTables.Grammar.Tree
import SqlTables.Grammar.Word

/-!
# Readings

A `Reading` takes lexemes from the start of what is left of a statement. It may give nothing, if
what it looks for is not there, and it fails if what is there cannot be part of a statement. What
nests is read one level of nesting down, by the `Readers` of that level: `nested` counts down the
room for it, and without room the statement is nested too deeply.
-/

namespace SqlTables

namespace Grammar

/-- Where a reading is. -/
structure Cursor where
  dialect : Dialect
  /-- How much more nesting there may be. -/
  room : Nat
  rest : List Lexeme

abbrev Reading := StateT Cursor (Except ParseFailure)

/-! ## Room -/

namespace Room

/-- The room that a statement has for nesting. -/
def whole : Nat := 930

/-- The room that an expression in parentheses takes. -/
def parenthesis : Nat := 23

/-- The room that the arguments of a function take. -/
def call : Nat := 24

/-- The room that the list after `IN` takes. -/
def list : Nat := 20

/-- The room that an operand takes which follows its operator. -/
def operator : Nat := 8

/-- The room that the joins before the condition of a join take. -/
def join : Nat := 3

/-- The room that a query takes where a table may stand, and a table where a query may. -/
def table : Nat := 4

/-- The room that a common table expression takes. -/
def cte : Nat := 7

end Room

namespace Reading

variable {α : Type}

/-! ## Lexemes -/

def next? : Reading (Option Lexeme) := do return (← get).rest.head?

def second? : Reading (Option Lexeme) := do return ((← get).rest.drop 1).head?

/-- Goes on by some lexemes. -/
def skip (count : Nat) : Reading Unit := modify fun c => { c with rest := c.rest.drop count }

def dialect : Reading Dialect := do return (← get).dialect

def nextIs (p : Lexeme → Bool) : Reading Bool := do return (← next?).any p

/-- Whether the next two lexemes are as given. -/
def nextAre (p q : Lexeme → Bool) : Reading Bool := do
  return (← next?).any p && (← second?).any q

/-- Takes the next lexeme, if it is as given. -/
def take? (p : Lexeme → Bool) : Reading (Option Lexeme) := do
  match (← next?).filter p with
  | some l =>
    skip 1
    pure (some l)
  | none => pure none

/-- Takes the next lexeme, if it is as given, and tells whether it is. -/
def accept (p : Lexeme → Bool) : Reading Bool := do return (← take? p).isSome

def word (w : String) : Reading Bool := accept (·.isWord w)

def anyWord (ws : List String) : Reading Bool := accept (·.isAnyWord ws)

def mark (m : String) : Reading Bool := accept (·.isMark m)

def nextIsWord (w : String) : Reading Bool := nextIs (·.isWord w)

def nextIsMark (m : String) : Reading Bool := nextIs (·.isMark m)

/-- Takes lexemes that read as the given words, if all of them come next. -/
def phrase (ws : List String) : Reading Bool := do
  let c ← get
  if c.rest.length < ws.length then return false
  let found := (c.rest.zip ws).all fun (l, w) => l.reads w
  if found then skip ws.length
  pure found

/-- Takes one of the given words, be it quoted or not. -/
def anyText (ws : List String) : Reading Bool :=
  accept fun l => ws.any l.reads

/-! ## Failing and trying -/

def fail (message : String) : Reading α := throw (.rejected message)

/-- What has been read, which must be there. -/
def present (found : Option α) : Reading α :=
  match found with
  | some a => pure a
  | none => fail "a part is missing"

/-- Reads what must be there. -/
def required (p : Reading (Option α)) : Reading α := do present (← p)

def closing (m : String) : Reading Unit := do
  if !(← mark m) then fail ("no closing " ++ m)

/-- Tries a reading: where it gives nothing or fails, nothing is taken. -/
def attempt (p : Reading (Option α)) : Reading (Option α) := do
  let c ← get
  match p.run c with
  | .ok (some a, after) =>
    set after
    pure (some a)
  | .ok (none, _) | .error (.rejected _) => pure none
  | .error cause => throw cause

/-- Whether a reading would give something; nothing is taken. -/
def wouldGive (p : Reading (Option α)) : Reading Bool := do
  let c ← get
  let found ← attempt p
  set c
  pure found.isSome

/-! ## Repeating -/

/-- Reads as long as something is given, but at most so many times. -/
def manyUpTo (limit : Nat) (p : Reading (Option α)) : Reading (List α) :=
  match limit with
  | 0 => pure []
  | limit + 1 => do
    match ← p with
    | some a => do
      let more ← manyUpTo limit p
      pure (a :: more)
    | none => pure []

/-- Reads as long as something is given. Each time takes a lexeme at least. -/
def many (p : Reading (Option α)) : Reading (List α) := do
  manyUpTo ((← get).rest.length + 1) p

/-- Reads items between commas. An item may be absent, also after the last comma. -/
def separated (p : Reading (Option α)) : Reading (List α) := do
  let first ← p
  let more ← many do
    if ← mark "," then
      let item ← p
      pure (some item)
    else pure none
  pure ((first :: more).filterMap id)

/-- Reads items between commas and in parentheses. -/
def wrapped (p : Reading (Option α)) : Reading (List α) := do
  if !(← mark "(") then fail "no opening parenthesis"
  let items ← separated p
  closing ")"
  pure items

/-- Goes from a tree to a larger one as long as that is possible, but at most so many times. -/
def growUpTo (limit : Nat) (grow : α → Reading (Option α)) (a : α) : Reading α :=
  match limit with
  | 0 => pure a
  | limit + 1 => do
    match ← grow a with
    | some b => growUpTo limit grow b
    | none => pure a

/-- Goes from a tree to a larger one as long as that is possible. -/
def grow (step : α → Reading (Option α)) (a : α) : Reading α := do
  growUpTo ((← get).rest.length + 1) step a

/-- The number of lexemes up to the end of a group that has been opened `depth` times. -/
def groupSize? : (depth : Nat) → List Lexeme → Option Nat
  | _, [] => none
  | depth, l :: rest =>
    if l.isMark "(" then (groupSize? (depth + 1) rest).map (· + 1)
    else if l.isMark ")" then
      if depth ≤ 1 then some 1 else (groupSize? (depth - 1) rest).map (· + 1)
    else (groupSize? depth rest).map (· + 1)

/-- Passes over a group in parentheses. -/
def skipGroup : Reading Unit := do
  match groupSize? 0 (← get).rest with
  | some size => skip size
  | none => fail "a parenthesis is not closed"

/-! ## Nesting -/

/-- Reads something that takes up room for nesting. -/
def nested (cost : Nat) (p : Reading α) : Reading α := do
  let room := (← get).room
  if room < cost then throw (.tooDeep "the statement is nested too deeply")
  modify fun c => { c with room := room - cost }
  let a ← p
  modify fun c => { c with room }
  pure a

end Reading

/-- Where a query is read. -/
structure QueryPlace where
  /-- A table in parentheses may stand instead. -/
  ofTable : Bool := false
  /-- The query may be in parentheses. -/
  mayWrap : Bool := false
  /-- An alias may follow the parentheses. -/
  mayName : Bool := true
  /-- Set operators may follow. -/
  mayCombine : Bool := true

/-- What nests is read by the readers of the level below. -/
structure Readers where
  statement : Reading (Option Tree)
  query (place : QueryPlace) : Reading (Option Tree)
  /-- The set operations after a query. -/
  combined (t : Tree) : Reading Tree
  /-- The joins and clauses after a query. -/
  modified (t : Tree) : Reading Tree
  /-- A table with its alias. -/
  table : Reading Tree
  joins : Reading (List Tree)
  /-- An expression without an alias. -/
  expression : Reading (Option Tree)
  /-- An expression of comparisons and what binds more tightly. -/
  comparison : Reading (Option Tree)
  /-- An expression of calculations. -/
  calculation : Reading (Option Tree)
  /-- An expression without operators between two operands. -/
  operand : Reading (Option Tree)

end Grammar

end SqlTables
