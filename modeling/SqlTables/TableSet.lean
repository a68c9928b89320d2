import SqlTables.Reference
import SqlTables.Unicode.CaseFold

/-!
# Sets of table names

A `TableSet` holds qualified table names, of which no two fold to the same text. It keeps the first
spelling of each name, in the order of their insertion; `TableSet.sorted` lists them by folded text
and then by spelling.
-/

namespace SqlTables

structure TableSet where
  toList : List String
deriving DecidableEq

namespace TableSet

def empty : TableSet := ⟨[]⟩

/-- Whether the set holds the name in some spelling. -/
def contains (s : TableSet) (name : String) : Bool :=
  s.toList.any fun n => Unicode.fold n == Unicode.fold name

/-- Adds a name that the set does not hold in any spelling. -/
def insert (s : TableSet) (name : String) : TableSet :=
  if s.contains name then s else ⟨s.toList ++ [name]⟩

/-- Adds a name, and says whether it is new. -/
def add (s : TableSet) (name : String) : Bool × TableSet := (!s.contains name, s.insert name)

def size (s : TableSet) : Nat := s.toList.length

/-- Whether `a` is listed no later than `b`: by folded text, then by spelling. -/
def precedes (a b : String) : Bool :=
  let x := Unicode.fold a
  let y := Unicode.fold b
  decide (x < y) || (x == y && decide (a ≤ b))

def sorted (s : TableSet) : List String := s.toList.mergeSort precedes

@[simp] theorem toList_empty : empty.toList = [] := rfl

theorem toList_insert (s : TableSet) (name : String) :
    (s.insert name).toList = if s.contains name then s.toList else s.toList ++ [name] := by
  unfold insert
  split <;> rfl

end TableSet

namespace Reference

/-- The name of a table in the current database: a name of one part that has no dot is qualified
with it. -/
def qualifiedName (r : Reference) (database : Option String) : String :=
  match database with
  | none => r.name
  | some d =>
    if d ≠ "" ∧ r.isQualified = false ∧ r.name.toList.contains '.' = false then d ++ "." ++ r.name
    else r.name

end Reference

namespace TableSet

/-- Adds the name of every reference that is a source. -/
def insertSources (s : TableSet) (database : Option String) (references : List Reference) :
    TableSet :=
  (references.filter Reference.isSource).foldl (fun s r => s.insert (r.qualifiedName database)) s

end TableSet

end SqlTables
