import SqlTables.Reference
import SqlTables.Unicode.LowerCase

/-!
# Scopes

A `Scope` is a chain of name lists, the innermost first. Names are compared in lower case, the most
recent definition of a list comes first, and a name that the innermost list lacks is looked up in
the lists around it.
-/

namespace SqlTables

/-- Names in lower case with their roles, the most recent first. -/
abbrev Names := List (String × Role)

namespace Names

def define (names : Names) (name : String) (role : Role) : Names :=
  (Unicode.lower name, role) :: names

def lookup? (names : Names) (name : String) : Option Role :=
  List.lookup (Unicode.lower name) names

@[simp] theorem lookup?_nil (name : String) : lookup? [] name = none := rfl

theorem lookup?_define (names : Names) (name other : String) (role : Role) :
    (names.define name role).lookup? other =
      if Unicode.lower other = Unicode.lower name then some role else names.lookup? other := by
  unfold lookup? define
  rw [List.lookup_cons]
  split <;> simp_all

end Names

/-- The name lists in force, the innermost first. -/
abbrev Scope := List Names

namespace Scope

/-- Defines a name in the innermost list. -/
def define (scope : Scope) (name : String) (role : Role) : Scope :=
  match scope with
  | [] => [Names.define [] name role]
  | names :: outer => names.define name role :: outer

/-- The role of a name in the innermost list that has it. -/
def lookup? (scope : Scope) (name : String) : Option Role :=
  scope.findSome? fun names => names.lookup? name

/-- A scope with an empty list of its own inside the given one. -/
def child (scope : Scope) : Scope := [] :: scope

@[simp] theorem lookup?_nil (name : String) : lookup? [] name = none := rfl

theorem lookup?_cons (names : Names) (outer : Scope) (name : String) :
    lookup? (names :: outer) name = (names.lookup? name).or (lookup? outer name) := by
  simp only [lookup?, List.findSome?_cons]
  cases names.lookup? name <;> rfl

@[simp] theorem lookup?_child (scope : Scope) (name : String) :
    scope.child.lookup? name = scope.lookup? name := by
  simp [child, lookup?_cons]

theorem lookup?_define (scope : Scope) (name other : String) (role : Role) :
    (scope.define name role).lookup? other =
      if Unicode.lower other = Unicode.lower name then some role else scope.lookup? other := by
  cases scope <;> simp only [define, lookup?_cons, Names.lookup?_define] <;> split <;> simp

end Scope

end SqlTables
