import SqlTables.Span

/-!
# References

A `Reference` is a place of a script where a table, an alias or a common table expression is named.
Its role says which; a table whose surroundings could not be read to the end is `unresolved` and is
still reported.
-/

namespace SqlTables

inductive Role
  | source
  | aliasDefinition
  | cteDefinition
  | unresolved
deriving DecidableEq

namespace Role

/-- Whether a name of this role is reported as a table. -/
def isSource : Role → Bool
  | source | unresolved => true
  | aliasDefinition | cteDefinition => false

end Role

structure Reference where
  parts : List String
  span : Span
  role : Role
  statement : Nat := 0
deriving DecidableEq

namespace Reference

/-- The parts joined by dots. -/
def name (r : Reference) : String := ".".intercalate r.parts

def isQualified (r : Reference) : Bool := 1 < r.parts.length

def isSource (r : Reference) : Bool := r.role.isSource

/-- A source of which it is no longer certain that it is a table. -/
def demote (r : Reference) : Reference :=
  if r.role = .source then { r with role := .unresolved } else r

@[simp] theorem demote_parts (r : Reference) : r.demote.parts = r.parts := by
  unfold demote
  split <;> rfl

@[simp] theorem demote_span (r : Reference) : r.demote.span = r.span := by
  unfold demote
  split <;> rfl

@[simp] theorem demote_isSource (r : Reference) : r.demote.isSource = r.isSource := by
  unfold demote isSource
  split <;> simp_all [Role.isSource]

end Reference

end SqlTables
