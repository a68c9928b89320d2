import SqlTables.Scan.Frame
import SqlTables.Scan.Lookahead

/-!
# The scan of a flat group

Past the depth limit a group is searched without structure: the first name after `FROM` or `JOIN`,
past any opening parentheses, is a table. Nothing is known about the scopes inside the group, so
what is found is `unresolved`.
-/

namespace SqlTables

namespace Scan

namespace Flat

/-- The reference that a complete name makes, unless it is a function call or a bound name. -/
def reference? (f : Flat) (n : DottedName) (isCall : Bool) : Option Reference :=
  if isCall ∨ (n.single?.bind f.scope.lookup?).isSome then none
  else some { parts := n.parts, span := n.span, role := .unresolved }

/-- A token that belongs to no name. -/
def plainStep (f : Flat) (expecting : Bool) (t : Token) : Outcome :=
  let next (depth : Nat) (expecting : Bool) : Body := .flat ⟨f.scope, depth, expecting, none⟩
  if t.isMark '(' then { body := next (f.depth + 1) expecting }
  else if t.isMark ')' then
    match f.depth with
    | 0 => { body := next 0 false, action := .leave }
    | d + 1 => { body := next d false }
  else { body := next f.depth (t.isAnyKeyword [.FROM, .JOIN]) }

def step (f : Flat) (t : Token) : Outcome :=
  match f.read with
  | some n =>
    match n.extend? t with
    | some longer => { body := .flat { f with read := some longer } }
    | none =>
      let o := f.plainStep false t
      match f.reference? n (t.isMark '(') with
      | some r => o.found r
      | none => o
  | none =>
    if f.expecting ∧ isCandidate t then
      { body := .flat { f with expecting := false, read := some (.ofToken t) } }
    else f.plainStep f.expecting t

/-- What is found at the end of the tokens. -/
def settle (f : Flat) : List Reference :=
  match f.read with
  | some n => (f.reference? n false).toList
  | none => []

end Flat

end Scan

end SqlTables
