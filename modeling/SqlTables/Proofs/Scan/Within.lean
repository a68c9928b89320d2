import SqlTables.Proofs.Scan.Binding
import SqlTables.Proofs.Scan.Creation

/-!
# Groups with further scopes around

The same tokens are read inside another query as they are by themselves: the scopes
of that query stand around every scope in the groups (`Body.within`), and as long as
they name nothing, no step depends on them (`Query.step_within`). Of the
surroundings only a `(` heeds the depth limit and only a `)` whether the group is in
parentheses (`Surroundings.Agrees`).

A list must be in force to define a name in, or the name would be defined in the
scopes around.
-/

namespace SqlTables

namespace Scope

variable {scope outer : Scope}

theorem lookup?_append (scope outer : Scope) (name : String) :
    lookup? (scope ++ outer) name = (scope.lookup? name).or (outer.lookup? name) := by
  induction scope with
  | nil => rfl
  | cons names scope ih =>
      rw [List.cons_append, lookup?_cons, lookup?_cons, ih, Option.or_assoc]

theorem define_append (h : scope ≠ []) (outer : Scope) (name : String) (role : Role) :
    (scope ++ outer).define name role = scope.define name role ++ outer := by
  cases scope with
  | nil => exact absurd rfl h
  | cons names scope => rfl

/-- Scopes that name nothing add no name to those inside them. -/
theorem lookup?_append_of_unnamed (h : ∀ name, outer.lookup? name = none) (scope : Scope) :
    lookup? (scope ++ outer) = scope.lookup? := by
  funext name
  rw [lookup?_append, h, Option.or_none]

end Scope

namespace Scan

open Token

/-- The query with further scopes around. -/
def Query.within (outer : Scope) (q : Query) : Query := { q with base := q.base ++ outer }

/-- The group with further scopes around. -/
def Body.within (outer : Scope) : Body → Body
  | .query q => .query (q.within outer)
  | .expression scope => .expression (scope ++ outer)
  | .flat f => .flat { f with scope := f.scope ++ outer }

def Action.within (outer : Scope) : Action → Action
  | .stay => .stay
  | .enter body => .enter (body.within outer)
  | .leave => .leave

def Outcome.within (outer : Scope) (o : Outcome) : Outcome :=
  { o with body := o.body.within outer, action := o.action.within outer }

@[simp] theorem Query.within_nil (q : Query) : q.within [] = q := by
  rw [Query.within, List.append_nil]

@[simp] theorem Body.within_nil (b : Body) : b.within [] = b := by
  cases b with
  | query q => rw [Body.within, Query.within_nil]
  | expression scope => rw [Body.within, List.append_nil]
  | flat f => rw [Body.within, List.append_nil]

@[simp] theorem Outcome.within_nil (o : Outcome) : o.within [] = o := by
  have haction : o.action.within [] = o.action := by
    cases o.action with
    | enter body => rw [Action.within, Body.within_nil]
    | _ => rfl
  rw [Outcome.within, Body.within_nil, haction]

/-- The surroundings are the same for what the token heeds of them. -/
structure Surroundings.Agrees (t : Token) (w w' : Surroundings) : Prop where
  full : t.isMark '(' → w'.full = w.full
  nested : t.isMark ')' → w'.nested = w.nested
  merging : w'.merging = w.merging
  comparison : w'.comparison = w.comparison

variable {outer : Scope} {w w' : Surroundings} {t : Token} {ts us : List Token}

theorem Surroundings.expression_within (h : w'.full = w.full) (scope : Scope) :
    w'.expression (scope ++ outer) = (w.expression scope).within outer := by
  rw [expression, expression, h]
  split
  · rfl
  · rfl

theorem Surroundings.subquery_within (h : w'.full = w.full) (scope : Scope) :
    w'.subquery (scope ++ outer) = (w.subquery scope).within outer := by
  rw [subquery, subquery, h]
  split
  · rfl
  · rfl

/-! ## Queries -/

namespace Query

variable {q : Query}

@[simp] theorem scope_within (outer : Scope) (q : Query) :
    (q.within outer).scope = q.scope ++ outer := by
  obtain ⟨base, branch, isJoinTree, inFirstList, mode⟩ := q
  cases branch with
  | none => rfl
  | some names => rfl

theorem defineAlias_within (h : q.base ≠ []) (name : String) :
    (q.within outer).defineAlias name = (q.defineAlias name).within outer := by
  obtain ⟨base, branch, isJoinTree, inFirstList, mode⟩ := q
  cases branch with
  | none => simp only [within, defineAlias, Scope.define_append h]
  | some names => rfl

theorem defineCte_within (h : q.base ≠ []) (name : String) :
    (q.within outer).defineCte name = (q.defineCte name).within outer := by
  simp only [within, defineCte, Scope.define_append h]

theorem withScope_within {scope : Scope} (h : scope ≠ []) :
    (q.within outer).withScope (scope ++ outer) = (q.withScope scope).within outer := by
  obtain ⟨base, branch, isJoinTree, inFirstList, mode⟩ := q
  cases branch with
  | none => rfl
  | some names =>
      cases scope with
      | nil => exact absurd rfl h
      | cons names' scope => rfl

theorem reference_within (h : ∀ name, outer.lookup? name = none) (n : DottedName) :
    (q.within outer).reference n = q.reference n := by
  simp only [reference, scope_within, Scope.lookup?_append_of_unnamed h]

theorem operandGroup_within (h : w'.full = w.full) (hs : SameSight ts us) :
    operandGroup w' (q.within outer) us = (operandGroup w q ts).within outer := by
  simp only [operandGroup, h, hs.subquery, hs.operand, scope_within]
  split
  · rfl
  · split
    · rfl
    · split
      · rfl
      · rfl

/-! ### Steps -/

section Steps

variable (hw : w.Agrees t w') (hs : SameSight ts us)

include hw hs

theorem clauseStep_within (fresh : Bool) :
    clauseStep w' (q.within outer) fresh t us = (clauseStep w q fresh t ts).within outer := by
  unfold clauseStep
  rw [hs.subquery, hs.table, hs.cte, hw.comparison, hw.merging, scope_within]
  split
  · next hkind =>
      rw [hw.nested (by simp [isMark, hkind])]
      cases w.nested <;> rfl
  · next hkind =>
      have hfull := hw.full (by simp [isMark, hkind])
      rw [Surroundings.subquery_within hfull, Surroundings.expression_within hfull]
      split
      · rfl
      · rfl
  · next word hkind =>
      dsimp only
      -- Only four of the words depend on what comes after or before them.
      cases word with
      | WITH => dsimp only; split <;> rfl
      | FROM => dsimp only; split <;> rfl
      | OVERWRITE => dsimp only; split <;> rfl
      | UPDATE => dsimp only; split <;> rfl
      | USING => dsimp only; split <;> rfl
      | _ => rfl
  · rfl

theorem listedStep_within :
    listedStep w' (q.within outer) t us = (listedStep w q t ts).within outer := by
  unfold listedStep
  split
  · rfl
  · exact clauseStep_within (q := { q with inFirstList := false }) hw hs _

theorem followStep_within (follow : Follow) :
    followStep w' (q.within outer) follow t us = (followStep w q follow t ts).within outer := by
  cases follow with
  | list => exact listedStep_within hw hs
  | clause => exact clauseStep_within hw hs false

omit hs in
/-- A parenthesis that is passed over. -/
theorem enter_expression_within (hopen : t.isMark '(') (scope : Scope) (mode : Mode)
    (diagnostics : List Diagnostic) :
    Outcome.mk (.query ((q.within outer).goto mode)) (.enter (w'.expression (scope ++ outer))) []
        diagnostics none =
      (Outcome.mk (.query (q.goto mode)) (.enter (w.expression scope)) [] diagnostics
        none).within outer := by
  rw [Surroundings.expression_within (hw.full hopen)]
  rfl

theorem columnsStep_within (follow : Follow) :
    columnsStep w' (q.within outer) follow t us =
      (columnsStep w q follow t ts).within outer := by
  unfold columnsStep
  split
  · next hopen =>
      rw [scope_within]
      exact enter_expression_within hw hopen _ _ _
  · exact followStep_within hw hs follow

theorem aliasStep_within (hq : q.base ≠ []) (follow : Follow) :
    aliasStep w' (q.within outer) follow t us = (aliasStep w q follow t ts).within outer := by
  unfold aliasStep
  rw [hs.name, defineAlias_within hq]
  split
  · rfl
  · split
    · rfl
    · exact followStep_within hw hs follow

theorem sampleStep_within (hq : q.base ≠ []) (follow : Follow) :
    sampleStep w' (q.within outer) follow t us = (sampleStep w q follow t ts).within outer := by
  unfold sampleStep
  split
  · next hopen =>
      rw [scope_within]
      exact enter_expression_within hw hopen _ _ _
  · exact aliasStep_within hw hs hq follow

theorem operandEndStep_within (hq : q.base ≠ []) (follow : Follow) :
    operandEndStep w' (q.within outer) follow t us =
      (operandEndStep w q follow t ts).within outer := by
  unfold operandEndStep
  split
  · rfl
  · exact aliasStep_within hw hs hq follow

theorem operandStep_within (follow : Follow) :
    operandStep w' (q.within outer) follow t us =
      (operandStep w q follow t ts).within outer := by
  unfold operandStep
  split
  · rfl
  · split
    · next hopen =>
        rw [operandGroup_within (hw.full hopen) hs]
        rfl
    · split
      · rfl
      · exact followStep_within hw hs follow

theorem targetNameStep_within :
    targetNameStep w' (q.within outer) t us = (targetNameStep w q t ts).within outer := by
  unfold targetNameStep
  split
  · rfl
  · exact clauseStep_within hw hs false

theorem targetStep_within :
    targetStep w' (q.within outer) t us = (targetStep w q t ts).within outer := by
  unfold targetStep
  split
  · rfl
  · exact targetNameStep_within hw hs

theorem createStep_within :
    createStep w' (q.within outer) t us = (createStep w q t ts).within outer := by
  unfold createStep
  split
  · rfl
  · split
    · rfl
    · exact clauseStep_within hw hs false

theorem createNameStep_within (optional : List Keyword) :
    createNameStep w' (q.within outer) optional t us =
      (createNameStep w q optional t ts).within outer := by
  unfold createNameStep
  split
  · rfl
  · split
    · rfl
    · exact clauseStep_within hw hs false

theorem cteFailure_within (clause : Span) :
    cteFailure w' (q.within outer) clause t us = (cteFailure w q clause t ts).within outer := by
  rw [cteFailure, clauseStep_within hw hs]
  rfl

theorem cteNameStep_within (hq : q.base ≠ []) (clause : Span) (first : Bool) :
    cteNameStep w' (q.within outer) clause first t us =
      (cteNameStep w q clause first t ts).within outer := by
  unfold cteNameStep
  rw [defineCte_within hq]
  split
  · rfl
  · split
    · rfl
    · exact cteFailure_within hw hs clause

theorem cteAsStep_within (clause : Span) :
    cteAsStep w' (q.within outer) clause t us = (cteAsStep w q clause t ts).within outer := by
  unfold cteAsStep
  split
  · rfl
  · exact cteFailure_within hw hs clause

theorem cteColumnsStep_within (clause : Span) :
    cteColumnsStep w' (q.within outer) clause t us =
      (cteColumnsStep w q clause t ts).within outer := by
  unfold cteColumnsStep
  split
  · next hopen => exact enter_expression_within hw hopen _ _ _
  · exact cteAsStep_within hw hs clause

theorem cteBodyStep_within (clause : Span) (optional : List Keyword) :
    cteBodyStep w' (q.within outer) clause optional t us =
      (cteBodyStep w q clause optional t ts).within outer := by
  unfold cteBodyStep
  split
  · rfl
  · split
    · next hopen =>
        change Outcome.mk _ (.enter (w'.subquery (q.base ++ outer))) _ _ _ = _
        rw [Surroundings.subquery_within (hw.full hopen)]
        rfl
    · exact cteFailure_within hw hs clause

theorem cteNextStep_within (clause : Span) :
    cteNextStep w' (q.within outer) clause t us =
      (cteNextStep w q clause t ts).within outer := by
  unfold cteNextStep
  split
  · rfl
  · exact clauseStep_within hw hs true

variable (houter : ∀ name, outer.lookup? name = none)

include houter

theorem nameStep_within (hq : q.base ≠ []) (purpose : Purpose) (n : DottedName)
    (hbody : purpose = .created → hasQueryBody 0 (t :: us) = hasQueryBody 0 (t :: ts)) :
    nameStep w' (q.within outer) purpose n t us =
      (nameStep w q purpose n t ts).within outer := by
  unfold nameStep
  split
  · rfl
  · cases purpose with
    | operand follow =>
        simp only [nameEndStep, scope_within, reference_within houter]
        split
        · next hopen => exact enter_expression_within hw hopen _ _ _
        · rw [operandEndStep_within hw hs hq]
          rfl
    | target =>
        simp only [nameEndStep, reference_within houter]
        rw [operandEndStep_within hw hs hq]
        rfl
    | created =>
        simp only [nameEndStep, reference_within houter, hbody rfl]
        rw [clauseStep_within hw hs]
        split
        · rfl
        · rfl

/-- A token is read in a query as it is without the scopes around, if they name
nothing. -/
theorem step_within (hq : q.base ≠ [])
    (hbody : q.mode.isCreating → hasQueryBody 0 (t :: us) = hasQueryBody 0 (t :: ts)) :
    (q.within outer).step w' t us = (q.step w t ts).within outer := by
  have hmode : (q.within outer).mode = q.mode := rfl
  unfold step
  rw [hmode]
  split
  · exact clauseStep_within hw hs _
  · exact operandStep_within hw hs _
  · exact listedStep_within hw hs
  · exact targetStep_within hw hs
  · exact targetNameStep_within hw hs
  · next purpose n hname =>
      refine nameStep_within hw hs houter hq purpose n fun hpurpose => hbody ?_
      rw [hname, hpurpose, Mode.isCreating]
  · exact operandEndStep_within hw hs hq _
  · exact sampleStep_within hw hs hq _
  · exact aliasStep_within hw hs hq _
  · exact columnsStep_within hw hs _
  · exact createStep_within hw hs
  · exact createNameStep_within hw hs _
  · exact cteNameStep_within hw hs hq _ _
  · exact cteColumnsStep_within hw hs _
  · exact cteAsStep_within hw hs _
  · exact cteBodyStep_within hw hs _ _
  · exact cteNextStep_within hw hs _

end Steps

end Query

/-! ## Flat groups -/

namespace Flat

theorem plainStep_within (f : Flat) (expecting : Bool) :
    plainStep { f with scope := f.scope ++ outer } expecting t =
      (f.plainStep expecting t).within outer := by
  unfold plainStep
  dsimp only
  split
  · rfl
  · split
    · split
      · rfl
      · rfl
    · rfl

theorem reference?_within (houter : ∀ name, outer.lookup? name = none) (f : Flat) (n : DottedName)
    (isCall : Bool) :
    reference? { f with scope := f.scope ++ outer } n isCall = f.reference? n isCall := by
  simp only [reference?, Scope.lookup?_append_of_unnamed houter]

theorem step_within (houter : ∀ name, outer.lookup? name = none) (f : Flat) :
    step { f with scope := f.scope ++ outer } t = (f.step t).within outer := by
  unfold step
  dsimp only
  split
  · next n _ =>
      split
      · rfl
      · rw [plainStep_within, reference?_within houter]
        cases f.reference? n (t.isMark '(') <;> rfl
  · split
    · rfl
    · exact plainStep_within f _

end Flat

end Scan

end SqlTables
