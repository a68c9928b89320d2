import SqlTables.Proofs.Scan.Covers

/-!
# Scopes that know less

A query in which fewer names are bound reads every token alike, and finds every table
that is found where more of them are (`Query.step_weaker`): a bound name is never a
table.
-/

namespace SqlTables

namespace Scope

/-- Every name in the scope is in the other one. -/
def Weaker (scope scope' : Scope) : Prop :=
  ∀ name, (scope.lookup? name).isSome → (scope'.lookup? name).isSome

variable {scope scope' : Scope}

theorem Weaker.refl (scope : Scope) : scope.Weaker scope := fun _ h => h

theorem isSome_lookup?_define {other name : String} {role : Role} :
    ((scope.define other role).lookup? name).isSome ↔
      Unicode.lower name = Unicode.lower other ∨ (scope.lookup? name).isSome := by
  rw [lookup?_define]
  split
  · next h => simp [h]
  · next h => simp [h]

theorem isSome_lookup?_cons {names : Names} {outer : Scope} {name : String} :
    (lookup? (names :: outer) name).isSome ↔
      (names.lookup? name).isSome ∨ (outer.lookup? name).isSome := by
  rw [lookup?_cons, Option.isSome_or, Bool.or_eq_true]

theorem Weaker.define (h : scope.Weaker scope') (name : String) (role : Role) :
    (scope.define name role).Weaker (scope'.define name role) := by
  intro other
  rw [isSome_lookup?_define, isSome_lookup?_define]
  exact Or.imp_right (h other)

theorem Weaker.define_right (h : scope.Weaker scope') (name : String) (role : Role) :
    scope.Weaker (scope'.define name role) := fun other hother =>
  isSome_lookup?_define.mpr (Or.inr (h other hother))

theorem Weaker.child (h : scope.Weaker scope') : scope.child.Weaker scope'.child := by
  intro other
  rw [lookup?_child, lookup?_child]
  exact h other

theorem Weaker.define_outer {names names' : Names} {outer outer' : Scope}
    (h : Weaker (names :: outer) (names' :: outer')) (name : String) (role : Role) :
    Weaker (names :: outer.define name role) (names' :: outer'.define name role) := by
  intro other
  have h := h other
  rw [isSome_lookup?_cons, isSome_lookup?_cons] at h
  rw [isSome_lookup?_cons, isSome_lookup?_cons, isSome_lookup?_define, isSome_lookup?_define]
  rintro (hother | hother | hother)
  · exact (h (Or.inl hother)).imp_right Or.inr
  · exact Or.inr (Or.inl hother)
  · exact (h (Or.inr hother)).imp_right Or.inr

/-- Some list is in force, and every name of the other scope is in it or those around. -/
def Includes (scope other : Scope) : Prop := scope ≠ [] ∧ other.Weaker scope

/-- What a scope knows is known in the scopes that come from it. -/
theorem isInherited_includes (scope : Scope) : IsInherited fun other => other.Includes scope where
  not_nil h := h.1 rfl
  define h name _ hrole := ⟨isInherited_ne_nil.define h.1 name hrole, h.2.define_right name _⟩
  child {other} h :=
    ⟨isInherited_ne_nil.child h.1, fun name hname => by
      rw [lookup?_child]
      exact h.2 name hname⟩
  define_outer {names outer} h name role hrole := by
    refine ⟨List.cons_ne_nil _ _, fun other hother => ?_⟩
    have hother := h.2 other hother
    rw [isSome_lookup?_cons] at hother
    rw [isSome_lookup?_cons, isSome_lookup?_define]
    exact hother.imp_right Or.inr

end Scope

namespace Reference

/-- Every table among the references `rs'` has one of its name in `rs`. -/
def Keeps (rs rs' : List Reference) : Prop :=
  ∀ r' ∈ rs', r'.isSource → ∃ r ∈ rs, r.isSource ∧ r.parts = r'.parts

variable {rs rs' : List Reference} {r r' : Reference}

theorem keeps_nil (rs : List Reference) : Keeps rs [] := fun _ h => by cases h

theorem Keeps.cons (h : Keeps rs rs') (hr : r'.isSource → r.isSource ∧ r.parts = r'.parts) :
    Keeps (r :: rs) (r' :: rs') := by
  intro r'' hr'' hsource
  rcases List.mem_cons.mp hr'' with rfl | hr''
  · exact ⟨r, List.mem_cons_self, hr hsource⟩
  · obtain ⟨r₁, hr₁, heq⟩ := h r'' hr'' hsource
    exact ⟨r₁, List.mem_cons_of_mem r hr₁, heq⟩

end Reference

namespace Scan

open Token

/-- The queries are read alike, and the second one knows every name that the first one
does. -/
structure Query.Weaker (q q' : Query) : Prop where
  mode : q'.mode = q.mode
  isJoinTree : q'.isJoinTree = q.isJoinTree
  inFirstList : q'.inFirstList = q.inFirstList
  branch : q'.branch.isSome = q.branch.isSome
  base : q.base.Weaker q'.base
  scope : q.scope.Weaker q'.scope

/-- Groups of one kind that are read alike, of which the second one knows more names. -/
inductive Body.Weaker : Body → Body → Prop
  | query {q q' : Query} (h : q.Weaker q') : Body.Weaker (.query q) (.query q')
  | expression {scope scope' : Scope} (h : scope.Weaker scope') :
      Body.Weaker (.expression scope) (.expression scope')

/-- Whether a table comes next. -/
def Mode.expectsTable : Mode → Bool
  | .operand _ => true
  | _ => false

/-- Whether the group begins with a table. -/
def Body.expectsTable : Body → Bool
  | .query q => q.mode.expectsTable
  | _ => false

/-- The flat group is opened in the place of the given one inside the group `outer`. -/
structure Flat.StandsFor (outer : Body) (f : Flat) (body : Body) : Prop where
  depth : f.depth = 0
  read : f.read = none
  has : body.Has fun scope => scope.Includes f.scope
  expecting : body.expectsTable → f.expecting
  joinTree : body.kind = .joinTree → f.scope = outer.scope

/-- The stack is changed alike, but for groups that are flat in the first one only. -/
inductive Action.Weaker (outer : Body) : Action → Action → Prop
  | stay : Action.Weaker outer .stay .stay
  | leave : Action.Weaker outer .leave .leave
  | enter {body body' : Body} (h : body.Weaker body') :
      Action.Weaker outer (.enter body) (.enter body')
  | flat {f : Flat} {body' : Body} (h : f.StandsFor outer body') :
      Action.Weaker outer (.enter (.flat f)) (.enter body')

/-- A token is read alike, and brings every table in the first place that it brings in the
second one. -/
structure Outcome.Weaker (o o' : Outcome) : Prop where
  body : o.body.Weaker o'.body
  action : o.action.Weaker o.body o'.action
  references : Reference.Keeps o.references o'.references
  merging : o'.merging = o.merging

/-- The same surroundings, where the limit is not reached in the second ones. -/
structure Surroundings.Frees (w w' : Surroundings) : Prop where
  full : w'.full = false
  nested : w'.nested = w.nested
  merging : w'.merging = w.merging
  comparison : w'.comparison = w.comparison

variable {q q' : Query} {w w' : Surroundings} {t : Token} {rest : List Token}
  {scope scope' : Scope} {o o' : Outcome}

/-! ## Changes of a query -/

namespace Query

theorem withScope_scope (q : Query) : q.withScope q.scope = q := by
  obtain ⟨base, branch, isJoinTree, inFirstList, mode⟩ := q
  cases branch with
  | none => rfl
  | some names => rfl

/-- A scope with the same lists around leaves that of the common table expressions as it
was, unless both are one. -/
theorem base_withScope (h : scope ≠ []) (htail : scope.tail = q.scope.tail) :
    (q.withScope scope).base = if q.branch.isSome then q.base else scope := by
  obtain ⟨base, branch, isJoinTree, inFirstList, mode⟩ := q
  cases branch with
  | none => rfl
  | some names =>
      cases scope with
      | nil => exact absurd rfl h
      | cons names' outer => exact htail

theorem isSome_branch_withScope (q : Query) (scope : Scope) :
    (q.withScope scope).branch.isSome = q.branch.isSome := by
  obtain ⟨base, branch, isJoinTree, inFirstList, mode⟩ := q
  cases branch with
  | none => rfl
  | some names =>
      cases scope with
      | nil => rfl
      | cons names' outer => rfl

namespace Weaker

theorem goto (h : q.Weaker q') (mode : Mode) : (q.goto mode).Weaker (q'.goto mode) :=
  ⟨rfl, h.isJoinTree, h.inFirstList, h.branch, h.base, h.scope⟩

theorem newBranch (h : q.Weaker q') : q.newBranch.Weaker q'.newBranch :=
  ⟨h.mode, h.isJoinTree, h.inFirstList, rfl, h.base, h.base.child⟩

theorem defineCte (h : q.Weaker q') (name : String) :
    (q.defineCte name).Weaker (q'.defineCte name) := by
  obtain ⟨hmode, htree, hfirst, hbranch, hbase, hscope⟩ := h
  refine ⟨hmode, htree, hfirst, hbranch, hbase.define name _, ?_⟩
  obtain ⟨base, branch, isJoinTree, inFirstList, mode⟩ := q
  obtain ⟨base', branch', isJoinTree', inFirstList', mode'⟩ := q'
  cases branch with
  | none =>
      cases branch' with
      | none => exact hscope.define name _
      | some names' => cases hbranch
  | some names =>
      cases branch' with
      | none => cases hbranch
      | some names' => exact hscope.define_outer name _

theorem defineAlias (h : q.Weaker q') (name : String) :
    (q.defineAlias name).Weaker (q'.defineAlias name) := by
  obtain ⟨hmode, htree, hfirst, hbranch, hbase, hscope⟩ := h
  obtain ⟨base, branch, isJoinTree, inFirstList, mode⟩ := q
  obtain ⟨base', branch', isJoinTree', inFirstList', mode'⟩ := q'
  cases branch with
  | none =>
      cases branch' with
      | none =>
          exact ⟨hmode, htree, hfirst, hbranch, hbase.define name _, hscope.define name _⟩
      | some names' => cases hbranch
  | some names =>
      cases branch' with
      | none => cases hbranch
      | some names' => exact ⟨hmode, htree, hfirst, rfl, hbase, hscope.define name _⟩

theorem withScope (h : q.Weaker q') (hscope : scope.Weaker scope') (hne : scope ≠ [])
    (hne' : scope' ≠ []) (htail : scope.tail = q.scope.tail)
    (htail' : scope'.tail = q'.scope.tail) :
    (q.withScope scope).Weaker (q'.withScope scope') := by
  have hbase : (q.withScope scope).base.Weaker (q'.withScope scope').base := by
    rw [base_withScope hne htail, base_withScope hne' htail', h.branch]
    split
    · exact h.base
    · exact hscope
  have hbranch : (q'.withScope scope').branch.isSome = (q.withScope scope).branch.isSome := by
    rw [isSome_branch_withScope, isSome_branch_withScope, h.branch]
  have hscopes : (q.withScope scope).scope.Weaker (q'.withScope scope').scope := by
    rwa [q.scope_withScope hne, q'.scope_withScope hne']
  obtain ⟨base, branch, heq⟩ := q.withScope_eq scope
  obtain ⟨base', branch', heq'⟩ := q'.withScope_eq scope'
  rw [heq, heq'] at hbase hbranch hscopes ⊢
  exact ⟨h.mode, h.isJoinTree, h.inFirstList, hbranch, hbase, hscopes⟩

theorem inside (h : scope.Weaker scope') : (Query.inside scope).Weaker (Query.inside scope') :=
  ⟨rfl, rfl, rfl, rfl, h.child, h.child.child⟩

theorem joinTree (h : scope.Weaker scope') :
    (Query.joinTree scope).Weaker (Query.joinTree scope') :=
  ⟨rfl, rfl, rfl, rfl, h, h⟩

/-- What is a table where more names are known is one where fewer are. -/
theorem reference (h : q.Weaker q') (htidy : q'.scope.IsTidy) (n : DottedName)
    (hsource : (q'.reference n).isSource) : (q.reference n).isSource := by
  unfold Query.reference Reference.isSource at hsource ⊢
  dsimp only at hsource ⊢
  split
  · rfl
  · next hdangling =>
      rw [if_neg hdangling] at hsource
      cases hsingle : n.single? with
      | none => rfl
      | some name =>
          rw [hsingle, Option.bind_some] at hsource
          rw [Option.bind_some]
          cases hlookup : q.scope.lookup? name with
          | none => rfl
          | some role =>
              obtain ⟨role', hrole'⟩ := Option.isSome_iff_exists.mp
                (h.scope name (Option.isSome_of_eq_some hlookup))
              rw [hrole', Option.getD_some, htidy.2 name role' hrole'] at hsource
              cases hsource

end Weaker

end Query

/-! ## Groups that are opened -/

section Groups

variable (hw : w.Frees w') (h : scope.Weaker scope') (hne : scope' ≠ [])

include hw h hne

theorem Surroundings.weaker_expression (outer : Body) :
    Action.Weaker outer (.enter (w.expression scope)) (.enter (w'.expression scope')) := by
  unfold expression
  rw [hw.full, if_neg Bool.false_ne_true]
  split
  · exact .flat ⟨rfl, rfl, ⟨hne, h⟩, fun h => (Bool.false_ne_true h).elim, fun h => by cases h⟩
  · exact .enter (.expression h)

theorem Surroundings.weaker_subquery (outer : Body) :
    Action.Weaker outer (.enter (w.subquery scope)) (.enter (w'.subquery scope')) := by
  unfold subquery
  rw [hw.full, if_neg Bool.false_ne_true]
  split
  · exact .flat ⟨rfl, rfl, Query.has_inside (Scope.isInherited_includes scope) ⟨hne, h⟩,
      fun h => (Bool.false_ne_true h).elim, fun h => by cases h⟩
  · exact .enter (.query (.inside h))

end Groups

theorem Query.weaker_operandGroup (hw : w.Frees w') (h : q.Weaker q') (hne : q'.scope ≠ [])
    (outer : Body) (houter : outer.scope = q.scope) :
    Action.Weaker outer (.enter (operandGroup w q rest)) (.enter (operandGroup w' q' rest)) := by
  have hscope := h.scope
  unfold operandGroup
  rw [hw.full, if_neg Bool.false_ne_true]
  split
  · refine .flat ⟨rfl, rfl, ?_, fun _ => rfl, fun _ => houter.symm⟩
    split
    · exact Query.has_inside (Scope.isInherited_includes q.scope) ⟨hne, hscope⟩
    · split
      · exact ⟨⟨hne, hscope⟩, hne, hscope⟩
      · exact ⟨hne, hscope⟩
  · split
    · exact .enter (.query (.inside hscope))
    · split
      · exact .enter (.query (.joinTree hscope))
      · exact .enter (.expression hscope)

/-! ## Steps -/

theorem Outcome.Weaker.stay (h : q.Weaker q') (diagnostics : List Diagnostic)
    (merging : Option Bool) :
    Outcome.Weaker ⟨.query q, .stay, [], diagnostics, merging⟩
      ⟨.query q', .stay, [], diagnostics, merging⟩ :=
  ⟨.query h, .stay, Reference.keeps_nil _, rfl⟩

theorem Outcome.Weaker.enter {b b' : Body} (h : q.Weaker q')
    (hb : Action.Weaker (.query q) (.enter b) (.enter b')) (diagnostics : List Diagnostic) :
    Outcome.Weaker ⟨.query q, .enter b, [], diagnostics, none⟩
      ⟨.query q', .enter b', [], diagnostics, none⟩ :=
  ⟨.query h, hb, Reference.keeps_nil _, rfl⟩

/-- A name that is defined is no table. -/
theorem Outcome.Weaker.define (h : q.Weaker q') {r : Reference} (hr : r.isSource = false) :
    Outcome.Weaker { body := .query q, references := [r] }
      { body := .query q', references := [r] } := by
  refine ⟨.query h, .stay, fun r' hr' hsource => ?_, rfl⟩
  rw [List.mem_singleton.mp hr', hr] at hsource
  cases hsource

theorem Outcome.Weaker.found (h : o.Weaker o') {r r' : Reference}
    (hr : r'.isSource → r.isSource ∧ r.parts = r'.parts) :
    (o.found r).Weaker (o'.found r') :=
  ⟨h.body, h.action, h.references.cons hr, h.merging⟩

theorem Outcome.Weaker.reported (h : o.Weaker o') (d : Diagnostic) :
    (o.reported d).Weaker (o'.reported d) :=
  ⟨h.body, h.action, h.references, h.merging⟩

namespace Query

section Steps

variable (hw : w.Frees w') (h : q.Weaker q') (htidy : q'.Has Scope.IsTidy)

include hw h htidy

theorem clauseStep_weaker (fresh : Bool) :
    (clauseStep w q fresh t rest).Weaker (clauseStep w' q' fresh t rest) := by
  have hgoto (mode : Mode) (merging : Option Bool) :
      Outcome.Weaker ⟨.query (q.goto mode), .stay, [], [], merging⟩
        ⟨.query (q'.goto mode), .stay, [], [], merging⟩ := .stay (h.goto mode) [] merging
  have hidle := hgoto (.clauses false) none
  unfold clauseStep
  rw [hw.comparison, hw.merging, hw.nested]
  split
  · dsimp only
    cases w.nested with
    | false => exact hidle
    | true => exact ⟨.query (h.goto _), .leave, Reference.keeps_nil _, rfl⟩
  · refine .enter (h.goto _) ?_ []
    split
    · exact Surroundings.weaker_subquery hw h.scope htidy.scope.1 _
    · exact Surroundings.weaker_expression hw h.scope htidy.scope.1 _
  · have hbranch := Outcome.Weaker.stay (h.goto (.clauses false)).newBranch [] none
    dsimp only
    split
    · exact hbranch
    · exact hbranch
    · exact hbranch
    · exact hbranch
    · split
      · exact hgoto _ _
      · exact hidle
    · split
      · exact hidle
      · exact hgoto _ _
    · exact hgoto _ _
    · exact hgoto _ _
    · split
      · exact hgoto _ _
      · exact hidle
    · split
      · exact hgoto _ _
      · exact hidle
    · exact hgoto _ _
    · split
      · exact hgoto _ _
      · exact hidle
    · exact hgoto _ _
    · exact hidle
  · exact hidle

theorem listedStep_weaker : (listedStep w q t rest).Weaker (listedStep w' q' t rest) := by
  have hover : Query.Weaker { q with inFirstList := false } { q' with inFirstList := false } :=
    ⟨h.mode, h.isJoinTree, rfl, h.branch, h.base, h.scope⟩
  unfold listedStep
  rw [h.inFirstList]
  split
  · exact .stay (h.goto _) [] none
  · exact clauseStep_weaker hw hover ⟨htidy.base, htidy.scope⟩ _

theorem followStep_weaker (follow : Follow) :
    (followStep w q follow t rest).Weaker (followStep w' q' follow t rest) := by
  cases follow with
  | list => exact listedStep_weaker hw h htidy
  | clause => exact clauseStep_weaker hw h htidy false

theorem enter_weaker (mode : Mode) (diagnostics : List Diagnostic) :
    Outcome.Weaker
      ⟨.query (q.goto mode), .enter (w.expression q.scope), [], diagnostics, none⟩
      ⟨.query (q'.goto mode), .enter (w'.expression q'.scope), [], diagnostics, none⟩ :=
  .enter (h.goto mode) (Surroundings.weaker_expression hw h.scope htidy.scope.1 _) diagnostics

theorem columnsStep_weaker (follow : Follow) :
    (columnsStep w q follow t rest).Weaker (columnsStep w' q' follow t rest) := by
  unfold columnsStep
  split
  · exact enter_weaker hw h htidy _ _
  · exact followStep_weaker hw h htidy follow

theorem aliasStep_weaker (follow : Follow) :
    (aliasStep w q follow t rest).Weaker (aliasStep w' q' follow t rest) := by
  unfold aliasStep
  split
  · exact .define ((h.defineAlias _).goto _) rfl
  · split
    · exact .stay (h.goto _) [] none
    · exact followStep_weaker hw h htidy follow

theorem sampleStep_weaker (follow : Follow) :
    (sampleStep w q follow t rest).Weaker (sampleStep w' q' follow t rest) := by
  unfold sampleStep
  split
  · exact enter_weaker hw h htidy _ _
  · exact aliasStep_weaker hw h htidy follow

theorem operandEndStep_weaker (follow : Follow) :
    (operandEndStep w q follow t rest).Weaker (operandEndStep w' q' follow t rest) := by
  unfold operandEndStep
  split
  · exact .stay (h.goto _) [] none
  · exact aliasStep_weaker hw h htidy follow

theorem operandStep_weaker (follow : Follow) :
    (operandStep w q follow t rest).Weaker (operandStep w' q' follow t rest) := by
  unfold operandStep
  split
  · exact .stay (h.goto _) [] none
  · split
    · exact .enter (h.goto (.operandEnd follow))
        (weaker_operandGroup hw h htidy.scope.1 (.query (q.goto (.operandEnd follow))) rfl) []
    · split
      · exact .stay (h.goto _) [] none
      · exact followStep_weaker hw h htidy follow

theorem nameStep_weaker (purpose : Purpose) (n : DottedName) :
    (nameStep w q purpose n t rest).Weaker (nameStep w' q' purpose n t rest) := by
  have hfound {o o' : Outcome} (ho : o.Weaker o') :
      (o.found (q.reference n)).Weaker (o'.found (q'.reference n)) :=
    ho.found fun hsource => ⟨h.reference htidy.scope n hsource, rfl⟩
  unfold nameStep
  split
  · exact .stay (h.goto _) [] none
  · unfold nameEndStep
    cases purpose with
    | operand follow =>
        dsimp only
        split
        · exact enter_weaker hw h htidy _ _
        · exact hfound (operandEndStep_weaker hw h htidy follow)
    | target => exact hfound (operandEndStep_weaker hw h htidy .clause)
    | created =>
        dsimp only
        split
        · exact hfound (clauseStep_weaker hw h htidy false)
        · exact clauseStep_weaker hw h htidy false

theorem targetNameStep_weaker :
    (targetNameStep w q t rest).Weaker (targetNameStep w' q' t rest) := by
  unfold targetNameStep
  split
  · exact .stay (h.goto _) [] none
  · exact clauseStep_weaker hw h htidy false

theorem targetStep_weaker : (targetStep w q t rest).Weaker (targetStep w' q' t rest) := by
  unfold targetStep
  split
  · exact .stay (h.goto _) [] none
  · exact targetNameStep_weaker hw h htidy

theorem createStep_weaker : (createStep w q t rest).Weaker (createStep w' q' t rest) := by
  unfold createStep
  split
  · exact .stay (h.goto _) [] none
  · split
    · exact .stay (h.goto _) [] none
    · exact clauseStep_weaker hw h htidy false

theorem createNameStep_weaker (optional : List Keyword) :
    (createNameStep w q optional t rest).Weaker (createNameStep w' q' optional t rest) := by
  unfold createNameStep
  split
  · exact .stay (h.goto _) [] none
  · split
    · exact .stay (h.goto _) [] none
    · exact clauseStep_weaker hw h htidy false

theorem cteFailure_weaker (clause : Span) :
    (cteFailure w q clause t rest).Weaker (cteFailure w' q' clause t rest) :=
  (clauseStep_weaker hw h htidy true).reported _

theorem cteNameStep_weaker (clause : Span) (first : Bool) :
    (cteNameStep w q clause first t rest).Weaker (cteNameStep w' q' clause first t rest) := by
  unfold cteNameStep
  split
  · exact .stay (h.goto _) [] none
  · split
    · exact .define ((h.defineCte _).goto _) rfl
    · exact cteFailure_weaker hw h htidy clause

theorem cteAsStep_weaker (clause : Span) :
    (cteAsStep w q clause t rest).Weaker (cteAsStep w' q' clause t rest) := by
  unfold cteAsStep
  split
  · exact .stay (h.goto _) [] none
  · exact cteFailure_weaker hw h htidy clause

theorem cteColumnsStep_weaker (clause : Span) :
    (cteColumnsStep w q clause t rest).Weaker (cteColumnsStep w' q' clause t rest) := by
  unfold cteColumnsStep
  split
  · exact .enter (h.goto _) (Surroundings.weaker_expression hw h.base htidy.base.1 _) []
  · exact cteAsStep_weaker hw h htidy clause

theorem cteBodyStep_weaker (clause : Span) (optional : List Keyword) :
    (cteBodyStep w q clause optional t rest).Weaker
      (cteBodyStep w' q' clause optional t rest) := by
  unfold cteBodyStep
  split
  · exact .stay (h.goto _) [] none
  · split
    · exact .enter (h.goto _) (Surroundings.weaker_subquery hw h.base htidy.base.1 _) []
    · exact cteFailure_weaker hw h htidy clause

theorem cteNextStep_weaker (clause : Span) :
    (cteNextStep w q clause t rest).Weaker (cteNextStep w' q' clause t rest) := by
  unfold cteNextStep
  split
  · exact .stay (h.goto _) [] none
  · exact clauseStep_weaker hw h htidy true

/-- A token is read alike where fewer names are known, and brings every table there. -/
theorem step_weaker : (q.step w t rest).Weaker (q'.step w' t rest) := by
  unfold step
  rw [h.mode]
  split
  · exact clauseStep_weaker hw h htidy _
  · exact operandStep_weaker hw h htidy _
  · exact listedStep_weaker hw h htidy
  · exact targetStep_weaker hw h htidy
  · exact targetNameStep_weaker hw h htidy
  · exact nameStep_weaker hw h htidy _ _
  · exact operandEndStep_weaker hw h htidy _
  · exact sampleStep_weaker hw h htidy _
  · exact aliasStep_weaker hw h htidy _
  · exact columnsStep_weaker hw h htidy _
  · exact createStep_weaker hw h htidy
  · exact createNameStep_weaker hw h htidy _
  · exact cteNameStep_weaker hw h htidy _ _
  · exact cteColumnsStep_weaker hw h htidy _
  · exact cteAsStep_weaker hw h htidy _
  · exact cteBodyStep_weaker hw h htidy _ _
  · exact cteNextStep_weaker hw h htidy _

end Steps

end Query

/-! ## Groups -/

variable {body body' : Body}

/-- What the end of the tokens brings is brought where fewer names are known as well. -/
theorem Body.Weaker.remainder (h : body.Weaker body') (htidy : body'.Has Scope.IsTidy) :
    Reference.Keeps body.remainder body'.remainder := by
  cases h with
  | @query q q' h =>
      have hname (n : DottedName) : Reference.Keeps [q.reference n] [q'.reference n] :=
        (Reference.keeps_nil []).cons fun hsource =>
          ⟨h.reference htidy.scope n hsource, rfl⟩
      simp only [Body.remainder, Query.settle]
      rw [h.mode]
      split
      · exact hname _
      · exact hname _
      · exact Reference.keeps_nil _
      · exact Reference.keeps_nil _
      · exact Reference.keeps_nil _
      · exact Reference.keeps_nil _
      · exact Reference.keeps_nil _
  | expression h => exact Reference.keeps_nil _

variable {s s' : Scan} {limit limit' : Nat}

theorem outcome_weaker (hw : (s.surroundings limit).Frees (s'.surroundings limit'))
    (h : s.top.body.Weaker s'.top.body) (htidy : s'.top.body.Has Scope.IsTidy) :
    (s.outcome limit t rest).Weaker (s'.outcome limit' t rest) := by
  unfold outcome
  generalize s.top.body = body at h
  generalize s'.top.body = body' at h htidy
  cases h with
  | query h => exact Query.step_weaker hw h htidy
  | @expression scope scope' h =>
      dsimp only
      split
      · refine ⟨.expression h, ?_, Reference.keeps_nil _, rfl⟩
        dsimp only
        split
        · exact Surroundings.weaker_subquery hw h htidy.1 _
        · exact Surroundings.weaker_expression hw h htidy.1 _
      · split
        · exact ⟨.expression h, .leave, Reference.keeps_nil _, rfl⟩
        · exact ⟨.expression h, .stay, Reference.keeps_nil _, rfl⟩

/-! ## Groups that close -/

variable {outer outer' inner inner' : Frame}

/-- Groups that close alike leave those around them alike. -/
theorem absorb_weaker (houter : outer.body.Weaker outer'.body)
    (hinner : inner.body.Weaker inner'.body)
    (htidy : inner.body.Has Scope.IsTidy) (htidy' : inner'.body.Has Scope.IsTidy)
    (hextended : inner.body.IsExtended outer.body)
    (hextended' : inner'.body.IsExtended outer'.body) :
    (outer.absorb inner).body.Weaker (outer'.absorb inner').body := by
  simp only [Frame.absorb]
  generalize outer.body = b at houter hextended
  generalize outer'.body = b' at houter hextended'
  generalize inner.body = c at hinner htidy hextended
  generalize inner'.body = c' at hinner htidy' hextended'
  cases houter with
  | @query q q' h =>
      cases hinner with
      | @query tree tree' htree =>
          dsimp only
          rw [htree.isJoinTree]
          split
          · next hjoin =>
              exact .query (h.withScope htree.base htidy.base.1 htidy'.base.1
                (hextended tree q rfl hjoin rfl)
                (hextended' tree' q' rfl (htree.isJoinTree.trans hjoin) rfl))
          · exact .query h
      | expression => exact .query h
  | expression h => exact .expression h

/-- A flat group in the place of a join tree leaves the group around it with fewer names. -/
theorem weaker_absorb (houter : outer.body.Weaker outer'.body)
    (htidy : outer.body.Has Scope.IsTidy) (htidy' : inner'.body.Has Scope.IsTidy)
    (hinner : inner'.body.kind = .joinTree →
      inner'.body.Has fun scope => outer.body.scope.Weaker scope)
    (hextended' : inner'.body.IsExtended outer'.body) :
    outer.body.Weaker (outer'.absorb inner').body := by
  by_cases hkind : inner'.body.kind = .joinTree
  · replace hinner := hinner hkind
    simp only [Frame.absorb]
    generalize outer.body = b at houter htidy hinner
    generalize outer'.body = b' at houter hextended'
    generalize inner'.body = c' at htidy' hextended' hinner
    cases houter with
    | @query q q' h =>
        cases c' with
        | query tree' =>
            dsimp only
            split
            · next hjoin =>
                have hback : (q.withScope q.scope).Weaker (q'.withScope tree'.base) :=
                  h.withScope hinner.base htidy.scope.1 htidy'.base.1 rfl
                    (hextended' tree' q' rfl hjoin rfl)
                rw [q.withScope_scope] at hback
                exact .query hback
            · exact .query h
        | _ => exact .query h
    | expression h => exact .expression h
  · rw [outer'.absorb_of_kind hkind]
    exact houter

end Scan

end SqlTables
