import SqlTables.Proofs.Scan.Binding
import SqlTables.Proofs.Scan.TopLevel

/-!
# Where common table expressions come from

A name is introduced where the scan awaits the name of a common table expression and a name
stands (`Scan.introduces`). Only that puts such a name into a scope, and scopes are handed
inwards and back from join trees as they are, so every name that some scope knows as one of a
common table expression was introduced before (`Scan.ctesKnown_advance`). A reference that is
recorded for one therefore names what was introduced in the same statement, up to case
(`Statement.exists_introduces`), and all that is introduced is recorded
(`Statement.mem_scan_of_introduces`).
-/

namespace SqlTables

namespace Scope

/-- The names that stand for common table expressions are among those of `D`, in lower case. -/
def CtesIn (D : String → Prop) (scope : Scope) : Prop :=
  ∀ names ∈ scope, ∀ e ∈ names, e.2 = .cteDefinition → D e.1

variable {D : String → Prop} {scope : Scope} {name : String}

theorem CtesIn.child (h : scope.CtesIn D) : scope.child.CtesIn D :=
  List.forall_mem_cons.mpr ⟨List.forall_mem_nil _, h⟩

theorem CtesIn.define (h : scope.CtesIn D) (name : String) (role : Role)
    (hname : role = .cteDefinition → D (Unicode.lower name)) :
    (scope.define name role).CtesIn D := by
  cases scope with
  | nil => exact List.forall_mem_singleton.mpr (List.forall_mem_singleton.mpr hname)
  | cons names outer =>
      rw [CtesIn, List.forall_mem_cons] at h
      exact List.forall_mem_cons.mpr ⟨List.forall_mem_cons.mpr ⟨hname, h.1⟩, h.2⟩

theorem CtesIn.of_lookup? (h : scope.CtesIn D) (hname : scope.lookup? name = some .cteDefinition) :
    D (Unicode.lower name) := by
  obtain ⟨names, hnames, hlookup⟩ := List.exists_of_findSome?_eq_some hname
  obtain ⟨before, after, rfl, -⟩ := List.lookup_eq_some_iff.mp hlookup
  exact h _ hnames _ (List.mem_append_right before List.mem_cons_self) rfl

end Scope

namespace Scan

open Scope

variable {D : String → Prop} {limit : Nat} {s : Scan} {t : Token} {rest after : List Token}
  {q : Query}

/-- The token is the name of a common table expression that the query awaits. -/
def Query.introduces (q : Query) (t : Token) : Bool :=
  match q.mode with
  | .cteName _ _ => t.isName
  | _ => false

/-- The token is the name of a common table expression that the innermost group awaits. -/
def introduces (s : Scan) (t : Token) : Bool :=
  match s.top.body with
  | .query q => q.introduces t
  | _ => false

/-! ## The scopes of a query -/

theorem Query.ctesIn_defineAlias (h : q.Has (CtesIn D)) (name : String) :
    (q.defineAlias name).Has (CtesIn D) := by
  obtain ⟨base, branch, isJoinTree, inFirstList, mode⟩ := q
  cases branch with
  | none =>
      have hbase := h.base.define name .aliasDefinition nofun
      exact ⟨hbase, hbase⟩
  | some names =>
      have hscope : CtesIn D (names :: base) := h.scope
      exact ⟨h.base, hscope.define name .aliasDefinition nofun⟩

theorem Query.ctesIn_of_base {base : Scope} (h : q.Has (CtesIn D)) (hbase : base.CtesIn D) :
    { q with base }.Has (CtesIn D) := by
  obtain ⟨old, branch, isJoinTree, inFirstList, mode⟩ := q
  cases branch with
  | none => exact ⟨hbase, hbase⟩
  | some names =>
      exact ⟨hbase, List.forall_mem_cons.mpr ⟨(List.forall_mem_cons.mp h.scope).1, hbase⟩⟩

theorem Query.ctesIn_withScope {scope : Scope} (h : q.Has (CtesIn D)) (hscope : scope.CtesIn D) :
    (q.withScope scope).Has (CtesIn D) := by
  unfold withScope
  split
  · exact ⟨(List.forall_mem_cons.mp hscope).2, hscope⟩
  · exact q.ctesIn_of_base h hscope

theorem Query.ctesIn_inside {scope : Scope} (h : scope.CtesIn D) :
    (Query.inside scope).Has (CtesIn D) := ⟨h.child, h.child.child⟩

theorem Surroundings.ctesIn_subquery (w : Surroundings) {scope : Scope} (h : scope.CtesIn D) :
    (w.subquery scope).Has (CtesIn D) := by
  unfold subquery
  split
  · exact h
  · exact Query.ctesIn_inside h

theorem Query.Opens.ctesIn {w : Surroundings} {b : Body} (h : q.Opens w rest b)
    (hq : q.Has (CtesIn D)) : b.Has (CtesIn D) := by
  have hopened {scope : Scope} (h : scope = q.scope ∨ scope = q.base ∧ q.mode.opensDefinition) :
      scope.CtesIn D := by
    rcases h with rfl | ⟨rfl, -⟩
    · exact hq.scope
    · exact hq.base
  cases h with
  | expression scope heq => exact w.has_expression (hopened heq)
  | subquery scope heq => exact w.ctesIn_subquery (hopened heq)
  | operand =>
      unfold operandGroup
      split
      · exact hq.scope
      · split
        · exact Query.ctesIn_inside hq.scope
        · split
          · exact ⟨hq.scope, hq.scope⟩
          · exact hq.scope

/-! ## Tokens -/

/-- Inside a `WITH` clause only the name that is awaited is recorded. -/
theorem Query.introduces_of_references (w : Surroundings) (rest : List Token)
    (hdefining : q.mode.isDefining) (hname : t.isName)
    (hne : (q.step w t rest).references ≠ []) : q.introduces t := by
  have hclause (fresh : Bool) := references_clauseStep w q fresh t rest
  have hfailure (clause : Span) : (cteFailure w q clause t rest).references = [] := hclause true
  have has (clause : Span) : (cteAsStep w q clause t rest).references = [] := by
    unfold cteAsStep
    split
    · rfl
    · exact hfailure clause
  unfold step at hne
  unfold introduces
  cases hmode : q.mode with
  | cteName clause first => exact hname
  | cteColumns clause =>
      refine absurd ?_ hne
      simp only [hmode, cteColumnsStep]
      split
      · rfl
      · exact has clause
  | cteAs clause =>
      simp only [hmode] at hne
      exact absurd (has clause) hne
  | cteBody clause optional =>
      refine absurd ?_ hne
      simp only [hmode, cteBodyStep]
      split
      · rfl
      · split
        · rfl
        · exact hfailure clause
  | cteNext clause =>
      refine absurd ?_ hne
      simp only [hmode, cteNextStep]
      split
      · rfl
      · exact hclause true
  | _ =>
      rw [hmode] at hdefining
      cases hdefining

/-- A token leaves the scopes of a query and hands them on, with what it introduces. -/
theorem Query.ctesIn_step {w : Surroundings} {before : List Reference} {o : Outcome}
    (hstep : q.step w t rest = o) (h : q.Turn w t rest before o) (hq : q.Has (CtesIn D))
    (hD : q.introduces t → D (Unicode.lower t.value)) :
    o.body.Has (CtesIn D) ∧ ∀ b, o.action = .enter b → b.Has (CtesIn D) := by
  cases h with
  | goto first mode d g => exact ⟨⟨hq.base, hq.scope⟩, nofun⟩
  | branch first d => exact ⟨⟨hq.base, hq.base.child⟩, nofun⟩
  | defineAlias follow d hname =>
      have halias := ctesIn_defineAlias hq t.value
      exact ⟨⟨halias.base, halias.scope⟩, nofun⟩
  | defineCte clause d hname hdefining =>
      have hintroduces : q.introduces t :=
        introduces_of_references w rest hdefining hname (by rw [hstep]; simp)
      have hcte := ctesIn_of_base hq
        (hq.base.define t.value .cteDefinition fun _ => hD hintroduces)
      exact ⟨⟨hcte.base, hcte.scope⟩, nofun⟩
  | enter first mode body d hopen hfirst hwait hbody =>
      refine ⟨⟨hq.base, hq.scope⟩, fun b hb => ?_⟩
      rw [← Action.enter.inj hb]
      exact hbody.ctesIn hq
  | leave first d =>
      refine ⟨⟨hq.base, hq.scope⟩, fun b hb => ?_⟩
      dsimp only at hb
      split at hb <;> cases hb

theorem ctesIn_outcome (limit : Nat) (rest : List Token) (h : s.top.body.Has (CtesIn D))
    (hD : s.introduces t → D (Unicode.lower t.value)) :
    (s.outcome limit t rest).body.Has (CtesIn D) ∧
      ∀ b, (s.outcome limit t rest).action = .enter b → b.Has (CtesIn D) := by
  have hturn := outcome_turn limit s t rest
  cases hbody : s.top.body with
  | query q =>
      simp only [introduces, hbody] at hD
      rw [hbody] at hturn h
      have hstep : q.step (s.surroundings limit) t rest = s.outcome limit t rest :=
        (outcome_query hbody).symm
      generalize s.outcome limit t rest = o at hturn hstep ⊢
      cases hturn with
      | extend q purpose => exact ⟨⟨h.base, h.scope⟩, nofun⟩
      | query hbefore hturn => exact Query.ctesIn_step hstep hturn h hD
  | expression scope =>
      rw [hbody] at hturn h
      generalize s.outcome limit t rest = o at hturn ⊢
      cases hturn with
      | enter scope hopen =>
          refine ⟨h, fun b hb => ?_⟩
          rw [← Action.enter.inj hb]
          split
          · exact Surroundings.ctesIn_subquery _ h
          · exact Surroundings.has_expression _ h
      | leave scope => exact ⟨h, nofun⟩
      | pass scope => exact ⟨h, nofun⟩
  | flat f =>
      rw [hbody] at hturn h
      generalize s.outcome limit t rest = o at hturn ⊢
      cases hturn with
      | extendFlat f => exact ⟨h, nofun⟩
      | flat hbefore hturn =>
          obtain ⟨g, hg, hscope, henter⟩ := hturn.scope_eq
          refine ⟨?_, fun b hb => absurd hb (henter b)⟩
          rw [hg, Body.Has, hscope]
          exact h

/-- The names that the groups of a stack know as common table expressions are among those. -/
def CtesKnown (D : String → Prop) (s : Scan) : Prop :=
  ∀ f ∈ s.top :: s.below, f.body.Has (CtesIn D)

theorem ctesKnown_start (D : String → Prop) : start.CtesKnown D :=
  List.forall_mem_singleton.mpr
    ⟨by simp [Query.statement, CtesIn], by simp [Query.statement, Query.scope, CtesIn]⟩

theorem ctesKnown_step (limit : Nat) (rest : List Token) (h : s.CtesKnown D)
    (hD : s.introduces t → D (Unicode.lower t.value)) : (s.step limit t rest).CtesKnown D := by
  rw [CtesKnown, List.forall_mem_cons] at h
  obtain ⟨htake, henter⟩ := ctesIn_outcome limit rest h.1 hD
  cases haction : (s.outcome limit t rest).action with
  | stay =>
      rw [step_of_stay haction]
      exact List.forall_mem_cons.mpr ⟨htake, h.2⟩
  | enter body =>
      rw [step_of_enter haction]
      exact List.forall_mem_cons.mpr
        ⟨henter body haction, List.forall_mem_cons.mpr ⟨htake, h.2⟩⟩
  | leave =>
      cases hbelow : s.below with
      | nil =>
          rw [hbelow] at h
          simp only [CtesKnown, step, haction, act, hbelow]
          exact List.forall_mem_cons.mpr ⟨htake, h.2⟩
      | cons outer below =>
          rw [hbelow, List.forall_mem_cons] at h
          rw [step_of_leave haction hbelow]
          refine List.forall_mem_cons.mpr ⟨?_, h.2.2⟩
          rcases outer.absorb_body (s.top.take (s.outcome limit t rest)) with
            heq | ⟨q, tree, hq, htree, -, heq⟩
          · rw [heq]
            exact h.2.1
          · rw [Frame.take_body] at htree
            rw [htree] at htake
            have houter := h.2.1
            rw [hq] at houter
            rw [heq]
            exact Query.ctesIn_withScope houter htake.base

/-- All that is known as a common table expression was introduced. -/
theorem ctesKnown_advance (limit : Nat) (after us : List Token) (h : s.CtesKnown D)
    (hD : ∀ xs t ys, us = xs ++ t :: ys →
      (s.advance limit (t :: (ys ++ after)) xs).introduces t → D (Unicode.lower t.value)) :
    (s.advance limit after us).CtesKnown D := by
  induction us generalizing s with
  | nil => exact h
  | cons t us ih =>
      refine ih (ctesKnown_step limit _ h (hD [] t us rfl)) fun xs u ys hus hintroduces => ?_
      subst hus
      refine hD (t :: xs) u ys rfl ?_
      rwa [advance_cons, ← List.cons_append, ← List.append_assoc]

/-! ## References -/

theorem name_of_parts {r : Reference} {name : String} (h : r.parts = [name]) : r.name = name := by
  rw [Reference.name, h]
  rfl

/-- A complete name is recorded for a common table expression where it is known as one. -/
theorem lower_name_of_refers {body : Body} {n : DottedName} {r : Reference}
    (h : body.Has (CtesIn D)) (hr : body.Refers n r) (hrole : r.role = .cteDefinition) :
    D (Unicode.lower r.name) := by
  cases body with
  | query q =>
      rw [show r = q.reference n from hr] at hrole ⊢
      simp only [Query.reference] at hrole
      split at hrole
      · cases hrole
      · cases hsingle : n.single? with
        | none => simp [hsingle] at hrole
        | some name =>
            have hlookup : q.scope.lookup? name = some .cteDefinition := by
              cases hfound : q.scope.lookup? name with
              | none => simp [hsingle, hfound] at hrole
              | some role =>
                  simp only [hsingle, hfound, Option.bind_some, Option.getD_some] at hrole
                  rw [hrole]
            have hparts : n.parts = [name] := by
              unfold DottedName.single? at hsingle
              split at hsingle
              next part hpart => rw [hpart, Option.some.inj hsingle]
              next => cases hsingle
            rw [name_of_parts (show (q.reference n).parts = [name] from hparts)]
            exact h.scope.of_lookup? hlookup
  | expression scope => exact hr.elim
  | flat f =>
      obtain ⟨isCall, hr⟩ := hr
      rw [Flat.eq_of_reference? hr] at hrole
      cases hrole

/-- What a token of a query records for a common table expression is a complete name or is
defined in a `WITH` clause. -/
theorem Query.mem_references_of_cte {w : Surroundings} {before : List Reference} {o : Outcome}
    (h : q.Turn w t rest before o) {r : Reference} (hr : r ∈ o.references)
    (hrole : r.role = .cteDefinition) :
    r ∈ before ∨ q.mode.isDefining ∧ t.isName ∧ r.parts = [t.value] := by
  cases h with
  | goto first mode d g => exact Or.inl hr
  | branch first d => exact Or.inl hr
  | defineAlias follow d hname =>
      rcases List.mem_append.mp hr with hr | hr
      · exact Or.inl hr
      · rw [List.mem_singleton.mp hr] at hrole
        cases hrole
  | defineCte clause d hname hdefining =>
      rcases List.mem_append.mp hr with hr | hr
      · exact Or.inl hr
      · rw [List.mem_singleton.mp hr]
        exact Or.inr ⟨hdefining, hname, rfl⟩
  | enter first mode body d => exact Or.inl hr
  | leave first d => exact Or.inl hr

/-- What a token records for a common table expression is known as one, or is introduced. -/
theorem lower_name_of_mem_outcome {r : Reference} (h : s.top.body.Has (CtesIn D))
    (hD : s.introduces t → D (Unicode.lower t.value))
    (hr : r ∈ (s.outcome limit t rest).references) (hrole : r.role = .cteDefinition) :
    D (Unicode.lower r.name) := by
  have hturn := outcome_turn limit s t rest
  cases hbody : s.top.body with
  | query q =>
      simp only [introduces, hbody] at hD
      rw [outcome_query hbody] at hturn hr
      rw [hbody] at hturn h
      generalize hstep : q.step (s.surroundings limit) t rest = o at hturn hr
      cases hturn with
      | extend q purpose => cases hr
      | query hbefore hturn =>
          rcases Query.mem_references_of_cte hturn hr hrole with hr | ⟨hdefining, hname, hparts⟩
          · obtain ⟨n, -, -, rfl⟩ := Query.mem_completes hbefore hr
            exact lower_name_of_refers h rfl hrole
          · rw [name_of_parts hparts]
            exact hD (Query.introduces_of_references (s.surroundings limit) rest hdefining hname
              (by rw [hstep]; exact List.ne_nil_of_mem hr))
  | expression scope =>
      rw [hbody] at hturn
      generalize s.outcome limit t rest = o at hturn hr
      cases hturn with
      | _ => cases hr
  | flat f =>
      rw [hbody] at hturn h
      generalize s.outcome limit t rest = o at hturn hr
      cases hturn with
      | extendFlat f => cases hr
      | flat hbefore hturn =>
          rw [Flat.mem_references_of_turn hturn] at hr
          obtain ⟨n, isCall, -, -, hrefers⟩ := Flat.mem_completes hbefore hr
          exact lower_name_of_refers h ⟨isCall, hrefers⟩ hrole

theorem role_of_fated {ts : List Token} {r : Reference} (h : (s.fated ts r).role = .cteDefinition) :
    r.role = .cteDefinition := by
  unfold fated fate Reference.demote at h
  split at h
  · split at h
    · cases h
    · exact h
  · exact h

theorem fated_of_role {r : Reference} (h : r.role = .cteDefinition) (ts : List Token) :
    s.fated ts r = r := by
  have hrole : ¬ r.role = .source := by
    rw [h]
    nofun
  unfold fated fate Reference.demote
  rw [if_neg hrole, ite_self]

/-- What is introduced is recorded, as it is spelled. -/
theorem brings_of_introduces (h : s.introduces t) (limit : Nat) (rest : List Token) :
    ⟨[t.value], t.span, .cteDefinition, 0⟩ ∈ s.brings limit (t :: rest) := by
  cases hbody : s.top.body with
  | query q =>
      simp only [introduces, hbody, Query.introduces] at h
      rw [brings, outcome_query hbody]
      cases hmode : q.mode with
      | cteName clause first =>
          simp only [hmode] at h
          have hkeyword : ¬ (first ∧ t.isKeyword .RECURSIVE) :=
            fun hrecursive => Token.not_isKeyword_of_isName h _ hrecursive.2
          simp only [Query.step, hmode, Query.cteNameStep]
          rw [if_neg hkeyword, if_pos h]
          exact List.mem_singleton_self _
      | _ =>
          simp only [hmode] at h
          cases h
  | _ =>
      simp only [introduces, hbody] at h
      cases h

end Scan

namespace Statement

/-- The token is read as the name of a common table expression in a `WITH` clause of the
statement. -/
def Introduces (s : Statement) (t : Token) : Prop :=
  ∃ before after, s.tokens = before ++ t :: after ∧
    (Scan.start.advance Scan.depthLimit (t :: after) before).introduces t

variable {s : Statement} {r : Reference} {t : Token}

/-- What is recorded for a common table expression was introduced, up to case. -/
theorem exists_introduces (hr : r ∈ s.scan.references) (hrole : r.role = .cteDefinition) :
    ∃ t, s.Introduces t ∧ Unicode.lower t.value = Unicode.lower r.name := by
  obtain ⟨found, hfound, rfl⟩ := List.mem_map.mp hr
  obtain ⟨us, vs, htokens, r', hr', rfl⟩ := Scan.mem_references.mp hfound
  have hrole' : r'.role = .cteDefinition := Scan.role_of_fated hrole
  change ∃ t, s.Introduces t ∧
    Unicode.lower t.value = Unicode.lower (Reference.name (Scan.fated _ vs r'))
  rw [Reference.name, Scan.fated_parts, ← Reference.name]
  -- What is introduced before a token is introduced in the statement.
  have hknown := Scan.ctesKnown_advance (D := fun key => ∃ t, s.Introduces t ∧
    Unicode.lower t.value = key) Scan.depthLimit vs us (Scan.ctesKnown_start _)
    fun xs t ys hus ht => ⟨t, ⟨xs, ys ++ vs, by rw [htokens, hus]; simp, ht⟩, rfl⟩
  have htop := hknown _ List.mem_cons_self
  cases vs with
  | nil =>
      obtain ⟨n, -, hrefers⟩ := Scan.mem_remainder hr'
      exact Scan.lower_name_of_refers htop hrefers hrole'
  | cons t rest =>
      exact Scan.lower_name_of_mem_outcome htop (fun ht => ⟨t, ⟨us, rest, htokens, ht⟩, rfl⟩)
        hr' hrole'

/-- What is introduced is recorded, as it is spelled. -/
theorem mem_scan_of_introduces (h : s.Introduces t) :
    ∃ r ∈ s.scan.references, r.role = .cteDefinition ∧ r.name = t.value := by
  obtain ⟨before, after, htokens, hintroduces⟩ := h
  have hfound : (⟨[t.value], t.span, .cteDefinition, 0⟩ : Reference) ∈
      (Scan.find Scan.depthLimit s.tokens).references :=
    Scan.mem_references.mpr ⟨before, t :: after, htokens, _,
      Scan.brings_of_introduces hintroduces _ _, Scan.fated_of_role rfl _⟩
  exact ⟨_, List.mem_map_of_mem hfound, rfl, rfl⟩

end Statement

end SqlTables
