import SqlTables.Proofs.Scan.Reads

/-!
# Tokens without a word of a clause

What brings a table is a word of a clause, so tokens without any name nothing, however their
parentheses stand (`Scan.reads_quiet`). No group that they leave open expects a table
(`Scan.IsQuiet`).
-/

namespace SqlTables

namespace Scan

open Token

variable {limit : Nat} {s : Scan} {t : Token} {rest after xs : List Token} {w : Surroundings}

/-- The group expects no table, unless a word of a clause brings one. -/
def Body.IsQuiet : Body → Prop
  | .query q => q.isJoinTree = false ∧ ∃ fresh, q.mode = .clauses fresh
  | .expression _ => True
  | .flat f => f.expecting = false ∧ f.read = none

/-- All groups that are open are quiet. -/
structure IsQuiet (s : Scan) : Prop where
  top : s.top.body.IsQuiet
  below : ∀ f ∈ s.below, f.body.IsQuiet

theorem isQuiet_subquery (w : Surroundings) (scope : Scope) : (w.subquery scope).IsQuiet := by
  unfold Surroundings.subquery
  split
  · exact ⟨rfl, rfl⟩
  · exact ⟨rfl, _, rfl⟩

theorem isQuiet_expression (w : Surroundings) (scope : Scope) : (w.expression scope).IsQuiet := by
  unfold Surroundings.expression
  split
  · exact ⟨rfl, rfl⟩
  · trivial

theorem kind_of_isQuiet {body : Body} (h : body.IsQuiet) : body.kind ≠ .joinTree := by
  cases body with
  | query q => simp [Body.kind, h.1]
  | expression scope => simp [Body.kind]
  | flat f => simp [Body.kind]

theorem pending?_of_isQuiet {body : Body} (h : body.IsQuiet) : body.pending? = none := by
  cases body with
  | query q =>
      obtain ⟨-, fresh, hmode⟩ := h
      rw [Body.pending?, hmode]
      rfl
  | expression scope => rfl
  | flat f => exact h.2

/-- What a token leaves in a group is quiet, and so is the group that it opens. -/
structure Outcome.IsQuiet (o : Outcome) : Prop where
  body : o.body.IsQuiet
  inner : ∀ body, o.action = .enter body → body.IsQuiet

theorem Outcome.isQuiet_of_enter {body inner : Body} (h : body.IsQuiet) (hinner : inner.IsQuiet) :
    ({ body, action := .enter inner } : Outcome).IsQuiet :=
  ⟨h, fun _ heq => Action.enter.inj heq ▸ hinner⟩

theorem Query.isQuiet_clauseStep {q : Query} {fresh : Bool} (h : q.isJoinTree = false)
    (ht : ¬ t.isAnyKeyword clauseWords) : (clauseStep w q fresh t rest).IsQuiet := by
  have hidle : (Body.query (q.goto (.clauses false))).IsQuiet := ⟨h, false, rfl⟩
  by_cases hopen : t.isMark '('
  · simp only [clauseStep, kind_of_isMark hopen]
    refine Outcome.isQuiet_of_enter hidle ?_
    split
    · exact isQuiet_subquery w _
    · exact isQuiet_expression w _
  · by_cases hclose : t.isMark ')'
    · simp only [clauseStep, kind_of_isMark hclose]
      refine ⟨hidle, fun body hbody => ?_⟩
      dsimp only at hbody
      split at hbody <;> cases hbody
    · rw [clauseStep_of_isIdle w q fresh rest (by simp [isIdle, hopen, hclose, ht])]
      exact ⟨hidle, fun body hbody => Action.noConfusion hbody⟩

theorem Flat.isQuiet_plainStep (f : Flat) (ht : ¬ t.isAnyKeyword clauseWords) :
    (f.plainStep false t).IsQuiet := by
  have hwords : t.isAnyKeyword [.FROM, .JOIN] = false :=
    Bool.eq_false_iff.mpr (not_isAnyKeyword_of_subset ht (by decide))
  unfold plainStep
  split
  · exact ⟨⟨rfl, rfl⟩, fun _ => Action.noConfusion⟩
  · split
    · split <;> exact ⟨⟨rfl, rfl⟩, fun _ => Action.noConfusion⟩
    · exact ⟨⟨hwords, rfl⟩, fun _ => Action.noConfusion⟩

/-- A token that is no word of a clause leaves a group quiet and opens quiet groups only. -/
theorem isQuiet_outcome (limit : Nat) (rest : List Token) (h : s.top.body.IsQuiet)
    (ht : ¬ t.isAnyKeyword clauseWords) : (s.outcome limit t rest).IsQuiet := by
  cases hbody : s.top.body with
  | query q =>
      rw [hbody] at h
      obtain ⟨htree, fresh, hmode⟩ := h
      rw [outcome_query hbody, Query.step, hmode]
      exact Query.isQuiet_clauseStep htree ht
  | expression scope =>
      simp only [outcome, hbody]
      split
      · refine Outcome.isQuiet_of_enter trivial ?_
        split
        · exact isQuiet_subquery _ scope
        · exact isQuiet_expression _ scope
      · split <;> exact ⟨trivial, fun _ => Action.noConfusion⟩
  | flat f =>
      rw [hbody] at h
      obtain ⟨hexpecting, hread⟩ := h
      simp only [outcome, hbody, Flat.step, hread, hexpecting, Bool.false_eq_true, false_and,
        if_false]
      exact f.isQuiet_plainStep ht

theorem isQuiet_step (limit : Nat) (rest : List Token) (h : s.IsQuiet)
    (ht : ¬ t.isAnyKeyword clauseWords) : (s.step limit t rest).IsQuiet := by
  obtain ⟨hbody, hinner⟩ := isQuiet_outcome limit rest h.top ht
  cases haction : (s.outcome limit t rest).action with
  | stay =>
      rw [step_of_stay haction]
      exact ⟨hbody, h.below⟩
  | enter body =>
      rw [step_of_enter haction]
      exact ⟨hinner body haction, List.forall_mem_cons.mpr ⟨hbody, h.below⟩⟩
  | leave =>
      cases hbelow : s.below with
      | nil =>
          simp only [Scan.step, act, haction, hbelow]
          exact ⟨hbody, List.forall_mem_nil _⟩
      | cons outer below =>
          have hframes := List.forall_mem_cons.mp (hbelow ▸ h.below)
          rw [step_of_leave haction hbelow]
          refine ⟨?_, hframes.2⟩
          -- The group is no join tree, so the one around it takes back no scope.
          rw [Frame.absorb_of_kind _ (kind_of_isQuiet hbody)]
          exact hframes.1

/-- Without a word of a clause nothing is named. -/
theorem reads_quiet (h : s.IsQuiet) (hxs : ∀ t ∈ xs, ¬ t.isAnyKeyword clauseWords) :
    Reads limit after s xs IsQuiet [] := by
  induction xs generalizing s with
  | nil => exact .nil h
  | cons t xs ih =>
      rw [List.forall_mem_cons] at hxs
      have hstep := isQuiet_step limit (xs ++ after) h hxs.1
      have howed {s : Scan} (h : s.IsQuiet) : s.owed = [] :=
        owed_of_pending?_eq_none (pending?_of_isQuiet h.top)
      refine (reads_singleton hstep ?_).cons fun s' h' => ih h' hxs.2
      rw [tableNames_outcome (pending?_of_isQuiet h.top), howed hstep, howed h]

theorem isQuiet_start : start.IsQuiet := ⟨⟨rfl, _, rfl⟩, List.forall_mem_nil _⟩

end Scan

end SqlTables
