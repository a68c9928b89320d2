import SqlTables.Proofs.Scan.Naming
import SqlTables.Proofs.Scan.Sight

/-!
# Where a `CREATE` is read

The words after a `CREATE` are read in the group that it stands in, and the name in
them looks ahead for a query past the end of that group. Outside all parentheses
the look passes over closed groups and tells nothing of their contents. A scan is
*orderly* for the tokens to come when no `)` of them is unmatched and none of their
`CREATE`s stands in parentheses (`Scan.Orderly`); it stays so, token by token.
-/

namespace SqlTables

namespace Scan

open Token

/-- No `CREATE` of the tokens stands in parentheses, when `depth` are open before
them. -/
def CreatesOutside (depth : Nat) : List Token → Prop
  | [] => True
  | t :: ts => (t.isKeyword .CREATE → depth = 0) ∧ CreatesOutside (nest depth t) ts

instance instDecidableCreatesOutside : ∀ (depth : Nat) (ts : List Token),
    Decidable (CreatesOutside depth ts)
  | _, [] => inferInstanceAs (Decidable True)
  | depth, t :: ts =>
    have := instDecidableCreatesOutside (nest depth t) ts
    inferInstanceAs (Decidable ((_ → _) ∧ _))

variable {limit : Nat} {s : Scan} {t : Token} {rest : List Token}

/-- The words after a `CREATE` begin with it, and there is no parenthesis among
them. -/
theorem isCreating_outcome (h : (s.outcome limit t rest).body.isCreating) :
    (¬ t.isMark '(' ∧ ¬ t.isMark ')') ∧ (s.top.body.isCreating ∨ t.isKeyword .CREATE) := by
  have hturn := outcome_turn limit s t rest
  generalize s.outcome limit t rest = o at h hturn
  generalize s.top.body = body at hturn ⊢
  cases hturn with
  | extend q purpose hmode hn =>
      refine ⟨DottedName.not_isMark_of_extend? hn, Or.inl ?_⟩
      change q.mode.isCreating
      rw [hmode]
      cases purpose with
      | created => rfl
      | operand follow => cases h
      | target => cases h
  | query hbefore hturn =>
      cases hturn with
      | goto first mode d g hopen hclose hfirst hname hcreate =>
          exact ⟨⟨hopen, hclose⟩, hcreate h⟩
      | enter first mode body d hopen hfirst hwait =>
          change mode.isCreating at h
          rw [Mode.isCreating_of_isWaiting hwait] at h
          cases h
      | _ => cases h
  | flat hbefore hturn => cases hturn <;> cases h
  | _ => cases h

theorem not_isCreating_of_isSuspended {body : Body} (h : body.isSuspended) :
    ¬ body.isCreating := by
  cases body with
  | query q => simp [Body.isCreating, Mode.isCreating_of_isWaiting h]
  | expression scope => simp [Body.isCreating]
  | flat f => simp [Body.isCreating]

theorem not_isCreating_absorb {f inner : Frame} (h : f.body.isSuspended) :
    ¬ (f.absorb inner).body.isCreating := by
  apply not_isCreating_of_isSuspended
  rwa [(f.absorb_mode inner).2.2.1]

theorem isCreating_step (hs : IsNest s.top s.below)
    (h : (s.step limit t rest).top.body.isCreating) :
    (s.step limit t rest).height = s.height ∧
      (s.top.body.isCreating ∨ t.isKeyword .CREATE) := by
  cases outcome_shift limit t rest hs with
  | stay haction =>
      have hbody : (s.step limit t rest).top.body = (s.outcome limit t rest).body := by
        rw [step_of_stay haction, Frame.take_body]
      rw [hbody] at h
      obtain ⟨⟨hopen, hclose⟩, hcreating⟩ := isCreating_outcome h
      exact ⟨by rw [height_step limit t rest hs, nest_other hopen hclose], hcreating⟩
  | enter body haction hopen hkind hsuspended hinner hpending hcreating =>
      rw [step_of_enter haction, hcreating] at h
      cases h
  | leave haction hclose hinner hbelow =>
      obtain ⟨outer, below, hbelow⟩ := List.exists_cons_of_ne_nil hbelow
      rw [hbelow] at hs
      rw [step_of_leave haction hbelow] at h
      exact absurd h (not_isCreating_absorb hs.2.1)

/-- Without a `CREATE`, no words after one are read. -/
theorem not_isCreating_advance (limit : Nat) (after : List Token) {xs : List Token}
    (hs : IsNest s.top s.below) (h : ¬ s.top.body.isCreating)
    (hxs : ∀ t ∈ xs, ¬ t.isKeyword .CREATE) :
    ¬ (s.advance limit after xs).top.body.isCreating := by
  induction xs generalizing s with
  | nil => exact h
  | cons t xs ih =>
      rw [List.forall_mem_cons] at hxs
      rw [advance_cons]
      refine ih (isNest_step limit t _ hs) (fun hcreating => ?_) hxs.2
      rcases (isCreating_step hs hcreating).2 with hbefore | hcreate
      · exact h hbefore
      · exact hxs.1 hcreate

/-- The tokens to come close what they should and create nothing in
parentheses. -/
structure Orderly (s : Scan) (ts : List Token) : Prop where
  nest : IsNest s.top s.below
  creating : s.top.body.isCreating → s.height = 0
  closes : (depth? s.height ts).isSome
  creates : CreatesOutside s.height ts

theorem orderly_start {ts : List Token} (hcloses : (depth? 0 ts).isSome)
    (hcreates : CreatesOutside 0 ts) : start.Orderly ts :=
  ⟨isNest_start, fun _ => rfl, hcloses, hcreates⟩

theorem orderly_step (limit : Nat) (h : s.Orderly (t :: rest)) :
    (s.step limit t rest).Orderly rest := by
  have hheight := height_step limit t rest h.nest
  constructor
  · exact isNest_step limit t rest h.nest
  · intro hcreating
    obtain ⟨heq, hbefore | hcreate⟩ := isCreating_step h.nest hcreating
    · rw [heq, h.creating hbefore]
    · rw [heq, h.creates.1 hcreate]
  · obtain ⟨d, hd⟩ := Option.isSome_iff_exists.mp h.closes
    rw [hheight, (nest_of_depth? hd).2]
    rfl
  · rw [hheight]
    exact h.creates.2

theorem orderly_advance (limit : Nat) {xs ts : List Token} (h : s.Orderly (xs ++ ts)) :
    (s.advance limit ts xs).Orderly ts := by
  induction xs generalizing s with
  | nil => exact h
  | cons t xs ih => exact ih (orderly_step limit h)

/-- An orderly scan sees the query of a `CREATE` or not, whatever stands in closed
groups. -/
theorem Orderly.hasQueryBody {us : List Token} (h : s.Orderly (t :: rest))
    (halike : Alike (t :: rest) us) (hcreating : s.top.body.isCreating) :
    hasQueryBody 0 us = hasQueryBody 0 (t :: rest) := by
  have hcloses := h.closes
  rw [h.creating hcreating] at hcloses
  exact halike.hasQueryBody hcloses

end Scan

end SqlTables
