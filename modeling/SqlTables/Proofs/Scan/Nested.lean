import Mathlib.Data.List.Forall2
import SqlTables.Proofs.Scan.Within

/-!
# Scans inside a query

`Scan.Within` relates the scan of some tokens by themselves to their scan inside a
group: the groups that they open are the same, with the scopes of that group around
and the groups that are open there below. As long as the tokens close only what they open, name
nothing that is created and stay clear of the depth limit, the two scans go on to be
so related and find the same (`within_advance`, `gather_within`).

The tokens may look ahead past the end of the group, but then they see its closing
parenthesis, which they expect as little as the end of the tokens.
-/

namespace SqlTables

namespace Token

/-- The most parentheses that are open at once over the tokens, when `depth` are open
before them. -/
def peak (depth : Nat) : List Token → Nat
  | [] => depth
  | t :: ts => max depth (peak (Scan.nest depth t) ts)

theorem le_peak (depth : Nat) (ts : List Token) : depth ≤ peak depth ts := by
  cases ts with
  | nil => exact Nat.le_refl depth
  | cons t ts => exact Nat.le_max_left _ _

theorem peak_tail_le (depth : Nat) (t : Token) (ts : List Token) :
    peak (Scan.nest depth t) ts ≤ peak depth (t :: ts) := Nat.le_max_right _ _

theorem peak_append (depth : Nat) (xs ys : List Token) :
    peak depth (xs ++ ys) = max (peak depth xs) (peak (xs.foldl Scan.nest depth) ys) := by
  induction xs generalizing depth with
  | nil => exact (Nat.max_eq_right (le_peak depth ys)).symm
  | cons t xs ih =>
      rw [List.cons_append, peak, peak, ih, List.foldl_cons]
      exact (Nat.max_assoc _ _ _).symm

/-- With `k` more open before them, at most `k` more are open over the tokens. -/
theorem peak_le_add {d e k : Nat} (h : e ≤ d + k) (ts : List Token) :
    peak e ts ≤ peak d ts + k := by
  induction ts generalizing d e with
  | nil => exact h
  | cons t ts ih =>
      have hnest : Scan.nest e t ≤ Scan.nest d t + k := by
        unfold Scan.nest
        split
        · omega
        · split <;> omega
      have hrest := ih hnest
      rw [peak, peak]
      omega

end Token

namespace Scan

open Token

variable {limit : Nat} {s s' : Scan} {t c : Token} {rest ts us : List Token} {outer : Scope}
  {base : List Frame} {depth : Nat}

/-! ## Steps -/

/-- The groups of one scan in another, with the scopes `outer` around them and the groups
`base` below. -/
structure Within (outer : Scope) (base : List Frame) (s s' : Scan) : Prop where
  top : s'.top.body = s.top.body.within outer
  below : ∃ fs, s'.below = fs ++ base ∧
    List.Forall₂ (fun f g : Frame => g.body = f.body.within outer) s.below fs
  merging : s'.merging = s.merging
  comparison : s'.comparison = s.comparison

theorem Within.length_below (h : s.Within outer base s') :
    s'.below.length = s.below.length + base.length := by
  obtain ⟨fs, hfs, hrel⟩ := h.below
  rw [hfs, List.length_append, hrel.length_eq]

/-- What a scan needs in order to be read inside `depth` groups: the next token closes only
what has been opened, and none that it opens is flat. -/
structure Fits (limit depth : Nat) (s : Scan) (t : Token) : Prop where
  nest : IsNest s.top s.below
  rooted : IsThroughout (· ≠ []) s.top s.below
  creating : ¬ s.top.body.isCreating
  closes : t.isMark ')' → 0 < s.height
  room : t.isMark '(' → s.height + depth + 1 < limit

theorem Fits.below_ne_nil (h : s.Fits limit depth t) (hclose : t.isMark ')') : s.below ≠ [] := by
  intro hbelow
  have hnest := h.nest
  have hheight := h.closes hclose
  rw [hbelow] at hnest
  have hinner : s.top.body.inner = 0 := inner_of_not_flat (by
    rw [hnest.2]
    exact GroupKind.noConfusion)
  rw [height, hbelow, hinner] at hheight
  exact Nat.lt_irrefl 0 hheight

theorem Within.agrees (h : s.Within outer base s') (hfits : s.Fits limit base.length t)
    (hnest : IsNest s'.top s'.below) :
    (s.surroundings limit).Agrees t (s'.surroundings limit) := by
  constructor
  · intro hopen
    have hroom := hfits.room hopen
    have hlength := h.length_below
    rw [height] at hroom
    simp only [surroundings, decide_eq_decide]
    omega
  · intro hclose
    have hnested : (s.surroundings limit).nested :=
      (isNested_iff hfits.nest).mpr (hfits.below_ne_nil hclose)
    have hnested' : (s'.surroundings limit).nested := by
      refine (isNested_iff hnest).mpr fun hbelow => ?_
      have hlength := h.length_below
      have hpos := List.length_pos_of_ne_nil (hfits.below_ne_nil hclose)
      rw [hbelow, List.length_nil] at hlength
      omega
    rw [hnested, hnested']
  · exact h.merging
  · exact h.comparison

theorem outcome_within (houter : ∀ name, outer.lookup? name = none)
    (h : s.Within outer base s') (hfits : s.Fits limit base.length t)
    (hnest : IsNest s'.top s'.below) (hs : SameSight ts us) :
    s'.outcome limit t us = (s.outcome limit t ts).within outer := by
  have hagrees := h.agrees hfits hnest
  have hrooted := hfits.rooted.has
  have hcreating := hfits.creating
  unfold outcome
  rw [h.top]
  generalize s.top.body = body at hrooted hcreating ⊢
  cases body with
  | query q =>
      exact Query.step_within hagrees hs houter hrooted.base fun h => absurd h hcreating
  | expression scope =>
      dsimp only [Body.within]
      split
      · next hopen =>
          have hfull := hagrees.full hopen
          rw [hs.subquery, Surroundings.subquery_within hfull,
            Surroundings.expression_within hfull]
          split
          · rfl
          · rfl
      · split
        · rfl
        · rfl
  | flat f => exact Flat.step_within houter f

theorem absorb_within {f g inner inner' : Frame} (h : g.body = f.body.within outer)
    (hinner : inner'.body = inner.body.within outer) (hrooted : inner.body.Has (· ≠ [])) :
    (g.absorb inner').body = (f.absorb inner).body.within outer := by
  unfold Frame.absorb
  dsimp only
  rw [h, hinner]
  cases hbody : f.body with
  | query q =>
      cases htree : inner.body with
      | query tree =>
          rw [htree] at hrooted
          dsimp only [Body.within]
          change (if tree.isJoinTree then Body.query ((q.within outer).withScope
            (tree.base ++ outer)) else .query (q.within outer)) = _
          rw [Query.withScope_within hrooted.base]
          split
          · rfl
          · rfl
      | expression scope => rfl
      | flat f => rfl
  | expression scope => rfl
  | flat f => rfl

theorem step_within (houter : ∀ name, outer.lookup? name = none)
    (h : s.Within outer base s') (hfits : s.Fits limit base.length t)
    (hnest : IsNest s'.top s'.below) (hs : SameSight ts us) :
    (s.step limit t ts).Within outer base (s'.step limit t us) := by
  have ho := outcome_within houter h hfits hnest hs
  have hmerging : (s'.outcome limit t us).merging.getD s'.merging =
      (s.outcome limit t ts).merging.getD s.merging := by
    rw [ho, h.merging]
    rfl
  have hcomparison : s'.comparison.next t = s.comparison.next t := by rw [h.comparison]
  have hbody : (s'.top.take (s'.outcome limit t us)).body =
      (s.top.take (s.outcome limit t ts)).body.within outer := by
    rw [Frame.take_body, Frame.take_body, ho]
    rfl
  have haction' : (s'.outcome limit t us).action =
      (s.outcome limit t ts).action.within outer := by rw [ho]; rfl
  obtain ⟨fs, hfs, hrel⟩ := h.below
  cases outcome_shift limit t ts hfits.nest with
  | stay haction =>
      rw [haction] at haction'
      rw [step_of_stay haction, step_of_stay haction']
      exact ⟨hbody, ⟨fs, hfs, hrel⟩, hmerging, hcomparison⟩
  | enter body haction =>
      rw [haction] at haction'
      rw [step_of_enter haction, step_of_enter haction']
      refine ⟨rfl, ⟨_ :: fs, ?_, .cons hbody hrel⟩, hmerging, hcomparison⟩
      rw [hfs, List.cons_append]
  | leave haction hclose hinner hbelow =>
      obtain ⟨g, below, hbelow⟩ := List.exists_cons_of_ne_nil hbelow
      rw [hbelow, List.forall₂_cons_left_iff] at hrel
      obtain ⟨g', below', hg, hrest, rfl⟩ := hrel
      rw [haction] at haction'
      rw [List.cons_append] at hfs
      have hrooted := (isUpdate_outcome Scope.isInherited_ne_nil limit t ts hfits.rooted.has).1
      rw [step_of_leave haction hbelow, step_of_leave haction' hfs]
      exact ⟨absorb_within hg hbody hrooted.has, ⟨below', rfl, hrest⟩, hmerging, hcomparison⟩

/-! ## Runs -/

theorem nest_add {d : Nat} (h : t.isMark ')' → 0 < d) (k : Nat) :
    nest (d + k) t = nest d t + k := by
  unfold nest
  split
  · omega
  · split
    · next hclose =>
        have hpos := h hclose
        omega
    · rfl

/-- What a run of tokens needs in order to be read inside `depth` groups. -/
structure FitsAll (limit depth : Nat) (s : Scan) (ts : List Token) : Prop where
  nest : IsNest s.top s.below
  rooted : IsThroughout (· ≠ []) s.top s.below
  creating : ¬ s.top.body.isCreating
  creates : ∀ t ∈ ts, ¬ t.isKeyword .CREATE
  balanced : depth? s.height ts = some 0
  room : peak (s.height + depth) ts < limit

theorem FitsAll.head (h : s.FitsAll limit depth (t :: rest)) : s.Fits limit depth t := by
  refine ⟨h.nest, h.rooted, h.creating, (nest_of_depth? h.balanced).1, fun hopen => ?_⟩
  have hroom := h.room
  have hpeak := le_peak (Scan.nest (s.height + depth) t) rest
  have htail := peak_tail_le (s.height + depth) t rest
  rw [nest_open hopen] at hpeak htail
  omega

theorem FitsAll.tail (h : s.FitsAll limit depth (t :: rest)) (ts : List Token) :
    (s.step limit t ts).FitsAll limit depth rest := by
  have hheight := height_step limit t ts h.nest
  have hcreates := List.forall_mem_cons.mp h.creates
  constructor
  · exact isNest_step limit t ts h.nest
  · exact isThroughout_step Scope.isInherited_ne_nil limit t ts h.rooted
  · intro hcreating
    rcases (isCreating_step h.nest hcreating).2 with hbefore | hcreate
    · exact h.creating hbefore
    · exact hcreates.1 hcreate
  · exact hcreates.2
  · rw [hheight]
    exact (nest_of_depth? h.balanced).2
  · rw [hheight, ← nest_add (nest_of_depth? h.balanced).1]
    exact Nat.lt_of_le_of_lt (peak_tail_le _ _ _) h.room

theorem FitsAll.advance {xs : List Token} (h : s.FitsAll limit depth xs) :
    (s.advance limit [] xs).FitsAll limit depth [] := by
  induction xs generalizing s with
  | nil => exact h
  | cons t xs ih => exact ih (h.tail _)

section Runs

variable (houter : ∀ name, outer.lookup? name = none) (hc : c.isMark ')')

include houter hc

theorem within_advance (us : List Token) {xs : List Token} (h : s.Within outer base s')
    (hfits : s.FitsAll limit base.length xs) (hnest : IsNest s'.top s'.below) :
    (s.advance limit [] xs).Within outer base (s'.advance limit (c :: us) xs) := by
  induction xs generalizing s s' with
  | nil => exact h
  | cons t xs ih =>
      have hsight := sameSight_append_cons (endsSight_of_isMark hc) (hfits.tail xs).balanced us
      rw [advance_cons, advance_cons, List.append_nil]
      exact ih (step_within houter h hfits.head hnest hsight) (hfits.tail xs)
        (isNest_step limit t _ hnest)

/-- The same tables are found in the tokens. -/
theorem gather_within (us : List Token) {xs : List Token} (h : s.Within outer base s')
    (hfits : s.FitsAll limit base.length xs) (hnest : IsNest s'.top s'.below) :
    Reference.tableNames (s'.gather limit (c :: us) xs) =
      Reference.tableNames (s.gather limit [] xs) := by
  induction xs generalizing s s' with
  | nil => rfl
  | cons t xs ih =>
      have hsight := sameSight_append_cons (endsSight_of_isMark hc) (hfits.tail xs).balanced us
      have hstep := step_within houter h hfits.head hnest hsight
      have hfound := congrArg Outcome.references (outcome_within houter h hfits.head hnest hsight)
      rw [gather_cons, gather_cons, List.append_nil, Reference.tableNames_append,
        Reference.tableNames_append, tableNames_map_fated, tableNames_map_fated, hfound,
        ih hstep (hfits.tail xs) (isNest_step limit t _ hnest)]
      rfl

end Runs

end Scan

end SqlTables
