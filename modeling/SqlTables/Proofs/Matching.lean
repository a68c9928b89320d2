import SqlTables.Proofs.Scan.Group
import SqlTables.Proofs.Scan.Nested
import SqlTables.Proofs.Scan.Reports
import SqlTables.Proofs.Unclosed

/-!
# Matching parentheses in the scan

The scan matches parentheses by counting. A group that a `(` enters lies on the stack
until a `)` matches that parenthesis, which hands it to the group around it, and for
good if none does (`Scan.matches_enter`): whatever the group is, and also if it is flat
and counts for itself.

What the parentheses of the open groups are is said by the tokens alone. They are those
that no `)` has matched so far, save the ones counted inside a flat group
(`Scan.openers_eq`). The diagnostics say so at the end, from the innermost group
outwards (`Scan.unclosed_find`): all of them are reported if the depth limit is never
passed, and in any case some are if there are any.
-/

namespace SqlTables

namespace Token

variable {us : List Token} {t o : Token}

/-- Nothing is unclosed exactly when as many parentheses are closed as opened. -/
theorem unclosed_eq_nil_iff {k : Nat} (h : depth? 0 us = some k) : unclosed us = [] ↔ k = 0 := by
  constructor
  · intro hnil
    by_contra hk
    have hcount : us.foldl Scan.nest 0 = k := Scan.foldl_nest h
    obtain ⟨xs, o, ys, rfl, ho, hys⟩ := Scan.exists_opener (show 0 < us.foldl Scan.nest 0 by omega)
    have hmem : o ∈ unclosed (xs ++ o :: ys) := mem_unclosed.mpr
      ⟨xs, ys, rfl, ho, (Scan.afterClosing?_eq_none_iff ys 0).mpr (Option.isSome_of_eq_some hys)⟩
    rw [hnil] at hmem
    cases hmem
  · rintro rfl
    refine List.eq_nil_iff_forall_not_mem.mpr fun o hmem => ?_
    obtain ⟨xs, ys, rfl, ho, hnone⟩ := mem_unclosed.mp hmem
    obtain ⟨n, hn⟩ := Option.isSome_iff_exists.mp ((Scan.afterClosing?_eq_none_iff ys 0).mp hnone)
    rw [depth?_append] at h
    obtain ⟨m, -, hm⟩ := Option.bind_eq_some_iff.mp h
    rw [depth?_cons_open ho, Nat.add_comm m 1] at hm
    have hadd := depth?_add hn (1 + m)
    rw [Nat.zero_add, hm, Option.some.injEq] at hadd
    omega

theorem unclosed_cons_of_some {tail : List Token} (h : Scan.afterClosing? 0 us = some tail) :
    unclosed (t :: us) = unclosed us := by
  rw [unclosed, h, Option.isNone_some, Bool.and_false, if_neg (by simp)]

theorem unclosed_cons_of_none (h : Scan.afterClosing? 0 us = none) :
    unclosed (t :: us) = if t.isMark '(' then t :: unclosed us else unclosed us := by
  rw [unclosed, h, Option.isNone_none, Bool.and_true]

theorem unclosed_sublist (us : List Token) : (unclosed us).Sublist us := by
  induction us with
  | nil => exact .slnil
  | cons t us ih =>
      rw [unclosed]
      split
      · exact ih.cons_cons t
      · exact ih.cons t

/-- A parenthesis at the end is unclosed, and one that closes takes the last one away. -/
theorem unclosed_concat (us : List Token) (t : Token) :
    unclosed (us ++ [t]) =
      if t.isMark '(' then unclosed us ++ [t]
      else if t.isMark ')' then (unclosed us).dropLast
      else unclosed us := by
  induction us with
  | nil =>
      rw [List.nil_append, unclosed_cons_of_none rfl]
      split
      · rfl
      · split <;> rfl
  | cons u us ih =>
      rw [List.cons_append]
      cases hus : Scan.afterClosing? 0 us with
      | some tail =>
          rw [unclosed_cons_of_some (Scan.afterClosing?_append_of_some hus [t]),
            unclosed_cons_of_some hus, ih]
      | none =>
          obtain ⟨k, hk⟩ :=
            Option.isSome_iff_exists.mp ((Scan.afterClosing?_eq_none_iff us 0).mp hus)
          have hnil := unclosed_eq_nil_iff hk
          have hafter : Scan.afterClosing? 0 (us ++ [t]) = Scan.afterClosing? k [t] :=
            Scan.afterClosing?_append hk [t]
          rw [unclosed_cons_of_none hus]
          by_cases hopen : t.isMark '('
          · rw [Scan.afterClosing?_cons_open hopen] at hafter
            rw [unclosed_cons_of_none hafter, ih, if_pos hopen, if_pos hopen]
            split <;> rfl
          · rw [if_neg hopen] at ih ⊢
            by_cases hclose : t.isMark ')'
            · rw [if_pos hclose] at ih ⊢
              cases k with
              | zero =>
                  -- The parenthesis `u`, if it is one, is the only one left, and is closed.
                  rw [Scan.afterClosing?_cons_close_zero hclose] at hafter
                  rw [unclosed_cons_of_some hafter, ih, hnil.mpr rfl]
                  split <;> rfl
              | succ k =>
                  rw [Scan.afterClosing?_cons_close_succ hclose] at hafter
                  rw [unclosed_cons_of_none hafter, ih]
                  split
                  · rw [List.dropLast_cons_of_ne_nil (mt hnil.mp (Nat.succ_ne_zero k))]
                  · rfl
            · rw [if_neg hclose] at ih ⊢
              rw [Scan.afterClosing?_cons_other hopen hclose] at hafter
              rw [unclosed_cons_of_none hafter, ih]

/-- The depth of a first part is at most the peak of the whole. -/
theorem foldl_nest_le_peak (us vs : List Token) (d : Nat) :
    us.foldl Scan.nest d ≤ peak d (us ++ vs) := by
  induction us generalizing d with
  | nil => exact le_peak d vs
  | cons t us ih => exact Nat.le_trans (ih _) (peak_tail_le d t (us ++ vs))

end Token

namespace Scan

open Token

variable {limit : Nat} {s : Scan} {t o : Token} {rest us vs : List Token}

/-! ## Groups -/

/-- Over the tokens `vs`, the group `body` that `o` enters lies on the stack as long as no
`)` matches `o`, with as many parentheses open in it as they say; the `)` that matches hands
it to the group around it. -/
structure MatchesIn (limit : Nat) (s : Scan) (o : Token) (vs : List Token) (body : Body) :
    Prop where
  lies : ∀ xs ys, vs = xs ++ ys → afterClosing? 0 xs = none →
    ∃ m, depth? 0 xs = some m ∧ (s.advance limit ys (o :: xs)).IsAbove
      (s.top.take (s.outcome limit o vs) :: s.below) (some o.span) body.kind m
  closes : ∀ xs ys, vs = xs ++ ys → afterClosing? 0 xs = some [] →
    ∃ f, f.opener = some o.span ∧ f.body.kind = body.kind ∧
      (s.advance limit ys (o :: xs)).top = (s.top.take (s.outcome limit o vs)).absorb f ∧
      (s.advance limit ys (o :: xs)).below = s.below

/-- A parenthesis is counted in a flat group, or enters a group that ends where a `)`
matches it. -/
theorem matches_enter (limit : Nat) (vs : List Token) (hs : IsNest s.top s.below)
    (ho : o.isMark '(') :
    s.top.body.kind = .flat ∨
      ∃ body, (s.outcome limit o vs).action = .enter body ∧ s.MatchesIn limit o vs body := by
  cases outcome_shift limit o vs hs with
  | stay haction hinner hopen => exact Or.inl (hopen ho)
  | enter body haction =>
      refine Or.inr ⟨body, haction, ?_, ?_⟩
      · rintro xs ys rfl hnone
        obtain ⟨m, hm⟩ := Option.isSome_iff_exists.mp ((afterClosing?_eq_none_iff xs 0).mp hnone)
        exact ⟨m, hm, isAbove_group hs haction hm⟩
      · rintro xs ys rfl hsome
        obtain ⟨zs, c, rfl, hzs, hc⟩ := exists_of_afterClosing? hsome
        rw [List.append_assoc, List.singleton_append] at haction ⊢
        exact advance_closed hs haction hc hzs
  | leave haction hclose => exact absurd hclose (not_isMark_of_isMark ho (by decide))

/-! ## Open groups -/

/-- The parentheses of the open groups, the innermost first. -/
def openers (s : Scan) : List Span := (s.top :: s.below).filterMap Frame.opener

theorem openers_eq_cons {outer : Frame} {below : List Frame} (hs : IsNest s.top s.below)
    (hbelow : s.below = outer :: below) :
    ∃ span, s.top.opener = some span ∧
      s.openers = span :: (outer :: below).filterMap Frame.opener := by
  rw [hbelow] at hs
  obtain ⟨span, hspan⟩ := Option.isSome_iff_exists.mp hs.1
  exact ⟨span, hspan, by rw [openers, hbelow, List.filterMap_cons_some hspan]⟩

/-- Only the statement is in no parenthesis. -/
theorem openers_eq_nil_iff (hs : IsNest s.top s.below) : s.openers = [] ↔ s.below = [] := by
  cases hbelow : s.below with
  | nil =>
      rw [hbelow] at hs
      simp [openers, hbelow, hs.1]
  | cons outer below =>
      obtain ⟨span, -, heq⟩ := openers_eq_cons hs hbelow
      simp [heq]

theorem inner_eq_zero_of_below (hs : IsNest s.top s.below) (hbelow : s.below = []) :
    s.top.body.inner = 0 := by
  rw [hbelow, IsNest] at hs
  exact inner_of_not_flat (by
    rw [hs.2]
    exact GroupKind.noConfusion)

/-- What a token does to the parentheses of the open groups: those of `o` are the ones that
are unclosed before it, save the ones inside a flat group. -/
theorem openers_step (limit : Nat) (t : Token) (rest : List Token) (hs : IsNest s.top s.below)
    (h : s.openers = ((unclosed us).reverse.drop s.top.body.inner).map Token.span) :
    (s.step limit t rest).openers =
      ((unclosed (us ++ [t])).reverse.drop (s.step limit t rest).top.body.inner).map
        Token.span := by
  rw [unclosed_concat]
  cases outcome_shift limit t rest hs with
  | stay haction hinner hopen hclose =>
      rw [step_of_stay haction]
      change s.openers = List.map _ (List.drop (s.outcome limit t rest).body.inner _)
      rw [hinner, h]
      by_cases ho : t.isMark '('
      · rw [if_pos ho, nest_open ho, List.reverse_append, List.reverse_singleton,
          List.singleton_append, List.drop_succ_cons]
      · rw [if_neg ho]
        by_cases hc : t.isMark ')'
        · rw [if_pos hc, nest_close hc, ← List.tail_reverse]
          rcases hclose hc with hpos | hbelow
          · obtain ⟨d, hd⟩ := Nat.exists_eq_succ_of_ne_zero (Nat.ne_of_gt hpos)
            rw [hd, Nat.succ_eq_add_one, Nat.add_sub_cancel, List.drop_tail]
          · -- Nothing is open here, so the parenthesis closes nothing.
            rw [(openers_eq_nil_iff hs).mpr hbelow] at h
            rw [inner_eq_zero_of_below hs hbelow, List.drop_zero] at h ⊢
            rw [Nat.zero_sub, List.drop_zero, List.map_tail, ← h]
            rfl
        · rw [if_neg hc, nest_other ho hc]
  | enter body haction hopen hkind hsuspended hinner =>
      rw [step_of_enter haction, if_pos hopen]
      change t.span :: s.openers = List.map _ (List.drop body.inner _)
      rw [h, hinner, inner_of_not_flat hkind, List.drop_zero, List.drop_zero,
        List.reverse_append]
      rfl
  | leave haction hmark hinner hne =>
      obtain ⟨outer, below, hbelow⟩ := List.exists_cons_of_ne_nil hne
      obtain ⟨span, -, heq⟩ := openers_eq_cons hs hbelow
      rw [hbelow] at hs
      have hzero := inner_of_isSuspended hs.2.1
      rw [step_of_leave haction hbelow, if_neg (not_isMark_of_isMark hmark (by decide)),
        if_pos hmark]
      change (outer :: below).filterMap Frame.opener = List.map _ (List.drop (outer.absorb
        (s.top.take (s.outcome limit t rest))).body.inner _)
      rw [(Frame.absorb_mode _ _).2.1, hzero, List.drop_zero, ← List.tail_reverse,
        List.map_tail]
      rw [hinner, List.drop_zero, heq] at h
      rw [← h, List.tail_cons]

/-- The open groups are those of the parentheses that have not been closed, without the
ones inside a flat group. -/
theorem openers_eq (limit : Nat) (vs us : List Token) :
    (start.advance limit vs us).openers =
      ((unclosed us).reverse.drop (start.advance limit vs us).top.body.inner).map
        Token.span := by
  induction us using List.reverseRecOn generalizing vs with
  | nil => rfl
  | append_singleton us t ih =>
      rw [advance_append, List.singleton_append, advance_cons, advance_nil, List.nil_append]
      exact openers_step limit t vs (isNest_advance limit _ us isNest_start) (ih (t :: vs))

/-! ## Flat groups -/

/-- A group is flat exactly where the limit is reached. -/
theorem flat_iff_full {body : Body} (h : (s.outcome limit t rest).action = .enter body) :
    body.kind = .flat ↔ (s.surroundings limit).full := by
  cases enters_of_enter h with
  | expression scope =>
      unfold Surroundings.expression
      split
      · next hfull => exact iff_of_true rfl hfull
      · next hroom => exact iff_of_false GroupKind.noConfusion hroom
  | subquery scope =>
      unfold Surroundings.subquery
      split
      · next hfull => exact iff_of_true rfl hfull
      · next hroom => exact iff_of_false GroupKind.noConfusion hroom
  | operand q =>
      unfold Query.operandGroup
      split
      · next hfull => exact iff_of_true rfl hfull
      · next hroom =>
          refine iff_of_false ?_ hroom
          split
          · exact GroupKind.noConfusion
          · split <;> exact GroupKind.noConfusion

/-- Around a flat group there are as many groups as the limit allows. -/
theorem le_length_of_flat (limit : Nat) (vs us : List Token)
    (h : (start.advance limit vs us).top.body.kind = .flat) :
    limit ≤ (start.advance limit vs us).below.length := by
  induction us using List.reverseRecOn generalizing vs with
  | nil => cases h
  | append_singleton us t ih =>
      rw [advance_append, List.singleton_append, advance_cons, advance_nil, List.nil_append]
        at h ⊢
      have hs := isNest_advance limit (t :: vs) us isNest_start
      have ih := ih (t :: vs)
      generalize start.advance limit (t :: vs) us = s at h hs ih ⊢
      cases outcome_shift limit t vs hs with
      | stay haction =>
          rw [step_of_stay haction] at h ⊢
          exact ih ((kind_outcome limit s t vs).symm.trans h)
      | enter body haction =>
          rw [step_of_enter haction] at h ⊢
          have hfull := (flat_iff_full haction).mp h
          simpa only [surroundings, decide_eq_true_eq, List.length_cons] using hfull
      | leave haction hclose hinner hne =>
          obtain ⟨outer, below, hbelow⟩ := List.exists_cons_of_ne_nil hne
          rw [step_of_leave haction hbelow] at h
          rw [hbelow] at hs
          rw [(Frame.absorb_mode _ _).1] at h
          have hsuspended := hs.2.1
          cases hbody : outer.body with
          | flat f =>
              rw [hbody] at hsuspended
              cases hsuspended
          | query q =>
              rw [hbody, Body.kind] at h
              split at h <;> cases h
          | expression scope =>
              rw [hbody] at h
              cases h

/-- No parenthesis is counted in a flat group unless the limit is passed. -/
theorem inner_eq_zero_of_peak (h : peak 0 (us ++ vs) ≤ limit) :
    (start.advance limit vs us).top.body.inner = 0 := by
  by_cases hflat : (start.advance limit vs us).top.body.kind = .flat
  · have hheight := height_of_start limit vs us
    have hpeak := foldl_nest_le_peak us vs 0
    have hlength := le_length_of_flat limit vs us hflat
    rw [height] at hheight
    omega
  · exact inner_of_not_flat hflat

/-! ## Diagnostics -/

/-- The unclosed parentheses are reported from the last one back to the first, without the
ones inside a flat group that is open at the end. -/
theorem unclosed_find (limit : Nat) (ts : List Token) :
    (find limit ts).unclosed =
      ((unclosed ts).reverse.drop (start.advance limit [] ts).top.body.inner).map
        fun o => .unclosedParenthesis o.span := by
  have hnone := aboutClauses_advance (s := start) limit [] ts
    (List.forall_mem_singleton.mpr aboutClauses_nil) isNest_start
  rw [List.forall_mem_cons] at hnone
  have hopeners := openers_eq limit [] ts
  have hreferences (rs : List Reference) :
      (rs.map Diagnostic.unresolvedReference).filter (·.code = .unclosedParenthesis) = [] :=
    List.filter_eq_nil_iff.mpr (List.forall_mem_map.mpr fun _ _ => of_decide_eq_false rfl)
  rw [Findings.unclosed, find, run_eq_advance]
  dsimp only
  rw [List.filter_append, diagnostics_unwind _ _ hnone.2, hnone.1.filter_eq_nil,
    hreferences, List.append_nil, List.nil_append, ← openers, hopeners,
    List.map_map]
  rfl

end Scan

namespace Statement

/-- The scan of a statement matches parentheses exactly. Each one is counted in a flat group
or enters a group, which ends where a `)` matches it and nowhere else. Those that none
matches are reported, from the last one back to the first, if the depth limit is not
passed; some are reported in any case if there are any. -/
theorem matches_parentheses (script : String) (s : Statement) (h : s ∈ ofScript script) :
    (∀ us o vs, s.tokens = us ++ o :: vs → o.isMark '(' →
      let before := Scan.start.advance Scan.depthLimit (o :: vs) us
      before.top.body.kind = .flat ∨
        ∃ body, (before.outcome Scan.depthLimit o vs).action = .enter body ∧
          before.MatchesIn Scan.depthLimit o vs body) ∧
    (Token.peak 0 s.tokens ≤ Scan.depthLimit →
      s.scan.unclosed =
        (Token.unclosed s.tokens).reverse.map fun o => .unclosedParenthesis o.span) ∧
    (Token.unclosed s.tokens).reverse.Pairwise (fun o p => p.offset < o.offset) ∧
    (s.scan.unclosed ≠ [] ↔ Token.unclosed s.tokens ≠ []) := by
  have hunclosed : s.scan.unclosed = (Scan.find Scan.depthLimit s.tokens).unclosed := rfl
  refine ⟨fun us o vs _ ho => ?_, fun hpeak => ?_, ?_, ?_⟩
  · exact Scan.matches_enter _ vs (Scan.isNest_advance _ _ us Scan.isNest_start) ho
  · rw [← List.append_nil s.tokens] at hpeak
    have hinner := Scan.inner_eq_zero_of_peak hpeak
    rw [hunclosed, Scan.unclosed_find, hinner, List.drop_zero]
  · have hordered := (ordered_tokens h).sublist (Token.unclosed_sublist s.tokens)
    rw [List.pairwise_reverse]
    exact hordered.2.imp_of_mem fun {o p} ho _ hle =>
      Nat.lt_of_lt_of_le (hordered.1 o ho) hle
  · rw [hunclosed, Scan.unclosed_find, not_iff_not, List.map_eq_nil_iff]
    constructor
    · intro hnil
      have hs := Scan.isNest_advance Scan.depthLimit [] s.tokens Scan.isNest_start
      have hopeners := Scan.openers_eq Scan.depthLimit [] s.tokens
      rw [hnil, List.map_nil, Scan.openers_eq_nil_iff hs] at hopeners
      rw [Scan.inner_eq_zero_of_below hs hopeners, List.drop_zero, List.reverse_eq_nil_iff]
        at hnil
      exact hnil
    · intro hnil
      rw [hnil, List.reverse_nil, List.drop_nil]

/-- The second and the last parenthesis are those of a join tree and of a subquery in it,
and neither is closed. -/
theorem matches_parentheses_joinTree :
    let s := (ofScript "SELECT f(1) FROM (a JOIN (SELECT * FROM b").headD ⟨0, []⟩
    s ∈ ofScript "SELECT f(1) FROM (a JOIN (SELECT * FROM b" ∧
      Token.peak 0 s.tokens ≤ Scan.depthLimit ∧
      s.scan.unclosed =
        [.unclosedParenthesis ⟨25, 26⟩, .unclosedParenthesis ⟨17, 18⟩] := by
  intro s
  have hmem : s ∈ ofScript "SELECT f(1) FROM (a JOIN (SELECT * FROM b" := by decide +kernel
  have hpeak : Token.peak 0 s.tokens ≤ Scan.depthLimit := by decide +kernel
  refine ⟨hmem, hpeak, ?_⟩
  rw [(matches_parentheses _ s hmem).2.1 hpeak]
  decide +kernel

end Statement

end SqlTables
