import SqlTables.Proofs.Scan.Stack

/-!
# Closed groups

A group that is closed leaves the groups around it as they were (`advance_group`):
what is read between its parentheses happens above them, and when it closes, only
a join tree hands a scope back. A flat group keeps its own count of the
parentheses in it, and comes back to the same count without a name
(`advance_group_flat`).

What else a scan carries along is whether a `MERGE` lacks its source, which only
the words `MERGE` and `USING` change, and how much of a comparison stands before
the next token, which a parenthesis ends.
-/

namespace SqlTables

namespace Scan

open Token

variable {limit : Nat} {s : Scan} {t : Token} {rest after : List Token}

/-! ## Merging and comparisons -/

theorem act_merging (s : Scan) (t : Token) (action : Action) :
    (s.act t action).merging = s.merging ∧ (s.act t action).comparison = s.comparison := by
  cases action with
  | stay => exact ⟨rfl, rfl⟩
  | enter body => exact ⟨rfl, rfl⟩
  | leave => cases hbelow : s.below <;> simp [act, hbelow]

theorem comparison_step (limit : Nat) (s : Scan) (t : Token) (rest : List Token) :
    (s.step limit t rest).comparison = s.comparison.next t :=
  (act_merging _ t _).2

theorem merging_step (limit : Nat) (s : Scan) (t : Token) (rest : List Token) :
    (s.step limit t rest).merging = (s.outcome limit t rest).merging.getD s.merging :=
  (act_merging _ t _).1

theorem comparison_next_of_isMark {c : Char} (h : t.isMark c) (before : Comparison) :
    before.next t = .none := by
  have hwords (words : List Keyword) : ¬ t.isAnyKeyword words := fun hk =>
    not_isMark_of_isAnyKeyword hk c h
  have hdistinct : ¬ t.isKeyword .DISTINCT := fun hk => not_isMark_of_isKeyword hk c h
  simp [Comparison.next, hwords, hdistinct]

/-- Only `MERGE` and `USING` change whether a `MERGE` lacks its source. -/
theorem merging_outcome (hmerge : ¬ t.isKeyword .MERGE) (husing : ¬ t.isKeyword .USING) :
    (s.outcome limit t rest).merging = none := by
  have h := outcome_turn limit s t rest
  generalize s.outcome limit t rest = o at h ⊢
  generalize s.top.body = body at h
  cases h with
  | query hbefore hturn =>
      cases hturn with
      | goto first mode d g ho hc hf hn hcr hm =>
          by_contra hne
          rcases hm (Option.isSome_iff_ne_none.mpr hne) with h | h
          · exact hmerge h
          · exact husing h
      | _ => rfl
  | flat hbefore hturn => cases hturn <;> rfl
  | _ => rfl

/-- The words of a `MERGE` that change what a later `USING` means. -/
def steersMerge (t : Token) : Bool := t.isKeyword .MERGE || t.isKeyword .USING

theorem merging_advance {xs : List Token} (h : ∀ t ∈ xs, ¬ steersMerge t) :
    (s.advance limit after xs).merging = s.merging := by
  induction xs generalizing s with
  | nil => rfl
  | cons t xs ih =>
      rw [List.forall_mem_cons] at h
      have ht := h.1
      simp only [steersMerge, Bool.or_eq_true, not_or] at ht
      rw [advance_cons, ih h.2, merging_step, merging_outcome ht.1 ht.2]
      rfl

/-- Only `MERGE` makes a `MERGE` lack its source. -/
theorem isKeyword_of_merging_outcome (h : (s.outcome limit t rest).merging = some true) :
    t.isKeyword .MERGE := by
  have hturn := outcome_turn limit s t rest
  generalize s.outcome limit t rest = o at h hturn
  generalize s.top.body = body at hturn
  cases hturn with
  | query hbefore hturn =>
      cases hturn with
      | goto first mode d g ho hc hf hn hcr hm hd hmerging => exact hmerging h
      | _ => cases h
  | flat hbefore hturn => cases hturn <;> cases h
  | _ => cases h

theorem not_merging_advance {xs : List Token} (h : ∀ t ∈ xs, ¬ t.isKeyword .MERGE)
    (hs : s.merging = false) : (s.advance limit after xs).merging = false := by
  induction xs generalizing s with
  | nil => exact hs
  | cons t xs ih =>
      rw [List.forall_mem_cons] at h
      rw [advance_cons]
      refine ih h.2 ?_
      rw [merging_step, hs, Bool.eq_false_iff]
      intro hmerging
      cases hm : (s.outcome limit t (xs ++ after)).merging with
      | none =>
          rw [hm] at hmerging
          cases hmerging
      | some lacks =>
          rw [hm, Option.getD_some] at hmerging
          rw [hmerging] at hm
          exact h.1 (isKeyword_of_merging_outcome hm)

/-! ## Groups above others -/

/-- Above the groups `base` stand others, the lowest of them of the given kind and opened
where it says, and `n` parentheses are open inside that one. -/
def IsAbove (base : List Frame) (opener : Option Span) (kind : GroupKind) (n : Nat)
    (s : Scan) : Prop :=
  ∃ inner f, s.top :: s.below = inner ++ f :: base ∧ (f.opener = opener ∧ f.body.kind = kind) ∧
    inner.length + s.top.body.inner = n

variable {base : List Frame} {opener : Option Span} {kind : GroupKind} {n : Nat}

theorem IsAbove.below_ne_nil (h : s.IsAbove base opener kind n) (hbase : base ≠ []) :
    s.below ≠ [] := by
  obtain ⟨inner, f, hstack, -, -⟩ := h
  intro hbelow
  have hlength := congrArg List.length hstack
  simp only [hbelow, List.length_append, List.length_cons, List.length_nil] at hlength
  have := List.length_pos_iff.mpr hbase
  omega

/-- What is found in the innermost group leaves it where it stands. -/
theorem isAbove_take (limit : Nat) (t : Token) (rest : List Token)
    (h : s.IsAbove base opener kind n) :
    ∃ inner f, s.top.take (s.outcome limit t rest) :: s.below = inner ++ f :: base ∧
      (f.opener = opener ∧ f.body.kind = kind) ∧ inner.length + s.top.body.inner = n := by
  have hkept := kind_outcome limit s t rest
  obtain ⟨inner, f, hstack, hkind, hn⟩ := h
  cases inner with
  | nil =>
      rw [List.nil_append, List.cons.injEq] at hstack
      refine ⟨[], _, by rw [hstack.2, List.nil_append], ?_, hn⟩
      rw [Frame.take_opener, Frame.take_body, hkept, hstack.1]
      exact hkind
  | cons g inner =>
      rw [List.cons_append, List.cons.injEq] at hstack
      exact ⟨s.top.take _ :: inner, f, by rw [hstack.2, List.cons_append], hkind, hn⟩

/-- A group that closes above the lowest one. -/
theorem isAbove_leave {f g outer : Frame} {below inner : List Frame}
    (hstack : f :: outer :: below = inner ++ g :: base)
    (hkind : g.opener = opener ∧ g.body.kind = kind) (hpos : 0 < inner.length)
    (merging : Bool) (comparison : Comparison) (hsuspended : outer.body.inner = 0) :
    IsAbove base opener kind (inner.length - 1)
      ⟨outer.absorb f, below, merging, comparison⟩ := by
  have hmode := Frame.absorb_mode outer f
  cases inner with
  | nil => cases hpos
  | cons f' inner =>
      rw [List.cons_append, List.cons.injEq] at hstack
      obtain ⟨-, hstack⟩ := hstack
      cases inner with
      | nil =>
          rw [List.nil_append, List.cons.injEq] at hstack
          refine ⟨[], _, by rw [hstack.2, List.nil_append], ?_, ?_⟩
          · rw [Frame.absorb_opener, hmode.1, hstack.1]
            exact hkind
          · rw [hmode.2.1, hsuspended]
            rfl
      | cons outer' inner =>
          rw [List.cons_append, List.cons.injEq] at hstack
          refine ⟨_ :: inner, g, by rw [hstack.2, List.cons_append], hkind, ?_⟩
          rw [hmode.2.1, hsuspended]
          rfl

/-- A token that does not close the lowest of the groups leaves those below it
alone. -/
theorem isAbove_step (hs : IsNest s.top s.below) (hbase : base ≠ [])
    (h : s.IsAbove base opener kind n) (hclose : t.isMark ')' → 0 < n) :
    (s.step limit t rest).IsAbove base opener kind (nest n t) := by
  have hbelow := h.below_ne_nil hbase
  obtain ⟨inner, f, hstack, hkind, rfl⟩ := isAbove_take limit t rest h
  cases outcome_shift limit t rest hs with
  | stay haction hinner hopen hclose' =>
      rw [step_of_stay haction]
      refine ⟨inner, f, hstack, hkind, ?_⟩
      change inner.length + (s.outcome limit t rest).body.inner = _
      rw [hinner]
      unfold nest
      split
      · omega
      · split
        · next hc =>
            have := (hclose' hc).resolve_right hbelow
            omega
        · rfl
  | enter body haction hopen hflat hsuspended hinner =>
      have hzero : s.top.body.inner = 0 := inner_of_not_flat hflat
      rw [step_of_enter haction]
      refine ⟨_ :: inner, f, by rw [hstack, List.cons_append], hkind, ?_⟩
      change inner.length + 1 + body.inner = _
      rw [hinner, hzero, nest_open hopen]
  | leave haction hmark hinner hne =>
      obtain ⟨outer, below, houter⟩ := List.exists_cons_of_ne_nil hbelow
      rw [houter] at hs hstack
      have hpos := hclose hmark
      rw [hinner, Nat.add_zero] at hpos ⊢
      rw [step_of_leave haction houter, nest_close hmark]
      exact isAbove_leave hstack hkind hpos _ _ (inner_of_isSuspended hs.2.1)

theorem isAbove_advance {xs : List Token} (hs : IsNest s.top s.below) (hbase : base ≠ [])
    (h : s.IsAbove base opener kind n) {m : Nat} (hxs : depth? n xs = some m) :
    (s.advance limit after xs).IsAbove base opener kind m := by
  induction xs generalizing s n with
  | nil =>
      rw [depth?_nil, Option.some.injEq] at hxs
      rwa [advance_nil, ← hxs]
  | cons t xs ih =>
      obtain ⟨hclose, hxs⟩ := nest_of_depth? hxs
      rw [advance_cons]
      exact ih (isNest_step limit t _ hs) (isAbove_step hs hbase h hclose) hxs

/-- The parenthesis that closes the lowest of the groups hands it to the one below. -/
theorem step_of_isAbove {outer : Frame} {below : List Frame} (hs : IsNest s.top s.below)
    (h : s.IsAbove (outer :: below) opener kind 0) (hc : t.isMark ')') :
    ∃ f, f.opener = opener ∧ f.body.kind = kind ∧
      (s.step limit t rest).top = outer.absorb f ∧ (s.step limit t rest).below = below := by
  have hbelow := h.below_ne_nil (List.cons_ne_nil outer below)
  have hkept := kind_outcome limit s t rest
  obtain ⟨inner, f, hstack, ⟨hopener, hf⟩, hzero⟩ := h
  obtain ⟨rfl, hinner⟩ : inner = [] ∧ s.top.body.inner = 0 := by
    rw [Nat.add_eq_zero_iff, List.length_eq_zero_iff] at hzero
    exact hzero
  rw [List.nil_append, List.cons.injEq] at hstack
  cases outcome_shift limit t rest hs with
  | stay haction hinner' hopen hclose =>
      rcases hclose hc with hpos | hnil
      · omega
      · exact absurd hnil hbelow
  | enter body haction hopen => exact absurd hc (not_isMark_of_isMark hopen (by decide))
  | leave haction =>
      rw [step_of_leave haction hstack.2]
      refine ⟨s.top.take (s.outcome limit t rest), ?_, ?_, rfl, rfl⟩
      · rw [Frame.take_opener, hstack.1, hopener]
      · rw [Frame.take_body, hkept, hstack.1, hf]

theorem isAbove_of_enter {body : Body} (hs : IsNest s.top s.below)
    (haction : (s.outcome limit t rest).action = .enter body) :
    (s.step limit t rest).IsAbove (s.top.take (s.outcome limit t rest) :: s.below)
      (some t.span) body.kind 0 := by
  cases outcome_shift limit t rest hs with
  | stay hstay =>
      rw [haction] at hstay
      cases hstay
  | enter body' haction' hopen hkind hsuspended hinner =>
      obtain rfl : body = body' := Action.enter.inj (haction.symm.trans haction')
      rw [step_of_enter haction]
      exact ⟨[], _, rfl, ⟨rfl, rfl⟩, by rw [List.length_nil, Nat.zero_add, hinner]⟩
  | leave hleave =>
      rw [haction] at hleave
      cases hleave

/-- A group lies above those around it until a `)` matches its parenthesis. -/
theorem isAbove_group {body : Body} (hs : IsNest s.top s.below) {o : Token} {xs : List Token}
    (haction : (s.outcome limit o (xs ++ after)).action = .enter body) {m : Nat}
    (hxs : depth? 0 xs = some m) :
    (s.advance limit after (o :: xs)).IsAbove
      (s.top.take (s.outcome limit o (xs ++ after)) :: s.below) (some o.span) body.kind m :=
  isAbove_advance (isNest_step limit o _ hs) (List.cons_ne_nil _ _)
    (isAbove_of_enter hs haction) hxs

/-- A group is handed to the one around it by the `)` that matches its parenthesis. -/
theorem advance_closed {body : Body} (hs : IsNest s.top s.below) {o c : Token}
    {xs : List Token} (haction : (s.outcome limit o (xs ++ c :: after)).action = .enter body)
    (hc : c.isMark ')') (hxs : Balanced xs) :
    ∃ f, f.opener = some o.span ∧ f.body.kind = body.kind ∧
      (s.advance limit after (o :: xs ++ [c])).top =
        (s.top.take (s.outcome limit o (xs ++ c :: after))).absorb f ∧
      (s.advance limit after (o :: xs ++ [c])).below = s.below := by
  rw [advance_append]
  exact step_of_isAbove (isNest_advance limit _ (o :: xs) hs) (isAbove_group hs haction hxs) hc

/-- A closed group leaves the groups around it as they were when it was opened. -/
theorem advance_group (limit : Nat) (after : List Token) {o c : Token} {xs : List Token}
    (hs : IsNest s.top s.below)
    (ho : o.isMark '(') (hc : c.isMark ')') (hxs : Balanced xs)
    (hflat : s.top.body.kind ≠ .flat)
    (hbody : ∀ body, (s.outcome limit o (xs ++ c :: after)).action = .enter body →
      body.kind ≠ .joinTree) :
    (s.advance limit after (o :: xs ++ [c])).below = s.below ∧
      (s.advance limit after (o :: xs ++ [c])).top.opener = s.top.opener ∧
      (s.advance limit after (o :: xs ++ [c])).top.body =
        (s.outcome limit o (xs ++ c :: after)).body := by
  cases outcome_shift limit o (xs ++ c :: after) hs with
  | stay haction hinner hopen => exact absurd (hopen ho) hflat
  | enter body haction hopen hkind hsuspended hinner =>
      obtain ⟨f, -, hf, htop, hbelow⟩ := advance_closed hs haction hc hxs
      rw [htop]
      exact ⟨hbelow, rfl, Frame.absorb_of_kind _ (by
        rw [hf]
        exact hbody body haction)⟩
  | leave haction hclose => exact absurd hclose (not_isMark_of_isMark ho (by decide))

/-! ## Groups inside a flat group -/

/-- The innermost group is flat, with the given scope, opener and groups around it,
and `n` parentheses are open inside it. -/
structure InFlat (scope : Scope) (opener : Option Span) (base : List Frame) (n : Nat)
    (s : Scan) : Prop where
  body : ∃ expecting read, s.top.body = .flat ⟨scope, n, expecting, read⟩
  opener : s.top.opener = opener
  below : s.below = base

variable {scope : Scope}

theorem inFlat_step (limit : Nat) (rest : List Token) (h : s.InFlat scope opener base n)
    (hclose : t.isMark ')' → 0 < n) :
    (s.step limit t rest).InFlat scope opener base (nest n t) := by
  obtain ⟨expecting, read, hbody⟩ := h.body
  have houtcome : s.outcome limit t rest = _ := outcome_flat hbody
  rcases Flat.step_turn ⟨scope, n, expecting, read⟩ t with
    ⟨name, longer, -, hname, heq⟩ | ⟨before, -, hturn⟩
  · have hmark (c : Char) (hc : c ≠ '.') : ¬ t.isMark c := fun hm => by
      rw [DottedName.extend?_eq_none_of_isMark hm hc] at hname
      cases hname
    rw [nest_other (hmark '(' (by decide)) (hmark ')' (by decide)),
      step_of_stay (by rw [houtcome, heq])]
    exact ⟨⟨expecting, some longer, by rw [Frame.take_body, houtcome, heq]⟩,
      h.opener, h.below⟩
  · generalize Flat.step ⟨scope, n, expecting, read⟩ t = o at houtcome hturn
    cases hturn with
    | stay expecting' read' =>
        rw [step_of_stay (by rw [houtcome])]
        exact ⟨⟨expecting', read', by rw [Frame.take_body, houtcome]⟩, h.opener, h.below⟩
    | leave hmark hdepth => exact absurd hdepth (Nat.ne_of_gt (hclose hmark))

theorem inFlat_advance (limit : Nat) (after : List Token) {xs : List Token}
    (h : s.InFlat scope opener base n) {m : Nat} (hxs : depth? n xs = some m) :
    (s.advance limit after xs).InFlat scope opener base m := by
  induction xs generalizing s n with
  | nil =>
      rw [depth?_nil, Option.some.injEq] at hxs
      rwa [advance_nil, ← hxs]
  | cons t xs ih =>
      obtain ⟨hclose, hxs⟩ := nest_of_depth? hxs
      rw [advance_cons]
      exact ih (inFlat_step limit _ h hclose) hxs

/-- A closed group in a flat group leaves its count of parentheses as it was, and
ends the name that was being read. -/
theorem advance_group_flat (limit : Nat) (after : List Token) {f : Flat} {o c : Token}
    {xs : List Token}
    (hbody : s.top.body = .flat f) (ho : o.isMark '(') (hc : c.isMark ')')
    (hxs : Balanced xs) :
    (s.advance limit after (o :: xs ++ [c])).below = s.below ∧
      (s.advance limit after (o :: xs ++ [c])).top.opener = s.top.opener ∧
      (s.advance limit after (o :: xs ++ [c])).top.body =
        .flat ⟨f.scope, f.depth, false, none⟩ := by
  have hstart : s.InFlat f.scope s.top.opener s.below f.depth :=
    ⟨⟨f.expecting, f.read, hbody⟩, rfl, rfl⟩
  have hopened := inFlat_step limit (xs ++ c :: after) hstart
    fun h => absurd h (not_isMark_of_isMark ho (by decide))
  rw [nest_open ho] at hopened
  have hread := inFlat_advance limit (c :: after) hopened (hxs.depth? _)
  rw [List.cons_append, advance_cons, advance_append, advance_cons, advance_nil,
    List.append_assoc, List.cons_append, List.nil_append]
  generalize (s.step limit o (xs ++ c :: after)).advance limit (c :: after) xs = s' at hread
  obtain ⟨expecting, read, hbody'⟩ := hread.body
  have houtcome : Scan.outcome limit _ c after = _ := outcome_flat hbody'
  rcases Flat.step_turn ⟨f.scope, f.depth + 1, expecting, read⟩ c with
    ⟨name, longer, -, hname, -⟩ | ⟨before, -, hturn⟩
  · rw [DottedName.extend?_eq_none_of_isMark hc (by decide)] at hname
    cases hname
  · generalize Flat.step ⟨f.scope, f.depth + 1, expecting, read⟩ c = out at houtcome hturn
    cases hturn with
    | stay expecting' read' hread' hclose =>
        obtain ⟨-, rfl, rfl⟩ := hclose hc
        rw [step_of_stay (by rw [houtcome])]
        refine ⟨hread.below, hread.opener, ?_⟩
        rw [Frame.take_body, houtcome, nest_close hc]
        rfl
    | leave hmark hdepth => cases hdepth

end Scan

end SqlTables
