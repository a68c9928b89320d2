import SqlTables.Proofs.Matching
import SqlTables.Proofs.Scan.Hazard
import SqlTables.TableSet

/-!
# What the depth limit costs

A scan with a depth limit is read beside one without (`Scan.Accompanies`). Up to the limit
both have the same groups, of which those without the limit may know more names
(`Scan.Abreast`); past it, one flat group stands for several (`Scan.Condensed`). As long as
none of the hazards of a flat group is met, the scans go on so, and every table that is
found without the limit is found with it (`Scan.keeps_find`).

Each hazard loses a table of some statement, so none of them can be allowed
(`Statement.keepsTables_iff_noneAllowed`).
-/

namespace SqlTables

namespace Scan

open Token

variable {limit unlimited : Nat} {s s' : Scan} {t : Token} {read rest : List Token}
  {scope : Scope} {base gs : List Frame} {d : Nat} {f : Flat} {g g' : Frame}

/-! ## The groups of both scans -/

/-- The nest is sound, and its scopes name no table. -/
structure Formed (s : Scan) : Prop where
  nest : IsNest s.top s.below
  tidy : IsThroughout Scope.IsTidy s.top s.below

theorem formed_advance (limit : Nat) (vs us : List Token) :
    (start.advance limit vs us).Formed :=
  ⟨isNest_advance limit vs us isNest_start,
    isThroughout_advance Scope.isInherited_isTidy limit vs us isTidy_start⟩

theorem Formed.tidy_take (h : s.Formed) (limit : Nat) (t : Token) (rest : List Token) :
    IsThroughout Scope.IsTidy (s.top.take (s.outcome limit t rest)) s.below :=
  h.tidy.update (isUpdate_outcome Scope.isInherited_isTidy limit t rest h.tidy.has).1

/-- The limit is not reached, neither before the next token nor with it. -/
structure IsFree (unlimited : Nat) (s : Scan) : Prop where
  kind : s.top.body.kind ≠ .flat
  full : (s.surroundings unlimited).full = false

/-- The scans have the same groups, and the second one knows every name that the first one
does. -/
structure Abreast (s s' : Scan) : Prop where
  top : s.top.body.Weaker s'.top.body
  below : List.Forall₂ (fun f f' : Frame => f.body.Weaker f'.body) s.below s'.below

/-- The groups that a flat group stands for, `d` of them inside the one that opens in its
place, on those around. A join tree in its place hands what it knows to a group that knows
as much as the flat one. -/
inductive Stands (scope : Scope) (base : List Frame) : Nat → List Frame → Prop
  | lowest {g : Frame} {gs : List Frame}
      (hhas : g.body.Has fun other => other.Includes scope)
      (hjoin : g.body.kind = .joinTree → ∀ outer ∈ base.head?, scope = outer.body.scope)
      (hbase : List.Forall₂ (fun f f' : Frame => f.body.Weaker f'.body) base gs) :
      Stands scope base 0 (g :: gs)
  | above {d : Nat} {g : Frame} {gs : List Frame}
      (hhas : g.body.Has fun other => other.Includes scope)
      (h : Stands scope base d gs) : Stands scope base (d + 1) (g :: gs)

theorem Stands.length_eq {fs : List Frame} (h : Stands scope base d fs) :
    fs.length = d + base.length + 1 := by
  induction h with
  | lowest hhas hjoin hbase => rw [List.length_cons, hbase.length_eq, Nat.zero_add]
  | @above d g gs hhas h ih =>
      rw [List.length_cons, ih]
      omega

theorem Stands.has (h : Stands scope base d (g :: gs)) :
    g.body.Has fun other => other.Includes scope := by
  cases h with
  | lowest hhas => exact hhas
  | above hhas => exact hhas

theorem Stands.update (h : Stands scope base d (g :: gs))
    (hhas : g'.body.Has fun other => other.Includes scope)
    (hkind : g'.body.kind = g.body.kind) : Stands scope base d (g' :: gs) := by
  cases h with
  | lowest _ hjoin hbase =>
      exact .lowest hhas (fun hg' => hjoin (hkind.symm.trans hg')) hbase
  | above _ h => exact .above hhas h

/-- The innermost group of the first scan is flat and stands for some of the second one. It
expects a table where the tokens lead to one, and reads every name that is read for a table. -/
structure Condensed (limit : Nat) (read : List Token) (f : Flat) (s s' : Scan) : Prop where
  body : s.top.body = .flat f
  full : limit ≤ s.below.length
  stands : Stands f.scope s.below f.depth (s'.top :: s'.below)
  expecting : s'.top.body.expectsTable → isLed limit s'.below.length read →
    f.expecting ∧ f.read = none
  reading : ∀ n, s'.pending? = some n → f.read = some n ∧
    ∃ q follow, s'.top.body = .query q ∧ q.mode = .name (.operand follow) n

/-- The scan `s` with the limit beside the scan `s'` without it, after the same tokens. -/
structure Accompanies (limit : Nat) (read : List Token) (s s' : Scan) : Prop where
  merging : s'.merging = s.merging
  comparison : s'.comparison = s.comparison
  groups : s.Abreast s' ∨ ∃ f, s.Condensed limit read f s'

theorem Condensed.length_below (h : s.Condensed limit read f s') :
    s'.below.length = f.depth + s.below.length := by
  have hlength := h.stands.length_eq
  rw [List.length_cons] at hlength
  omega

theorem Condensed.le_length_below (h : s.Condensed limit read f s') :
    limit ≤ s'.below.length := by
  rw [h.length_below]
  exact Nat.le_add_left_of_le h.full

theorem Abreast.frees (h : s.Abreast s') (limit : Nat) (hs : s.Formed) (hs' : s'.Formed)
    (hfree : s'.IsFree unlimited) (hmerging : s'.merging = s.merging)
    (hcomparison : s'.comparison = s.comparison) :
    (s.surroundings limit).Frees (s'.surroundings unlimited) where
  full := hfree.full
  nested := by
    have hlength := h.below.length_eq
    rw [Bool.eq_iff_iff, isNested_iff hs'.nest, isNested_iff hs.nest, ne_eq, ne_eq,
      ← List.length_eq_zero_iff, ← List.length_eq_zero_iff, hlength]
  merging := hmerging
  comparison := hcomparison

/-! ## Steps up to the limit -/

/-- The same group closes in both scans. -/
theorem Abreast.step_leave (hs : s.Formed) (hs' : s'.Formed) (h : s.Abreast s')
    (ho : (s.outcome limit t rest).Weaker (s'.outcome unlimited t rest))
    (hleave : (s.outcome limit t rest).action = .leave)
    (hleave' : (s'.outcome unlimited t rest).action = .leave) :
    (s.step limit t rest).Abreast (s'.step unlimited t rest) := by
  cases outcome_shift limit t rest hs.nest with
  | stay hstay => cases hleave.symm.trans hstay
  | enter body henter => cases hleave.symm.trans henter
  | leave _ hclose hinner hne =>
      obtain ⟨outer, below, hbelow⟩ := List.exists_cons_of_ne_nil hne
      have htidy := hs.tidy_take limit t rest
      have htidy' := hs'.tidy_take unlimited t rest
      have hrel := h.below
      rw [hbelow, List.forall₂_cons_left_iff] at hrel
      obtain ⟨outer', below', houter, hrel, hbelow'⟩ := hrel
      rw [hbelow] at htidy
      rw [hbelow'] at htidy'
      rw [step_of_leave hleave hbelow, step_of_leave hleave' hbelow']
      exact ⟨absorb_weaker houter ho.body htidy.1 htidy'.1 htidy.2.1 htidy'.2.1, hrel⟩

/-- A flat group opens in the place of one that may hold others. -/
theorem Abreast.step_flat {body : Body} (hs' : s'.Formed) (h : s.Abreast s')
    (ho : (s.outcome limit t rest).Weaker (s'.outcome unlimited t rest))
    (henter : (s.outcome limit t rest).action = .enter (.flat f))
    (henter' : (s'.outcome unlimited t rest).action = .enter body)
    (hstands : f.StandsFor (s.outcome limit t rest).body body) :
    (s.step limit t rest).Condensed limit (t :: read) f (s'.step unlimited t rest) := by
  have hfull := (flat_iff_full henter).mp rfl
  cases outcome_shift unlimited t rest hs'.nest with
  | stay hstay => cases henter'.symm.trans hstay
  | leave hleave => cases henter'.symm.trans hleave
  | enter body' hbody' hopen hkind hsuspended hinner hpending =>
      obtain rfl := Action.enter.inj (henter'.symm.trans hbody')
      rw [step_of_enter henter, step_of_enter henter']
      refine ⟨rfl, ?_, ?_, ?_, ?_⟩
      · simpa only [surroundings, decide_eq_true_eq, List.length_cons] using hfull
      · rw [hstands.depth]
        refine .lowest hstands.has (fun hkind outer houter => ?_) (.cons ho.body h.below)
        rw [← Option.some.inj houter]
        exact hstands.joinTree hkind
      · exact fun hexpects _ => ⟨hstands.expecting hexpects, hstands.read⟩
      · intro n hn
        rw [pending?, hpending] at hn
        cases hn

theorem Abreast.step (hs : s.Formed) (hs' : s'.Formed) (hfree : s'.IsFree unlimited)
    (hmerging : s'.merging = s.merging) (hcomparison : s'.comparison = s.comparison)
    (h : s.Abreast s') :
    (s.step limit t rest).Accompanies limit (t :: read) (s'.step unlimited t rest) := by
  have ho : (s.outcome limit t rest).Weaker (s'.outcome unlimited t rest) :=
    outcome_weaker (h.frees limit hs hs' hfree hmerging hcomparison) h.top hs'.tidy.has
  refine ⟨?_, ?_, ?_⟩
  · rw [merging_step, merging_step, ho.merging, hmerging]
  · rw [comparison_step, comparison_step, hcomparison]
  have haction := ho.action
  generalize ha : (s.outcome limit t rest).action = a at haction
  generalize ha' : (s'.outcome unlimited t rest).action = a' at haction
  cases haction with
  | stay =>
      rw [step_of_stay ha, step_of_stay ha']
      exact Or.inl ⟨ho.body, h.below⟩
  | enter hbody =>
      rw [step_of_enter ha, step_of_enter ha']
      exact Or.inl ⟨hbody, .cons ho.body h.below⟩
  | leave => exact Or.inl (h.step_leave hs hs' ho ha ha')
  | @flat f body hstands => exact Or.inr ⟨f, h.step_flat hs' ho ha ha' hstands⟩

/-! ## Steps past the limit -/

theorem Condensed.outcome (h : s.Condensed limit read f s') :
    s.outcome limit t rest = f.step t := outcome_flat h.body

/-- The groups that the flat one stands for, and those inside them, go on to know what it
knows. -/
theorem Condensed.isUpdate (h : s.Condensed limit read f s') (unlimited : Nat) (t : Token)
    (rest : List Token) :
    Body.IsUpdate (fun scope => scope.Includes f.scope) s'.top.body
        (s'.outcome unlimited t rest).body ∧
      ∀ body, (s'.outcome unlimited t rest).action = .enter body →
        body.Has (fun scope => scope.Includes f.scope) ∧
          body.IsExtended (s'.outcome unlimited t rest).body :=
  isUpdate_outcome (Scope.isInherited_includes f.scope) unlimited t rest h.stands.has

section Steps

variable (hs : s.Formed) (hs' : s'.Formed) (hfree : s'.IsFree unlimited)
  (hdot : ∀ n, f.read = some n → n.dangling → read.head?.any fun u => u.isMark '.')
  (hsafe : ∀ h : Hazard, ¬ h.isNext limit unlimited read s' (t :: rest))
  (h : s.Condensed limit read f s')

include hfree hsafe h

/-- Without a hazard, a name that is read is read for a table that the flat group reads as
well. -/
theorem Condensed.reading_outcome {g : Flat} (hreads : f.Reads t g) {n : DottedName}
    (hn : (s'.outcome unlimited t rest).body.pending? = some n) :
    g.read = some n ∧ ∃ q follow, (s'.outcome unlimited t rest).body = .query q ∧
      q.mode = .name (.operand follow) n := by
  have hdepth := h.le_length_below
  rcases outcome_begins unlimited t rest hfree.kind with hnone | ⟨q, hbody, hbegins⟩
  · rw [hnone.1] at hn
    cases hn
  · have hunled := hsafe .unled
    simp only [Hazard.isNext, hdepth, decide_true, Bool.true_and, hbody, Query.startsUnled]
      at hunled
    generalize s'.outcome unlimited t rest = o at hn hbegins ⊢
    cases hbegins with
    | none hnone =>
        rw [hnone.1] at hn
        cases hn
    | @extend purpose m longer hmode hm =>
        obtain rfl : longer = n := Option.some.inj hn
        obtain ⟨hread, q', follow, hq, hmode'⟩ := h.reading m (by
          rw [pending?, hbody, Body.pending?, hmode]
          rfl)
        rw [hbody, Body.query.injEq] at hq
        rw [← hq, hmode, Mode.name.injEq] at hmode'
        exact ⟨hreads.extend m longer hread hm, _, follow, rfl, by rw [hmode'.1]; rfl⟩
    | @operand follow hmode ht =>
        have hled : isLed limit s'.below.length read := by
          simpa [ht, hmode, Mode.expectsTable, Mode.expectsTarget] using hunled
        obtain ⟨hexpects, hnone⟩ := h.expecting (by rw [hbody, Body.expectsTable, hmode]; rfl) hled
        obtain rfl := Option.some.inj hn
        exact ⟨hreads.candidate hexpects hnone ht, _, follow, rfl, rfl⟩
    | target hmode ht => simp [ht, hmode] at hunled
    | group hmode => cases hn

include hdot in
theorem Condensed.step_stay (hstay : (s'.outcome unlimited t rest).action = .stay)
    (hopen : ¬ t.isMark '(') (hclose : ¬ t.isMark ')') :
    ∃ g, (s.step limit t rest).Condensed limit (t :: read) g (s'.step unlimited t rest) := by
  obtain ⟨g, hreads, hbody, haction⟩ := f.step_reads (t := t) fun hc => absurd hc hclose
  rw [← h.outcome] at hbody haction
  rw [step_of_stay haction, step_of_stay hstay]
  refine ⟨g, hbody, h.full, ?_, fun _ hled => ?_, ?_⟩
  · rw [hreads.scope, hreads.depth, nest_other hopen hclose]
    exact h.stands.update (h.isUpdate unlimited t rest).1.has (kind_outcome unlimited s' t rest)
  · obtain ⟨hword, hmark⟩ := of_isLed hopen hled
    refine hreads.led hword fun n hn => ?_
    rw [Bool.eq_false_iff]
    exact fun hdangling => hmark (hdot n hn hdangling)
  · exact fun n hn => h.reading_outcome hfree hsafe hreads hn

omit hsafe in
theorem Condensed.step_enter {body : Body}
    (henter : (s'.outcome unlimited t rest).action = .enter body) (hopen : t.isMark '(')
    (hpending : body.pending? = none) :
    ∃ g, (s.step limit t rest).Condensed limit (t :: read) g (s'.step unlimited t rest) := by
  have hclose : ¬ t.isMark ')' := not_isMark_of_isMark hopen (by decide)
  obtain ⟨g, hreads, hbody, haction⟩ := f.step_reads (t := t) fun hc => absurd hc hclose
  obtain ⟨hupdate, hentered⟩ := h.isUpdate unlimited t rest
  rw [← h.outcome] at hbody haction
  rw [step_of_stay haction, step_of_enter henter]
  refine ⟨g, hbody, h.full, ?_, fun hexpects hled => ?_, fun n hn => ?_⟩
  · rw [hreads.scope, hreads.depth, nest_open hopen]
    exact .above (hentered body henter).1
      (h.stands.update hupdate.has (kind_outcome unlimited s' t rest))
  · -- The parenthesis does not open the flat group, so what leads to it is before it.
    rw [List.length_cons, isLed_open hopen (Nat.lt_succ_of_le h.le_length_below)] at hled
    obtain ⟨hexpecting, hread⟩ :=
      h.expecting (expectsTable_of_enter hfree.kind henter hexpects) hled
    exact hreads.opened hexpecting hread hopen
  · rw [pending?, hpending] at hn
    cases hn

include hs' in
omit hfree hsafe in
/-- A group that closes above the lowest one that a flat group stands for. -/
theorem Condensed.step_leave {outer' : Frame} {below' : List Frame}
    (hleave : (s'.outcome unlimited t rest).action = .leave) (hclose : t.isMark ')')
    (hbelow' : s'.below = outer' :: below') (hdepth : 0 < f.depth) :
    ∃ g, (s.step limit t rest).Condensed limit (t :: read) g (s'.step unlimited t rest) := by
  obtain ⟨g, hreads, hbody, haction⟩ := f.step_reads (t := t) fun _ => hdepth
  have hhas := (h.isUpdate unlimited t rest).1.has
  have htidy' := hs'.tidy_take unlimited t rest
  have hnest := hs'.nest
  have hstands := h.stands
  obtain ⟨d, hd⟩ := Nat.exists_eq_succ_of_ne_zero (Nat.ne_of_gt hdepth)
  rw [hbelow'] at htidy' hnest
  rw [hbelow', hd] at hstands
  rw [← h.outcome] at hbody haction
  rw [step_of_stay haction, step_of_leave hleave hbelow']
  cases hstands with
  | above _ hstands =>
      have habsorb := isUpdate_absorb (Scope.isInherited_includes f.scope) hstands.has hhas
        htidy'.2.1
      refine ⟨g, hbody, h.full, ?_, fun _ hled => ?_, fun n hn => ?_⟩
      · rw [hreads.scope, hreads.depth, nest_close hclose, hd]
        exact hstands.update habsorb.has (Frame.absorb_mode _ _).1
      · have hopen : ¬ t.isMark '(' := not_isMark_of_isMark hclose (by decide)
        exact absurd hclose (not_isMark_of_isAnyKeyword (of_isLed hopen hled).1 ')')
      · rw [pending?, (Frame.absorb_mode _ _).2.2.2.2, pending?_of_isSuspended hnest.2.1] at hn
        cases hn

include hs hs' in
omit hfree hsafe in
/-- A flat group closes with the lowest of the groups that it stands for. -/
theorem Condensed.step_close {outer' : Frame} {below' : List Frame}
    (hleave : (s'.outcome unlimited t rest).action = .leave) (hclose : t.isMark ')')
    (hbelow' : s'.below = outer' :: below') (hdepth : f.depth = 0) :
    (s.step limit t rest).Abreast (s'.step unlimited t rest) := by
  have hkind : (s.outcome limit t rest).body.kind = .flat := by
    rw [kind_outcome, h.body, Body.kind]
  have hhas := (h.isUpdate unlimited t rest).1.has
  have htidy' := hs'.tidy_take unlimited t rest
  have hstands := h.stands
  rw [hbelow'] at htidy'
  rw [hbelow', hdepth] at hstands
  cases hstands with
  | lowest _ hjoin hbase =>
      obtain ⟨outer, below, houter, hrel, hbelow⟩ := List.forall₂_cons_right_iff.mp hbase
      have htidy := hs.tidy
      rw [hbelow] at htidy hjoin
      cases outcome_shift limit t rest hs.nest with
      | stay haction hinner hopen hclose' =>
          rcases hclose' hclose with hpos | hnil
          · rw [h.body, Body.inner, hdepth] at hpos
            exact absurd hpos (Nat.lt_irrefl 0)
          · rw [hbelow] at hnil
            cases hnil
      | enter body haction hopen => exact absurd hclose (not_isMark_of_isMark hopen (by decide))
      | leave haction =>
          rw [step_of_leave haction hbelow, step_of_leave hleave hbelow']
          refine ⟨?_, hrel⟩
          rw [outer.absorb_of_kind (by
            rw [Frame.take_body, hkind]
            exact GroupKind.noConfusion)]
          refine weaker_absorb houter htidy.2.2.has htidy'.1 (fun htree => ?_) htidy'.2.1
          rw [Frame.take_body, kind_outcome] at htree
          -- The flat group has the scope of the query around, which waits unchanged.
          rw [← hjoin htree outer rfl]
          exact hhas.imp fun _ hscope => hscope.2

include hs hs' hdot in
/-- A flat group goes on to stand for groups, or closes with the lowest of them. -/
theorem Condensed.step (hmerging : s'.merging = s.merging)
    (hcomparison : s'.comparison = s.comparison) :
    (s.step limit t rest).Accompanies limit (t :: read) (s'.step unlimited t rest) := by
  have hne : s.below ≠ [] := isNest_ne_nil hs.nest (by
    rw [h.body]
    exact GroupKind.noConfusion)
  have hlength := h.length_below
  have hpos := List.length_pos_iff.mpr hne
  have hquiet : (s'.outcome unlimited t rest).merging = none := by
    have hmerge := hsafe .merging
    simp only [Hazard.isNext, Bool.and_eq_true, decide_eq_true_eq, not_and] at hmerge
    simpa using hmerge h.le_length_below
  refine ⟨?_, ?_, ?_⟩
  · rw [merging_step, merging_step, hquiet, outcome_flat h.body, Flat.merging_step, hmerging]
  · rw [comparison_step, comparison_step, hcomparison]
  · cases outcome_shift unlimited t rest hs'.nest with
    | stay haction hinner hopen hclose =>
        refine Or.inr (h.step_stay hfree hdot hsafe haction (fun ho => hfree.kind (hopen ho))
          fun hc => ?_)
        rcases hclose hc with hinner | hnil
        · rw [inner_of_not_flat hfree.kind] at hinner
          exact absurd hinner (Nat.lt_irrefl 0)
        · rw [hnil, List.length_nil] at hlength
          omega
    | enter body haction hopen hkind hsuspended hinner hpending =>
        exact Or.inr (h.step_enter hfree haction hopen hpending)
    | leave haction hclose hinner hne' =>
        obtain ⟨outer', below', hbelow'⟩ := List.exists_cons_of_ne_nil hne'
        rcases Nat.eq_zero_or_pos f.depth with hdepth | hdepth
        · exact Or.inl (h.step_close hs hs' haction hclose hbelow' hdepth)
        · exact Or.inr (h.step_leave hs' haction hclose hbelow' hdepth)

end Steps

/-! ## What both scans find -/

variable {vs : List Token} {n : DottedName} {r' : Reference}

/-- A table that is read where a flat group stands for it is found by the flat group. -/
theorem Condensed.exists_reference (h : s.Condensed limit read f s') (hs' : s'.Formed)
    (hsafe : ¬ Hazard.isNext limit unlimited .dangling read s' vs) (hn : s'.pending? = some n)
    (hover : (vs.head?.bind n.extend?).isNone) (hrefers : s'.top.body.Refers n r')
    (hsource : r'.isSource) :
    ∃ r, f.reference? n false = some r ∧ r.isSource ∧ r.parts = r'.parts := by
  have hdepth := h.le_length_below
  obtain ⟨-, q, follow, hbody, hmode⟩ := h.reading n hn
  have hweaker := h.stands.has
  have htidy := hs'.tidy.has
  rw [hbody] at hweaker htidy hrefers
  rw [show r' = q.reference n from hrefers] at hsource ⊢
  have hunbound : ¬ (n.single?.bind f.scope.lookup?).isSome := by
    intro hbound
    cases hsingle : n.single? with
    | none =>
        rw [hsingle] at hbound
        cases hbound
    | some name =>
        rw [hsingle] at hbound
        obtain ⟨role, hrole⟩ : ∃ role, q.scope.lookup? name = some role :=
          Option.isSome_iff_exists.mp (hweaker.scope.2 name hbound)
        have hnone : role.isSource = false := htidy.scope.2 name role hrole
        by_cases hdangling : n.dangling
        · refine hsafe ?_
          simp [Hazard.isNext, hdepth, hbody, Query.completesBound, hmode, Mode.pending?,
            hdangling, hover, hsingle, hrole]
        · simp [Reference.isSource, Query.reference, hdangling, hsingle, hrole, hnone]
            at hsource
  exact ⟨_, if_neg (by simpa using hunbound), rfl, rfl⟩

/-- A name that is followed by a parenthesis is that of a function. -/
theorem Query.references_step_open {w : Surroundings} {q : Query} {follow : Follow}
    (hmode : q.mode = .name (.operand follow) n) (hopen : t.isMark '(') :
    (q.step w t rest).references = [] := by
  have hover := DottedName.extend?_eq_none_of_isMark (n := n) hopen (by decide)
  simp only [Query.step, hmode, Query.nameStep, hover, Query.nameEndStep, hopen, if_true]

theorem Flat.reference_mem_step {r : Reference} (hread : f.read = some n)
    (hover : n.extend? t = none) (hopen : ¬ t.isMark '(') (hr : f.reference? n false = some r) :
    r ∈ (f.step t).references := by
  rw [Bool.not_eq_true] at hopen
  simp only [Flat.step, hread, hover, hopen, hr, Outcome.found]
  exact List.mem_cons_self

/-- Every table that the scan without the limit finds is found with it. -/
theorem Accompanies.keeps_brings (h : s.Accompanies limit read s') (hs : s.Formed)
    (hs' : s'.Formed) (hfree : vs ≠ [] → s'.IsFree unlimited)
    (hsafe : ¬ Hazard.isNext limit unlimited .dangling read s' vs) :
    Reference.Keeps (s.brings limit vs) (s'.brings unlimited vs) := by
  rcases h.groups with habreast | ⟨f, hflat⟩
  · cases vs with
    | nil => exact habreast.top.remainder hs'.tidy.has
    | cons t rest =>
        have hfrees := habreast.frees limit hs hs' (hfree (List.cons_ne_nil t rest)) h.merging
          h.comparison
        exact (outcome_weaker hfrees habreast.top hs'.tidy.has).references
  · intro r' hr' hsource
    cases vs with
    | nil =>
        obtain ⟨n, hn, hrefers⟩ := mem_remainder hr'
        obtain ⟨r, hr, hkept⟩ := hflat.exists_reference hs' hsafe hn rfl hrefers hsource
        refine ⟨r, ?_, hkept⟩
        simp [brings, hflat.body, Body.remainder, Flat.settle, (hflat.reading n hn).1, hr]
    | cons t rest =>
        cases makes_of_mem_outcome hr' with
        | name n hn hover hrefers =>
            obtain ⟨r, hr, hkept⟩ := hflat.exists_reference hs' hsafe hn
              (by rw [List.head?_cons, Option.bind_some, hover]; rfl) hrefers hsource
            obtain ⟨hread, q, follow, hbody, hmode⟩ := hflat.reading n hn
            refine ⟨r, ?_, hkept⟩
            rw [brings, outcome_flat hflat.body]
            refine Flat.reference_mem_step hread hover (fun hopen => ?_) hr
            rw [brings, outcome_query hbody, Query.references_step_open hmode hopen] at hr'
            cases hr'
        | definition hname hparts hspan hrole =>
            rw [hrole] at hsource
            cases hsource

/-! ## Runs -/

theorem foldl_nest_le_length (us : List Token) (d : Nat) :
    us.foldl nest d ≤ d + us.length := by
  induction us generalizing d with
  | nil => exact Nat.le_refl d
  | cons t us ih =>
      have hstep : nest d t ≤ d + 1 := by
        unfold nest
        split
        · exact Nat.le_refl _
        · split <;> omega
      have := ih (nest d t)
      rw [List.foldl_cons, List.length_cons]
      omega

/-- The limit is reached nowhere if it is larger than the number of tokens. -/
theorem isFree_advance {us vs : List Token} (h : us.length + 1 < unlimited) :
    (start.advance unlimited vs us).IsFree unlimited := by
  have hheight := height_of_start unlimited vs us
  have hlength := foldl_nest_le_length us 0
  rw [height] at hheight
  refine ⟨fun hflat => ?_, ?_⟩
  · have := le_length_of_flat unlimited vs us hflat
    omega
  · simp only [surroundings, decide_eq_false_iff_not]
    omega

/-- A name that is being read is dangling just behind a dot. -/
theorem isMark_of_dangling {us : List Token}
    (hn : (start.advance limit vs us).pending? = some n) (hdangling : n.dangling) :
    us.reverse.head?.any fun u => u.isMark '.' := by
  rcases List.eq_nil_or_concat us with rfl | ⟨xs, u, rfl⟩
  · cases hn
  · rw [List.concat_eq_append] at hn ⊢
    rw [List.reverse_append, List.reverse_singleton, List.singleton_append, List.head?_cons,
      Option.any_some]
    by_contra hdot
    rw [dangling_of_pending? limit vs isNest_start hdot hn] at hdangling
    cases hdangling

theorem accompanies_start (limit : Nat) : start.Accompanies limit [] start where
  merging := rfl
  comparison := rfl
  groups := by
    have hrefl (scope : Scope) : scope.Weaker scope := .refl scope
    exact Or.inl ⟨.query ⟨rfl, rfl, rfl, rfl, hrefl _, hrefl _⟩, .nil⟩

/-- Without hazards, the two scans accompany each other. -/
theorem accompanies_advance {us vs : List Token} (hunlimited : us.length + vs.length < unlimited)
    (hsafe : ∀ h : Hazard, ¬ start.meets limit unlimited h [] (us ++ vs)) :
    (start.advance limit vs us).Accompanies limit us.reverse (start.advance unlimited vs us) := by
  induction us using List.reverseRecOn generalizing vs with
  | nil => exact accompanies_start limit
  | append_singleton us t ih =>
      rw [List.append_assoc, List.singleton_append] at hsafe
      rw [List.length_append, List.length_singleton] at hunlimited
      have hlength : us.length + (t :: vs).length < unlimited := by
        rw [List.length_cons]
        omega
      have ih := ih hlength hsafe
      have hs := formed_advance limit (t :: vs) us
      have hs' := formed_advance unlimited (t :: vs) us
      have hfree : (start.advance unlimited (t :: vs) us).IsFree unlimited :=
        isFree_advance (by omega)
      have hnext (h : Hazard) := not_isNext_of_not_meets (hsafe h)
      rw [advance_append, advance_append, List.singleton_append, List.reverse_append,
        List.reverse_singleton, List.singleton_append]
      rcases ih.groups with habreast | ⟨f, hflat⟩
      · exact habreast.step hs hs' hfree ih.merging ih.comparison
      · refine hflat.step hs hs' hfree ?_ (fun h => ?_) ih.merging ih.comparison
        · exact fun n hn => isMark_of_dangling (by rw [pending?, hflat.body]; exact hn)
        · have := hnext h
          rwa [List.append_nil] at this

/-- Without hazards, every table that is found without the limit is found with it. -/
theorem keeps_find {tokens : List Token} (hunlimited : tokens.length < unlimited)
    (hsafe : ∀ h : Hazard, ¬ start.meets limit unlimited h [] tokens) :
    Reference.Keeps (find limit tokens).references (find unlimited tokens).references := by
  intro r' hr' hsource
  obtain ⟨us, vs, rfl, r, hr, rfl⟩ := mem_references.mp hr'
  rw [List.length_append] at hunlimited
  have hnext := not_isNext_of_not_meets (hsafe .dangling)
  rw [List.append_nil] at hnext
  have hfree (hvs : vs ≠ []) : (start.advance unlimited vs us).IsFree unlimited := by
    have := List.length_pos_iff.mpr hvs
    exact isFree_advance (by omega)
  rw [fated_isSource] at hsource
  obtain ⟨r', hr', hsource', hparts⟩ := (accompanies_advance hunlimited hsafe).keeps_brings
    (formed_advance limit vs us) (formed_advance unlimited vs us) hfree hnext r hr hsource
  exact ⟨_, mem_references.mpr ⟨us, vs, rfl, r', hr', rfl⟩, by rwa [fated_isSource],
    by rw [fated_parts, fated_parts, hparts]⟩

end Scan

namespace Statement

/-- A limit that no nesting in the statement reaches. -/
def unlimited (s : Statement) : Nat := s.tokens.length + 1

/-- Every table that is found without the depth limit is found with it, in some spelling of
its name. -/
def KeepsTables (s : Statement) : Prop :=
  ∀ name ∈ Reference.tableNames (Scan.find s.unlimited s.tokens).references,
    ∃ name' ∈ s.tableNames, Unicode.fold name' = Unicode.fold name

instance (s : Statement) : Decidable s.KeepsTables :=
  inferInstanceAs (Decidable (∀ name ∈ _, ∃ name' ∈ _, _ = _))

/-- Whether the statement holds the hazard past the depth limit. -/
def meets (s : Statement) (h : Scan.Hazard) : Bool :=
  Scan.start.meets Scan.depthLimit s.unlimited h [] s.tokens

/-- A script of which the middle stands in 99 parentheses. -/
def inParentheses (before middle after : String) : String :=
  String.ofList (before.toList ++ List.replicate 99 '(' ++ middle.toList ++
    List.replicate 99 ')' ++ after.toList)

theorem ofScript_ofList (chars : List Char) :
    ofScript (String.ofList chars) = ofTokens (Lexer.scanFrom 0 0 chars) := by
  rw [ofScript, Token.scan, String.toList_ofList]

/-- A flat group does not read on behind the comma of a table list. -/
theorem loses_unled :
    ∃ s ∈ ofScript (inParentheses "SELECT " "(SELECT * FROM a, b)" ""),
      (¬ s.meets .merging ∧ ¬ s.meets .dangling) ∧ ¬ s.KeepsTables := by
  rw [inParentheses, ofScript_ofList]
  decide +kernel

/-- A `MERGE` in a flat group is not noted, so the `USING` behind leads to no table. -/
theorem loses_merging :
    ∃ s ∈ ofScript (inParentheses "SELECT " "(SELECT MERGE)" " USING b"),
      (¬ s.meets .unled ∧ ¬ s.meets .dangling) ∧ ¬ s.KeepsTables := by
  rw [inParentheses, ofScript_ofList]
  decide +kernel

/-- A flat group takes a name that ends in a dot for the alias before the dot. -/
theorem loses_dangling :
    ∃ s ∈ ofScript (inParentheses "SELECT * FROM a b WHERE x IN " "(SELECT * FROM b.)" ""),
      (¬ s.meets .unled ∧ ¬ s.meets .merging) ∧ ¬ s.KeepsTables := by
  rw [inParentheses, ofScript_ofList]
  decide +kernel

/-- The depth limit loses no table of a statement without hazards past it. -/
theorem keepsTables_of_not_meets (s : Statement) (hsafe : ∀ h, ¬ s.meets h) :
    s.KeepsTables := by
  intro name hname
  obtain ⟨r', hr', rfl⟩ := List.mem_map.mp hname
  obtain ⟨hr', hsource⟩ := List.mem_filter.mp hr'
  obtain ⟨r, hr, hsource, hparts⟩ :=
    Scan.keeps_find (Nat.lt_succ_self s.tokens.length) hsafe r' hr' hsource
  refine ⟨r.name, ?_, by rw [Reference.name, hparts, Reference.name]⟩
  rw [tableNames_eq]
  exact List.mem_map_of_mem (List.mem_filter.mpr ⟨hr, hsource⟩)

/-- Each of the hazards alone is enough to lose a table. -/
theorem exists_not_keepsTables (h : Scan.Hazard) :
    ∃ script, ∃ s ∈ ofScript script, (∀ h', s.meets h' → h' = h) ∧ ¬ s.KeepsTables := by
  cases h with
  | unled =>
      obtain ⟨s, hs, hmeets, hlost⟩ := loses_unled
      exact ⟨_, s, hs, fun h' => by cases h' <;> simp [hmeets], hlost⟩
  | merging =>
      obtain ⟨s, hs, hmeets, hlost⟩ := loses_merging
      exact ⟨_, s, hs, fun h' => by cases h' <;> simp [hmeets], hlost⟩
  | dangling =>
      obtain ⟨s, hs, hmeets, hlost⟩ := loses_dangling
      exact ⟨_, s, hs, fun h' => by cases h' <;> simp [hmeets], hlost⟩

/-- Whichever hazards past the depth limit are allowed, the limit loses no table of the
statements that meet no others exactly when none is allowed. -/
theorem keepsTables_iff_noneAllowed (allowed : Scan.Hazard → Prop) :
    (∀ script, ∀ s ∈ ofScript script, (∀ h, s.meets h → allowed h) → s.KeepsTables) ↔
      ∀ h, ¬ allowed h := by
  constructor
  · intro hkeeps h hallowed
    obtain ⟨script, s, hs, honly, hlost⟩ := exists_not_keepsTables h
    exact hlost (hkeeps script s hs fun h' hmeets => honly h' hmeets ▸ hallowed)
  · intro hnone script s _ honly
    exact s.keepsTables_of_not_meets fun h hmeets => hnone h (honly h hmeets)

/-- `FROM` leads to the join tree past the limit, and `JOIN` to its second table. -/
theorem keepsTables_joinTree :
    ∃ s ∈ ofScript (inParentheses "SELECT " "(SELECT * FROM (a JOIN b))" ""),
      s.tableNames = ["a", "b"] ∧ (∀ h, ¬ s.meets h) ∧ s.KeepsTables := by
  have hread : ∃ s ∈ ofScript (inParentheses "SELECT " "(SELECT * FROM (a JOIN b))" ""),
      s.tableNames = ["a", "b"] ∧ ¬ s.meets .unled ∧ ¬ s.meets .merging ∧
        ¬ s.meets .dangling := by
    rw [inParentheses, ofScript_ofList]
    decide +kernel
  obtain ⟨s, hs, htables, hunled, hmerging, hdangling⟩ := hread
  have hsafe (h : Scan.Hazard) : ¬ s.meets h := by
    cases h with
    | unled => exact hunled
    | merging => exact hmerging
    | dangling => exact hdangling
  exact ⟨s, hs, htables, hsafe,
    (keepsTables_iff_noneAllowed fun _ => False).mpr (fun _ => id) _ s hs hsafe⟩

/-- The second table of a list past the limit is lost. -/
theorem not_keepsTables_list :
    ∃ s ∈ ofScript (inParentheses "SELECT " "(SELECT * FROM a, b)" ""),
      Reference.tableNames (Scan.find s.unlimited s.tokens).references = ["a", "b"] ∧
        s.tableNames = ["a"] ∧ ¬ s.KeepsTables := by
  rw [inParentheses, ofScript_ofList]
  decide +kernel

end Statement

end SqlTables
