import SqlTables.Proofs.Scan.Naming
import SqlTables.Proofs.Token.Order

/-!
# Parentheses that are never closed

`Token.unclosed ts` lists the parentheses that no `)` of the tokens matches. A
table after one of them may stand in a context that was never read to its end, so
it should be demoted and reported. It is, except in the first table list of a join
tree: a table found there stays a source unless some other group around it is
never closed. `IsSpared` names the points of a statement where that happens, and
`demotesUnclosed_iff` says that nothing else is missed.
-/

namespace SqlTables

namespace Token

/-- The opening parentheses without a matching `)` among the tokens after them. -/
def unclosed : List Token → List Token
  | [] => []
  | t :: rest =>
    if t.isMark '(' && (Scan.afterClosing? 0 rest).isNone then t :: unclosed rest
    else unclosed rest

theorem mem_unclosed {ts : List Token} {o : Token} :
    o ∈ unclosed ts ↔
      ∃ us vs, ts = us ++ o :: vs ∧ o.isMark '(' ∧ Scan.afterClosing? 0 vs = none := by
  induction ts with
  | nil => simp [unclosed]
  | cons t ts ih =>
      have hmem : o ∈ unclosed (t :: ts) ↔
          (o = t ∧ o.isMark '(' ∧ Scan.afterClosing? 0 ts = none) ∨ o ∈ unclosed ts := by
        rw [unclosed]
        split
        · next h =>
            rw [Bool.and_eq_true, Option.isNone_iff_eq_none] at h
            rw [List.mem_cons]
            constructor
            · rintro (rfl | ho)
              · exact Or.inl ⟨rfl, h⟩
              · exact Or.inr ho
            · exact Or.imp_left And.left
        · next h =>
            rw [Bool.and_eq_true, Option.isNone_iff_eq_none] at h
            refine ⟨Or.inr, ?_⟩
            rintro (⟨rfl, ho⟩ | ho)
            · exact absurd ho h
            · exact ho
      rw [hmem, ih]
      constructor
      · rintro (⟨rfl, ho⟩ | ⟨us, vs, rfl, ho⟩)
        · exact ⟨[], ts, rfl, ho⟩
        · exact ⟨t :: us, vs, rfl, ho⟩
      · rintro ⟨us, vs, heq, ho⟩
        cases us with
        | nil =>
            rw [List.nil_append, List.cons.injEq] at heq
            exact Or.inl ⟨heq.1.symm, heq.2 ▸ ho⟩
        | cons u us =>
            rw [List.cons_append, List.cons.injEq] at heq
            exact Or.inr ⟨us, vs, heq.2, ho⟩

end Token

namespace Findings

/-- Every source after an unclosed parenthesis is demoted, and each reference that
is not resolved has a warning of its own. -/
def DemotesUnclosed (f : Findings) (tokens : List Token) : Prop :=
  (∀ r ∈ f.references, (∃ o ∈ Token.unclosed tokens, o.offset < r.span.start) →
    r.isSource → r.role = .unresolved) ∧
  ((f.references.filter (·.role = .unresolved)).map .unresolvedReference).Sublist
    f.diagnostics

instance (f : Findings) (tokens : List Token) : Decidable (f.DemotesUnclosed tokens) :=
  inferInstanceAs (Decidable (_ ∧ _))

end Findings

namespace Scan

open Token

/-- The group `f` at a level of the stack, counted from the innermost one, is in a
parenthesis that the tokens to come never close. -/
def IsUnclosedAt (s : Scan) (ts : List Token) (level : Nat) (f : Frame) : Prop :=
  (s.top :: s.below)[level]? = some f ∧ f.opener.isSome ∧
    afterClosing? (s.top.body.inner + level) ts = none

/-- Some open group is never closed by the tokens to come, and every such group is
a join tree in its first table list. -/
structure IsSpared (s : Scan) (ts : List Token) : Prop where
  unclosed : ∃ level f, s.IsUnclosedAt ts level f
  first : ∀ level f, s.IsUnclosedAt ts level f → f.body.inFirstList

variable {limit : Nat} {s : Scan} {us vs : List Token}

/-- As many openings as are open after the tokens can be found among them, one for
each level. -/
theorem exists_opener {xs : List Token} {k : Nat} (h : k < xs.foldl nest 0) :
    ∃ us o vs, xs = us ++ o :: vs ∧ o.isMark '(' ∧ depth? 0 vs = some k := by
  induction xs using List.reverseRecOn generalizing k with
  | nil => cases h
  | append_singleton xs t ih =>
      rw [List.foldl_append, List.foldl_cons, List.foldl_nil] at h
      by_cases hopen : t.isMark '('
      · rw [nest_open hopen] at h
        cases k with
        | zero => exact ⟨xs, t, [], rfl, hopen, rfl⟩
        | succ k =>
            obtain ⟨us, o, vs, rfl, ho, hdepth⟩ := ih (Nat.lt_of_succ_lt_succ h)
            refine ⟨us, o, vs ++ [t], by simp, ho, ?_⟩
            rw [depth?_append, hdepth, Option.bind_some, depth?_cons_open hopen, depth?_nil]
      · by_cases hclose : t.isMark ')'
        · rw [nest_close hclose] at h
          obtain ⟨us, o, vs, rfl, ho, hdepth⟩ := ih (k := k + 1) (by omega)
          refine ⟨us, o, vs ++ [t], by simp, ho, ?_⟩
          rw [depth?_append, hdepth, Option.bind_some, depth?_cons_close_succ hclose,
            depth?_nil]
        · rw [nest_other hopen hclose] at h
          obtain ⟨us, o, vs, rfl, ho, hdepth⟩ := ih h
          refine ⟨us, o, vs ++ [t], by simp, ho, ?_⟩
          rw [depth?_append, hdepth, Option.bind_some, depth?_cons_other hopen hclose,
            depth?_nil]

theorem height_of_start (limit : Nat) (vs us : List Token) :
    (start.advance limit vs us).height = us.foldl nest 0 :=
  height_advance limit vs us isNest_start

/-- A group that is never closed was opened by one of the tokens before. -/
theorem exists_unclosed_of_isUnclosedAt {level : Nat} {f : Frame}
    (h : (start.advance limit vs us).IsUnclosedAt vs level f) :
    ∃ xs o ys, us = xs ++ o :: ys ∧ o.isMark '(' ∧ afterClosing? 0 (ys ++ vs) = none := by
  obtain ⟨hget, hopener, hclosing⟩ := h
  have hlevel := (isSome_opener_iff (isNest_advance limit vs us isNest_start) hget).mp hopener
  have hheight := height_of_start limit vs us
  rw [height] at hheight
  have hlt : (start.advance limit vs us).top.body.inner + level < us.foldl nest 0 := by omega
  obtain ⟨xs, o, ys, rfl, ho, hdepth⟩ := exists_opener hlt
  exact ⟨xs, o, ys, rfl, ho, by rw [afterClosing?_append hdepth, hclosing]⟩

/-- A parenthesis before that is never closed belongs to a group of the stack,
unless it is one of those in a flat group. -/
theorem exists_isUnclosedAt {xs ys : List Token} {o : Token} (ho : o.isMark '(')
    (hclosing : afterClosing? 0 (ys ++ vs) = none)
    (hinner : (start.advance limit vs (xs ++ o :: ys)).top.body.inner = 0) :
    ∃ level f, (start.advance limit vs (xs ++ o :: ys)).IsUnclosedAt vs level f := by
  have hheight := height_of_start limit vs (xs ++ o :: ys)
  obtain ⟨level, hlevel⟩ : ∃ level, depth? 0 ys = some level := by
    rw [afterClosing?_eq_none_iff, depth?_append] at hclosing
    cases hdepth : depth? 0 ys with
    | none =>
        rw [hdepth] at hclosing
        cases hclosing
    | some level => exact ⟨level, rfl⟩
  have hcount : (xs ++ o :: ys).foldl nest 0 = level + (xs.foldl nest 0 + 1) := by
    rw [List.foldl_append, List.foldl_cons, nest_open ho]
    have hadd := depth?_add hlevel (xs.foldl nest 0 + 1)
    rw [Nat.zero_add] at hadd
    exact foldl_nest hadd
  rw [height, hinner, hcount] at hheight
  have hlt : level < (start.advance limit vs (xs ++ o :: ys)).below.length := by omega
  have hsome : level < ((start.advance limit vs (xs ++ o :: ys)).top ::
      (start.advance limit vs (xs ++ o :: ys)).below).length := by
    rw [List.length_cons]
    omega
  have hget := List.getElem?_eq_getElem hsome
  refine ⟨level, _, hget, ?_, ?_⟩
  · exact (isSome_opener_iff (isNest_advance limit vs _ isNest_start) hget).mpr hlt
  · rw [hinner, Nat.zero_add, ← afterClosing?_append hlevel, hclosing]

/-- A flat group finds no reference that is certain to be a table. -/
theorem not_flat_of_brings {r : Reference} (hr : r ∈ s.brings limit vs)
    (hrole : r.role = .source) : s.top.body.kind ≠ .flat := by
  have hrefers : ∃ n, s.top.body.Refers n r := by
    cases vs with
    | nil =>
        obtain ⟨n, -, hrefers⟩ := mem_remainder hr
        exact ⟨n, hrefers⟩
    | cons t rest =>
        cases makes_of_mem_outcome hr with
        | name n hread hover hrefers => exact ⟨n, hrefers⟩
        | definition hname hparts hspan hsource =>
            rw [Reference.isSource, hrole] at hsource
            cases hsource
  obtain ⟨n, hrefers⟩ := hrefers
  intro hkind
  cases hbody : s.top.body with
  | query q =>
      rw [hbody, Body.kind] at hkind
      split at hkind <;> cases hkind
  | expression scope =>
      rw [hbody] at hkind
      cases hkind
  | flat f =>
      rw [hbody] at hrefers
      obtain ⟨isCall, hrefers⟩ := hrefers
      rw [Flat.eq_of_reference? hrefers] at hrole
      cases hrole

/-- The start of a name lies after every parenthesis that is open around it, and no
parenthesis stands between the start and the end. -/
theorem HasRead.mem_before {xs ys : List Token} {n : DottedName} {o : Token}
    (h : s.HasRead limit vs (xs ++ o :: ys) n) (ho : o.isMark '(') :
    ∃ before w since zs, xs ++ o :: ys = before ++ w :: since ∧
      before = xs ++ o :: zs ∧ n.start = w.offset := by
  obtain ⟨before, w, since, heq, hcandidate, -, hread⟩ := h
  refine ⟨before, w, since, ?_⟩
  have hnot : o ∉ w :: since := fun hmem => by
    rcases List.mem_cons.mp hmem with rfl | hmem
    · exact not_isMark_of_isCandidate hcandidate '(' ho
    · exact (DottedName.not_isMark_of_extendAll? hread o hmem).1 ho
  have hstart : n.start = w.offset := DottedName.start_of_extendAll? hread
  rcases List.append_eq_append_iff.mp heq with ⟨zs, hzs, hrest⟩ | ⟨zs, hzs, hrest⟩
  · cases zs with
    | nil =>
        rw [List.nil_append] at hrest
        exact absurd (hrest ▸ List.mem_cons_self) hnot
    | cons z zs =>
        rw [List.cons_append, List.cons.injEq] at hrest
        exact ⟨zs, heq, by rw [hzs, hrest.1], hstart⟩
  · exact absurd (hrest ▸ List.mem_append_right zs List.mem_cons_self) hnot

/-- Where some group is spared, a reference keeps its role. -/
theorem IsSpared.fated {ts : List Token} (h : s.IsSpared ts) : s.fated ts = id :=
  fate_of_not_isDoomed (isDoomed_eq_false_iff.mpr fun level f hget hopener hclosing =>
    h.first level f ⟨hget, hopener, hclosing⟩)

/-- A source that is found where all unclosed groups are spared stands after an unclosed
parenthesis, and stays a source. -/
theorem mem_references_of_isSpared (hts : Ordered (us ++ vs))
    (hspared : (start.advance limit vs us).IsSpared vs) {r : Reference}
    (hr : r ∈ (start.advance limit vs us).brings limit vs) (hsource : r.isSource) :
    r ∈ (find limit (us ++ vs)).references ∧
      ∃ o ∈ unclosed (us ++ vs), o.offset < r.span.start := by
  refine ⟨mem_references.mpr ⟨us, vs, rfl, r, hr, by rw [hspared.fated]; rfl⟩, ?_⟩
  obtain ⟨level, f, hunclosed⟩ := hspared.unclosed
  obtain ⟨xs, o, ys, rfl, ho, hclosing⟩ := exists_unclosed_of_isUnclosedAt hunclosed
  refine ⟨o, mem_unclosed.mpr ⟨xs, ys ++ vs, by simp, ho, hclosing⟩, ?_⟩
  rcases origin_of_brings isNest_start rfl hr with
    ⟨n, hrefers, hread⟩ | ⟨t, rest, -, -, -, -, hnot⟩
  · obtain ⟨before, w, since, zs, heq, rfl, hstart⟩ := hread.mem_before ho
    have hlt : o.offset < w.offset := by
      rw [heq, List.append_assoc, List.append_assoc, ordered_append] at hts
      have hpos := hts.2.1
      rw [List.cons_append, ordered_cons] at hpos
      have hle := hpos.2.1 w (by simp)
      omega
    rw [hrefers.name_eq.2]
    change (o.offset : Int) < n.start
    omega
  · rw [hsource] at hnot
    cases hnot

/-- A source that is found after an unclosed parenthesis is demoted, unless all unclosed groups
are spared. -/
theorem unresolved_or_isSpared (hts : Ordered (us ++ vs)) {r : Reference}
    (hr : r ∈ (start.advance limit vs us).brings limit vs) (hrole : r.role = .source) {o : Token}
    (ho : o ∈ unclosed (us ++ vs)) (hlt : o.offset < r.span.start) :
    ((start.advance limit vs us).fated vs r).role = .unresolved ∨
      (start.advance limit vs us).IsSpared vs := by
  obtain ⟨xs, ys, hxs, hmark, hclosing⟩ := mem_unclosed.mp ho
  rcases origin_of_brings isNest_start rfl hr with
    ⟨n, hrefers, before, w, since, rfl, -, -, hread⟩ | ⟨t, rest, -, -, -, -, hnot⟩
  · have hstart : n.start = w.offset := DottedName.start_of_extendAll? hread
    rw [hrefers.name_eq.2] at hlt
    change (o.offset : Int) < n.start at hlt
    have hcuts : xs ++ o :: ys = before ++ w :: (since ++ vs) := by
      rw [← hxs, List.append_assoc, List.cons_append]
    obtain ⟨zs, rfl, rfl⟩ := (hxs ▸ hts).mem_before hcuts (by omega)
    have hinner := inner_of_not_flat (not_flat_of_brings hr hrole)
    have heq : xs ++ o :: zs ++ w :: since = xs ++ o :: (zs ++ w :: since) := by simp
    rw [heq] at hinner ⊢
    by_cases hdoomed : isDoomed
        (start.advance limit vs (xs ++ o :: (zs ++ w :: since))).top.body.inner
        ((start.advance limit vs (xs ++ o :: (zs ++ w :: since))).top ::
          (start.advance limit vs (xs ++ o :: (zs ++ w :: since))).below) vs
    · left
      rw [fated, fate, if_pos hdoomed, Reference.demote, if_pos hrole]
    · right
      rw [Bool.not_eq_true] at hdoomed
      exact ⟨exists_isUnclosedAt hmark (by simpa using hclosing) hinner,
        fun level f hf => isDoomed_eq_false_iff.mp hdoomed level f hf.1 hf.2.1 hf.2.2⟩
  · rw [Reference.isSource, hrole] at hnot
    cases hnot

/-- The references after an unclosed parenthesis are demoted exactly when no source
is found where all unclosed groups are spared. -/
theorem demoted_iff {ts : List Token} (hts : Ordered ts) :
    (∀ r ∈ (find limit ts).references, (∃ o ∈ unclosed ts, o.offset < r.span.start) →
      r.isSource → r.role = .unresolved) ↔
    ∀ us vs, ts = us ++ vs → (start.advance limit vs us).IsSpared vs →
      ∀ r ∈ (start.advance limit vs us).brings limit vs, r.role ≠ .source := by
  constructor
  · rintro h us vs rfl hspared r hr hrole
    have hsource : r.isSource := by rw [Reference.isSource, hrole, Role.isSource]
    obtain ⟨hmem, hafter⟩ := mem_references_of_isSpared hts hspared hr hsource
    have hunresolved := h r hmem hafter hsource
    rw [hrole] at hunresolved
    cases hunresolved
  · rintro h r hr ⟨o, ho, hlt⟩ hsource
    obtain ⟨us, vs, rfl, r', hr', rfl⟩ := mem_references.mp hr
    rw [fated_span] at hlt
    rw [fated_isSource] at hsource
    have hcases : r'.role = .source ∨ r'.role = .unresolved := by
      unfold Reference.isSource at hsource
      cases hrole : r'.role <;> simp_all [Role.isSource]
    rcases hcases with hrole | hrole
    · exact (unresolved_or_isSpared hts hr' hrole ho hlt).resolve_right fun hspared =>
        h us vs rfl hspared r' hr' hrole
    · unfold fated fate
      split
      · rw [Reference.demote, if_neg (by rw [hrole]; decide), hrole]
      · exact hrole

end Scan

namespace Statement

/-- A statement demotes what stands after its unclosed parentheses exactly when no
source is found at a point where every group that is never closed is a join tree in
its first table list. -/
theorem demotesUnclosed_iff (s : Statement) (h : Token.Ordered s.tokens) :
    s.scan.DemotesUnclosed s.tokens ↔
      ∀ us vs, s.tokens = us ++ vs →
        (Scan.start.advance Scan.depthLimit vs us).IsSpared vs →
        ∀ r ∈ (Scan.start.advance Scan.depthLimit vs us).brings Scan.depthLimit vs,
          r.role ≠ .source := by
  rw [← Scan.demoted_iff h, Findings.DemotesUnclosed]
  have hown : ((s.scan.references.filter (·.role = .unresolved)).map
      .unresolvedReference).Sublist s.scan.diagnostics := by
    unfold scan Scan.find
    simp only [List.filter_map, List.map_map]
    exact List.sublist_append_right _ _
  constructor
  · rintro ⟨hroles, -⟩ r hr hafter hsource
    exact hroles { r with statement := s.index } (List.mem_map_of_mem hr) hafter hsource
  · refine fun hroles => ⟨fun r hr hafter hsource => ?_, hown⟩
    obtain ⟨r', hr', rfl⟩ := List.mem_map.mp hr
    exact hroles r' hr' hafter hsource

/-- A subquery that is never closed spares nothing. -/
theorem demotesUnclosed_subquery :
    let s := (ofScript "SELECT * FROM (SELECT * FROM a").headD ⟨0, []⟩
    Token.Ordered s.tokens ∧
      ∀ us vs, s.tokens = us ++ vs →
        (Scan.start.advance Scan.depthLimit vs us).IsSpared vs →
        ∀ r ∈ (Scan.start.advance Scan.depthLimit vs us).brings Scan.depthLimit vs,
          r.role ≠ .source := by
  refine ⟨by decide +kernel, (demotesUnclosed_iff _ ?_).mp ?_⟩
  · decide +kernel
  · decide +kernel

/-- A join tree that is never closed keeps the first of its tables. -/
theorem not_demotesUnclosed_joinTree :
    let s := (ofScript "SELECT * FROM (a JOIN b ON a.x = b.x").headD ⟨0, []⟩
    ¬ s.scan.DemotesUnclosed s.tokens := by
  decide +kernel

end Statement

end SqlTables
