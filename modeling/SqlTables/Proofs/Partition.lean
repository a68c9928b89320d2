import SqlTables.Proofs.Slice

/-!
# Statements partition their script

Each token of a script that is neither a blank, a comment nor a semicolon belongs to one
statement. Two such tokens that follow each other are in different statements exactly if a
semicolon stands between them, and the text that the statements leave over is read as
blanks, comments and semicolons (`Statement.isPartition_ofScript`).
-/

namespace SqlTables

namespace Statement

open Token

/-- What statements leave over of a text between two offsets: the parts before the first
statement, between neighbours and behind the last one. -/
def gaps (start stop : Int) : List Statement → List Span
  | [] => [⟨start, stop⟩]
  | s :: ss => ⟨start, s.span.start⟩ :: gaps s.span.stop stop ss

/-- A statement ends with `t`, and the next one begins with `u`. -/
def Parts (ss : List Statement) (t u : Token) : Prop :=
  ∃ s s', [s, s'] <:+: ss ∧ t ∈ s.tokens.getLast? ∧ u ∈ s'.tokens.head?

/-- The statements are what the semicolons make of the script. -/
structure IsPartition (script : String) (ss : List Statement) : Prop where
  tokens_ne_nil : ∀ s ∈ ss, s.tokens ≠ []
  index : ss.map index = List.range ss.length
  isSignificant : ∀ s ∈ ss, ∀ t ∈ s.tokens, t.isSignificant ∧ ¬ t.isMark ';'
  tokens : ss.flatMap tokens = (Token.scan script).filter isContent
  /-- Of the two tokens `t` and `u` one follows the other, blanks, comments and semicolons
  apart. -/
  parts_iff : ∀ {xs ys zs : List Token} {t u : Token},
    Token.scan script = xs ++ t :: (ys ++ u :: zs) → t.isContent → u.isContent →
      (∀ y ∈ ys, ¬ y.isContent) → (Parts ss t u ↔ ∃ y ∈ ys, y.isMark ';')
  bounds : ∀ s ∈ ss, 0 ≤ s.span.start ∧ s.span.start < s.span.stop ∧
    s.span.stop ≤ script.length
  increasing : ss.Pairwise fun s s' => s.span.stop ≤ s'.span.start
  gaps : ∀ gap ∈ gaps 0 script.length ss, ∀ t ∈ Token.scan (gap.slice script), ¬ t.isContent

variable {script : String} {s s' : Statement} {ss : List Statement} {t u : Token}
  {xs ys zs ts : List Token}

/-! ## Boundaries -/

theorem exists_groups_concat (ht : ¬ t.isMark ';') (xs : List Token) :
    ∃ before g, groups (xs ++ [t]) = before ++ [g ++ [t]] := by
  induction xs with
  | nil => exact ⟨[], [], groups_eq_singleton (List.forall_mem_singleton.mpr ht)⟩
  | cons x xs ih =>
      obtain ⟨before, g, hgroups⟩ := ih
      by_cases hx : x.isMark ';'
      · exact ⟨[] :: before, g, by rw [List.cons_append, groups_cons_mark hx, hgroups]; rfl⟩
      · rw [List.cons_append, groups, if_neg hx, hgroups]
        cases before with
        | nil => exact ⟨[], x :: g, rfl⟩
        | cons b before => exact ⟨(x :: b) :: before, g, rfl⟩

/-- Semicolons in front of a token are empty groups in front of its own. -/
theorem exists_groups_marks {ms : List Token} (hms : ∀ m ∈ ms, m.isMark ';')
    (hu : ¬ u.isMark ';') (ys : List Token) :
    ∃ g after, groups (ms ++ u :: ys) = List.replicate ms.length [] ++ (u :: g) :: after := by
  induction ms with
  | nil =>
      obtain ⟨g, gs, -, hgroups, -⟩ := exists_groups_eq ys
      exact ⟨g, gs, by rw [List.nil_append, groups, if_neg hu, hgroups]; rfl⟩
  | cons m ms ih =>
      rw [List.forall_mem_cons] at hms
      obtain ⟨g, after, hgroups⟩ := ih hms.2
      exact ⟨g, after, by rw [List.cons_append, groups_cons_mark hms.1, hgroups]; rfl⟩

/-- Tokens with no semicolon between them are in one group. -/
theorem exists_mem_groups_pair (ht : ¬ t.isMark ';') (hu : ¬ u.isMark ';')
    (xs ys : List Token) : ∃ g ∈ groups (xs ++ t :: u :: ys), [t, u] <:+: g := by
  induction xs with
  | nil =>
      obtain ⟨g, gs, hgroups⟩ := exists_groups_marks (List.forall_mem_nil _) hu ys
      refine ⟨t :: u :: g, ?_, (List.prefix_append [t, u] g).isInfix⟩
      rw [List.nil_append] at hgroups
      rw [List.nil_append, groups, if_neg ht, hgroups]
      exact List.mem_cons_self
  | cons x xs ih =>
      obtain ⟨g, hg, hpair⟩ := ih
      by_cases hx : x.isMark ';'
      · rw [List.cons_append, groups_cons_mark hx]
        exact ⟨g, List.mem_cons_of_mem _ hg, hpair⟩
      · rw [List.cons_append, groups, if_neg hx]
        cases hgroups : groups (xs ++ t :: u :: ys) with
        | nil => exact absurd hgroups (groups_ne_nil _)
        | cons first gs =>
            rw [hgroups] at hg
            rcases List.mem_cons.mp hg with rfl | hg
            · exact ⟨x :: g, List.mem_cons_self, List.infix_cons hpair⟩
            · exact ⟨g, List.mem_cons_of_mem _ hg, hpair⟩

/-- Two statements of ordered tokens that share a token are the same. -/
theorem eq_of_mem_tokens (h : Token.Ordered (ss.flatMap tokens)) (hs : s ∈ ss) (hs' : s' ∈ ss)
    (ht : t ∈ s.tokens) (ht' : t ∈ s'.tokens) : s = s' := by
  have hpairwise := (List.pairwise_flatMap.mp h.2).2
  have hshare : ss.Pairwise fun s s' => ∀ t ∈ s.tokens, t ∈ s'.tokens → s = s' :=
    hpairwise.imp_of_mem fun hs _ hle t ht ht' => by
      have hlt := h.1 t (List.mem_flatMap.mpr ⟨_, hs, ht⟩)
      have hstop := hle t ht t ht'
      omega
  exact hshare.forall_of_forall_of_flip (fun _ _ _ _ _ => rfl)
    (hshare.imp fun h t ht ht' => (h t ht' ht).symm) hs hs' t ht ht'

/-- Tokens that are parted are not in one statement. -/
theorem Parts.not_isInfix (h : Parts ss t u) (hordered : Token.Ordered (ss.flatMap tokens))
    (hs : s ∈ ss) : ¬ [t, u] <:+: s.tokens := by
  intro hpair
  obtain ⟨s₁, s₂, hneighbours, ht, hu⟩ := h
  have hmem : ∀ s ∈ [s₁, s₂], s ∈ ss := fun s hs => hneighbours.subset hs
  have ht₁ := List.mem_of_getLast? ht
  have hu₂ := List.mem_of_head? hu
  obtain rfl := eq_of_mem_tokens hordered hs (hmem s₁ (by simp)) (hpair.subset (by simp)) ht₁
  obtain rfl := eq_of_mem_tokens hordered hs (hmem s₂ (by simp)) (hpair.subset (by simp)) hu₂
  have hpairwise := ((List.pairwise_flatMap.mp hordered.2).2).sublist hneighbours.sublist
  have hlt := hordered.1 t (List.mem_flatMap.mpr ⟨_, hs, ht₁⟩)
  have hle := (List.pairwise_pair.mp hpairwise) t ht₁ t ht₁
  omega

theorem ordered_flatMap_tokens (script : String) :
    Token.Ordered ((ofScript script).flatMap tokens) := by
  rw [flatMap_tokens_ofScript]
  exact (Lexer.ordered_scanFrom script.toList 0 0).sublist List.filter_sublist

theorem map_tokens_ofScript (script : String) :
    (ofScript script).map tokens = (groups (scanSignificant script)).filter (!·.isEmpty) :=
  map_tokens_number 0 _

theorem parts_of_map_tokens {before after : List (List Token)} {g g' : List Token}
    (h : ss.map tokens = before ++ (g ++ [t]) :: (u :: g') :: after) : Parts ss t u := by
  obtain ⟨ss₁, rest, rfl, -, hrest⟩ := List.map_eq_append_iff.mp h
  obtain ⟨s, rest, rfl, hs, hrest⟩ := List.map_eq_cons_iff.mp hrest
  obtain ⟨s', ss₂, rfl, hs', -⟩ := List.map_eq_cons_iff.mp hrest
  refine ⟨s, s', ⟨ss₁, ss₂, by simp⟩, ?_, ?_⟩
  · rw [hs, List.getLast?_concat]
    rfl
  · rw [hs']
    rfl

/-- Tokens that nothing stands between, blanks and comments apart, are in one statement. -/
theorem not_parts_ofScript (hscan : scanSignificant script = xs ++ t :: u :: zs)
    (ht : ¬ t.isMark ';') (hu : ¬ u.isMark ';') : ¬ Parts (ofScript script) t u := by
  intro hparts
  obtain ⟨g, hg, hpair⟩ := exists_mem_groups_pair ht hu xs zs
  have hmem : g ∈ (ofScript script).map tokens := by
    rw [map_tokens_ofScript, hscan]
    refine List.mem_filter.mpr ⟨hg, ?_⟩
    cases g with
    | nil => exact absurd hpair.length_le (by simp)
    | cons => rfl
  obtain ⟨s, hs, rfl⟩ := List.mem_map.mp hmem
  exact hparts.not_isInfix (ordered_flatMap_tokens script) hs hpair

/-- Tokens that only semicolons stand between are parted. -/
theorem parts_ofScript (hscan : scanSignificant script = xs ++ t :: (ys ++ u :: zs))
    (ht : ¬ t.isMark ';') (hu : ¬ u.isMark ';') (hys : ∀ y ∈ ys, y.isMark ';') (hne : ys ≠ []) :
    Parts (ofScript script) t u := by
  obtain ⟨m, ms, rfl⟩ := List.exists_cons_of_ne_nil hne
  rw [List.forall_mem_cons] at hys
  obtain ⟨before, g, hbefore⟩ := exists_groups_concat ht xs
  obtain ⟨g', after, hafter⟩ := exists_groups_marks hys.2 hu zs
  have hgroups : groups (scanSignificant script) =
      (before ++ [g ++ [t]]) ++ (List.replicate ms.length [] ++ (u :: g') :: after) := by
    rw [hscan, List.cons_append, List.append_cons, groups_append hys.1, hbefore, hafter]
  have hmap : (ofScript script).map tokens = before.filter (!·.isEmpty) ++
      (g ++ [t]) :: (u :: g') :: after.filter (!·.isEmpty) := by
    rw [map_tokens_ofScript, hgroups]
    simp
  exact parts_of_map_tokens hmap

/-- Two tokens that follow each other are parted exactly if a semicolon stands between
them. -/
theorem parts_ofScript_iff (hscan : Token.scan script = xs ++ t :: (ys ++ u :: zs))
    (ht : t.isContent) (hu : u.isContent) (hys : ∀ y ∈ ys, ¬ y.isContent) :
    Parts (ofScript script) t u ↔ ∃ y ∈ ys, y.isMark ';' := by
  simp only [isContent, Bool.and_eq_true, Bool.not_eq_true'] at ht hu hys
  have hnot {t : Token} (h : t.isMark ';' = false) : ¬ t.isMark ';' := by simp [h]
  have hsignificant : scanSignificant script = xs.filter Token.isSignificant ++
      t :: (ys.filter Token.isSignificant ++ u :: zs.filter Token.isSignificant) := by
    rw [scanSignificant, hscan, List.filter_append, List.filter_cons_of_pos ht.1,
      List.filter_append, List.filter_cons_of_pos hu.1]
  -- Blanks and comments apart, there are only semicolons between the two tokens.
  have hmarks : ∀ m ∈ ys.filter Token.isSignificant, m.isMark ';' := by
    intro m hm
    obtain ⟨hmem, hsig⟩ := List.mem_filter.mp hm
    by_contra hmark
    exact hys m hmem ⟨hsig, by simpa using hmark⟩
  constructor
  · intro hparts
    by_contra hnone
    have hempty : ys.filter Token.isSignificant = [] :=
      List.eq_nil_iff_forall_not_mem.mpr fun m hm =>
        hnone ⟨m, (List.mem_filter.mp hm).1, hmarks m hm⟩
    rw [hempty, List.nil_append] at hsignificant
    exact not_parts_ofScript hsignificant (hnot ht.2) (hnot hu.2) hparts
  · rintro ⟨y, hy, hmark⟩
    have hsig : y.isSignificant := by rw [isSignificant, kind_of_isMark hmark]
    exact parts_ofScript hsignificant (hnot ht.2) (hnot hu.2) hmarks
      (List.ne_nil_of_mem (List.mem_filter.mpr ⟨hy, hsig⟩))

/-! ## Spans -/

theorem map_index_number (index : Nat) (gs : List (List Token)) :
    (number index gs).map Statement.index = List.range' index gs.length := by
  induction gs generalizing index with
  | nil => rfl
  | cons g gs ih => rw [number, List.map_cons, ih, List.length_cons, List.range'_succ]

theorem span_eq (h : s.tokens ≠ []) :
    s.span = ⟨(s.tokens.head h).offset, (s.tokens.getLast h).stop⟩ := by
  simp only [span, List.head?_eq_some_head h, List.getLast?_eq_some_getLast h]

theorem span_bounds (hs : s ∈ ofScript script) :
    0 ≤ s.span.start ∧ s.span.start < s.span.stop ∧ s.span.stop ≤ script.length := by
  have hne := tokens_ne_nil hs
  have hordered := ordered_tokens hs
  have hfirst := hordered.1 _ (List.head_mem hne)
  have hlast := hordered.le_getLast (List.getLast?_eq_some_getLast hne) (List.head_mem hne)
  have hstop := ((Lexer.cut_scanFrom 0 script.toList).mem_bounds _
    ((sublist_scan hs).subset (List.getLast_mem hne))).2
  rw [String.length_toList] at hstop
  rw [span_eq hne]
  dsimp only
  omega

theorem pairwise_span (script : String) :
    (ofScript script).Pairwise fun s s' => s.span.stop ≤ s'.span.start := by
  have hpairwise := (List.pairwise_flatMap.mp (ordered_flatMap_tokens script).2).2
  refine hpairwise.imp_of_mem fun hs hs' hle => ?_
  rw [span_eq (tokens_ne_nil hs), span_eq (tokens_ne_nil hs')]
  exact Int.ofNat_le.mpr (hle _ (List.getLast_mem _) _ (List.head_mem _))

/-! ## Gaps -/

/-- The span covers a part of the text `b` at `o`, before `r`, which is made of tokens that
belong to no statement. -/
def IsGap (r : List Char) (o : Nat) (b : List Char) (gap : Span) : Prop :=
  ∃ x part y ts, b = x ++ (part ++ y) ∧
    gap = ⟨(o + x.length : Nat), (o + x.length + part.length : Nat)⟩ ∧
    Lexer.Cut (y ++ r) (o + x.length) part ts ∧ ∀ t ∈ ts, ¬ t.isContent

/-- What is left over behind a part of a text is left over of the whole. -/
theorem IsGap.append_left {r b : List Char} {o : Nat} {gap : Span} (front : List Char)
    (h : IsGap r (o + front.length) b gap) : IsGap r o (front ++ b) gap := by
  obtain ⟨x, part, y, ts, rfl, rfl, hcut, hts⟩ := h
  refine ⟨front ++ x, part, y, ts, by rw [List.append_assoc], ?_, ?_, hts⟩
  · rw [List.length_append, Nat.add_assoc]
  · rwa [List.length_append, ← Nat.add_assoc]

/-- Between statements that hold all content of a text there are tokens without any. -/
theorem isGap_of_mem_gaps {r b : List Char} {o : Nat} (h : Lexer.Cut r o b ts)
    (hts : ts.filter isContent = ss.flatMap tokens) (hss : ∀ s ∈ ss, s.tokens ≠ []) :
    ∀ gap ∈ gaps o (o + b.length : Nat) ss, IsGap r o b gap := by
  induction ss generalizing o b ts with
  | nil =>
      intro gap hgap
      obtain rfl := List.mem_singleton.mp hgap
      refine ⟨[], b, [], ts, (List.append_nil b).symm, rfl, h, ?_⟩
      exact List.filter_eq_nil_iff.mp hts
  | cons s ss ih =>
      rw [List.forall_mem_cons] at hss
      obtain ⟨us, vs, rfl, hus, hvs⟩ := List.filter_eq_append_iff.mp hts
      obtain ⟨xs, run, ys, rfl, hrun, hhead, hlast, hys⟩ := exists_trimmed hus hss.1
      -- Of the tokens up to the next statement, `run` is what this one spans.
      rw [List.append_assoc, List.append_assoc] at h
      obtain ⟨front, b, rfl, hfront, hb⟩ := h.of_append
      obtain ⟨part, b, rfl, hpart, hb⟩ := hb.of_append
      have hxs : xs.filter isContent = [] := by
        rw [List.filter_append, List.filter_append, hrun, List.filter_eq_nil_iff.mpr hys,
          List.append_nil] at hus
        exact List.append_left_eq_self.mp hus
      have hspan : s.span = ⟨(o + front.length : Nat),
          (o + front.length + part.length : Nat)⟩ := by
        have hoffset := hpart.offset_head _ (hhead ▸ List.head?_eq_some_head hss.1)
        have hstop := hpart.stop_getLast _ (hlast ▸ List.getLast?_eq_some_getLast hss.1)
        rw [span_eq hss.1, hoffset, hstop]
      have hstop : o + (front ++ (part ++ b)).length =
          o + front.length + part.length + b.length := by
        simp only [List.length_append]
        omega
      intro gap hgap
      rw [gaps, hspan, hstop] at hgap
      rcases List.mem_cons.mp hgap with rfl | hgap
      · exact ⟨[], front, part ++ b, xs, rfl, rfl, hfront, List.filter_eq_nil_iff.mp hxs⟩
      · have hlater := ih hb
          (by rw [List.filter_append, List.filter_eq_nil_iff.mpr hys, List.nil_append, hvs,
            List.flatMap_def])
          hss.2 gap hgap
        exact (hlater.append_left part).append_left front

/-- The text in a gap is read as tokens that belong to no statement. -/
theorem IsGap.not_isContent {gap : Span} (h : IsGap [] 0 script.toList gap)
    (ht : t ∈ Token.scan (gap.slice script)) : ¬ t.isContent := by
  obtain ⟨x, part, y, ts, hscript, rfl, hcut, hts⟩ := h
  have hslice := Span.slice_append x part y
  rw [← hscript, String.ofList_toList] at hslice
  have hends : ¬ endsInDollar ts := fun hends => by
    obtain ⟨d, hd, hdollar⟩ := exists_getLast?_of_endsInDollar hends
    refine hts d (List.mem_of_getLast? hd) ?_
    rw [isContent, isSignificant, isMark, kind_of_isMark hdollar]
    decide
  rw [Nat.zero_add, hslice, Token.scan, String.toList_ofList,
    hcut.scanFrom_eq_iff.mpr hends] at ht
  obtain ⟨u, hu, rfl⟩ := List.mem_map.mp ht
  exact hts u hu

/-- Whatever the script is, its statements are what the semicolons make of it. -/
theorem isPartition_ofScript (script : String) : IsPartition script (ofScript script) := by
  constructor
  case tokens_ne_nil => exact fun s hs => tokens_ne_nil hs
  case index =>
    rw [ofScript, ofTokens, map_index_number, List.range_eq_range', ← List.length_map tokens,
      map_tokens_number]
  case isSignificant =>
    intro s hs t ht
    have hmem : t ∈ (Token.scan script).filter isContent :=
      flatMap_tokens_ofScript script ▸ List.mem_flatMap.mpr ⟨s, hs, ht⟩
    simpa [isContent] using (List.mem_filter.mp hmem).2
  case tokens => exact flatMap_tokens_ofScript script
  case parts_iff => exact parts_ofScript_iff
  case bounds => exact fun s hs => span_bounds hs
  case increasing => exact pairwise_span script
  case gaps =>
    intro gap hgap t ht
    have hcut := Lexer.cut_scanFrom 0 script.toList
    refine IsGap.not_isContent (isGap_of_mem_gaps hcut (flatMap_tokens_ofScript script).symm
      (fun s hs => tokens_ne_nil hs) gap ?_) ht
    rwa [Nat.zero_add, String.length_toList]

end Statement

end SqlTables
