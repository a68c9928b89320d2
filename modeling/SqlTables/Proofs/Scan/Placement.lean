import SqlTables.Proofs.Scan.Reports
import SqlTables.Proofs.Scan.Spelling

/-!
# Where a scan reports

What a group will report is a matter of three spans that it remembers: its parenthesis, the `WITH`
clause that is being read, and the name that is being read. `Frame.IsPlaced` says that these, and
what has been reported so far, mark tokens that have been read. A token keeps this for every group
of the stack (`Scan.isPlaced_step`), and so do the groups that are closed at the end, so each
diagnostic of a scan marks tokens of its statement (`Scan.pointsAt_of_mem_find`).
-/

namespace SqlTables

/-- The diagnostic has one span, which is primary and marks some of the tokens. -/
def Diagnostic.PointsAt (tokens : List Token) (d : Diagnostic) : Prop :=
  ∃ span label, d.spans = [⟨span, true, label⟩] ∧ span.Marks tokens

theorem Diagnostic.PointsAt.mono {ts us : List Token} {d : Diagnostic} (h : d.PointsAt ts)
    (hsub : ts ⊆ us) : d.PointsAt us := by
  obtain ⟨span, label, hspans, hmarks⟩ := h
  exact ⟨span, label, hspans, hmarks.mono hsub⟩

theorem Token.marks_span {t : Token} {ts : List Token} (ht : t ∈ ts) (hlt : t.offset < t.stop) :
    t.span.Marks ts :=
  ⟨⟨⟨t, ht, rfl⟩, t, ht, rfl⟩, Int.ofNat_lt.mpr hlt⟩

namespace Scan

open Token

variable {limit : Nat} {s : Scan} {t : Token} {rest ts us : List Token} {d : Diagnostic}

/-- The spans that a group remembers mark some of the tokens, and so does what it has reported. -/
structure Frame.IsPlaced (tokens : List Token) (f : Frame) : Prop where
  opener : ∀ span ∈ f.opener, span.Marks tokens
  clause : ∀ span ∈ f.body.clause?, span.Marks tokens
  name : ∀ n ∈ f.body.pending?, n.span.Marks tokens
  diagnostics : ∀ d ∈ f.diagnostics.toList, d.PointsAt tokens

theorem Frame.clause?_absorb (f inner : Frame) :
    (f.absorb inner).body.clause? = f.body.clause? := by
  obtain h | ⟨q, tree, hq, -, -, h⟩ := f.absorb_body inner
  · rw [h]
  · obtain ⟨base, branch, heq⟩ := q.withScope_eq tree.base
    rw [h, heq, hq]
    rfl

/-- A group that is opened reads no clause and no name yet. -/
theorem Surroundings.Enters.reads_nothing {w : Surroundings} {body : Body}
    (h : w.Enters rest body) : body.clause? = none ∧ body.pending? = none := by
  cases h with
  | expression scope =>
      rw [Surroundings.expression]
      split <;> exact ⟨rfl, rfl⟩
  | subquery scope =>
      rw [Surroundings.subquery]
      split <;> exact ⟨rfl, rfl⟩
  | operand q =>
      rw [Query.operandGroup]
      repeat' split
      all_goals exact ⟨rfl, rfl⟩

namespace Frame.IsPlaced

variable {f inner : Frame}

theorem mono (h : f.IsPlaced ts) (hsub : ts ⊆ us) : f.IsPlaced us where
  opener span hspan := (h.opener span hspan).mono hsub
  clause span hspan := (h.clause span hspan).mono hsub
  name n hn := (h.name n hn).mono hsub
  diagnostics d hd := (h.diagnostics d hd).mono hsub

/-- What may be reported in a group marks tokens that have been read. -/
theorem pointsAt (h : f.IsPlaced ts) (hd : f.body.Reports d) : d.PointsAt ts := by
  cases hd with
  | malformed hclause => exact ⟨_, _, rfl, h.clause _ hclause⟩
  | function hname => exact ⟨_, _, rfl, h.name _ hname⟩

/-- Taking in a group inside this one adds its reports. -/
theorem absorb (h : f.IsPlaced ts) (hd : ∀ d ∈ inner.diagnostics.toList, d.PointsAt ts) :
    (f.absorb inner).IsPlaced ts where
  opener := h.opener
  clause span hspan := h.clause span (by rwa [← f.clause?_absorb inner])
  name n hn := h.name n (by rwa [← (Frame.absorb_mode f inner).2.2.2.2])
  diagnostics := by
    rw [diagnostics_absorb]
    exact List.forall_mem_append.mpr ⟨h.diagnostics, hd⟩

/-- A group that is closed at the end reports what is being read in it, and its parenthesis. -/
theorem pointsAt_giveUp (h : f.IsPlaced ts) :
    ∀ d ∈ f.settle.giveUp.diagnostics.toList, d.PointsAt ts := by
  obtain ⟨ds, hds, heq⟩ := diagnostics_settle f
  rw [diagnostics_giveUp, heq, settle_opener, List.forall_mem_append, List.forall_mem_append,
    List.forall_mem_map]
  refine ⟨⟨h.diagnostics, fun d hd => h.pointsAt (hds d hd)⟩, fun span hspan => ?_⟩
  exact ⟨_, _, rfl, h.opener span (Option.mem_toList.mp hspan)⟩

end Frame.IsPlaced

/-! ## One token -/

/-- A name goes on up to the last token. -/
theorem marks_of_extend? {n longer : DottedName} (hts : Ordered (ts ++ [t]))
    (h : n.extend? t = some longer) (hn : n.span.Marks ts) : longer.span.Marks (ts ++ [t]) := by
  obtain ⟨⟨⟨first, hfirst, hstart⟩, -⟩, -⟩ := hn
  have hbegin := DottedName.start_of_extend? h
  have hend := (DottedName.stop_of_extend? h).1
  rw [ordered_append] at hts
  have hlt := hts.1.1 first hfirst
  have hle := hts.2.2 first hfirst t List.mem_cons_self
  have hlast := hts.2.1.1 t List.mem_cons_self
  simp only [DottedName.span] at hstart
  refine ⟨⟨⟨first, List.mem_append_left _ hfirst, ?_⟩, t, by simp, ?_⟩, ?_⟩
  · simp only [DottedName.span, hbegin, hstart]
  · simp only [DottedName.span, hend]
  · simp only [DottedName.span, hbegin, hend]
    omega

/-- The innermost group with what a token brings. -/
theorem isPlaced_take (hts : Ordered (ts ++ [t])) (h : s.top.IsPlaced ts) :
    (s.top.take (s.outcome limit t rest)).IsPlaced (ts ++ [t]) := by
  have hsub : ts ⊆ ts ++ [t] := List.subset_append_left ts [t]
  have hlast : t.offset < t.stop := hts.1 t (by simp)
  have hnotes := notes_outcome limit s t rest
  constructor
  · exact (h.mono hsub).opener
  · intro span hspan
    obtain hbefore | rfl := hnotes.clause span hspan
    · exact (h.mono hsub).clause span hbefore
    · exact marks_span (by simp) hlast
  · intro n hn
    obtain ⟨rfl, -⟩ | ⟨m, hm, hextend⟩ := pending?_outcome hn
    · exact marks_span (by simp) hlast
    · exact marks_of_extend? hts hextend (h.name m hm)
  · rw [diagnostics_take, List.forall_mem_append]
    exact ⟨(h.mono hsub).diagnostics, fun d hd => (h.pointsAt (hnotes.reports d hd)).mono hsub⟩

/-- A group that is opened remembers its parenthesis only. -/
theorem isPlaced_enter {body : Body} (hts : Ordered (ts ++ [t]))
    (h : (s.outcome limit t rest).action = .enter body) :
    Frame.IsPlaced (ts ++ [t]) { opener := some t.span, body } := by
  obtain ⟨hclause, hname⟩ := (enters_of_enter h).reads_nothing
  constructor
  · rintro span ⟨⟩
    exact marks_span (by simp) (hts.1 t (by simp))
  · simp [hclause]
  · simp [hname]
  · simp

/-- A token leaves every group with spans of tokens that have been read. -/
theorem isPlaced_step (limit : Nat) (rest : List Token) (hs : IsNest s.top s.below)
    (hts : Ordered (ts ++ [t])) (h : ∀ f ∈ s.top :: s.below, f.IsPlaced ts) :
    ∀ f ∈ (s.step limit t rest).top :: (s.step limit t rest).below, f.IsPlaced (ts ++ [t]) := by
  rw [List.forall_mem_cons] at h
  have hsub : ts ⊆ ts ++ [t] := List.subset_append_left ts [t]
  have htop : (s.top.take (s.outcome limit t rest)).IsPlaced (ts ++ [t]) :=
    isPlaced_take hts h.1
  have hbelow : ∀ f ∈ s.below, f.IsPlaced (ts ++ [t]) := fun f hf => (h.2 f hf).mono hsub
  cases outcome_shift limit t rest hs with
  | stay haction =>
      rw [step_of_stay haction]
      exact List.forall_mem_cons.mpr ⟨htop, hbelow⟩
  | enter body haction =>
      rw [step_of_enter haction]
      exact List.forall_mem_cons.mpr
        ⟨isPlaced_enter hts haction, List.forall_mem_cons.mpr ⟨htop, hbelow⟩⟩
  | leave haction hclose hinner hne =>
      obtain ⟨outer, below, heq⟩ := List.exists_cons_of_ne_nil hne
      rw [heq, List.forall_mem_cons] at hbelow
      rw [step_of_leave haction heq]
      exact List.forall_mem_cons.mpr ⟨hbelow.1.absorb htop.diagnostics, hbelow.2⟩

/-! ## All tokens -/

theorem isPlaced_advance (limit : Nat) (after us : List Token) (hus : Ordered us) :
    ∀ f ∈ (start.advance limit after us).top :: (start.advance limit after us).below,
      f.IsPlaced us := by
  induction us using List.reverseRecOn generalizing after with
  | nil =>
      rw [advance_nil]
      refine List.forall_mem_singleton.mpr ?_
      constructor <;> simp [start, Body.clause?, Body.pending?, Query.statement, Mode.clause?,
        Mode.pending?]
  | append_singleton us t ih =>
      rw [advance_append, advance_cons, advance_nil]
      have hbefore : Ordered us := ((ordered_append us [t]).mp hus).1
      exact isPlaced_step limit _ (isNest_advance limit _ us isNest_start) hus (ih _ hbefore)

theorem pointsAt_unwind (f : Frame) (fs : List Frame) (hf : f.IsPlaced ts)
    (hfs : ∀ g ∈ fs, g.IsPlaced ts) :
    ∀ d ∈ (unwind f fs).diagnostics.toList, d.PointsAt ts := by
  induction fs generalizing f with
  | nil => exact hf.pointsAt_giveUp
  | cons g gs ih =>
      rw [List.forall_mem_cons] at hfs
      exact ih _ (hfs.1.absorb hf.pointsAt_giveUp) hfs.2

theorem marks_of_mem_find {r : Reference} (hts : Ordered ts) (hr : r ∈ (find limit ts).references) :
    r.span.Marks ts := by
  obtain ⟨xs, run, ys, heq, hspelled⟩ := (tiles_find limit ts).exists_run hr
  have hsub : run.Sublist ts := by simp [heq]
  exact (hspelled.marks (hts.sublist hsub)).mono hsub.subset

/-- Every diagnostic of a scan marks some of the tokens. -/
theorem pointsAt_of_mem_find (limit : Nat) (hts : Ordered ts) :
    ∀ d ∈ (find limit ts).diagnostics, d.PointsAt ts := by
  have hplaced := isPlaced_advance limit [] ts hts
  rw [List.forall_mem_cons] at hplaced
  have hunresolved : ∀ r ∈ (find limit ts).references.filter (·.role = .unresolved),
      (Diagnostic.unresolvedReference r).PointsAt ts := fun r hr =>
    ⟨_, _, rfl, marks_of_mem_find hts (List.mem_filter.mp hr).1⟩
  rw [find, run_eq_advance] at hunresolved ⊢
  rw [List.forall_mem_append, List.forall_mem_map]
  exact ⟨pointsAt_unwind _ _ hplaced.1 hplaced.2, hunresolved⟩

end Scan

end SqlTables
