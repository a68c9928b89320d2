import SqlTables.Proofs.Scan.Gather

/-!
# What a scan reports

A token reports only what is being read before it: a `WITH` clause that cannot be read further, or
a name that is that of a table function (`Scan.notes_outcome`). No token says anything about a
parenthesis that is never closed. What is said of those comes from the groups that are still open
at the end, one after the other from the innermost outwards (`Scan.diagnostics_unwind`).
Behind it stand the references that are not resolved, and that is all that a scan reports
(`Statement.code_of_mem_scan`).
-/

namespace SqlTables

namespace Findings

/-- What is reported about parentheses that are never closed. -/
def unclosed (f : Findings) : List Diagnostic :=
  f.diagnostics.filter (·.code = .unclosedParenthesis)

/-- The references that are not resolved. -/
def unresolved (f : Findings) : List Reference := f.references.filter (·.role = .unresolved)

end Findings

namespace Scan

variable {limit : Nat} {s : Scan} {t : Token} {rest : List Token}

/-- Diagnostics about clauses that cannot be read and table functions only. -/
def AboutClauses (ds : List Diagnostic) : Prop :=
  ∀ d ∈ ds, d.code = .malformedCte ∨ d.code = .tableFunctionSkipped

theorem aboutClauses_nil : AboutClauses [] := fun _ h => by cases h

theorem aboutClauses_append {ds es : List Diagnostic} :
    AboutClauses (ds ++ es) ↔ AboutClauses ds ∧ AboutClauses es := List.forall_mem_append

theorem AboutClauses.filter_eq_nil {ds : List Diagnostic} (h : AboutClauses ds) :
    ds.filter (·.code = .unclosedParenthesis) = [] := by
  refine List.filter_eq_nil_iff.mpr fun d hd => ?_
  rcases h d hd with hcode | hcode
  · rw [hcode]
    decide
  · rw [hcode]
    decide

/-- The `WITH` clause that is being read. -/
def Mode.clause? : Mode → Option Span
  | .cteName clause _ | .cteColumns clause | .cteAs clause | .cteBody clause _
  | .cteNext clause => some clause
  | _ => none

@[simp] theorem Mode.clause?_follow (follow : Follow) : follow.mode.clause? = none := by
  cases follow <;> rfl

/-- The `WITH` clause that is being read in the group. -/
def Body.clause? : Body → Option Span
  | .query q => q.mode.clause?
  | _ => none

/-- What may be reported in a group: that the clause which is being read cannot be, and that the
name which is being read is a function. -/
inductive Body.Reports (b : Body) : Diagnostic → Prop
  | malformed {clause : Span} (h : b.clause? = some clause) : Reports b (.malformedCte clause)
  | function {n : DottedName} (h : b.pending? = some n) : Reports b (.tableFunctionSkipped n)

/-- The outcome reports nothing, and a clause that is being read then begins with the token. -/
structure Outcome.IsSilent (t : Token) (o : Outcome) : Prop where
  diagnostics_eq : o.diagnostics = []
  clause_eq : ∀ clause ∈ o.body.clause?, clause = t.span

/-- What the outcome reports is about the group before it, and a clause that is being read then
was so before or begins with the token. -/
structure Body.Notes (b : Body) (t : Token) (o : Outcome) : Prop where
  reports : ∀ d ∈ o.diagnostics, b.Reports d
  clause : ∀ clause ∈ o.body.clause?, b.clause? = some clause ∨ clause = t.span

theorem Body.Reports.aboutClauses {b : Body} {ds : List Diagnostic}
    (h : ∀ d ∈ ds, b.Reports d) : AboutClauses ds := fun d hd => by
  cases h d hd with
  | malformed => exact Or.inl rfl
  | function => exact Or.inr rfl

namespace Outcome

variable {b : Body} {o : Outcome}

theorem isSilent_of_no_clause (h : o.diagnostics = []) (hclause : o.body.clause? = none) :
    o.IsSilent t :=
  ⟨h, by simp [hclause]⟩

theorem IsSilent.notes (h : o.IsSilent t) (b : Body) : b.Notes t o :=
  ⟨by simp [h.diagnostics_eq], fun clause hclause => Or.inr (h.clause_eq clause hclause)⟩

end Outcome

namespace Body.Notes

variable {b : Body} {o : Outcome}

theorem of_clause (h : o.diagnostics = []) (hclause : o.body.clause? = b.clause?) :
    b.Notes t o :=
  ⟨by simp [h], fun clause hmem => Or.inl (by rwa [← hclause])⟩

theorem found (h : b.Notes t o) (r : Reference) : b.Notes t (o.found r) := ⟨h.reports, h.clause⟩

theorem reported (h : b.Notes t o) {d : Diagnostic} (hd : b.Reports d) :
    b.Notes t (o.reported d) :=
  ⟨List.forall_mem_cons.mpr ⟨hd, h.reports⟩, h.clause⟩

end Body.Notes

namespace Query

open Outcome

variable {w : Surroundings} {q : Query} {clause : Span}

/-! ## Tokens that report nothing -/

theorem isSilent_clauseStep (fresh : Bool) : (clauseStep w q fresh t rest).IsSilent t := by
  unfold clauseStep
  split
  · exact isSilent_of_no_clause rfl rfl
  · exact isSilent_of_no_clause rfl rfl
  · dsimp only
    split
    case h_5 =>
      split
      · exact ⟨rfl, by simp [Body.clause?, Mode.clause?, goto]⟩
      · exact isSilent_of_no_clause rfl rfl
    all_goals try split
    all_goals exact isSilent_of_no_clause rfl rfl
  · exact isSilent_of_no_clause rfl rfl

theorem isSilent_followStep (follow : Follow) : (followStep w q follow t rest).IsSilent t := by
  cases follow with
  | list =>
      rw [followStep, listedStep]
      split
      · exact isSilent_of_no_clause rfl rfl
      · exact isSilent_clauseStep _
  | clause => exact isSilent_clauseStep _

theorem isSilent_aliasStep (follow : Follow) : (aliasStep w q follow t rest).IsSilent t := by
  unfold aliasStep
  split
  · exact isSilent_of_no_clause rfl rfl
  · split
    · exact isSilent_of_no_clause rfl rfl
    · exact isSilent_followStep _

theorem isSilent_operandEndStep (follow : Follow) :
    (operandEndStep w q follow t rest).IsSilent t := by
  unfold operandEndStep
  split
  · exact isSilent_of_no_clause rfl rfl
  · exact isSilent_aliasStep _

theorem isSilent_sampleStep (follow : Follow) : (sampleStep w q follow t rest).IsSilent t := by
  unfold sampleStep
  split
  · exact isSilent_of_no_clause rfl rfl
  · exact isSilent_aliasStep _

theorem isSilent_columnsStep (follow : Follow) : (columnsStep w q follow t rest).IsSilent t := by
  unfold columnsStep
  split
  · exact isSilent_of_no_clause rfl (Mode.clause?_follow follow)
  · exact isSilent_followStep _

theorem isSilent_operandStep (follow : Follow) : (operandStep w q follow t rest).IsSilent t := by
  unfold operandStep
  repeat' split
  · exact isSilent_of_no_clause rfl rfl
  · exact isSilent_of_no_clause rfl rfl
  · exact isSilent_of_no_clause rfl rfl
  · exact isSilent_followStep _

theorem isSilent_targetNameStep : (targetNameStep w q t rest).IsSilent t := by
  unfold targetNameStep
  split
  · exact isSilent_of_no_clause rfl rfl
  · exact isSilent_clauseStep _

theorem isSilent_targetStep : (targetStep w q t rest).IsSilent t := by
  unfold targetStep
  split
  · exact isSilent_of_no_clause rfl rfl
  · exact isSilent_targetNameStep

theorem isSilent_createStep : (createStep w q t rest).IsSilent t := by
  unfold createStep
  repeat' split
  · exact isSilent_of_no_clause rfl rfl
  · exact isSilent_of_no_clause rfl rfl
  · exact isSilent_clauseStep _

theorem isSilent_createNameStep (optional : List Keyword) :
    (createNameStep w q optional t rest).IsSilent t := by
  unfold createNameStep
  repeat' split
  · exact isSilent_of_no_clause rfl rfl
  · exact isSilent_of_no_clause rfl rfl
  · exact isSilent_clauseStep _

/-! ## Tokens of a `WITH` clause -/

theorem notes_cteFailure (hq : q.mode.clause? = some clause) :
    (Body.query q).Notes t (cteFailure w q clause t rest) :=
  ((isSilent_clauseStep true).notes _).reported (.malformed hq)

theorem notes_cteNameStep (first : Bool) (hq : q.mode.clause? = some clause) :
    (Body.query q).Notes t (cteNameStep w q clause first t rest) := by
  unfold cteNameStep
  repeat' split
  · exact .of_clause rfl hq.symm
  · exact .of_clause rfl hq.symm
  · exact notes_cteFailure hq

theorem notes_cteAsStep (hq : q.mode.clause? = some clause) :
    (Body.query q).Notes t (cteAsStep w q clause t rest) := by
  unfold cteAsStep
  split
  · exact .of_clause rfl hq.symm
  · exact notes_cteFailure hq

theorem notes_cteColumnsStep (hq : q.mode.clause? = some clause) :
    (Body.query q).Notes t (cteColumnsStep w q clause t rest) := by
  unfold cteColumnsStep
  split
  · exact .of_clause rfl hq.symm
  · exact notes_cteAsStep hq

theorem notes_cteBodyStep (optional : List Keyword) (hq : q.mode.clause? = some clause) :
    (Body.query q).Notes t (cteBodyStep w q clause optional t rest) := by
  unfold cteBodyStep
  repeat' split
  · exact .of_clause rfl hq.symm
  · exact .of_clause rfl hq.symm
  · exact notes_cteFailure hq

theorem notes_cteNextStep (hq : q.mode.clause? = some clause) :
    (Body.query q).Notes t (cteNextStep w q clause t rest) := by
  unfold cteNextStep
  split
  · exact .of_clause rfl hq.symm
  · exact (isSilent_clauseStep true).notes _

/-! ## Tokens behind a name -/

theorem notes_nameEndStep {purpose : Purpose} {n : DottedName} (hq : q.mode.pending? = some n) :
    (Body.query q).Notes t (nameEndStep w q purpose n t rest) := by
  cases purpose with
  | operand follow =>
      unfold nameEndStep
      dsimp only
      split
      · exact ⟨List.forall_mem_singleton.mpr (.function hq),
          by simp [Body.clause?, Mode.clause?, goto]⟩
      · exact ((isSilent_operandEndStep follow).notes _).found _
  | target => exact ((isSilent_operandEndStep .clause).notes _).found _
  | created =>
      have hclause : (Body.query q).Notes t (clauseStep w q false t rest) :=
        (isSilent_clauseStep false).notes (.query q)
      unfold nameEndStep
      dsimp only
      split
      · exact hclause.found _
      · exact hclause

theorem notes_nameStep {purpose : Purpose} {n : DottedName} (hq : q.mode.pending? = some n) :
    (Body.query q).Notes t (nameStep w q purpose n t rest) := by
  unfold nameStep
  split
  · exact (isSilent_of_no_clause rfl rfl).notes _
  · exact notes_nameEndStep hq

theorem notes_step (w : Surroundings) (q : Query) (t : Token) (rest : List Token) :
    (Body.query q).Notes t (q.step w t rest) := by
  unfold step
  cases hmode : q.mode with
  | clauses fresh => exact (isSilent_clauseStep fresh).notes _
  | operand follow => exact (isSilent_operandStep follow).notes _
  | listed => exact (isSilent_followStep .list).notes _
  | target => exact isSilent_targetStep.notes _
  | targetName => exact isSilent_targetNameStep.notes _
  | name purpose n => exact notes_nameStep (by rw [hmode, Mode.pending?])
  | operandEnd follow => exact (isSilent_operandEndStep follow).notes _
  | sample follow => exact (isSilent_sampleStep follow).notes _
  | «alias» follow => exact (isSilent_aliasStep follow).notes _
  | columns follow => exact (isSilent_columnsStep follow).notes _
  | create => exact isSilent_createStep.notes _
  | createName optional => exact (isSilent_createNameStep optional).notes _
  | cteName clause first => exact notes_cteNameStep first (by rw [hmode, Mode.clause?])
  | cteColumns clause => exact notes_cteColumnsStep (by rw [hmode, Mode.clause?])
  | cteAs clause => exact notes_cteAsStep (by rw [hmode, Mode.clause?])
  | cteBody clause optional => exact notes_cteBodyStep optional (by rw [hmode, Mode.clause?])
  | cteNext clause => exact notes_cteNextStep (by rw [hmode, Mode.clause?])

theorem reports_settle (q : Query) : ∀ d ∈ q.settle.2, (Body.query q).Reports d := by
  intro d hd
  unfold settle at hd
  split at hd
  case h_3 hmode | h_4 hmode | h_5 hmode | h_6 hmode =>
    rw [List.mem_singleton.mp hd]
    exact .malformed (by rw [Body.clause?, hmode, Mode.clause?])
  all_goals cases hd

end Query

theorem isSilent_flat (f : Flat) (t : Token) : (f.step t).IsSilent t := by
  rcases f.step_turn t with ⟨n, longer, -, -, heq⟩ | ⟨before, -, hturn⟩
  · rw [heq]
    exact Outcome.isSilent_of_no_clause rfl rfl
  · generalize f.step t = o at hturn
    cases hturn <;> exact Outcome.isSilent_of_no_clause rfl rfl

/-! ## Any token -/

/-- What a token reports is about the innermost group. -/
theorem notes_outcome (limit : Nat) (s : Scan) (t : Token) (rest : List Token) :
    s.top.body.Notes t (s.outcome limit t rest) := by
  unfold outcome
  cases s.top.body with
  | query q => exact q.notes_step _ t rest
  | flat f => exact (isSilent_flat f t).notes _
  | expression scope =>
      dsimp only
      split
      · exact .of_clause rfl rfl
      · split
        · exact .of_clause rfl rfl
        · exact .of_clause rfl rfl

theorem aboutClauses_outcome (limit : Nat) (s : Scan) (t : Token) (rest : List Token) :
    AboutClauses (s.outcome limit t rest).diagnostics :=
  Body.Reports.aboutClauses (notes_outcome limit s t rest).reports

theorem diagnostics_take (f : Frame) (o : Outcome) :
    (f.take o).diagnostics.toList = f.diagnostics.toList ++ o.diagnostics := by
  simp [Frame.take]

theorem diagnostics_absorb (f inner : Frame) :
    (f.absorb inner).diagnostics.toList =
      f.diagnostics.toList ++ inner.diagnostics.toList := by
  simp [Frame.absorb]

/-- As long as tokens are read, no group has anything to say about its parenthesis. -/
theorem aboutClauses_advance (limit : Nat) (after us : List Token)
    (h : ∀ f ∈ s.top :: s.below, AboutClauses f.diagnostics.toList) (hs : IsNest s.top s.below) :
    ∀ f ∈ (s.advance limit after us).top :: (s.advance limit after us).below,
      AboutClauses f.diagnostics.toList := by
  induction us generalizing s with
  | nil => exact h
  | cons t us ih =>
      refine ih ?_ (isNest_step limit t _ hs)
      rw [List.forall_mem_cons] at h
      have htake :
          AboutClauses (s.top.take (s.outcome limit t (us ++ after))).diagnostics.toList := by
        rw [diagnostics_take]
        exact aboutClauses_append.mpr ⟨h.1, aboutClauses_outcome limit s t _⟩
      cases outcome_shift limit t (us ++ after) hs with
      | stay haction =>
          rw [step_of_stay haction]
          exact List.forall_mem_cons.mpr ⟨htake, h.2⟩
      | enter body haction =>
          rw [step_of_enter haction]
          exact List.forall_mem_cons.mpr ⟨aboutClauses_nil, List.forall_mem_cons.mpr ⟨htake, h.2⟩⟩
      | leave haction hclose hinner hne =>
          obtain ⟨outer, below, hbelow⟩ := List.exists_cons_of_ne_nil hne
          rw [hbelow, List.forall_mem_cons] at h
          rw [step_of_leave haction hbelow]
          refine List.forall_mem_cons.mpr ⟨?_, h.2.2⟩
          rw [diagnostics_absorb]
          exact aboutClauses_append.mpr ⟨h.2.1, htake⟩

/-- What a group still says at the end is about what is being read in it. -/
theorem diagnostics_settle (f : Frame) :
    ∃ ds, (∀ d ∈ ds, f.body.Reports d) ∧
      f.settle.diagnostics.toList = f.diagnostics.toList ++ ds := by
  unfold Frame.settle
  cases f.body with
  | query q => exact ⟨_, q.reports_settle, by simp⟩
  | expression scope => exact ⟨[], by simp, by simp⟩
  | flat g => exact ⟨[], by simp, by simp⟩

/-- A group that is given up reports its own parenthesis behind all that it has reported. -/
theorem diagnostics_giveUp (f : Frame) :
    f.giveUp.diagnostics.toList =
      f.diagnostics.toList ++ f.opener.toList.map .unclosedParenthesis := by
  cases hopener : f.opener with
  | none =>
      rw [giveUp_of_statement hopener]
      exact (List.append_nil _).symm
  | some span =>
      simp only [Frame.giveUp, hopener, Array.toList_push]
      rfl

theorem unclosed_giveUp (f : Frame) :
    (f.settle.giveUp.diagnostics.toList.filter (·.code = .unclosedParenthesis)) =
      f.diagnostics.toList.filter (·.code = .unclosedParenthesis) ++
        f.opener.toList.map .unclosedParenthesis := by
  obtain ⟨ds, hds, heq⟩ := diagnostics_settle f
  rw [diagnostics_giveUp, heq, settle_opener, List.filter_append, List.filter_append,
    (Body.Reports.aboutClauses hds).filter_eq_nil, List.append_nil]
  cases f.opener with
  | none => rfl
  | some span => rfl

/-- The groups that are open at the end are reported from the innermost outwards. -/
theorem diagnostics_unwind (f : Frame) (fs : List Frame)
    (h : ∀ g ∈ fs, AboutClauses g.diagnostics.toList) :
    (unwind f fs).diagnostics.toList.filter (·.code = .unclosedParenthesis) =
      f.diagnostics.toList.filter (·.code = .unclosedParenthesis) ++
        ((f :: fs).filterMap Frame.opener).map .unclosedParenthesis := by
  induction fs generalizing f with
  | nil =>
      rw [unwind, unclosed_giveUp]
      cases hopener : f.opener <;> simp [hopener]
  | cons g gs ih =>
      rw [List.forall_mem_cons] at h
      rw [unwind, ih _ h.2, diagnostics_absorb, List.filter_append, h.1.filter_eq_nil,
        List.nil_append, unclosed_giveUp, List.append_assoc]
      congr 1
      cases hopener : f.opener <;> simp [hopener, List.filterMap_cons]

/-! ## All that is reported -/

/-- The codes of what a scan may report. -/
def codes : List DiagnosticCode :=
  [.malformedCte, .tableFunctionSkipped, .unclosedParenthesis, .unresolvedReference]

/-- The codes of what a group may report, its end included. -/
def groupCodes : List DiagnosticCode :=
  [.malformedCte, .tableFunctionSkipped, .unclosedParenthesis]

theorem AboutClauses.mem_groupCodes {ds : List Diagnostic} (h : AboutClauses ds) :
    ∀ d ∈ ds, d.code ∈ groupCodes := fun d hd => by
  rcases h d hd with hcode | hcode
  · rw [hcode]
    decide
  · rw [hcode]
    decide

theorem code_of_mem_giveUp {f : Frame} (h : ∀ d ∈ f.diagnostics.toList, d.code ∈ groupCodes) :
    ∀ d ∈ f.settle.giveUp.diagnostics.toList, d.code ∈ groupCodes := by
  obtain ⟨ds, hds, heq⟩ := diagnostics_settle f
  rw [diagnostics_giveUp, heq, List.forall_mem_append, List.forall_mem_append, List.forall_mem_map]
  have hopener : DiagnosticCode.unclosedParenthesis ∈ groupCodes := by decide
  exact ⟨⟨h, (Body.Reports.aboutClauses hds).mem_groupCodes⟩, fun _ _ => hopener⟩

theorem code_of_mem_unwind (f : Frame) (fs : List Frame)
    (hf : ∀ d ∈ f.diagnostics.toList, d.code ∈ groupCodes)
    (hfs : ∀ g ∈ fs, ∀ d ∈ g.diagnostics.toList, d.code ∈ groupCodes) :
    ∀ d ∈ (unwind f fs).diagnostics.toList, d.code ∈ groupCodes := by
  induction fs generalizing f with
  | nil => exact code_of_mem_giveUp hf
  | cons g gs ih =>
      rw [List.forall_mem_cons] at hfs
      refine ih _ ?_ hfs.2
      rw [diagnostics_absorb, List.forall_mem_append]
      exact ⟨hfs.1, code_of_mem_giveUp hf⟩

/-- Behind what its groups report, a scan reports each unresolved reference. -/
theorem exists_diagnostics_find (limit : Nat) (ts : List Token) :
    ∃ ds, (∀ d ∈ ds, d.code ∈ groupCodes) ∧ (find limit ts).diagnostics =
      ds ++ (find limit ts).unresolved.map .unresolvedReference := by
  have hgroups := aboutClauses_advance (s := start) limit [] ts
    (List.forall_mem_singleton.mpr aboutClauses_nil) isNest_start
  rw [List.forall_mem_cons] at hgroups
  have hcodes := code_of_mem_unwind _ _ hgroups.1.mem_groupCodes
    fun g hg => (hgroups.2 g hg).mem_groupCodes
  rw [← run_eq_advance] at hcodes
  exact ⟨_, hcodes, rfl⟩

end Scan

namespace Statement

/-- A scan reports clauses and references that cannot be read, table functions, and parentheses
that are never closed. -/
theorem code_of_mem_scan (s : Statement) : ∀ d ∈ s.scan.diagnostics, d.code ∈ Scan.codes := by
  obtain ⟨ds, hds, heq⟩ := Scan.exists_diagnostics_find Scan.depthLimit s.tokens
  have hgroup : ∀ code ∈ Scan.groupCodes, code ∈ Scan.codes := by decide
  have hreference : DiagnosticCode.unresolvedReference ∈ Scan.codes := by decide
  rw [scan]
  dsimp only
  rw [heq, List.forall_mem_append, List.forall_mem_map]
  exact ⟨fun d hd => hgroup _ (hds d hd), fun _ _ => hreference⟩

/-- The references that are not resolved are reported one by one, in their order. -/
theorem unresolved_scan (s : Statement) :
    s.scan.diagnostics.filter (·.code = .unresolvedReference) =
      s.scan.unresolved.map .unresolvedReference := by
  obtain ⟨ds, hds, heq⟩ := Scan.exists_diagnostics_find Scan.depthLimit s.tokens
  have hother : ds.filter (·.code = .unresolvedReference) = [] := by
    refine List.filter_eq_nil_iff.mpr fun d hd hcode => ?_
    have hmem := hds d hd
    rw [of_decide_eq_true hcode] at hmem
    exact absurd hmem (by decide)
  have hself (rs : List Reference) :
      (rs.map Diagnostic.unresolvedReference).filter (·.code = .unresolvedReference) =
        rs.map .unresolvedReference :=
    List.filter_eq_self.mpr fun d hd => by
      obtain ⟨r, -, rfl⟩ := List.mem_map.mp hd
      rfl
  simp only [scan, Findings.unresolved] at heq ⊢
  rw [heq, List.filter_append, hother, hself, List.nil_append, List.filter_map, List.map_map]
  rfl

end Statement

end SqlTables
