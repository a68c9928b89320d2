import SqlTables.Proofs.Scan.Gather
import SqlTables.Proofs.Scan.Group

/-!
# The query of a statement

`Scan.AtQuery` says in which state a scan reads a query. Outside all parentheses that is
the query of the statement (`Scan.AtTop`). Between clauses most tokens are passed over:
`isIdle` says which, and a run of idle tokens and of closed groups leaves the state
as it is (`AtQuery.advance_idle`).
-/

namespace SqlTables

namespace Scan

open Token

/-- The words that a query heeds wherever it expects nothing else. -/
def clauseWords : List Keyword :=
  [.UNION, .INTERSECT, .EXCEPT, .MINUS, .WITH, .FROM, .JOIN, .INTO, .OVERWRITE, .UPDATE,
    .MERGE, .USING, .CREATE]

/-- Whether a query passes over the token where it expects nothing else. -/
def isIdle (t : Token) : Bool :=
  !t.isMark '(' && !t.isMark ')' && !t.isAnyKeyword clauseWords

variable {limit : Nat} {s : Scan} {t : Token} {rest after : List Token}

theorem isIdle_of_keyword?_eq_none (h : t.keyword? = none) (hopen : ¬ t.isMark '(')
    (hclose : ¬ t.isMark ')') : isIdle t := by
  have hwords : ¬ t.isAnyKeyword clauseWords := fun hk => by
    obtain ⟨word, -, hword⟩ := isAnyKeyword_iff.mp hk
    rw [keyword?, kind_of_isKeyword hword] at h
    cases h
  simp [isIdle, hopen, hclose, hwords]

theorem isIdle_of_isMark {c : Char} (h : t.isMark c) (hc : c ≠ '(' ∧ c ≠ ')') :
    isIdle t := by
  have hopen := not_isMark_of_isMark h hc.1
  have hclose := not_isMark_of_isMark h hc.2
  exact isIdle_of_keyword?_eq_none (by simp [keyword?, kind_of_isMark h]) hopen hclose

theorem isIdle_of_isKeyword {word : Keyword} (h : t.isKeyword word)
    (hword : word ∉ clauseWords) : isIdle t := by
  have hopen := not_isMark_of_isKeyword h '('
  have hclose := not_isMark_of_isKeyword h ')'
  have hwords : ¬ t.isAnyKeyword clauseWords := by
    simpa [isAnyKeyword, kind_of_isKeyword h] using hword
  simp [isIdle, hopen, hclose, hwords]

theorem isIdle_of_isAnyKeyword {words : List Keyword} (h : t.isAnyKeyword words)
    (hwords : ∀ word ∈ words, word ∉ clauseWords) : isIdle t := by
  obtain ⟨word, hword, hkeyword⟩ := isAnyKeyword_iff.mp h
  exact isIdle_of_isKeyword hkeyword (hwords word hword)

theorem isCandidate_of_isName (h : t.isName) : isCandidate t := by
  rw [isCandidate, h, Bool.true_or]

/-- What can name a table is no word of a clause. -/
theorem isIdle_of_isCandidate (h : isCandidate t) : isIdle t := by
  have hopen := not_isMark_of_isCandidate h '('
  have hclose := not_isMark_of_isCandidate h ')'
  have hwords : ¬ t.isAnyKeyword clauseWords :=
    not_isAnyKeyword_of_isCandidate h (by decide)
  simp [isIdle, hopen, hclose, hwords]

theorem Query.clauseStep_of_isIdle (w : Surroundings) (q : Query) (fresh : Bool)
    (rest : List Token) (h : isIdle t) :
    clauseStep w q fresh t rest = { body := .query (q.goto (.clauses false)) } := by
  simp only [isIdle, Bool.and_eq_true, Bool.not_eq_true'] at h
  obtain ⟨⟨hopen, hclose⟩, hwords⟩ := h
  unfold clauseStep
  split
  · next hk => simp [isMark, hk] at hclose
  · next hk => simp [isMark, hk] at hopen
  · next word hk =>
      simp only [isAnyKeyword, hk, clauseWords] at hwords
      split <;> first | rfl | (exfalso; revert hwords; decide)
  · rfl

/-- Whether the token is read as the start of a clause wherever it goes on with no name. -/
def startsClause (t : Token) : Bool :=
  !isCandidate t && !t.isMark '(' && !t.isMark ',' &&
    !t.isAnyKeyword [.AS, .LATERAL, .TABLE, .TABLESAMPLE]

theorem startsClause_of_isMark (ht : t.isMark ')') : startsClause t := by
  simp [startsClause, isCandidate, isName, isMark, isAnyKeyword, kind_of_isMark ht]

theorem startsClause_of_isAnyKeyword {words : List Keyword} (ht : t.isAnyKeyword words)
    (hwords : ∀ word ∈ words, word ∉ nonReserved ++ [.AS, .LATERAL, .TABLE, .TABLESAMPLE]) :
    startsClause t := by
  obtain ⟨word, hmem, hkeyword⟩ := isAnyKeyword_iff.mp ht
  have hword := hwords word hmem
  rw [List.mem_append, not_or] at hword
  simpa [startsClause, isCandidate, isName, isMark, isAnyKeyword, kind_of_isKeyword hkeyword,
    hword.1] using hword.2

theorem Query.references_clauseStep (w : Surroundings) (q : Query) (fresh : Bool) (t : Token)
    (rest : List Token) : (clauseStep w q fresh t rest).references = [] := by
  unfold clauseStep
  split
  · rfl
  · rfl
  · dsimp only
    split <;> first | rfl | (split <;> rfl)
  · rfl

section StartsClause

variable (w : Surroundings) (q : Query) (rest : List Token) (ht : startsClause t)
include ht

theorem isCandidate_of_startsClause : isCandidate t = false := by
  simp only [startsClause, Bool.and_eq_true, Bool.not_eq_true'] at ht
  exact ht.1.1.1

theorem isMark_of_startsClause : t.isMark '(' = false ∧ t.isMark ',' = false := by
  simp only [startsClause, Bool.and_eq_true, Bool.not_eq_true'] at ht
  exact ⟨ht.1.1.2, ht.1.2⟩

theorem isKeyword_of_startsClause {word : Keyword}
    (hword : word ∈ [Keyword.AS, .LATERAL, .TABLE, .TABLESAMPLE]) : t.isKeyword word = false := by
  simp only [startsClause, Bool.and_eq_true, Bool.not_eq_true'] at ht
  rw [Bool.eq_false_iff]
  intro hk
  have hnot := ht.2
  rw [isAnyKeyword, kind_of_isKeyword hk, Bool.eq_false_iff, Ne, List.contains_iff_mem] at hnot
  exact hnot hword

theorem Query.followStep_of_startsClause (hfirst : q.inFirstList = false) (follow : Follow) :
    followStep w q follow t rest = clauseStep w q false t rest := by
  have hself : { q with inFirstList := false } = q := by rw [← hfirst]
  cases follow with
  | list => simp [followStep, listedStep, isMark_of_startsClause ht, hself, hfirst]
  | clause => rfl

theorem Query.aliasStep_of_startsClause (hfirst : q.inFirstList = false) (follow : Follow) :
    aliasStep w q follow t rest = clauseStep w q false t rest := by
  have hname : t.isName = false := by
    have hcandidate := isCandidate_of_startsClause ht
    rw [isCandidate, Bool.or_eq_false_iff] at hcandidate
    exact hcandidate.1
  simp [aliasStep, hname, isKeyword_of_startsClause ht,
    followStep_of_startsClause w q rest ht hfirst]

theorem Query.operandEndStep_of_startsClause (hfirst : q.inFirstList = false) (follow : Follow) :
    operandEndStep w q follow t rest = clauseStep w q false t rest := by
  simp [operandEndStep, isKeyword_of_startsClause ht, aliasStep_of_startsClause w q rest ht hfirst]

theorem Query.targetNameStep_of_startsClause :
    targetNameStep w q t rest = clauseStep w q false t rest := by
  simp [targetNameStep, isCandidate_of_startsClause ht]

/-- A name that is complete is found. -/
theorem Query.nameStep_of_startsClause (hfirst : q.inFirstList = false) {purpose : Purpose}
    (hpurpose : purpose ≠ .created) {n : DottedName} (hn : n.extend? t = none) :
    nameStep w q purpose n t rest =
      { clauseStep w q false t rest with references := [q.reference n] } := by
  have hfound : (clauseStep w q false t rest).found (q.reference n) =
      { clauseStep w q false t rest with references := [q.reference n] } := by
    rw [Outcome.found, references_clauseStep]
  have hend := operandEndStep_of_startsClause w q rest ht hfirst
  cases purpose with
  | operand follow =>
      simp [nameStep, hn, nameEndStep, isMark_of_startsClause ht, hend, hfound]
  | target => simp [nameStep, hn, nameEndStep, hend, hfound]
  | created => exact absurd rfl hpurpose

/-- A token that starts a clause completes the table before it, wherever in the words of a
table it stands. -/
theorem Query.step_of_startsClause (hname : ¬ q.continues t) (hfirst : q.inFirstList = false)
    (hcreating : ¬ q.mode.isCreating) (hdefining : ¬ q.mode.isDefining) :
    ∃ fresh, q.step w t rest = { clauseStep w q fresh t rest with references := q.settle.1 } := by
  -- Where no name is read, nothing is found.
  have hplain {o : Outcome} (fresh : Bool) (ho : o = clauseStep w q fresh t rest) :
      ∃ fresh, o = { clauseStep w q fresh t rest with references := [] } :=
    ⟨fresh, by rw [ho, ← references_clauseStep w q fresh t rest]⟩
  have hfollow := followStep_of_startsClause w q rest ht hfirst
  have halias := aliasStep_of_startsClause w q rest ht hfirst
  have hend := operandEndStep_of_startsClause w q rest ht hfirst
  have hcandidate := isCandidate_of_startsClause ht
  have hmark := isMark_of_startsClause ht
  unfold step settle
  cases hmode : q.mode with
  | clauses fresh => exact hplain fresh rfl
  | operand follow =>
      exact hplain false (by
        simp [operandStep, isKeyword_of_startsClause ht, hmark, hcandidate, hfollow])
  | listed => exact hplain false (hfollow .list)
  | target =>
      exact hplain false (by
        simp [targetStep, isKeyword_of_startsClause ht, targetNameStep_of_startsClause w q rest ht])
  | targetName => exact hplain false (targetNameStep_of_startsClause w q rest ht)
  | name purpose n =>
      have hn : n.extend? t = none := by simpa [continues, hmode, Mode.pending?] using hname
      cases purpose with
      | operand follow =>
          exact ⟨false, nameStep_of_startsClause w q rest ht hfirst Purpose.noConfusion hn⟩
      | target => exact ⟨false, nameStep_of_startsClause w q rest ht hfirst Purpose.noConfusion hn⟩
      | created => simp [hmode, Mode.isCreating] at hcreating
  | operandEnd follow => exact hplain false (hend follow)
  | sample follow => exact hplain false (by simp [sampleStep, hmark, halias])
  | «alias» follow => exact hplain false (halias follow)
  | columns follow => exact hplain false (by simp [columnsStep, hmark, hfollow])
  | create => simp [hmode, Mode.isCreating] at hcreating
  | createName optional => simp [hmode, Mode.isCreating] at hcreating
  | _ => simp [hmode, Mode.isDefining] at hdefining

end StartsClause

/-! ## States -/

/-- A query that is no join tree, with the given names. -/
def Query.top (base : Scope) (names : Names) (mode : Mode) : Query :=
  ⟨base, some names, false, false, mode⟩

/-- The innermost group is a query with the given names and expectation, opened where
`opener` says and with the groups `below` around it. -/
structure AtQuery (opener : Option Span) (below : List Frame) (base : Scope) (names : Names)
    (mode : Mode) (s : Scan) : Prop where
  body : s.top.body = .query (.top base names mode)
  below : s.below = below
  opener : s.top.opener = opener

/-- The scan stands outside all parentheses, with the given names and expectation. -/
abbrev AtTop (base : Scope) (names : Names) (mode : Mode) (s : Scan) : Prop :=
  s.AtQuery none [] base names mode

variable {base base' : Scope} {names names' : Names} {mode mode' : Mode} {fresh : Bool}
  {follow : Follow} {opener : Option Span} {below : List Frame}

theorem atTop_start : start.AtTop [[]] [] (.clauses true) := ⟨rfl, rfl, rfl⟩

theorem AtQuery.isNest (h : s.AtTop base names mode) : IsNest s.top s.below := by
  rw [h.below]
  exact ⟨h.opener, by rw [h.body]; rfl⟩

theorem AtQuery.pending? (h : s.AtQuery opener below base names mode) :
    s.pending? = mode.pending? := by
  rw [Scan.pending?, h.body]
  rfl

/-- Outside all parentheses every reference keeps its role. -/
theorem AtQuery.fated (h : s.AtTop base names mode) (ts : List Token) : s.fated ts = id := by
  unfold Scan.fated
  rw [h.below]
  refine fate_of_not_isDoomed ?_
  rw [isDoomed_cons_of_spared (Or.inl h.opener), isDoomed]

/-- A token that neither opens a group nor closes one. -/
theorem AtQuery.step (h : s.AtQuery opener below base names mode)
    (hbody : ((Query.top base names mode).step (s.surroundings limit) t rest).body =
      .query (.top base' names' mode'))
    (haction : ((Query.top base names mode).step (s.surroundings limit) t rest).action =
      .stay) :
    (s.step limit t rest).AtQuery opener below base' names' mode' := by
  rw [← outcome_query h.body] at hbody haction
  rw [step_of_stay haction]
  exact ⟨hbody, h.below, h.opener⟩

theorem AtQuery.step_of_eq (h : s.AtQuery opener below base names mode)
    {references : List Reference} {diagnostics : List Diagnostic} {merging : Option Bool}
    (hstep : (Query.top base names mode).step (s.surroundings limit) t rest =
      ⟨.query (.top base' names' mode'), .stay, references, diagnostics, merging⟩) :
    (s.step limit t rest).AtQuery opener below base' names' mode' :=
  h.step (by rw [hstep]) (by rw [hstep])

/-- A closed group that is no join tree. -/
theorem AtQuery.group (h : s.AtTop base names mode) (limit : Nat) (after : List Token)
    {o c : Token} {xs : List Token} (ho : o.isMark '(') (hc : c.isMark ')') (hxs : Balanced xs)
    (hbody : ((Query.top base names mode).step (s.surroundings limit) o
      (xs ++ c :: after)).body = .query (.top base' names' mode'))
    (hinner : ∀ body, ((Query.top base names mode).step (s.surroundings limit) o
      (xs ++ c :: after)).action = .enter body → body.kind ≠ .joinTree) :
    (s.advance limit after (o :: xs ++ [c])).AtTop base' names' mode' := by
  rw [← outcome_query h.body] at hbody
  obtain ⟨hbelow, hopener, hbody'⟩ := advance_group limit after h.isNest
    ho hc hxs (by rw [h.body]; exact GroupKind.noConfusion)
    (by rw [outcome_query h.body]; exact hinner)
  exact ⟨hbody'.trans hbody, hbelow.trans h.below, hopener.trans h.opener⟩

/-! ## Tables -/

theorem AtQuery.step_from (h : s.AtQuery opener below base names (.clauses fresh))
    (limit : Nat) (rest : List Token) (hcomparison : s.comparison ≠ .complete)
    (ht : t.isKeyword .FROM) :
    (s.step limit t rest).AtQuery opener below base names (.operand .list) := by
  have hkind : t.kind = .keyword .FROM := kind_of_isKeyword ht
  have hstep : (Query.top base names (.clauses fresh)).step (s.surroundings limit) t rest =
      { body := .query (.top base names (.operand .list)) } := by
    change Query.clauseStep _ _ fresh t rest = _
    simp only [Query.clauseStep, hkind]
    rw [if_neg (show (s.surroundings limit).comparison ≠ .complete from hcomparison)]
    rfl
  exact h.step_of_eq hstep

theorem AtQuery.step_candidate (h : s.AtQuery opener below base names (.operand follow))
    (limit : Nat) (rest : List Token) (ht : isCandidate t) :
    (s.step limit t rest).AtQuery opener below base names
      (.name (.operand follow) (.ofToken t)) := by
  have hlateral : ¬ t.isKeyword .LATERAL := not_isKeyword_of_isCandidate ht (by decide)
  have hopen := not_isMark_of_isCandidate ht '('
  have hstep : (Query.top base names (.operand follow)).step (s.surroundings limit) t rest =
      { body := .query (.top base names (.name (.operand follow) (.ofToken t))) } := by
    change Query.operandStep _ _ follow t rest = _
    rw [Query.operandStep, if_neg hlateral, if_neg hopen, if_pos ht]
    rfl
  exact h.step_of_eq hstep

/-! ## Idle runs -/

/-- Idle tokens and closed groups. -/
inductive Idle : List Token → Prop
  | nil : Idle []
  | cons {t : Token} {ts : List Token} (ht : isIdle t) (hts : Idle ts) : Idle (t :: ts)
  | group {o c : Token} {xs ts : List Token} (ho : o.isMark '(') (hc : c.isMark ')')
      (hxs : Balanced xs) (hts : Idle ts) : Idle (o :: xs ++ [c] ++ ts)

theorem Idle.append {xs ys : List Token} (hx : Idle xs) (hy : Idle ys) : Idle (xs ++ ys) := by
  induction hx with
  | nil => exact hy
  | cons ht hts ih => exact .cons ht ih
  | group ho hc hxs hts ih =>
      rw [List.append_assoc]
      exact .group ho hc hxs ih

theorem Idle.balanced {xs : List Token} (h : Idle xs) : Balanced xs := by
  induction h with
  | nil => rfl
  | cons ht hts ih =>
      simp only [isIdle, Bool.and_eq_true, Bool.not_eq_true'] at ht
      rw [Token.Balanced, depth?_cons_other (by simp [ht.1.1]) (by simp [ht.1.2])]
      exact ih
  | group ho hc hxs hts ih =>
      rw [Token.Balanced, (hxs.group ho hc).depth?_append]
      exact ih

/-- A balanced run without keywords is idle. -/
theorem idle_of_balanced {xs : List Token} (h : Balanced xs)
    (hplain : ∀ t ∈ xs, t.keyword? = none) : Idle xs := by
  induction hn : xs.length using Nat.strongRecOn generalizing xs with
  | ind n ih =>
      cases xs with
      | nil => exact .nil
      | cons t xs =>
          subst hn
          rw [List.forall_mem_cons] at hplain
          by_cases hopen : t.isMark '('
          · rw [Token.Balanced, depth?_cons_open hopen] at h
            obtain ⟨ys, c, zs, rfl, hys, hc, hzs⟩ := exists_closing h
            have hidle := ih zs.length (by simp; omega) hzs
              (fun u hu => hplain.2 u (by simp [hu])) rfl
            have hgroup := Idle.group hopen hc hys hidle
            simpa using hgroup
          · by_cases hclose : t.isMark ')'
            · rw [Token.Balanced, depth?_cons_close_zero hclose] at h
              cases h
            · rw [Token.Balanced, depth?_cons_other hopen hclose] at h
              exact .cons (isIdle_of_keyword?_eq_none hplain.1 hopen hclose)
                (ih xs.length (by simp) h hplain.2 rfl)

theorem AtQuery.step_idle (h : s.AtQuery opener below base names (.clauses fresh)) (limit : Nat)
    (rest : List Token) (ht : isIdle t) :
    (s.step limit t rest).AtQuery opener below base names (.clauses false) := by
  have hstep : (Query.top base names (.clauses fresh)).step (s.surroundings limit) t rest =
      { body := .query (.top base names (.clauses false)) } :=
    Query.clauseStep_of_isIdle _ _ fresh rest ht
  exact h.step_of_eq hstep

/-- After `SELECT * FROM` a table is expected. -/
theorem atTop_selectFrom {select star source : Token} (hselect : select.isKeyword .SELECT)
    (hstar : star.isMark '*') (hfrom : source.isKeyword .FROM) (limit : Nat)
    (after : List Token) :
    (start.advance limit after [select, star, source]).AtTop [[]] [] (.operand .list) := by
  have hfirst := atTop_start.step_idle limit ([star, source] ++ after)
    (isIdle_of_isKeyword hselect (by decide))
  have hsecond := hfirst.step_idle limit ([source] ++ after)
    (isIdle_of_isMark hstar (by decide))
  refine hsecond.step_from limit after ?_ hfrom
  rw [comparison_step, comparison_next_of_isMark hstar]
  exact Comparison.noConfusion

theorem AtQuery.group_clauses (h : s.AtTop base names (.clauses fresh)) (limit : Nat)
    (after : List Token) {o c : Token} {xs : List Token} (ho : o.isMark '(') (hc : c.isMark ')')
    (hxs : Balanced xs) :
    (s.advance limit after (o :: xs ++ [c])).AtTop base names (.clauses false) := by
  have hkind : o.kind = .punctuation '(' := kind_of_isMark ho
  refine h.group limit after ho hc hxs ?_ ?_
  · change (Query.clauseStep _ _ fresh o _).body = _
    simp only [Query.clauseStep, hkind]
    rfl
  · intro body hbody
    change (Query.clauseStep _ _ fresh o _).action = _ at hbody
    simp only [Query.clauseStep, hkind, Action.enter.injEq] at hbody
    rw [← hbody]
    split
    · exact Surroundings.kind_subquery _ _
    · exact Surroundings.kind_expression _ _

/-- An idle run leaves the names and the expectation as they are. -/
theorem AtQuery.advance_idle (h : s.AtTop base names (.clauses fresh)) (limit : Nat)
    (after : List Token) {xs : List Token} (hxs : Idle xs) :
    ∃ fresh', (s.advance limit after xs).AtTop base names (.clauses fresh') := by
  induction hxs generalizing s fresh with
  | nil => exact ⟨fresh, h⟩
  | cons ht hts ih =>
      rw [advance_cons]
      exact ih (h.step_idle limit _ ht)
  | group ho hc hxs hts ih =>
      rw [advance_append]
      exact ih (h.group_clauses limit _ ho hc hxs)

end Scan

end SqlTables
