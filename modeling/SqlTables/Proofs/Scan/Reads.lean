import SqlTables.Proofs.Scan.Naming
import SqlTables.Proofs.Scan.TopLevel

/-!
# Stretches of tokens

`Scan.Reads` says what a scan does over a stretch of tokens: where it stands behind it
and which tables the stretch names. A table whose name ends the stretch is only found
with the token behind it; it is owed (`Scan.owed`) and counts to the stretch all the same,
so that stretches can be put together (`Reads.append`). A group is read by what is read
inside it, from wherever it was opened (`reads_group`).
-/

namespace SqlTables

namespace Scan

open Token

variable {limit : Nat} {s : Scan} {t o c : Token} {after xs ys : List Token}
  {P Q : Scan → Prop} {found found' : List String} {base base' : Scope} {names names' : Names}
  {mode mode' : Mode} {opener : Option Span} {below : List Frame}

/-- The tables that the end of the tokens would complete. -/
def owed (s : Scan) : List String := Reference.tableNames s.top.body.remainder

theorem owed_eq_tableNames (s : Scan) : s.owed = Reference.tableNames s.remainder :=
  (tableNames_map_fated s [] _).symm

theorem owed_of_pending?_eq_none (h : s.pending? = none) : s.owed = [] := by
  rw [owed_eq_tableNames, remainder_of_pending?_eq_none h]
  rfl

/-- Over the tokens `xs`, with those behind them in sight, the scan comes to stand as `P`
says and names the tables `found`. -/
structure Reads (limit : Nat) (after : List Token) (s : Scan) (xs : List Token)
    (P : Scan → Prop) (found : List String) : Prop where
  state : P (s.advance limit after xs)
  names : Reference.tableNames (s.gather limit after xs) ++ (s.advance limit after xs).owed =
    s.owed ++ found

theorem Reads.nil (h : P s) : Reads limit after s [] P [] :=
  ⟨h, (List.append_nil s.owed).symm⟩

theorem Reads.mono (h : Reads limit after s xs P found) (hPQ : ∀ s', P s' → Q s') :
    Reads limit after s xs Q found :=
  ⟨hPQ _ h.state, h.names⟩

/-- What is owed behind a stretch is found in the next one. -/
theorem Reads.append (h : Reads limit (ys ++ after) s xs P found)
    (h' : ∀ s', P s' → Reads limit after s' ys Q found') :
    Reads limit after s (xs ++ ys) Q (found ++ found') := by
  have hnext := h' _ h.state
  refine ⟨?_, ?_⟩
  · rw [advance_append]
    exact hnext.state
  · rw [gather_append, advance_append, Reference.tableNames_append, List.append_assoc,
      hnext.names, ← List.append_assoc, h.names, List.append_assoc]

theorem Reads.cons (h : Reads limit (xs ++ after) s [t] P [])
    (h' : ∀ s', P s' → Reads limit after s' xs Q found) :
    Reads limit after s (t :: xs) Q found :=
  h.append h'

/-- The tables of a statement. -/
theorem Reads.tableNames_find (h : Reads limit [] start xs P found) :
    Reference.tableNames (find limit xs).references = found := by
  rw [find_references, Reference.tableNames_append, ← owed_eq_tableNames, h.names]
  rfl

/-! ## Single tokens -/

/-- What a token finds, and what is owed behind it. -/
theorem reads_singleton (h : P (s.step limit t after))
    (hnames : Reference.tableNames (s.outcome limit t after).references ++
      (s.step limit t after).owed = s.owed ++ found) : Reads limit after s [t] P found := by
  refine ⟨h, ?_⟩
  rw [gather_singleton, tableNames_map_fated]
  exact hnames

theorem AtQuery.reads_of_eq (h : s.AtQuery opener below base names mode)
    {references : List Reference} {diagnostics : List Diagnostic} {merging : Option Bool}
    (hstep : (Query.top base names mode).step (s.surroundings limit) t after =
      ⟨.query (.top base' names' mode'), .stay, references, diagnostics, merging⟩)
    (hmode : (Query.top base names mode).settle.1 = []) (hmode' : mode'.pending? = none) :
    Reads limit after s [t] (AtQuery opener below base' names' mode')
      (Reference.tableNames references) := by
  have h' := h.step_of_eq hstep
  have howed : s.owed = [] := by
    rw [owed, h.body, Body.remainder, hmode]
    rfl
  refine reads_singleton h' ?_
  rw [outcome_query h.body, hstep, howed, owed_of_pending?_eq_none (h'.pending?.trans hmode'),
    List.append_nil, List.nil_append]

/-- A token that neither opens a group nor goes on with a name finds what is owed. -/
theorem AtQuery.reads_token (h : s.AtQuery opener below base names mode)
    (h' : (s.step limit t after).AtQuery opener below base' names' mode')
    (hopen : ¬ t.isMark '(') (hname : ¬ (Query.top base names mode).continues t)
    (hcreating : ¬ mode.isCreating) (hmode' : mode'.pending? = none) :
    Reads limit after s [t]
      (fun s' => s'.AtQuery opener below base' names' mode' ∧
        s'.comparison = s.comparison.next t) [] := by
  obtain ⟨defs, hreferences, hdefs, -⟩ :=
    Query.references_step (s.surroundings limit) (.top base names mode) after hopen hname
      hcreating
  have hsources : Reference.tableNames defs = [] := by
    rw [Reference.tableNames, List.filter_eq_nil_iff.mpr fun r hr => by simp [hdefs r hr],
      List.map_nil]
  refine reads_singleton ⟨h', comparison_step limit s t after⟩ ?_
  rw [outcome_query h.body, hreferences, Reference.tableNames_append, hsources,
    owed_of_pending?_eq_none (h'.pending?.trans hmode'), owed, h.body, List.append_nil,
    List.append_nil, List.append_nil]
  rfl

/-- `SELECT * FROM` names nothing, and a table is expected behind it. -/
theorem reads_selectFrom {select star source : Token} (hselect : select.isKeyword .SELECT)
    (hstar : star.isMark '*') (hfrom : source.isKeyword .FROM) (limit : Nat)
    (after : List Token) :
    Reads limit after start [select, star, source] (AtTop [[]] [] (.operand .list)) [] := by
  have hhead := atTop_start.step_idle limit ([star, source] ++ after)
    (isIdle_of_isKeyword hselect (by decide))
  have hnext := hhead.step_idle limit ([source] ++ after) (isIdle_of_isMark hstar (by decide))
  have htop := atTop_selectFrom hselect hstar hfrom limit after
  refine ⟨htop, ?_⟩
  rw [tableNames_gather_cons rfl, tableNames_gather_cons hhead.pending?,
    tableNames_gather_cons hnext.pending?, owed_of_pending?_eq_none htop.pending?]
  rfl

/-- An expression passes over its tokens. -/
theorem reads_expression {scope : Scope} (h : s.top.body = .expression scope) (limit : Nat)
    (after : List Token) (hopen : ¬ t.isMark '(') (hclose : ¬ t.isMark ')') :
    Reads limit after s [t]
      (fun s' => s'.top.body = .expression scope ∧ s'.top.opener = s.top.opener ∧
        s'.below = s.below) [] := by
  have houtcome : s.outcome limit t after = { body := .expression scope } := by
    simp only [outcome, h, hopen, hclose, if_false, Bool.false_eq_true]
  have hstep := step_of_stay (congrArg Outcome.action houtcome)
  have htop : (s.step limit t after).top.body = .expression scope := by
    rw [hstep]
    exact congrArg Outcome.body houtcome
  refine reads_singleton ⟨htop, by rw [hstep]; rfl, by rw [hstep]⟩ ?_
  rw [houtcome, owed, htop, owed, h]
  rfl

/-- Over the rest of a name nothing is found. -/
theorem AtQuery.gather_extend {purpose : Purpose} {n longer : DottedName}
    (h : s.AtQuery opener below base names (.name purpose n)) (limit : Nat) (after : List Token)
    (hn : n.extendAll? xs = some longer) : s.gather limit after xs = [] := by
  induction xs generalizing s n with
  | nil => rfl
  | cons t xs ih =>
      obtain ⟨m, hm, hlonger⟩ := Option.bind_eq_some_iff.mp hn
      have hstep (w : Surroundings) (rest : List Token) :
          (Query.top base names (.name purpose n)).step w t rest =
            { body := .query (.top base names (.name purpose m)) } := by
        change Query.nameStep _ _ purpose n t rest = _
        rw [Query.nameStep, hm]
        rfl
      rw [gather_cons, outcome_query h.body, hstep, ih (h.step_of_eq (hstep _ _)) hlonger]
      rfl

/-! ## Groups -/

/-- The parenthesis `c` closes the group, which is no join tree, and finds what is owed. -/
structure ClosesAt (limit : Nat) (c : Token) (after : List Token) (s : Scan) : Prop where
  action : (s.outcome limit c after).action = .leave
  kind : s.top.body.kind ≠ .joinTree
  names : Reference.tableNames (s.outcome limit c after).references = s.owed

/-- At its end a query is closed by the next parenthesis. -/
theorem AtQuery.closesAt {span : Span} (h : s.AtQuery (some span) below base names mode)
    (limit : Nat) (after : List Token) (hc : c.isMark ')') (hcreating : ¬ mode.isCreating)
    (hdefining : ¬ mode.isDefining) : s.ClosesAt limit c after := by
  have hkind := kind_of_isMark hc
  obtain ⟨fresh, hstep⟩ := Query.step_of_startsClause (s.surroundings limit)
    (.top base names mode) after (startsClause_of_isMark hc)
    (Query.not_continues_of_isMark _ hc (by decide)) rfl hcreating hdefining
  have hnested : (s.surroundings limit).nested = true := by
    rw [surroundings, h.opener]
    rfl
  refine ⟨?_, ?_, ?_⟩
  · rw [outcome_query h.body, hstep]
    simp only [Query.clauseStep, hkind, hnested, if_true]
  · rw [h.body]
    exact GroupKind.noConfusion
  · rw [outcome_query h.body, hstep, owed, h.body]
    rfl

theorem closesAt_expression {scope : Scope} (h : s.top.body = .expression scope) (limit : Nat)
    (after : List Token) (hc : c.isMark ')') : s.ClosesAt limit c after := by
  have hopen : ¬ c.isMark '(' := fun ho => not_isMark_of_isMark ho (by decide) hc
  have houtcome : s.outcome limit c after = { body := .expression scope, action := .leave } := by
    simp only [outcome, h, hc, hopen, if_true, Bool.false_eq_true, if_false]
  refine ⟨by rw [houtcome], ?_, ?_⟩
  · rw [h]
    exact GroupKind.noConfusion
  · rw [houtcome, owed, h]
    rfl

/-- A closed group names what is named inside it, and is passed over where it was opened. -/
theorem reads_group {body inner : Body} (ho : o.isMark '(') (hc : c.isMark ')')
    (houtcome : s.outcome limit o (xs ++ c :: after) = { body, action := .enter inner })
    (hsuspended : body.isSuspended) (hs : s.pending? = none) (hpending : inner.pending? = none)
    (hinner : ∀ (s₁ : Scan) (around : Frame), s₁.top.body = inner →
      s₁.top.opener = some o.span → s₁.below = around :: s.below → s₁.comparison = .none →
      Reads limit (c :: after) s₁ xs
        (fun s' => s'.below = around :: s.below ∧ s'.ClosesAt limit c after) found) :
    Reads limit after s (o :: xs ++ [c])
      (fun s' => s'.top.body = body ∧ s'.top.opener = s.top.opener ∧ s'.below = s.below ∧
        s'.comparison = .none) found := by
  have hstep := step_of_enter (congrArg Outcome.action houtcome)
  generalize hs₁ : s.step limit o (xs ++ c :: after) = s₁ at hstep
  have hread := hinner s₁ (s.top.take (s.outcome limit o (xs ++ c :: after)))
    (by rw [hstep]) (by rw [hstep]) (by rw [hstep])
    (by rw [hstep]; exact comparison_next_of_isMark ho _)
  have hs₁' : s₁.pending? = none := by rw [Scan.pending?, hstep]; exact hpending
  have hsplit : [c] ++ after = c :: after := rfl
  obtain ⟨hbelow, hcloses⟩ := hread.state
  have hleave := step_of_leave hcloses.action hbelow
  have htop : (s.top.take (s.outcome limit o (xs ++ c :: after))).body = body := by
    rw [Frame.take_body, houtcome]
  have hadvance : s.advance limit after (o :: xs ++ [c]) =
      (s₁.advance limit (c :: after) xs).step limit c after := by
    rw [List.cons_append, advance_cons, List.append_assoc, hsplit, hs₁, advance_append, hsplit,
      advance_cons, advance_nil, List.nil_append]
  have hbody : ((s₁.advance limit (c :: after) xs).step limit c after).top.body = body := by
    rw [hleave]
    refine (Frame.absorb_of_kind _ ?_).trans htop
    rw [Frame.take_body, kind_outcome]
    exact hcloses.kind
  refine ⟨?_, ?_⟩
  · rw [hadvance]
    refine ⟨hbody, ?_, ?_, ?_⟩
    · rw [hleave]
      rfl
    · rw [hleave]
    · rw [comparison_step, comparison_next_of_isMark hc]
  · have hend : ((s₁.advance limit (c :: after) xs).step limit c after).owed = [] := by
      rw [owed, hbody, remainder_of_isSuspended hsuspended]
      rfl
    rw [hadvance, hend, List.append_nil, List.cons_append, gather_cons, List.append_assoc, hsplit,
      hs₁, houtcome, List.map_nil, List.nil_append, gather_append, hsplit, gather_singleton,
      Reference.tableNames_append, tableNames_map_fated, hcloses.names, hread.names,
      owed_of_pending?_eq_none hs₁', owed_of_pending?_eq_none hs]

end Scan

end SqlTables
