import SqlTables.Proofs.Scan.Nested
import SqlTables.Proofs.Scan.TopLevel
import SqlTables.Proofs.Subquery

/-!
# Queries in parentheses

A group that is entered as a query of its own, with no names in force around it, names the
tables that its content names by itself (`Scan.tableNames_gather_group`). What is read in it
is read as a statement is (`Scan.within_enter`), and where it ends its parenthesis completes
the name that the end of the tokens would complete (`Query.references_of_close`).
-/

namespace SqlTables

namespace Scan

open Token

variable {limit : Nat} {s s' : Scan} {o c : Token} {rest after : List Token} {scope : Scope}
  {base : List Frame}

/-! ## The start and the end of a query -/

/-- A query of its own is read as a statement is, with the scopes around it. -/
theorem within_enter (ho : o.isMark '(')
    (haction : (s.outcome limit o rest).action = .enter (.query (.inside scope)))
    (hmerging : s.merging = false) :
    start.Within scope (s.top.take (s.outcome limit o rest) :: s.below)
      (s.step limit o rest) := by
  have hsteers : (s.outcome limit o rest).merging = none :=
    merging_outcome (fun hk => not_isMark_of_isKeyword hk '(' ho)
      (fun hk => not_isMark_of_isKeyword hk '(' ho)
  rw [step_of_enter haction]
  refine ⟨rfl, ⟨[], rfl, .nil⟩, ?_, comparison_next_of_isMark ho _⟩
  rw [hsteers]
  exact hmerging

theorem fitsAll_start {depth : Nat} {ts : List Token}
    (hcreates : ∀ t ∈ ts, ¬ t.isKeyword .CREATE) (hbalanced : Balanced ts)
    (hpeak : peak depth ts < limit) : start.FitsAll limit depth ts := by
  refine ⟨isNest_start, ⟨List.cons_ne_nil _ _, List.cons_ne_nil _ _⟩, Bool.false_ne_true,
    hcreates, hbalanced, ?_⟩
  have hheight : start.height = 0 := rfl
  rwa [hheight, Nat.zero_add]

/-- A closing parenthesis completes in a query what the end of the tokens completes. -/
theorem Query.references_of_close (w : Surroundings) (q : Query) (hc : c.isMark ')')
    (hcreating : ¬ q.mode.isCreating) :
    (q.step w c rest).references = q.settle.1 := by
  obtain ⟨defs, heq, -, hdefs⟩ := q.references_step w rest
    (fun ho => not_isMark_of_isMark ho (by decide) hc)
    (q.not_continues_of_isMark hc (by decide)) hcreating
  rw [heq, hdefs fun ht => not_isMark_of_isName ht ')' hc, List.append_nil]

/-- What the end of a query completes is completed by the parenthesis around it. -/
theorem tableNames_closer (hscope : ∀ name, scope.lookup? name = none)
    (h : s.Within scope base s') (hs : IsNest s.top s.below) (hheight : s.height = 0)
    (hcreating : ¬ s.top.body.isCreating) (hc : c.isMark ')') (limit : Nat)
    (rest : List Token) :
    Reference.tableNames (s'.outcome limit c rest).references =
      Reference.tableNames s.remainder := by
  have hbelow : s.below = [] := List.length_eq_zero_iff.mp (Nat.eq_zero_of_add_eq_zero hheight).1
  rw [hbelow] at hs
  have hkind : s.top.body.kind = .query := hs.2
  rw [remainder, tableNames_map_fated]
  cases hbody : s.top.body with
  | query q =>
      have hbody' : s'.top.body = .query (q.within scope) := by rw [h.top, hbody]; rfl
      have hmode : ¬ (q.within scope).mode.isCreating := by rwa [hbody] at hcreating
      rw [outcome_query hbody', Query.references_of_close _ _ hc hmode]
      simp only [Body.remainder, Query.settle, Query.reference_within hscope]
      rfl
  | expression scope =>
      rw [hbody] at hkind
      cases hkind
  | flat f =>
      rw [hbody] at hkind
      cases hkind

/-! ## The group -/

/-- A group that is entered as a query of its own names the tables that its content names by
itself, if nothing is named around it and no group in it is flat. -/
theorem tableNames_gather_group (g : TokenGroup) (hs : IsNest s.top s.below)
    (hscope : ∀ name, scope.lookup? name = none)
    (haction : (s.outcome limit g.opener (g.content ++ g.closer :: after)).action =
      .enter (.query (.inside scope)))
    (hmerging : s.merging = false) (hcreates : ∀ t ∈ g.content, ¬ t.isKeyword .CREATE)
    (hpeak : peak (s.below.length + 1) g.content < limit) :
    Reference.tableNames (s.gather limit after g.tokens) =
      Reference.tableNames
          (s.outcome limit g.opener (g.content ++ g.closer :: after)).references ++
        Reference.tableNames (find limit g.content).references := by
  have hclosing := g.isClosing
  have hopened := within_enter g.isOpening haction hmerging
  have hfits : start.FitsAll limit (s.top.take (s.outcome limit g.opener
      (g.content ++ g.closer :: after)) :: s.below).length g.content :=
    fitsAll_start hcreates g.balanced hpeak
  have hnest := isNest_step limit g.opener (g.content ++ g.closer :: after) hs
  have hfound := gather_within hscope hclosing after hopened hfits hnest
  have hread := within_advance hscope hclosing after hopened hfits hnest
  have hend := hfits.advance
  have hclosed := tableNames_closer hscope hread hend.nest (Option.some.inj hend.balanced)
    hend.creating hclosing limit after
  have hcontent : g.content ++ [g.closer] ++ after = g.content ++ g.closer :: after :=
    List.append_assoc _ _ _
  rw [TokenGroup.tokens, List.cons_append, gather_cons, hcontent, gather_append,
    Reference.tableNames_append, Reference.tableNames_append, tableNames_map_fated,
    List.singleton_append, hfound, gather_cons, Reference.tableNames_append,
    tableNames_map_fated, List.nil_append, hclosed, gather_nil, find_references,
    Reference.tableNames_append]
  exact congrArg _ (congrArg _ (List.append_nil _))

/-! ## Where a subquery is entered -/

/-- The scopes around a subquery of the statement, in which nothing is named. -/
def unnamed : Scope := [[], []]

theorem lookup?_unnamed (name : String) : unnamed.lookup? name = none := rfl

/-- A parenthesis with a subquery in it is entered as a query of its own, and nothing is named
around it. -/
def OpensSubquery (limit : Nat) (s : Scan) : Prop :=
  ∀ o rest, o.isMark '(' → rest.head?.any startsSubquery →
    (s.outcome limit o rest).action = .enter (.query (.inside unnamed))

theorem full_eq_false (h : s.below.length + 1 < limit) : (s.surroundings limit).full = false := by
  simp only [surroundings, decide_eq_false_iff_not]
  omega

theorem Surroundings.subquery_unnamed {w : Surroundings} (h : w.full = false) :
    w.subquery unnamed = .query (.inside unnamed) := by
  rw [subquery, h]
  rfl

theorem Surroundings.expression_unnamed {w : Surroundings} (h : w.full = false) :
    w.expression unnamed = .expression unnamed := by
  rw [expression, h]
  rfl

theorem AtQuery.full_eq_false {opener : Option Span} {base' : Scope} {names : Names} {mode : Mode}
    (h : s.AtQuery opener [] base' names mode) (hlimit : 1 < limit) :
    (s.surroundings limit).full = false :=
  Scan.full_eq_false (by rwa [h.below])

/-- In the place of a table. -/
theorem AtQuery.opensSubquery_operand {follow : Follow}
    (h : s.AtTop [[]] [] (.operand follow)) (hlimit : 1 < limit) : s.OpensSubquery limit := by
  intro o rest ho hhead
  have hlateral : ¬ o.isKeyword .LATERAL := fun hk => not_isMark_of_isKeyword hk '(' ho
  rw [outcome_query h.body]
  change (Query.operandStep _ _ follow _ _).action = _
  rw [Query.operandStep, if_neg hlateral, if_pos ho, Query.operandGroup, h.full_eq_false hlimit,
    if_neg Bool.false_ne_true, if_pos hhead]
  rfl

/-- In a clause. -/
theorem AtQuery.opensSubquery_clauses {fresh : Bool} (h : s.AtTop [[]] [] (.clauses fresh))
    (hlimit : 1 < limit) : s.OpensSubquery limit := by
  intro o rest ho hhead
  have hkind := kind_of_isMark ho
  rw [outcome_query h.body]
  change (Query.clauseStep _ _ fresh _ _).action = _
  simp only [Query.clauseStep, hkind, if_pos hhead]
  exact congrArg Action.enter (Surroundings.subquery_unnamed (h.full_eq_false hlimit))

/-- In a group that is passed over. -/
theorem opensSubquery_expression (h : s.top.body = .expression unnamed)
    (hlimit : s.below.length + 1 < limit) : s.OpensSubquery limit := by
  intro o rest ho hhead
  simp only [outcome, h, if_pos ho, if_pos hhead]
  exact congrArg Action.enter (Surroundings.subquery_unnamed (full_eq_false hlimit))

/-- In parentheses in a clause. -/
theorem AtQuery.opensSubquery_group {fresh : Bool} (h : s.AtTop [[]] [] (.clauses fresh))
    (ho : o.isMark '(') (hhead : ¬ rest.head?.any startsSubquery) (hlimit : 2 < limit) :
    (s.step limit o rest).OpensSubquery limit := by
  have hone : 1 < limit := Nat.lt_of_succ_lt hlimit
  have haction : (s.outcome limit o rest).action = .enter (.expression unnamed) := by
    have hkind := kind_of_isMark ho
    rw [outcome_query h.body]
    change (Query.clauseStep _ _ fresh _ _).action = _
    simp only [Query.clauseStep, hkind, if_neg hhead]
    exact congrArg Action.enter (Surroundings.expression_unnamed (h.full_eq_false hone))
  rw [step_of_enter haction, h.below]
  exact opensSubquery_expression rfl hlimit

/-- In parentheses that make a function of the table before them. -/
theorem AtQuery.opensSubquery_function {follow : Follow} {n : DottedName}
    (h : s.AtTop [[]] [] (.name (.operand follow) n)) (ho : o.isMark '(') (hlimit : 2 < limit) :
    (s.step limit o rest).OpensSubquery limit := by
  have hone : 1 < limit := Nat.lt_of_succ_lt hlimit
  have haction : (s.outcome limit o rest).action = .enter (.expression unnamed) := by
    rw [outcome_query h.body]
    change (Query.nameStep _ _ (.operand follow) n _ _).action = _
    rw [Query.nameStep, DottedName.extend?_eq_none_of_isMark ho (by decide)]
    simp only [Query.nameEndStep, if_pos ho]
    exact congrArg Action.enter (Surroundings.expression_unnamed (h.full_eq_false hone))
  rw [step_of_enter haction, h.below]
  exact opensSubquery_expression rfl hlimit

/-- What a subquery names by itself is named by the statement that it stands in. -/
theorem mem_tableNames_find (before : List Token) (g : TokenGroup) (after : List Token)
    (hopens : (start.advance limit (g.tokens ++ after) before).OpensSubquery limit)
    (hhead : g.content.head?.any startsSubquery)
    (hmerges : ∀ t ∈ before, ¬ t.isKeyword .MERGE)
    (hcreates : ∀ t ∈ g.content, ¬ t.isKeyword .CREATE)
    (hpeak : peak 0 (before ++ (g.tokens ++ after)) < limit) {name : String}
    (hname : name ∈ Reference.tableNames (find limit g.content).references) :
    name ∈ Reference.tableNames (find limit (before ++ (g.tokens ++ after))).references := by
  have hs := isNest_advance limit (g.tokens ++ after) before isNest_start
  have hheight := height_advance limit (g.tokens ++ after) before isNest_start
  have hmerging : (start.advance limit (g.tokens ++ after) before).merging = false :=
    not_merging_advance hmerges rfl
  have hroom : peak ((start.advance limit (g.tokens ++ after) before).below.length + 1)
      g.content < limit := by
    have hle : (start.advance limit (g.tokens ++ after) before).below.length + 1 ≤
        (before ++ [g.opener]).foldl nest 0 + 0 := by
      have hstart : start.height = 0 := rfl
      rw [height, hstart] at hheight
      rw [List.foldl_append, List.foldl_cons, List.foldl_nil, nest_open g.isOpening]
      omega
    have hsplit : before ++ (g.tokens ++ after) =
        before ++ [g.opener] ++ (g.content ++ g.closer :: after) := by
      rw [TokenGroup.tokens]
      simp
    have hcontent := peak_le_add hle g.content
    rw [hsplit, peak_append 0 (before ++ [g.opener]), peak_append _ g.content] at hpeak
    omega
  have haction := hopens g.opener (g.content ++ g.closer :: after) g.isOpening
    (startsSubquery_append hhead _)
  have hgroup := tableNames_gather_group g hs lookup?_unnamed haction hmerging hcreates hroom
  rw [find_references, gather_append, gather_append, List.append_nil, List.append_nil,
    Reference.tableNames_append, Reference.tableNames_append, Reference.tableNames_append, hgroup]
  simp only [List.mem_append]
  exact Or.inl (Or.inr (Or.inl (Or.inr hname)))

end Scan

end SqlTables
