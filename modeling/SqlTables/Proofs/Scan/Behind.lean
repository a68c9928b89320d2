import SqlTables.Proofs.Scan.Moved
import SqlTables.Proofs.Scan.Reads

/-!
# Queries behind other tokens

Behind tokens that leave nothing named and no parenthesis open, a query is read as a statement of
its own (`Scan.AtQuery.reads_query`): what else is expected there only matters to its first token,
and if that does not fit, it starts a clause. So a statement names what the tokens before the query
name, and then what the query names (`Scan.tableNames_find_append`).
-/

namespace SqlTables

namespace Scan

open Token

variable {limit : Nat} {s s' : Scan} {t : Token} {rest after xs : List Token} {base : Scope}
  {names : Names} {mode mode' : Mode} {w : Surroundings}

/-! ## The start of a query -/

/-- What a token means as the start of a clause depends on the names only, an `UPDATE` apart. -/
theorem Query.clauseStep_goto (w : Surroundings) (q : Query) (mode mode' : Mode)
    (fresh fresh' : Bool) (rest : List Token) (ht : ¬ t.isKeyword .UPDATE) :
    clauseStep w (q.goto mode) fresh t rest = clauseStep w (q.goto mode') fresh' t rest := by
  unfold clauseStep
  split
  · rfl
  · rfl
  · next word hword =>
      dsimp only
      split
      case h_10 => exact absurd (beq_iff_eq.mpr hword) ht
      all_goals rfl
  · rfl

theorem Query.pending?_clauseStep (q : Query) (fresh : Bool) :
    (clauseStep w q fresh t rest).body.pending? = none := by
  unfold clauseStep
  split
  · rfl
  · rfl
  · dsimp only
    split <;> first | rfl | (split <;> rfl)
  · rfl

/-- Outside all parentheses, a token that means the same where different things are expected leaves
the same state. -/
theorem AtQuery.moved_step (h : s.AtTop base names mode) (h' : s'.AtTop base names mode')
    (hmerging : s'.merging = s.merging) (hcomparison : s'.comparison = s.comparison)
    {references : List Reference}
    (ho : s'.outcome limit t rest = { s.outcome limit t rest with references })
    (hpending : (s.outcome limit t rest).body.pending? = none) :
    (s.step limit t rest).Moved id (s'.step limit t rest) := by
  have htaken : (s.top.take (s.outcome limit t rest)).Changed (.ofMove id)
      (s'.top.take (s'.outcome limit t rest)) := by
    refine ⟨by rw [Frame.take_opener, Frame.take_opener, h.opener, h'.opener], ?_⟩
    rw [Frame.take_body, Frame.take_body, ho]
    exact Body.changed_self hpending
  have haction : (s'.outcome limit t rest).action = (s.outcome limit t rest).action := by rw [ho]
  have hbelow : List.Forall₂ (Frame.Changed (.ofMove id)) s.below s'.below := by
    rw [h.below, h'.below]
    exact .nil
  have hmerging' : (s'.step limit t rest).merging = (s.step limit t rest).merging := by
    rw [merging_step, merging_step, ho, hmerging]
  have hcomparison' : (s'.step limit t rest).comparison = (s.step limit t rest).comparison := by
    rw [comparison_step, comparison_step, hcomparison]
  have hstack : (s.step limit t rest).top.Changed (.ofMove id) (s'.step limit t rest).top ∧
      List.Forall₂ (Frame.Changed (.ofMove id)) (s.step limit t rest).below
        (s'.step limit t rest).below := by
    cases hact : (s.outcome limit t rest).action with
    | stay =>
        rw [step_of_stay hact, step_of_stay (haction.trans hact)]
        exact ⟨htaken, hbelow⟩
    | enter body =>
        rw [step_of_enter hact, step_of_enter (haction.trans hact)]
        exact ⟨⟨rfl, Body.changed_self (pending?_of_enter h.isNest hact)⟩, .cons htaken hbelow⟩
    | leave =>
        simp only [Scan.step, act, haction, hact, h.below, h'.below]
        exact ⟨htaken, .nil⟩
  exact ⟨hstack.1, hstack.2, hmerging', hcomparison'⟩

/-- Behind what is expected instead of it, a query is read as by itself. What its first token finds
besides is `references`. -/
theorem AtQuery.reads_query (h : s.AtTop [[]] [] mode) (hmerging : s.merging = false)
    (hcomparison : s.comparison = .none) (ht : ¬ t.isKeyword .UPDATE) {references : List Reference}
    (hstep : (Query.top [[]] [] mode).step (s.surroundings limit) t rest =
      { Query.clauseStep (s.surroundings limit) (.top [[]] [] mode) false t rest with references })
    {found : List String} (hfound : Reference.tableNames references = s.owed ++ found) :
    Reads limit [] s (t :: rest) (fun _ => True)
      (found ++ Reference.tableNames (find limit (t :: rest)).references) := by
  have hsurroundings : s.surroundings limit = start.surroundings limit := by
    rw [surroundings, surroundings, h.opener, h.below, hmerging, hcomparison]
    rfl
  have hstart : start.outcome limit t rest =
      Query.clauseStep (start.surroundings limit) (.top [[]] [] (.clauses true)) true t rest := rfl
  have ho : s.outcome limit t rest = { start.outcome limit t rest with references } := by
    have hgoto := Query.clauseStep_goto (start.surroundings limit) (.top [[]] [] mode) mode
      (.clauses true) false true rest ht
    rw [outcome_query h.body, hstep, hsurroundings, hstart]
    exact congrArg (fun o : Outcome => { o with references }) hgoto
  -- Behind its first token the query is read from the same state as at the start of a statement.
  have hmoved := atTop_start.moved_step h hmerging hcomparison ho
    (by rw [hstart]; exact Query.pending?_clauseStep _ _)
  obtain ⟨hadvance, hgather⟩ := moved_rest limit
    (List.forall₂_same.mpr fun t (_ : t ∈ rest) => t.moved_id) hmoved
    (isNest_step limit t rest isNest_start)
  have hremainder := remainder_moved hadvance
  rw [Reference.map_id, List.map_id] at hgather hremainder
  refine ⟨trivial, ?_⟩
  rw [find_references, gather_cons, advance_cons, advance_cons, List.append_nil,
    Reference.tableNames_append, Reference.tableNames_append, tableNames_map_fated,
    tableNames_gather_cons rfl, List.append_nil, ho, hgather, owed_eq_tableNames, hremainder,
    hfound]
  simp only [List.append_assoc]

/-! ## What stands before a query -/

/-- The words that decide what a later `USING` or `FROM` means. -/
def steering : List Keyword := [.MERGE, .USING, .IS, .NOT]

/-- Behind other words, a `USING` and a `FROM` mean what they do at the start of a statement. -/
theorem steady_advance (limit : Nat) (after : List Token)
    (hxs : ∀ t ∈ xs, ¬ t.isAnyKeyword steering) (hs : s.comparison = .none) :
    (s.advance limit after xs).merging = s.merging ∧
      (s.advance limit after xs).comparison = .none := by
  induction xs generalizing s with
  | nil => exact ⟨rfl, hs⟩
  | cons t xs ih =>
      rw [List.forall_mem_cons] at hxs
      have hword {word : Keyword} (hmem : word ∈ steering) : ¬ t.isKeyword word := fun hk =>
        hxs.1 (isAnyKeyword_iff.mpr ⟨word, hmem, hk⟩)
      have hcompares : ¬ t.isAnyKeyword [.IS, .NOT] :=
        not_isAnyKeyword_of_subset hxs.1 (by decide)
      have hcomparison : (s.step limit t (xs ++ after)).comparison = .none := by
        rw [comparison_step, hs, Comparison.next, if_neg hcompares,
          if_neg fun h => Comparison.noConfusion h.1]
      have hmerging : (s.step limit t (xs ++ after)).merging = s.merging := by
        rw [merging_step, merging_outcome (hword (by decide)) (hword (by decide))]
        rfl
      rw [advance_cons, ← hmerging]
      exact ih hxs.2 hcomparison

/-- Behind what is expected instead of it, a query names what it names by itself. -/
theorem tableNames_find_append {found found' : List String}
    (h : Reads limit (t :: rest) start xs (AtTop [[]] [] mode) found)
    (hxs : ∀ u ∈ xs, ¬ u.isAnyKeyword steering) (ht : ¬ t.isKeyword .UPDATE)
    {references : List Reference}
    (hstep : ∀ w, (Query.top [[]] [] mode).step w t rest =
      { Query.clauseStep w (.top [[]] [] mode) false t rest with references })
    (hfound : Reference.tableNames references =
      Reference.tableNames (Query.top [[]] [] mode).settle.1 ++ found') :
    Reference.tableNames (find limit (xs ++ t :: rest)).references =
      found ++ (found' ++ Reference.tableNames (find limit (t :: rest)).references) := by
  obtain ⟨hmerging, hcomparison⟩ := steady_advance limit (t :: rest) hxs
    (show start.comparison = .none from rfl)
  have hread : Reads limit (t :: rest ++ []) start xs
      (fun s => s.AtTop [[]] [] mode ∧ s.merging = false ∧ s.comparison = .none) found := by
    rw [List.append_nil]
    exact ⟨⟨h.state, hmerging, hcomparison⟩, h.names⟩
  have hwhole : Reads limit [] start (xs ++ t :: rest) (fun _ => True)
      (found ++ (found' ++ Reference.tableNames (find limit (t :: rest)).references)) :=
    hread.append fun s ⟨hat, hmerging, hcomparison⟩ => by
      refine hat.reads_query hmerging hcomparison ht (hstep _) ?_
      rw [owed, hat.body]
      exact hfound
  exact hwhole.tableNames_find

/-- An idle token at the start changes nothing. -/
theorem tableNames_find_idle {u : Token} (ht : isIdle t) (hsteady : ¬ t.isAnyKeyword steering)
    (hupdate : ¬ u.isKeyword .UPDATE) (limit : Nat) (rest : List Token) :
    Reference.tableNames (find limit (t :: u :: rest)).references =
      Reference.tableNames (find limit (u :: rest)).references := by
  have hfirst : (Query.top [[]] [] (.clauses true)).step (start.surroundings limit) t (u :: rest) =
      { body := .query (.top [[]] [] (.clauses false)) } :=
    Query.clauseStep_of_isIdle _ _ true _ ht
  have hread : Reads limit (u :: rest) start [t] (AtTop [[]] [] (.clauses false)) [] :=
    atTop_start.reads_of_eq hfirst rfl rfl
  have hstep (w : Surroundings) :
      (Query.top [[]] [] (.clauses false)).step w u rest =
        { Query.clauseStep w (.top [[]] [] (.clauses false)) false u rest with
          references := [] } := by
    rw [← Query.references_clauseStep w (.top [[]] [] (.clauses false)) false u rest]
    rfl
  have hfound : Reference.tableNames [] =
      Reference.tableNames (Query.top [[]] [] (.clauses false)).settle.1 ++ [] := rfl
  have hnames := tableNames_find_append hread (List.forall_mem_singleton.mpr hsteady) hupdate hstep
    hfound
  exact hnames

end Scan

end SqlTables
