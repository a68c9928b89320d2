import Mathlib.Tactic.Common
import SqlTables.Extraction

/-!
# What a statement adds to the tables

The tokens between two semicolons are a statement, whatever stands outside them
(`Statement.exists_mem_ofTokens`), and the statements of a script hold what counts of it
(`Statement.flatMap_tokens_ofScript`). Each source that the scan finds in a statement is
among the tables of the script, up to case (`Extraction.exists_mem_tables`).
-/

namespace SqlTables

/-- Whether the token belongs to a statement: it is neither a blank, a comment nor a semicolon. -/
def Token.isContent (t : Token) : Bool := t.isSignificant && !t.isMark ';'

namespace Statement

theorem groups_append {t : Token} (ht : t.isMark ';') (xs ys : List Token) :
    groups (xs ++ t :: ys) = groups xs ++ groups ys := by
  induction xs with
  | nil => rw [List.nil_append, groups_cons_mark ht, groups_nil, List.singleton_append]
  | cons x xs ih =>
      rw [List.cons_append, groups, groups, ih]
      split
      · rfl
      · cases hgroups : groups xs with
        | nil => exact absurd hgroups (groups_ne_nil xs)
        | cons g gs => rfl

theorem groups_eq_singleton {xs : List Token} (h : ∀ t ∈ xs, ¬ t.isMark ';') :
    groups xs = [xs] := by
  induction xs with
  | nil => rfl
  | cons x xs ih =>
      rw [List.forall_mem_cons] at h
      rw [groups, if_neg h.1, ih h.2]

/-- The groups hold all tokens but the semicolons, in their order. -/
theorem flatten_groups (ts : List Token) :
    (groups ts).flatten = ts.filter fun t => !t.isMark ';' := by
  induction ts with
  | nil => rfl
  | cons t ts ih =>
      by_cases ht : t.isMark ';'
      · rw [groups_cons_mark ht, List.flatten_cons, ih, List.filter_cons_of_neg (by simp [ht])]
        rfl
      · rw [List.filter_cons_of_pos (by simp [ht]), ← ih, groups, if_neg ht]
        cases hgroups : groups ts with
        | nil => exact absurd hgroups (groups_ne_nil ts)
        | cons g gs => rfl

theorem map_tokens_number (index : Nat) (gs : List (List Token)) :
    (number index gs).map tokens = gs := by
  induction gs generalizing index with
  | nil => rfl
  | cons g gs ih => rw [number, List.map_cons, ih]

/-- The statements hold all tokens of the script that belong to one, in their order. -/
theorem flatMap_tokens_ofScript (script : String) :
    (ofScript script).flatMap tokens = (Token.scan script).filter Token.isContent := by
  rw [List.flatMap_def, ofScript, ofTokens, map_tokens_number, List.flatten_filter_not_isEmpty,
    flatten_groups, List.filter_filter]
  exact List.filter_congr fun t _ => Bool.and_comm _ _

theorem kind_ne_session {s : Statement} {head : Token} {rest : List Token}
    (hs : s.tokens = head :: rest)
    (hword : ¬ StatementKind.sessionWords.contains (headWord head)) : s.kind ≠ .session := by
  unfold kind
  rw [hs]
  dsimp only
  rw [if_neg hword]
  split_ifs <;> exact StatementKind.noConfusion

theorem exists_mem_number {g : List Token} {gs : List (List Token)} (h : g ∈ gs) (index : Nat) :
    ∃ i, ⟨i, g⟩ ∈ number index gs := by
  induction gs generalizing index with
  | nil => cases h
  | cons g' gs ih =>
      rcases List.mem_cons.mp h with rfl | h
      · exact ⟨index, List.mem_cons_self⟩
      · obtain ⟨i, hi⟩ := ih h (index + 1)
        exact ⟨i, List.mem_cons_of_mem _ hi⟩

/-- The significant tokens between two semicolons are a statement. -/
theorem exists_mem_ofTokens {t u : Token} (ht : t.isMark ';') (hu : u.isMark ';')
    {xs gs ys : List Token} (hsemicolon : ∀ t ∈ gs, ¬ t.isMark ';')
    (hsignificant : gs.filter Token.isSignificant ≠ []) :
    ∃ i, ⟨i, gs.filter Token.isSignificant⟩ ∈ ofTokens (xs ++ t :: (gs ++ u :: ys)) := by
  have hmark {t : Token} (h : t.isMark ';') : t.isSignificant := by
    rw [Token.isSignificant, eq_of_beq h]
  have hinner : ∀ t ∈ gs.filter Token.isSignificant, ¬ t.isMark ';' := fun t h =>
    hsemicolon t (List.mem_filter.mp h).1
  refine exists_mem_number (List.mem_filter.mpr ⟨?_, ?_⟩) 0
  · rw [List.filter_append, List.filter_cons_of_pos (hmark ht), List.filter_append,
      List.filter_cons_of_pos (hmark hu), groups_append ht, groups_append hu,
      groups_eq_singleton hinner]
    simp
  · simpa using hsignificant

end Statement

namespace TableSet

variable {T : TableSet} {name other : String}

theorem contains_insert_self (T : TableSet) (name : String) : (T.insert name).contains name := by
  unfold insert
  split
  · assumption
  · simp [contains]

theorem contains_insert (h : T.contains name) (other : String) :
    (T.insert other).contains name := by
  rw [contains, toList_insert]
  split
  · exact h
  · rw [List.any_append, Bool.or_eq_true]
    exact Or.inl h

theorem contains_insertSources (h : T.contains name) (database : Option String)
    (references : List Reference) : (T.insertSources database references).contains name := by
  rw [insertSources]
  induction references.filter Reference.isSource generalizing T with
  | nil => exact h
  | cons r rs ih => exact ih (contains_insert h _)

theorem insertSources_append (T : TableSet) (database : Option String) (xs ys : List Reference) :
    T.insertSources database (xs ++ ys) =
      (T.insertSources database xs).insertSources database ys := by
  rw [insertSources, insertSources, insertSources, List.filter_append, List.foldl_append]

theorem insertSources_cons {r : Reference} (hr : r.isSource) (T : TableSet)
    (database : Option String) (rs : List Reference) :
    T.insertSources database (r :: rs) =
      (T.insert (r.qualifiedName database)).insertSources database rs := by
  rw [insertSources, insertSources, List.filter_cons_of_pos hr, List.foldl_cons]

theorem contains_insertSources_of_mem {r : Reference} {references : List Reference}
    (h : r ∈ references) (hr : r.isSource) (T : TableSet) (database : Option String) :
    (T.insertSources database references).contains (r.qualifiedName database) := by
  obtain ⟨xs, ys, rfl⟩ := List.append_of_mem h
  rw [insertSources_append, insertSources_cons hr]
  exact contains_insertSources (contains_insert_self _ _) _ _

end TableSet

namespace Extraction

variable {script : String} {s : Statement} {name : String}

theorem contains_step {p : Progress} (h : p.tables.contains name) (s : Statement) :
    (Id.run (step .scan noParser none script p s)).tables.contains name := by
  unfold step
  split
  · exact h
  · exact TableSet.contains_insertSources h _ _

theorem contains_steps {p : Progress} (h : p.tables.contains name) (ss : List Statement) :
    (Id.run (steps .scan noParser none script p ss)).tables.contains name := by
  induction ss generalizing p with
  | nil => exact h
  | cons s ss ih => exact ih (contains_step h s)

theorem exists_contains_steps (script : String) {r : Reference} {ss : List Statement}
    (hs : s ∈ ss) (hkind : s.kind ≠ .session) (hr : r ∈ s.scan.references) (hsource : r.isSource)
    (p : Progress) : ∃ database, (Id.run (steps .scan noParser none script p ss)).tables.contains
      (r.qualifiedName database) := by
  induction ss generalizing p with
  | nil => cases hs
  | cons s' ss ih =>
      rcases List.mem_cons.mp hs with rfl | hs
      · refine ⟨p.database, contains_steps ?_ ss⟩
        rw [step, if_neg hkind]
        exact TableSet.contains_insertSources_of_mem hr hsource _ _
      · exact ih hs _

/-- A source of a statement is among the tables, in some spelling. -/
theorem exists_mem_tables {r : Reference} (hs : s ∈ Statement.ofScript script)
    (hkind : s.kind ≠ .session) (hr : r ∈ s.scan.references) (hsource : r.isSource) :
    ∃ database, ∃ name ∈ (scan script).tables,
      Unicode.fold name = Unicode.fold (r.qualifiedName database) := by
  obtain ⟨database, h⟩ := exists_contains_steps script hs hkind hr hsource
    (.start (Token.scan script))
  obtain ⟨name, hname, hfold⟩ := List.any_eq_true.mp h
  exact ⟨database, name, List.mem_mergeSort.mpr hname, eq_of_beq hfold⟩

end Extraction

end SqlTables
