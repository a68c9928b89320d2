import Mathlib.Data.List.Nodup
import SqlTables.Proofs.Run
import SqlTables.Proofs.Scan.Origin

/-!
# The names of common table expressions

The names of the common table expressions of a script should be listed once each, whatever
the case of later uses. Up to case the list is right: it holds what the `WITH` clauses
introduce (`Extraction.mem_map_lower_cteNames`). But it tells names apart by their
characters, and uses are recorded as they are spelled, so a name is listed once just where
all that is recorded for it is spelled alike (`Extraction.listsOnce_iff`).
-/

namespace SqlTables

namespace Extraction

/-- The token is read as the name of a common table expression in a statement of the script. -/
def Introduces (script : String) (t : Token) : Prop :=
  ∃ s ∈ Statement.ofScript script, s.kind ≠ .session ∧ s.Introduces t

/-- The names that are listed for a script are those of its common table expressions, ignoring
case, and each of them is listed once. -/
structure ListsOnce (script : String) : Prop where
  distinct : (scan script).cteNames.Pairwise fun a b => Unicode.lower a ≠ Unicode.lower b
  introduced : ∀ key, key ∈ (scan script).cteNames.map Unicode.lower ↔
    ∃ t, Introduces script t ∧ Unicode.lower t.value = key

variable {script : String}

theorem mem_cteNames_iff {e : Extraction} {name : String} :
    name ∈ e.cteNames ↔ ∃ r ∈ e.references, r.role = .cteDefinition ∧ r.name = name := by
  simp [cteNames, List.mem_mergeSort, List.mem_eraseDups, and_assoc]

theorem nodup_eraseDups : ∀ names : List String, names.eraseDups.Nodup
  | [] => List.nodup_nil
  | name :: names => by
      rw [List.eraseDups_cons, List.nodup_cons]
      refine ⟨fun h => ?_, nodup_eraseDups _⟩
      have hne := (List.mem_filter.mp (List.mem_eraseDups.mp h)).2
      simp at hne
termination_by names => names.length
decreasing_by exact Nat.lt_succ_of_le (List.length_filter_le _ _)

theorem nodup_cteNames (e : Extraction) : e.cteNames.Nodup :=
  (List.mergeSort_perm _ _).nodup_iff.mpr (nodup_eraseDups _)

theorem mem_references_scan {r : Reference} :
    r ∈ (scan script).references ↔
      ∃ s ∈ Statement.ofScript script, s.kind ≠ .session ∧ r ∈ s.scan.references := by
  have hrun : (scan script).references =
      (Statement.ofScript script).flatMap (Reader.scan.references script) :=
    Reader.scan.references_run script
  rw [hrun, List.mem_flatMap]
  refine exists_congr fun s => and_congr_right fun _ => ?_
  rw [Reader.references]
  split
  next hkind => simp [hkind]
  next hkind =>
      rw [and_iff_right hkind]
      rfl

/-- What is recorded for a common table expression was introduced, up to case. -/
theorem exists_introduces {r : Reference} (hr : r ∈ (scan script).references)
    (hrole : r.role = .cteDefinition) :
    ∃ t, Introduces script t ∧ Unicode.lower t.value = Unicode.lower r.name := by
  obtain ⟨s, hs, hkind, hr⟩ := mem_references_scan.mp hr
  obtain ⟨t, ht, hname⟩ := Statement.exists_introduces hr hrole
  exact ⟨t, ⟨s, hs, hkind, ht⟩, hname⟩

theorem mem_cteNames_of_introduces {t : Token} (h : Introduces script t) :
    t.value ∈ (scan script).cteNames := by
  obtain ⟨s, hs, hkind, ht⟩ := h
  obtain ⟨r, hr, hrole, hname⟩ := Statement.mem_scan_of_introduces ht
  exact mem_cteNames_iff.mpr ⟨r, mem_references_scan.mpr ⟨s, hs, hkind, hr⟩, hrole, hname⟩

/-- Up to case, the names that are listed are those that are introduced. -/
theorem mem_map_lower_cteNames {key : String} :
    key ∈ (scan script).cteNames.map Unicode.lower ↔
      ∃ t, Introduces script t ∧ Unicode.lower t.value = key := by
  rw [List.mem_map]
  constructor
  · rintro ⟨name, hname, rfl⟩
    obtain ⟨r, hr, hrole, rfl⟩ := mem_cteNames_iff.mp hname
    exact exists_introduces hr hrole
  · rintro ⟨t, ht, rfl⟩
    exact ⟨t.value, mem_cteNames_of_introduces ht, rfl⟩

/-- Each name is listed once just where all that is recorded for it, wherever in the script, is
spelled as it is introduced. -/
theorem listsOnce_iff (script : String) :
    ListsOnce script ↔ ∀ t, Introduces script t → ∀ r ∈ (scan script).references,
      r.role = .cteDefinition → Unicode.lower r.name = Unicode.lower t.value →
        r.name = t.value := by
  constructor
  · intro h t ht r hr hrole hlower
    have hdistinct : ((scan script).cteNames.map Unicode.lower).Nodup :=
      List.pairwise_map.mpr h.distinct
    exact List.inj_on_of_nodup_map hdistinct (mem_cteNames_iff.mpr ⟨r, hr, hrole, rfl⟩)
      (mem_cteNames_of_introduces ht) hlower
  · intro h
    refine ⟨?_, fun key => mem_map_lower_cteNames⟩
    have hinjective : ∀ a ∈ (scan script).cteNames, ∀ b ∈ (scan script).cteNames,
        Unicode.lower a = Unicode.lower b → a = b := by
      intro a ha b hb hlower
      obtain ⟨r, hr, hrole, rfl⟩ := mem_cteNames_iff.mp ha
      obtain ⟨r', hr', hrole', rfl⟩ := mem_cteNames_iff.mp hb
      obtain ⟨t, ht, hname⟩ := exists_introduces hr hrole
      rw [h t ht r hr hrole hname.symm, h t ht r' hr' hrole' (hlower.symm.trans hname.symm)]
    exact List.pairwise_map.mp ((nodup_cteNames _).map_on hinjective)

/-- A use in another case is listed again. -/
theorem not_listsOnce_upper :
    "x" ∈ (scan "WITH x AS (SELECT 1) SELECT * FROM X").cteNames ∧
      "X" ∈ (scan "WITH x AS (SELECT 1) SELECT * FROM X").cteNames ∧
      ¬ ListsOnce "WITH x AS (SELECT 1) SELECT * FROM X" := by
  have hreferences : (scan "WITH x AS (SELECT 1) SELECT * FROM X").references =
      [⟨["x"], ⟨5, 6⟩, .cteDefinition, 0⟩, ⟨["X"], ⟨35, 36⟩, .cteDefinition, 0⟩] := by
    decide +kernel
  have hsmall : "x" ∈ (scan "WITH x AS (SELECT 1) SELECT * FROM X").cteNames :=
    mem_cteNames_iff.mpr ⟨_, by rw [hreferences]; exact List.mem_cons_self, rfl, rfl⟩
  have hcapital : "X" ∈ (scan "WITH x AS (SELECT 1) SELECT * FROM X").cteNames :=
    mem_cteNames_iff.mpr
      ⟨_, by rw [hreferences]; exact List.mem_cons_of_mem _ List.mem_cons_self, rfl, rfl⟩
  refine ⟨hsmall, hcapital, fun h => ?_⟩
  have heq := List.inj_on_of_nodup_map (List.pairwise_map.mpr h.distinct) hsmall hcapital
    (by decide +kernel)
  exact absurd heq (by decide)

end Extraction

end SqlTables
