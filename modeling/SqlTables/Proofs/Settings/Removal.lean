import SqlTables.Proofs.ConfigFile

/-!
# Removing a setting

A value that is removed from a section takes the section with it if no other value is left there
(`Sections.erase`). Nothing else that the sections hold changes (`Sections.lookup_erase`), and
what is left is what the file is written from (`ConfigFile.removeFrom_tables`).
-/

namespace SqlTables

namespace ConfigFile

namespace Sections

variable {sections : Sections} {group name : String}

/-- The sections without a value in one of them. A section that is left without values goes
too. -/
def erase (sections : Sections) (group name : String) : Sections :=
  match sections.get? group with
  | none => sections
  | some values =>
    if (Entries.remove values name).isEmpty then sections.remove group
    else sections.put group (Entries.remove values name)

theorem erase_of_none (h : sections.get? group = none) : sections.erase group name = sections := by
  rw [erase, h]

theorem erase_of_some {values : Entries String} (h : sections.get? group = some values) :
    sections.erase group name =
      if (Entries.remove values name).isEmpty then sections.remove group
      else sections.put group (Entries.remove values name) := by
  rw [erase, h]

/-- Only the value that is removed is missing. -/
theorem lookup_erase (sections : Sections) (group name group' name' : String) :
    (sections.erase group name).lookup group' name' =
      if group = group' ∧ name = name' then none else sections.lookup group' name' := by
  cases hget : sections.get? group with
  | none =>
      rw [erase_of_none hget]
      split
      · next h => rw [← h.1, lookup, hget, Option.bind_none]
      · rfl
  | some values =>
      have hvalues (name : String) : sections.lookup group name = Entries.get? values name := by
        rw [lookup, hget, Option.bind_some]
      rw [erase_of_some hget]
      by_cases hgroup : group = group'
      · subst hgroup
        have hleft : ((Entries.remove values name).get? name') =
            if group = group ∧ name = name' then none else sections.lookup group name' := by
          rw [Entries.get?_remove, hvalues]
          simp [eq_comm]
        rw [← hleft]
        by_cases hempty : (Entries.remove values name).isEmpty
        · rw [if_pos hempty, lookup, Entries.get?_remove, if_pos rfl, List.isEmpty_iff.mp hempty]
          rfl
        · rw [if_neg hempty, lookup, Entries.get?_put, if_pos rfl, Option.bind_some]
      · have hother : ¬ (group = group' ∧ name = name') := fun h => hgroup h.1
        rw [if_neg hother]
        split
        · rw [lookup, Entries.get?_remove, if_neg (Ne.symm hgroup), lookup]
        · rw [lookup, Entries.get?_put, if_neg hgroup, lookup]

/-- A section that is left is one of the sections, or what is left of the one that loses a
value. -/
theorem mem_erase {s : String × Entries String} (h : s ∈ sections.erase group name) :
    s ∈ sections ∨ s.2 ≠ [] ∧ ∃ values, (group, values) ∈ sections ∧
      s = (group, Entries.remove values name) := by
  cases hget : sections.get? group with
  | none =>
      rw [erase_of_none hget] at h
      exact Or.inl h
  | some values =>
      rw [erase_of_some hget] at h
      split at h
      · exact Or.inl (Entries.mem_of_mem_remove h)
      · next hne =>
          rcases Entries.mem_put h with rfl | h
          · refine Or.inr ⟨?_, values, Entries.mem_of_get? hget, rfl⟩
            intro hnil
            exact hne (List.isEmpty_iff.mpr hnil)
          · exact Or.inl h

theorem wellNamed_erase (h : sections.WellNamed) (group name : String) :
    (sections.erase group name).WellNamed := by
  have hdistinct : (sections.erase group name).Distinct := by
    cases hget : sections.get? group with
    | none =>
        rw [erase_of_none hget]
        exact h.distinct
    | some values =>
        rw [erase_of_some hget]
        split
        · exact Entries.distinct_remove h.distinct _
        · exact Entries.distinct_put h.distinct _ _
  refine ⟨hdistinct, fun s hs => ?_, fun s hs => ?_, fun s hs => ?_⟩
  all_goals rcases mem_erase hs with hs | ⟨-, values, hvalues, rfl⟩
  · exact h.distinct_values s hs
  · exact Entries.distinct_remove (h.distinct_values _ hvalues) _
  · exact h.isBare s hs
  · exact h.isBare (group, values) hvalues
  · exact h.isBare_values s hs
  · exact fun e he => h.isBare_values _ hvalues e (Entries.mem_of_mem_remove he)

theorem isPlain_erase (h : sections.IsPlain) (group name : String) :
    (sections.erase group name).IsPlain := by
  intro s hs e he
  rcases mem_erase hs with hs | ⟨-, values, hvalues, rfl⟩
  · exact h s hs e he
  · exact h _ hvalues e (Entries.mem_of_mem_remove he)

theorem isEmpty_tables (sections : Sections) : sections.tables.isEmpty = sections.isEmpty := by
  cases sections <;> rfl

theorem put_tables (sections : Sections) (name : String) (values : Entries String) :
    Entries.put sections.tables name (strings values) = tables (sections.put name values) :=
  (Entries.map_put strings sections name values).symm

theorem remove_tables (sections : Sections) (name : String) :
    Entries.remove sections.tables name = tables (sections.remove name) :=
  (Entries.map_remove strings sections name).symm

end Sections

/-- What is left of sections of texts is what is left of the entries that they are read as. -/
theorem removeFrom_tables (sections : Sections) (k : SettingsKey) :
    removeFrom sections.tables k =
      .ok (if (sections.lookup k.group k.name).isSome then
        some (sections.erase k.group k.name).tables else none) := by
  have hget := Sections.get?_tables sections k.group
  rw [Sections.lookup, removeFrom, hget]
  cases hvalues : sections.get? k.group with
  | none => rfl
  | some values =>
      have hvalue := Entries.get?_map Datum.string values k.name
      have hleft := Entries.map_remove Datum.string values k.name
      rw [Option.map_some, Option.bind_some, Sections.strings]
      dsimp only
      rw [hvalue, Option.isSome_map, ← hleft, Sections.erase_of_some hvalues]
      cases (Entries.get? values k.name).isSome with
      | false => rfl
      | true =>
          simp only [if_pos, List.isEmpty_map]
          split
          · rw [Sections.remove_tables]
          · rw [← Sections.put_tables, Sections.strings]

end ConfigFile

end SqlTables
