import SqlTables.Proofs.Settings.Edit
import SqlTables.Proofs.Settings.Removal

/-!
# Files that were written

Whatever is saved and removed, a file that was not there at first stands for sections with names
that are bare keys (`ConfigFile.isWritten_edits`). Sections without control characters are saved
and removed one value at a time; a file with control characters cannot be read, so it stays.
-/

namespace SqlTables

namespace ConfigFile

/-- Whatever is wrong with a line, the file is malformed. -/
theorem Row.malformed_of_apply {row : Row} {d : Toml.Document} {problem : Toml.Problem}
    (h : row.apply d = .error problem) : problem = .malformed := by
  have hwell (x : Option Toml.Document) (hx : Toml.wellFormed x = .error problem) :
      problem = .malformed := by
    cases x with
    | none =>
        cases hx
        rfl
    | some after => cases hx
  cases row with
  | header name => exact hwell _ h
  | value name text =>
      rw [Row.apply] at h
      split at h
      · exact hwell _ h
      · cases h
        rfl
  | blank => cases h

theorem Row.malformed_of_foldlM {rows : List Row} {d : Toml.Document} {problem : Toml.Problem}
    (h : rows.foldlM Row.apply d = .error problem) : problem = .malformed := by
  induction rows generalizing d with
  | nil => cases h
  | cons row rows ih =>
      rw [List.foldlM_cons] at h
      cases hrow : Row.apply d row with
      | error other =>
          rw [hrow] at h
          cases h
          exact Row.malformed_of_apply hrow
      | ok next =>
          rw [hrow] at h
          exact ih h

namespace Sections

/-- The file with the given sections. Without sections there is none. -/
def file (sections : Sections) : ConfigFile :=
  if sections.isEmpty then none else some (Utf8.encode sections.chars)

variable {sections : Sections} {k : SettingsKey} {name value : String}

theorem wellNamed_nil : WellNamed [] where
  distinct := Entries.distinct_nil
  distinct_values := List.forall_mem_nil _
  isBare := List.forall_mem_nil _
  isBare_values := List.forall_mem_nil _

theorem read_file (h : sections.WellNamed) (hplain : sections.IsPlain) :
    sections.file.read = .ok sections.tables := by
  unfold file
  split
  · next hempty =>
      rw [List.isEmpty_iff.mp hempty]
      rfl
  · exact (read_encode sections.chars).mpr (read_sections h hplain)

theorem list_file (h : sections.WellNamed) (hplain : sections.IsPlain) :
    sections.file.list = .ok sections.listed := by
  unfold file
  split
  · next hempty =>
      rw [List.isEmpty_iff.mp hempty]
      rfl
  · exact (list_encode h).mpr ⟨hplain, rfl⟩

/-- A file with control characters cannot be read. -/
theorem read_file_of_not_isPlain (h : sections.WellNamed) (hplain : ¬ sections.IsPlain) :
    sections.file.read = .error (.unreadable true) := by
  have hne : sections ≠ [] := by
    rintro rfl
    exact hplain (List.forall_mem_nil _)
  have hread : Toml.read sections.chars = .error .malformed := by
    cases hread : Toml.read sections.chars with
    | ok entries => exact absurd (isPlain_of_read h hread) hplain
    | error problem =>
        rw [read_chars h] at hread
        cases hrun : (rows sections).foldlM Row.apply (document [] []) with
        | ok after =>
            rw [hrun] at hread
            cases hread
        | error other =>
            rw [hrun] at hread
            cases hread
            rw [Row.malformed_of_foldlM hrun]
  simp [file, hne, read, Utf8.decode_encode, hread]

theorem file_save (sections : Sections) (group name text : String) :
    (sections.save group name text).file =
      some (Utf8.encode (sections.save group name text).chars) := by
  have hne : sections.save group name text ≠ [] :=
    List.ne_nil_of_mem (Entries.mem_put_self _ _ _)
  simp [file, hne]

theorem isPlain_save {group name text : String} (h : sections.IsPlain)
    (htext : ConfigFile.isPlain text) : (sections.save group name text).IsPlain := by
  intro s hs e he
  rcases Entries.mem_put hs with rfl | hs
  · rcases Entries.mem_put he with rfl | he
    · exact htext
    · cases hget : sections.get? group with
      | none =>
          rw [hget] at he
          cases he
      | some values =>
          rw [hget] at he
          exact h _ (Entries.mem_of_get? hget) e he
  · exact h s hs e he

theorem set_file (h : sections.WellNamed) (hplain : sections.IsPlain)
    (hk : SettingsKey.ofText? name = some k) (haccepts : Settings.Accepts k value) :
    sections.file.set name value =
      .ok (Utf8.encode (sections.save k.group k.name (Text.trim value)).chars) := by
  have hset := SavedSetting.set_eq
    { file := sections.file, name, value, key := k, entries := sections.tables
      stored := sections.listed, isKey := hk, isAccepted := haccepts
      read_eq := read_file h hplain
      list_eq := list_file h hplain
      isTable := fun e he => (isSection_tables sections e he).imp fun _ hd => hd.1 }
  rwa [SavedSetting.saved, texts_tables] at hset

theorem unset_file (h : sections.WellNamed) (hplain : sections.IsPlain)
    (hk : SettingsKey.ofText? name = some k) :
    sections.file.unset name =
      .ok (if (sections.lookup k.group k.name).isSome then
        (true, (sections.erase k.group k.name).file) else (false, sections.file)) := by
  rw [unset_of_key _ hk, read_file h hplain, Except.bind, removeFrom_tables, Except.bind]
  split
  · rw [leave, isEmpty_tables]
    split
    · next hempty => rw [file, if_pos hempty]
    · next hempty =>
        rw [write_eq (isSection_tables _), texts_tables, file, if_neg hempty]
        rfl
  · rfl

end Sections

/-! ## Whole runs -/

/-- The file stands for sections whose names are bare keys. -/
def IsWritten (file : ConfigFile) : Prop :=
  ∃ sections : Sections, sections.WellNamed ∧ file = sections.file

theorem isWritten_none : IsWritten none := ⟨[], Sections.wellNamed_nil, rfl⟩

variable {file : ConfigFile}

/-- An edit leaves a file that is not readable, and saves or removes one value otherwise. -/
theorem IsWritten.edit (h : file.IsWritten) (e : ConfigEdit) : IsWritten (file.edit e).2 := by
  obtain ⟨sections, hnamed, rfl⟩ := h
  have hsame : IsWritten sections.file := ⟨sections, hnamed, rfl⟩
  cases e with
  | set name value =>
      rcases set_cases sections.file name value with ⟨problem, hset⟩ | ⟨k, hk, haccepts⟩
      · rwa [edit_set_error hset]
      · by_cases hplain : sections.IsPlain
        · obtain ⟨hgroup, hname⟩ := isBare_key k
          rw [edit_set_ok (Sections.set_file hnamed hplain hk haccepts)]
          exact ⟨_, Sections.wellNamed_save hnamed hgroup hname _,
            (Sections.file_save _ _ _ _).symm⟩
        · have hset := set_of_accepts sections.file hk haccepts
          rw [Sections.read_file_of_not_isPlain hnamed hplain] at hset
          rwa [edit_set_error hset]
  | unset name =>
      cases hk : SettingsKey.ofText? name with
      | none => rwa [edit_unset_error (unset_of_not_key hk)]
      | some k =>
          by_cases hplain : sections.IsPlain
          · have hunset := Sections.unset_file hnamed hplain hk
            split at hunset
            · rw [edit_unset_ok hunset]
              exact ⟨_, Sections.wellNamed_erase hnamed _ _, rfl⟩
            · rwa [edit_unset_ok hunset]
          · have hunset := unset_of_key sections.file hk
            rw [Sections.read_file_of_not_isPlain hnamed hplain] at hunset
            rwa [edit_unset_error hunset]

/-- Whatever edits are made, a file that was not there at first stands for sections. -/
theorem isWritten_edits (es : List ConfigEdit) : IsWritten (edits none es) := by
  induction es using List.reverseRecOn with
  | nil => exact isWritten_none
  | append_singleton es e ih =>
      rw [edits_concat]
      exact ih.edit e

/-- The settings are there, be it the defaults because of a control character. -/
theorem IsWritten.exists_settings (h : file.IsWritten) : ∃ s, file.settings = .ok s := by
  obtain ⟨sections, hnamed, rfl⟩ := h
  by_cases hplain : sections.IsPlain
  · refine ⟨({} : Settings).overlays sections.listed, ?_⟩
    rw [settings, Sections.list_file hnamed hplain]
    rfl
  · refine ⟨{}, ?_⟩
    rw [settings, list, Sections.read_file_of_not_isPlain hnamed hplain]
    rfl

end ConfigFile

end SqlTables
