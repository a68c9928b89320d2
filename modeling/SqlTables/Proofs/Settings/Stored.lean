import SqlTables.Proofs.ConfigFile

/-!
# The value of a key in a document

A document holds a value for a key if it has the section of the key and there the name of the
key (`ConfigFile.stored?`). If the values can be shown, what is listed for the key is this value
as a text, whatever else the document holds (`ConfigFile.exists_list`). Only an integer with too
many digits stands in the way of the settings (`ConfigFile.HasShortIntegers.exists_settings`).
-/

namespace SqlTables

namespace Datum

theorem haveShowable_iff {entries : List (String × Datum)} :
    haveShowable entries ↔ ∀ e ∈ entries, e.2.isShowable := by
  induction entries with
  | nil => simp [haveShowable]
  | cons e rest ih => simp [haveShowable, ih]

theorem isShowable_table {entries : Entries Datum} :
    (table entries).isShowable ↔ ∀ e ∈ entries, e.2.isShowable := by
  rw [isShowable, haveShowable_iff]

end Datum

namespace ConfigFile

/-- No integer in the file has too many digits to be read or shown. -/
structure HasShortIntegers (file : ConfigFile) : Prop where
  isRead : ∀ digits, file.read ≠ .error (.longInteger digits)
  isShowable : ∀ entries, file.read = .ok entries → (Datum.table entries).isShowable

/-- The value that a document holds for a key. -/
def stored? (entries : Entries Datum) (k : SettingsKey) : Option Datum :=
  match entries.get? k.group with
  | some (.table values) => Entries.get? values k.name
  | _ => none

variable {file : ConfigFile} {entries : Entries Datum} {k : SettingsKey} {d : Datum}

/-- No other section and name are listed under the name of a key. -/
theorem listedName_eq_text_iff {group name : String} :
    listedName group name = k.text ↔ group = k.group ∧ name = k.name :=
  eq_comm.trans ((listedName_inj (isBare_key k).1 (isBare_key k).2).trans
    (and_congr eq_comm eq_comm))

theorem mem_members_iff (h : Datum.Distinct (.table entries)) :
    (k.text, d) ∈ members entries ↔ stored? entries k = some d := by
  obtain ⟨hkeys, hvalues⟩ := Datum.distinct_table.mp h
  constructor
  · intro hmem
    obtain ⟨⟨group, value⟩, hgroup, hmem⟩ := List.mem_flatMap.mp hmem
    cases value with
    | table values =>
        obtain ⟨⟨name, v⟩, hv, heq⟩ := List.mem_map.mp hmem
        cases (Prod.mk.inj heq).2
        obtain ⟨rfl, rfl⟩ := listedName_eq_text_iff.mp (Prod.mk.inj heq).1
        have hinner := (Datum.distinct_table.mp (hvalues _ hgroup)).1
        rw [stored?, (Entries.get?_eq_some_iff hkeys).mpr hgroup]
        exact (Entries.get?_eq_some_iff hinner).mpr hv
    | _ => cases hmem
  · intro hstored
    unfold stored? at hstored
    split at hstored
    · next values hget =>
        refine List.mem_flatMap.mpr ⟨_, Entries.mem_of_get? hget, ?_⟩
        exact List.mem_map_of_mem (f := fun v : String × Datum => (listedName k.group v.1, v.2))
          (Entries.mem_of_get? hstored)
    · cases hstored

theorem get?_members (h : Datum.Distinct (.table entries)) (k : SettingsKey) :
    Entries.get? (.ofList ((members entries).map fun e => (e.1, e.2.text))) k.text =
      (stored? entries k).map Datum.text := by
  obtain ⟨hsome, hnone⟩ := Entries.get?_ofList
    ((members entries).map fun e => (e.1, e.2.text)) k.text
  cases hget : Entries.get? (.ofList ((members entries).map fun e => (e.1, e.2.text))) k.text with
  | some text =>
      obtain ⟨⟨name, d⟩, hmem, heq⟩ := List.mem_map.mp (hsome text hget)
      cases heq
      rw [(mem_members_iff h).mp hmem]
      rfl
  | none =>
      cases hstored : stored? entries k with
      | none => rfl
      | some d =>
          have hmem := (mem_members_iff h).mpr hstored
          exact absurd rfl (hnone hget _ (List.mem_map_of_mem
            (f := fun e : String × Datum => (e.1, e.2.text)) hmem))

/-- A document whose values can be shown is listed, and each key with the value that it has in
the document. -/
theorem exists_list (hread : file.read = .ok entries)
    (hshowable : ∀ e ∈ members entries, e.2.isShowable) :
    ∃ stored, file.list = .ok stored ∧ stored.Distinct ∧
      ∀ k : SettingsKey, stored.get? k.text = (stored? entries k).map Datum.text := by
  refine ⟨_, ?_, Entries.distinct_ofList _, get?_members (distinct_of_read hread)⟩
  rw [list, hread, ok_bind, flatten_of_isShowable hshowable]

/-! ## Short integers -/

theorem isShowable_members (h : (Datum.table entries).isShowable) :
    ∀ e ∈ members entries, e.2.isShowable := by
  rw [Datum.isShowable_table] at h
  intro e he
  obtain ⟨⟨group, d⟩, hmem, he⟩ := List.mem_flatMap.mp he
  cases d with
  | table values =>
      obtain ⟨v, hv, rfl⟩ := List.mem_map.mp he
      exact Datum.isShowable_table.mp (h _ hmem) v hv
  | _ => cases he

theorem read_error_cases {problem : ConfigProblem} (h : file.read = .error problem) :
    (∃ isText, problem = .unreadable isText) ∨ ∃ digits, problem = .longInteger digits := by
  unfold read at h
  split at h
  · cases h
  · split at h
    · cases h
      exact Or.inl ⟨_, rfl⟩
    · split at h
      · cases h
      · cases h
        exact Or.inl ⟨_, rfl⟩
      · cases h
        exact Or.inr ⟨_, rfl⟩

def hasShortIntegers (file : ConfigFile) : Bool :=
  match file.read with
  | .ok entries => (Datum.table entries).isShowable
  | .error (.longInteger _) => false
  | .error _ => true

theorem hasShortIntegers_iff : file.hasShortIntegers ↔ file.HasShortIntegers := by
  rw [hasShortIntegers]
  constructor
  · intro h
    constructor
    · intro digits hread
      rw [hread] at h
      cases h
    · intro entries hread
      rwa [hread] at h
  · intro h
    split
    · next entries hread => exact h.isShowable entries hread
    · next digits hread => exact absurd hread (h.isRead digits)
    · rfl

instance (file : ConfigFile) : Decidable file.HasShortIntegers :=
  decidable_of_iff _ hasShortIntegers_iff

/-- Integers apart, nothing in the file stands in the way of the settings. -/
theorem HasShortIntegers.exists_settings (h : file.HasShortIntegers) :
    ∃ s, file.settings = .ok s := by
  rw [settings, list]
  cases hread : file.read with
  | ok entries =>
      rw [ok_bind, flatten_of_isShowable (isShowable_members (h.isShowable entries hread))]
      exact ⟨_, rfl⟩
  | error problem =>
      rcases read_error_cases hread with ⟨isText, rfl⟩ | ⟨digits, rfl⟩
      · exact ⟨{}, rfl⟩
      · exact absurd hread (h.isRead digits)

end ConfigFile

end SqlTables
