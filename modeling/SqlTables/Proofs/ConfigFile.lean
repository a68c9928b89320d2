import SqlTables.Proofs.Encoding.Utf8
import SqlTables.Proofs.Settings.Listing

/-!
# Saving a setting

Saving a setting should change what is stored at its name and nothing else. The file is
written anew for it, with every value as it is shown, and control characters are not
escaped. So, in a file whose names are bare keys, the other settings are kept exactly if
neither they nor the new value hold a control character other than a tab
(`SavedSetting.keepsOthers_iff`).
-/

namespace SqlTables

namespace ConfigFile

variable {α β ε : Type} {entries : Entries Datum}

/-- The texts that a value stores as a section. -/
def sectionTexts : Datum → Entries String
  | .table values => values.map fun e => (e.1, e.2.text)
  | _ => []

/-- The entries as sections of texts. -/
def texts (entries : Entries Datum) : Sections := entries.map fun e => (e.1, sectionTexts e.2)

/-- The entry is a section, and its values can be shown. -/
def IsSection (d : Datum) : Prop := ∃ values, d = .table values ∧ ∀ e ∈ values, e.2.isShowable

theorem ok_bind (a : α) (f : α → Except ε β) : (Except.ok a >>= f) = f a := rfl

theorem mapM_of_forall {f : α → Except ε β} {g : α → β} {xs : List α}
    (h : ∀ x ∈ xs, f x = .ok (g x)) : xs.mapM f = .ok (xs.map g) := by
  induction xs with
  | nil => rfl
  | cons x xs ih =>
      rw [List.forall_mem_cons] at h
      rw [List.mapM_cons, h.1, ih h.2]
      rfl

theorem forall_of_mapM {f : α → Except ε β} {xs : List α} {ys : List β} (h : xs.mapM f = .ok ys) :
    ∀ x ∈ xs, ∃ y, f x = .ok y := by
  induction xs generalizing ys with
  | nil => exact fun _ hx => (nomatch hx)
  | cons x xs ih =>
      rw [List.mapM_cons] at h
      obtain ⟨y, hy, h⟩ := Toml.bind_eq_ok h
      obtain ⟨ys, hys, -⟩ := Toml.bind_eq_ok h
      exact List.forall_mem_cons.mpr ⟨⟨y, hy⟩, ih hys⟩

/-! ## What is written -/

theorem sectionLines_eq (name : String) {values : Entries Datum}
    (h : ∀ e ∈ values, e.2.isShowable) :
    sectionLines name values =
      .ok ((Sections.sectionRows name (sectionTexts (.table values))).map Row.chars) := by
  have hline : ∀ e ∈ values, line e.1 e.2 = .ok (Row.value e.1 e.2.text).chars := by
    intro e he
    rw [line, shown, if_pos (h e he)]
    rfl
  change (values.mapM fun e => line e.1 e.2).map _ = _
  rw [mapM_of_forall hline, sectionTexts, Sections.sectionRows]
  simp [Except.map, Row.chars]

theorem lines_eq (h : ∀ e ∈ entries, IsSection e.2) :
    lines entries = .ok ((Sections.rows (texts entries)).map Row.chars) := by
  induction entries with
  | nil => rfl
  | cons e entries ih =>
      obtain ⟨name, d⟩ := e
      rw [List.forall_mem_cons] at h
      obtain ⟨⟨values, rfl, hvalues⟩, hrest⟩ := h
      have hrows : Sections.rows (texts ((name, .table values) :: entries)) =
          Sections.sectionRows name (sectionTexts (.table values)) ++
            Sections.rows (texts entries) :=
        List.flatMap_cons
      rw [lines, sectionLines_eq name hvalues, ih hrest, hrows, List.map_append]
      rfl

theorem write_eq (h : ∀ e ∈ entries, IsSection e.2) :
    write entries = .ok (Utf8.encode (texts entries).chars) := by
  rw [write, lines_eq h]
  rfl

/-- A file that was written is read as its text is. -/
theorem read_encode (chars : List Char) :
    read (some (Utf8.encode chars)) = .ok entries ↔ Toml.read chars = .ok entries := by
  unfold read
  simp only [Utf8.decode_encode]
  split
  · next other hread => rw [hread, Except.ok.injEq, Except.ok.injEq]
  · next hread => simp [hread]
  · next digits hread => simp [hread]

/-! ## What is listed -/

theorem members_texts (entries : Entries Datum) :
    (members entries).map (fun e => (e.1, e.2.text)) =
      (texts entries).flatMap fun s => s.2.map fun e => (listedName s.1 e.1, e.2) := by
  induction entries with
  | nil => rfl
  | cons e entries ih =>
      obtain ⟨name, d⟩ := e
      rw [members, List.flatMap_cons, List.map_append, texts, List.map_cons, List.flatMap_cons]
      refine congrArg₂ _ ?_ ih
      cases d with
      | table values =>
          rw [sectionTexts, List.map_map, List.map_map]
          rfl
      | _ => rfl

theorem isShowable_of_mem_members (h : ∀ e ∈ entries, IsSection e.2) {e : String × Datum}
    (he : e ∈ members entries) : e.2.isShowable := by
  obtain ⟨⟨name, d⟩, hmem, he⟩ := List.mem_flatMap.mp he
  obtain ⟨values, hd, hvalues⟩ := h _ hmem
  cases hd
  obtain ⟨v, hv, rfl⟩ := List.mem_map.mp he
  exact hvalues v hv

/-- A stored value as it is listed. -/
def shownEntry (e : String × Datum) : Except ConfigProblem (String × String) := do
  let text ← shown e.2
  pure (e.1, text)

theorem flatten_eq_mapM (entries : Entries Datum) :
    flatten entries = ((members entries).mapM shownEntry).bind fun pairs => .ok (.ofList pairs) :=
  rfl

theorem flatten_of_isShowable (h : ∀ e ∈ members entries, e.2.isShowable) :
    flatten entries = .ok (.ofList ((members entries).map fun e => (e.1, e.2.text))) := by
  have hshown : ∀ e ∈ members entries, shownEntry e = .ok (e.1, e.2.text) := by
    intro e he
    rw [shownEntry, shown, if_pos (h e he)]
    rfl
  rw [flatten_eq_mapM, mapM_of_forall hshown]
  rfl

theorem flatten_eq (h : ∀ e ∈ entries, IsSection e.2) :
    flatten entries = .ok (texts entries).listed := by
  rw [flatten_of_isShowable fun e he => isShowable_of_mem_members h he, members_texts]
  rfl

theorem isShowable_of_flatten {stored : Entries String} (h : flatten entries = .ok stored) :
    ∀ e ∈ members entries, e.2.isShowable := by
  rw [flatten_eq_mapM] at h
  obtain ⟨pairs, hmap, -⟩ := Toml.bind_eq_ok h
  intro e he
  obtain ⟨pair, hpair⟩ := forall_of_mapM hmap e he
  obtain ⟨text, htext, -⟩ := Toml.bind_eq_ok hpair
  by_contra hnot
  rw [shown, if_neg hnot] at htext
  cases htext

theorem isSection_of_flatten {stored : Entries String}
    (htables : ∀ e ∈ entries, ∃ values, e.2 = .table values) (h : flatten entries = .ok stored) :
    ∀ e ∈ entries, IsSection e.2 := by
  rintro ⟨group, d⟩ he
  obtain ⟨values, hd⟩ := htables _ he
  cases hd
  refine ⟨values, rfl, fun v hv => ?_⟩
  have hmem : (listedName group v.1, v.2) ∈ members entries :=
    List.mem_flatMap.mpr ⟨_, he, List.mem_map_of_mem
      (f := fun v : String × Datum => (listedName group v.1, v.2)) hv⟩
  exact isShowable_of_flatten h (listedName group v.1, v.2) hmem

theorem texts_tables (sections : Sections) : texts sections.tables = sections := by
  have hstrings (values : Entries String) : sectionTexts (Sections.strings values) = values := by
    rw [Sections.strings, sectionTexts, List.map_map]
    exact List.map_id values
  rw [texts, Sections.tables, List.map_map]
  refine (List.map_congr_left fun s _ => ?_).trans (List.map_id sections)
  exact congrArg (Prod.mk s.1) (hstrings s.2)

theorem isSection_tables (sections : Sections) : ∀ e ∈ sections.tables, IsSection e.2 := by
  intro e he
  obtain ⟨s, -, rfl⟩ := List.mem_map.mp he
  refine ⟨_, rfl, fun v hv => ?_⟩
  obtain ⟨w, -, rfl⟩ := List.mem_map.mp hv
  exact Datum.isShowable_string w.2

/-- A file with the given sections is listed exactly if they hold no control characters but
tabs. -/
theorem list_encode {sections : Sections} (h : sections.WellNamed) {after : Entries String} :
    list (some (Utf8.encode sections.chars)) = .ok after ↔
      sections.IsPlain ∧ after = sections.listed := by
  constructor
  · intro hlist
    obtain ⟨entries, hread, hflatten⟩ := Toml.bind_eq_ok hlist
    rw [read_encode] at hread
    have hplain := Sections.isPlain_of_read h hread
    rw [Sections.read_sections h hplain] at hread
    cases hread
    rw [flatten_eq (isSection_tables sections), texts_tables] at hflatten
    cases hflatten
    exact ⟨hplain, rfl⟩
  · rintro ⟨hplain, rfl⟩
    have hread := (read_encode sections.chars).mpr (Sections.read_sections h hplain)
    rw [list, hread]
    change flatten sections.tables = _
    rw [flatten_eq (isSection_tables sections), texts_tables]

/-! ## What is changed -/

theorem texts_put (entries : Entries Datum) (name : String) (d : Datum) :
    texts (entries.put name d) = Entries.put (texts entries) name (sectionTexts d) :=
  Entries.map_put sectionTexts entries name d

theorem get?_texts (entries : Entries Datum) (name : String) :
    (texts entries).get? name = (entries.get? name).map sectionTexts :=
  Entries.get?_map sectionTexts entries name

theorem sectionTexts_put (values : Entries Datum) (name text : String) :
    sectionTexts (.table (values.put name (.string text))) =
      Entries.put (sectionTexts (.table values)) name text :=
  Entries.map_put Datum.text values name (.string text)

theorem exists_putIn (h : ∀ e ∈ entries, IsSection e.2) (k : SettingsKey) (text : String) :
    ∃ changed, putIn entries k text = .ok changed ∧ (∀ e ∈ changed, IsSection e.2) ∧
      texts changed = (texts entries).save k.group k.name text := by
  have hput (values : Entries Datum) (hvalues : ∀ e ∈ values, e.2.isShowable) :
      ∀ e ∈ entries.put k.group (.table (values.put k.name (.string text))), IsSection e.2 := by
    intro e he
    rcases Entries.mem_put he with rfl | he
    · refine ⟨_, rfl, fun v hv => ?_⟩
      rcases Entries.mem_put hv with rfl | hv
      · exact Datum.isShowable_string text
      · exact hvalues v hv
    · exact h e he
  cases hget : entries.get? k.group with
  | none =>
      have hnew : putIn entries k text =
          .ok (entries.put k.group (.table (Entries.put [] k.name (.string text)))) := by
        rw [putIn, hget]
        rfl
      refine ⟨_, hnew, hput [] fun _ hv => (nomatch hv), ?_⟩
      rw [texts_put, Sections.save, get?_texts, hget]
      rfl
  | some d =>
      obtain ⟨values, rfl, hvalues⟩ := h _ (Entries.mem_of_get? hget)
      refine ⟨_, by rw [putIn, hget], hput values hvalues, ?_⟩
      rw [texts_put, Sections.save, get?_texts, hget, sectionTexts_put]
      rfl

theorem distinct_of_read {file : ConfigFile} (h : file.read = .ok entries) :
    Datum.Distinct (.table entries) := by
  unfold read at h
  split at h
  · cases h
    exact Datum.distinct_table_nil
  · split at h
    · cases h
    · split at h
      · next hread =>
          cases h
          exact Toml.distinct_read hread
      · cases h
      · cases h

/-- The names of sections and values are bare keys. -/
def hasBareNames (entries : Entries Datum) : Bool :=
  entries.all fun e => isBare e.1 && (sectionTexts e.2).all fun v => isBare v.1

theorem wellNamed_texts (hdistinct : Datum.Distinct (.table entries))
    (htables : ∀ e ∈ entries, ∃ values, e.2 = .table values) (hbare : hasBareNames entries) :
    (texts entries).WellNamed := by
  obtain ⟨hkeys, hvalues⟩ := Datum.distinct_table.mp hdistinct
  have hbare (e : String × Datum) (he : e ∈ entries) := List.all_eq_true.mp hbare e he
  refine ⟨(Entries.distinct_map sectionTexts).mpr hkeys, fun s hs => ?_, fun s hs => ?_,
    fun s hs => ?_⟩
  all_goals obtain ⟨e, he, rfl⟩ := List.mem_map.mp hs
  · obtain ⟨values, hd⟩ := htables e he
    have hinner := hvalues e he
    rw [hd] at hinner ⊢
    exact (Entries.distinct_map Datum.text).mpr (Datum.distinct_table.mp hinner).1
  · exact (Bool.and_eq_true_iff.mp (hbare e he)).1
  · exact List.all_eq_true.mp (Bool.and_eq_true_iff.mp (hbare e he)).2

theorem isBare_key (k : SettingsKey) : isBare k.group ∧ isBare k.name := by
  cases k <;> decide

theorem key_of_ofText? {name : String} {k : SettingsKey} (h : SettingsKey.ofText? name = some k) :
    listedName k.group k.name = name := by
  have hfound := List.find?_some h
  exact eq_of_beq hfound

end ConfigFile

open ConfigFile

/-! ## Saving -/

/-- A setting to save: the file can be listed, all its entries are sections, and the value is
one that the key accepts. -/
structure SavedSetting where
  file : ConfigFile
  name : String
  value : String
  key : SettingsKey
  entries : Entries Datum
  stored : Entries String
  isKey : SettingsKey.ofText? name = some key
  isAccepted : ∃ settings, ({} : Settings).assign key value = .ok settings
  read_eq : file.read = .ok entries
  list_eq : file.list = .ok stored
  isTable : ∀ e ∈ entries, ∃ values, e.2 = .table values

namespace SavedSetting

/-- What should be stored once the setting is saved. -/
def expected (s : SavedSetting) : Entries String := s.stored.put s.name (Text.trim s.value)

/-- The setting is saved, and the file can be listed again, with the new value for the
setting and all else as before. -/
def KeepsOthers (s : SavedSetting) : Prop :=
  ∃ bytes after, s.file.set s.name s.value = .ok bytes ∧
    ConfigFile.list (some bytes) = .ok after ∧
      ∀ name, after.get? name = s.expected.get? name

/-- Nothing that should be stored has control characters but tabs. -/
def IsPlain (s : SavedSetting) : Prop :=
  ∀ name text, s.expected.get? name = some text → isPlain text

variable (s : SavedSetting)

theorem flatten_eq_stored : flatten s.entries = .ok s.stored := by
  have hlist := s.list_eq
  rw [ConfigFile.list, s.read_eq] at hlist
  exact hlist

theorem isSection : ∀ e ∈ s.entries, IsSection e.2 :=
  isSection_of_flatten s.isTable s.flatten_eq_stored

theorem stored_eq : s.stored = (texts s.entries).listed := by
  have hflatten := s.flatten_eq_stored
  rw [flatten_eq s.isSection] at hflatten
  exact (Except.ok.inj hflatten).symm

/-- The sections of the file once the setting is saved. -/
def saved : Sections := (texts s.entries).save s.key.group s.key.name (Text.trim s.value)

theorem set_eq : s.file.set s.name s.value = .ok (Utf8.encode s.saved.chars) := by
  obtain ⟨settings, haccepted⟩ := s.isAccepted
  obtain ⟨changed, hput, hchanged, htexts⟩ :=
    exists_putIn s.isSection s.key (Text.trim s.value)
  have hkey : ConfigFile.key s.name = .ok s.key := by rw [ConfigFile.key, s.isKey]
  rw [saved, ← htexts, ConfigFile.set, hkey]
  simp only [ok_bind, haccepted, s.read_eq, hput]
  exact write_eq hchanged

section BareNames

variable (h : hasBareNames s.entries)
include h

theorem wellNamed_texts : (texts s.entries).WellNamed :=
  ConfigFile.wellNamed_texts (distinct_of_read s.read_eq) s.isTable h

theorem wellNamed_saved : s.saved.WellNamed :=
  Sections.wellNamed_save (s.wellNamed_texts h) (isBare_key s.key).1 (isBare_key s.key).2 _

theorem get?_listed_saved (name : String) : s.saved.listed.get? name = s.expected.get? name := by
  rw [saved, Sections.get?_listed_save (s.wellNamed_texts h) (isBare_key s.key).1
    (isBare_key s.key).2, key_of_ofText? s.isKey, expected, s.stored_eq]

theorem isPlain_saved_iff : s.saved.IsPlain ↔ s.IsPlain := by
  rw [Sections.isPlain_iff (s.wellNamed_saved h), IsPlain]
  exact forall_congr' fun name => by rw [s.get?_listed_saved h]

/-- Where all names are bare keys, saving a setting keeps the others exactly if no value has
control characters but tabs. -/
theorem keepsOthers_iff : s.KeepsOthers ↔ s.IsPlain := by
  rw [← s.isPlain_saved_iff h, KeepsOthers, s.set_eq]
  constructor
  · rintro ⟨bytes, after, hbytes, hlist, -⟩
    cases hbytes
    exact ((list_encode (s.wellNamed_saved h)).mp hlist).1
  · intro hplain
    exact ⟨_, _, rfl, (list_encode (s.wellNamed_saved h)).mpr ⟨hplain, rfl⟩,
      s.get?_listed_saved h⟩

end BareNames

/-- A section of the log with one setting. -/
def logSection : Sections := [("log", [("enabled", "true")])]

theorem wellNamed_logSection : logSection.WellNamed :=
  Sections.wellNamed_singleton (by decide) (by decide) _

/-- The dialect `a"\b`, saved beside the setting of the log. -/
def besideLog : SavedSetting where
  file := some (Utf8.encode logSection.chars)
  name := "extract.dialect"
  value := " a\"\\b "
  key := .dialect
  entries := logSection.tables
  stored := logSection.listed
  isKey := by decide
  isAccepted := ⟨{ dialect := "a\"\\b" }, by decide +kernel⟩
  read_eq := (read_encode _).mpr (Sections.read_sections wellNamed_logSection (by decide))
  list_eq := (list_encode wellNamed_logSection).mpr ⟨by decide, rfl⟩
  isTable := List.forall_mem_singleton.mpr ⟨_, rfl⟩

/-- Quotes and backslashes are escaped. -/
theorem keepsOthers_besideLog : hasBareNames besideLog.entries ∧ besideLog.KeepsOthers := by
  have hbare : hasBareNames besideLog.entries := by decide +kernel
  have hplain : besideLog.saved.IsPlain := by decide +kernel
  exact ⟨hbare, (besideLog.keepsOthers_iff hbare).mpr
    ((besideLog.isPlain_saved_iff hbare).mp hplain)⟩

/-- A dialect with a control character, where there is no file yet. -/
def withControl : SavedSetting where
  file := none
  name := "extract.dialect"
  value := "a\x01b"
  key := .dialect
  entries := []
  stored := []
  isKey := by decide
  isAccepted := ⟨{ dialect := "a\x01b" }, by decide +kernel⟩
  read_eq := rfl
  list_eq := rfl
  isTable := fun _ h => (nomatch h)

/-- The control character is written as it is, and the file cannot be read again. -/
theorem not_keepsOthers_withControl :
    hasBareNames withControl.entries ∧ ¬ withControl.KeepsOthers := by
  have hbare : hasBareNames withControl.entries := rfl
  refine ⟨hbare, fun h => ?_⟩
  obtain ⟨bytes, after, hset, hlist, -⟩ := h
  rw [set_eq] at hset
  cases hset
  have hplain := ((list_encode (withControl.wellNamed_saved hbare)).mp hlist).1
  exact absurd hplain (by decide +kernel)

end SavedSetting

end SqlTables
