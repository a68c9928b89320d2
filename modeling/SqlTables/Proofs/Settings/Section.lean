import SqlTables.Proofs.Entries
import SqlTables.Proofs.Settings.Row
import SqlTables.Proofs.Toml.Distinct

/-!
# Sections of the configuration file

Sections of texts are written as lines and read back as tables of strings
(`Sections.read_sections`), provided that their names are bare keys and their texts hold
no control characters but tabs. Sections with another text cannot be read
(`Sections.isPlain_of_read`).
-/

namespace SqlTables

namespace ConfigFile

/-- Sections as they are written, each value as a text. -/
abbrev Sections := Entries (Entries String)

namespace Sections

/-- The names of the sections and of the values in each of them are distinct bare keys. -/
structure WellNamed (sections : Sections) : Prop where
  distinct : sections.Distinct
  distinct_values : ∀ s ∈ sections, s.2.Distinct
  isBare : ∀ s ∈ sections, isBare s.1
  isBare_values : ∀ s ∈ sections, ∀ e ∈ s.2, ConfigFile.isBare e.1

/-- No text holds control characters but tabs. -/
def IsPlain (sections : Sections) : Prop := ∀ s ∈ sections, ∀ e ∈ s.2, isPlain e.2

instance (sections : Sections) : Decidable sections.IsPlain :=
  inferInstanceAs (Decidable (∀ s ∈ sections, ∀ e ∈ s.2, isPlain e.2))

def sectionRows (name : String) (values : Entries String) : List Row :=
  .header name :: (values.map fun e => .value e.1 e.2) ++ [.blank]

def rows (sections : Sections) : List Row := sections.flatMap fun s => sectionRows s.1 s.2

/-- A section as a table of strings. -/
def strings (values : Entries String) : Datum := .table (values.map fun e => (e.1, .string e.2))

/-- The sections as tables of strings. -/
def tables (sections : Sections) : Entries Datum := sections.map fun s => (s.1, strings s.2)

theorem mem_rows {sections : Sections} {row : Row} :
    row ∈ rows sections ↔ ∃ s ∈ sections, row ∈ sectionRows s.1 s.2 :=
  List.mem_flatMap

theorem isBare_of_mem_rows {sections : Sections} (h : sections.WellNamed) {row : Row}
    (hrow : row ∈ rows sections) : row.IsBare := by
  obtain ⟨s, hs, hrow⟩ := mem_rows.mp hrow
  rcases List.mem_append.mp hrow with hrow | hrow
  · rcases List.mem_cons.mp hrow with rfl | hrow
    · exact h.isBare s hs
    · obtain ⟨e, he, rfl⟩ := List.mem_map.mp hrow
      exact h.isBare_values s hs e he
  · rw [List.mem_singleton.mp hrow]
    trivial

theorem wellNamed_singleton {group name : String} (hgroup : ConfigFile.isBare group)
    (hname : ConfigFile.isBare name) (text : String) : WellNamed [(group, [(name, text)])] where
  distinct := List.nodup_singleton group
  distinct_values := List.forall_mem_singleton.mpr (List.nodup_singleton name)
  isBare := List.forall_mem_singleton.mpr hgroup
  isBare_values := List.forall_mem_singleton.mpr (List.forall_mem_singleton.mpr hname)

/-! ## Reading one section -/

/-- The document that the sections are read as. -/
def document (sections : Sections) (header : List String) : Toml.Document where
  entries := sections.tables
  header := header
  explicit := (sections.map fun s => [s.1]).reverse
  pending := []
  closed := []

variable {before sections : Sections} {name key text : String} {known values : Entries String}

theorem get?_tables (sections : Sections) (name : String) :
    sections.tables.get? name = (sections.get? name).map strings :=
  Entries.get?_map strings sections name

theorem tables_append (before after : Sections) :
    tables (before ++ after) = before.tables ++ after.tables :=
  List.map_append

theorem document_concat (before : Sections) (name : String) (values : Entries String)
    (header : List String) :
    document (before ++ [(name, values)]) header =
      { entries := before.tables ++ [(name, strings values)]
        header := header
        explicit := [name] :: (before.map fun s => [s.1]).reverse
        pending := []
        closed := [] } := by
  rw [document, tables_append, List.map_append, List.reverse_append]
  rfl

theorem apply_header (hname : before.get? name = none) (header : List String) :
    Row.apply (before.document header) (.header name) =
      .ok (document (before ++ [(name, [])]) [name]) := by
  have hget : before.tables.get? name = none := by rw [get?_tables, hname, Option.map_none]
  have hnew : (before.map fun s => [s.1]).reverse.contains [name] = false := by
    rw [Bool.eq_false_iff, Ne, List.contains_iff_mem, List.mem_reverse]
    intro hmem
    obtain ⟨s, hs, heq⟩ := List.mem_map.mp hmem
    exact Entries.get?_eq_none_iff.mp hname s hs (List.cons.inj heq).1
  have hchange : Toml.changeAt? true some [name] before.tables =
      some (before.tables ++ [(name, strings [])]) := by
    rw [Toml.changeAt?, hget]
    exact congrArg some (Entries.put_new hget _)
  rw [Row.apply, document_concat, Toml.Document.openTable?]
  change Toml.wellFormed (if ((before.map fun s => [s.1]).reverse.contains [name] || false) = true
    then _ else (Toml.changeAt? true some [name] before.tables).bind _) = _
  rw [hnew, hchange]
  rfl

theorem apply_value (hname : before.get? name = none) (hkey : known.get? key = none)
    (hplain : isPlain text) :
    Row.apply (document (before ++ [(name, known)]) [name]) (.value key text) =
      .ok (document (before ++ [(name, known ++ [(key, text)])]) [name]) := by
  have hbefore : before.tables.get? name = none := by rw [get?_tables, hname, Option.map_none]
  have hget : Entries.get? (before.tables ++ [(name, strings known)]) name =
      some (strings known) := by
    rw [Entries.get?_append, hbefore]
    exact if_pos rfl
  have hnone : Entries.get? (known.map fun e => (e.1, Datum.string e.2)) key = none := by
    rw [Entries.get?_map Datum.string, hkey, Option.map_none]
  have hadd : Toml.addNew? key (.string text) (known.map fun e => (e.1, Datum.string e.2)) =
      some ((known ++ [(key, text)]).map fun e => (e.1, Datum.string e.2)) := by
    rw [Toml.addNew?, hnone, List.map_append]
    exact congrArg some (Entries.put_new hnone _)
  have hput : Entries.put (before.tables ++ [(name, strings known)]) name
      (strings (known ++ [(key, text)])) =
        before.tables ++ [(name, strings (known ++ [(key, text)]))] := by
    rw [Entries.put_append hbefore, Entries.put, if_pos rfl]
  have hchange : Toml.changeAt? true (Toml.addNew? key (.string text)) [name]
      (before.tables ++ [(name, strings known)]) =
        some (before.tables ++ [(name, strings (known ++ [(key, text)]))]) := by
    rw [Toml.changeAt?, hget]
    change (Toml.addNew? key (.string text) (known.map fun e => (e.1, Datum.string e.2))).bind _ = _
    rw [hadd]
    exact congrArg some hput
  rw [Row.apply, if_pos hplain, document_concat, document_concat]
  change Toml.wellFormed ((Toml.changeAt? true (Toml.addNew? key (.string text)) [name]
    (before.tables ++ [(name, strings known)])).bind _) = _
  rw [hchange]
  rfl

theorem foldlM_values (known : Entries String) (hname : before.get? name = none)
    (hdistinct : Entries.Distinct (known ++ values)) (hplain : ∀ e ∈ values, isPlain e.2) :
    (values.map fun e => Row.value e.1 e.2).foldlM Row.apply
      (document (before ++ [(name, known)]) [name]) =
        .ok (document (before ++ [(name, known ++ values)]) [name]) := by
  induction values generalizing known with
  | nil =>
      rw [List.append_nil]
      rfl
  | cons e values ih =>
      obtain ⟨key, text⟩ := e
      rw [List.forall_mem_cons] at hplain
      have hkey := Entries.get?_eq_none_of_distinct hdistinct
      rw [List.append_cons known] at hdistinct ⊢
      rw [List.map_cons, List.foldlM_cons, apply_value hname hkey hplain.1]
      exact ih _ hdistinct hplain.2

/-- A section that is read stands behind the sections before it. -/
theorem foldlM_sectionRows (hname : before.get? name = none) (hdistinct : values.Distinct)
    (hplain : ∀ e ∈ values, isPlain e.2) (header : List String) :
    (sectionRows name values).foldlM Row.apply (before.document header) =
      .ok (document (before ++ [(name, values)]) [name]) := by
  rw [sectionRows, List.foldlM_append, List.foldlM_cons, apply_header hname]
  change ((values.map fun e => Row.value e.1 e.2).foldlM Row.apply
    (document (before ++ [(name, [])]) [name])).bind _ = _
  rw [foldlM_values [] hname hdistinct hplain]
  rfl

/-! ## Reading all sections -/

theorem foldlM_rows (before : Sections) (h : WellNamed (before ++ sections))
    (hplain : sections.IsPlain) (header : List String) :
    ∃ header', (rows sections).foldlM Row.apply (before.document header) =
      .ok (document (before ++ sections) header') := by
  induction sections generalizing before header with
  | nil =>
      rw [List.append_nil]
      exact ⟨header, rfl⟩
  | cons s sections ih =>
      obtain ⟨name, values⟩ := s
      rw [IsPlain, List.forall_mem_cons] at hplain
      have hname := Entries.get?_eq_none_of_distinct h.distinct
      have hvalues := h.distinct_values _ (List.mem_append_right _ List.mem_cons_self)
      rw [List.append_cons] at h ⊢
      obtain ⟨header', hrest⟩ := ih _ h hplain.2 [name]
      refine ⟨header', ?_⟩
      rw [rows, List.flatMap_cons, List.foldlM_append,
        foldlM_sectionRows hname hvalues hplain.1 header]
      exact hrest

theorem isPlain_of_foldlM {rows : List Row} {d after : Toml.Document}
    (h : rows.foldlM Row.apply d = .ok after) (hmem : .value key text ∈ rows) : isPlain text := by
  induction rows generalizing d with
  | nil => cases hmem
  | cons row rows ih =>
      rw [List.foldlM_cons] at h
      obtain ⟨next, hnext, h⟩ := Toml.bind_eq_ok h
      rcases List.mem_cons.mp hmem with rfl | hmem
      · by_contra hplain
        rw [Row.apply, if_neg hplain] at hnext
        cases hnext
      · exact ih h hmem

/-- The text of the sections. -/
def chars (sections : Sections) : List Char :=
  ['\n'].intercalate ((rows sections).map Row.chars)

/-- Either there are no lines, or reading them is what the lines make of a document. -/
theorem read_chars (h : sections.WellNamed) :
    Toml.read sections.chars =
      ((rows sections).foldlM Row.apply (document [] [])).map Toml.Document.entries := by
  cases hrows : rows sections with
  | nil =>
      rw [chars, hrows]
      rfl
  | cons row rest =>
      rw [chars, hrows, Row.read_rows fun r hr => isBare_of_mem_rows h (hrows ▸ hr)]
      rfl

/-- Sections without control characters are read back. -/
theorem read_sections (h : sections.WellNamed) (hplain : sections.IsPlain) :
    Toml.read sections.chars = .ok sections.tables := by
  obtain ⟨header, hrun⟩ := foldlM_rows [] h hplain []
  rw [read_chars h, hrun]
  rfl

/-- Sections that can be read have no control characters. -/
theorem isPlain_of_read (h : sections.WellNamed) {entries : Entries Datum}
    (hread : Toml.read sections.chars = .ok entries) : sections.IsPlain := by
  rw [read_chars h] at hread
  intro s hs e he
  have hmem : Row.value e.1 e.2 ∈ rows sections :=
    mem_rows.mpr ⟨s, hs, List.mem_append_left _
      (List.mem_cons_of_mem _ (List.mem_map_of_mem (f := fun e => Row.value e.1 e.2) he))⟩
  cases hrun : (rows sections).foldlM Row.apply (document [] []) with
  | error problem =>
      rw [hrun] at hread
      cases hread
  | ok after => exact isPlain_of_foldlM hrun hmem

end Sections

end ConfigFile

end SqlTables
