import Mathlib.Data.List.Basic
import SqlTables.Proofs.Settings.Section

/-!
# The values of sections by name

Each value of some sections is listed under the names of its section and its own. These
are bare keys, which hold no dot, so the listed name tells both
(`Sections.get?_listed`), and saving a value is seen in the list as an update at one name
(`Sections.get?_listed_save`).
-/

namespace SqlTables

namespace ConfigFile

/-- The name under which a value of a section is listed. -/
def listedName (group name : String) : String := group ++ "." ++ name

theorem listedName_inj {group name group' name' : String} (hgroup : isBare group)
    (hname : isBare name) :
    listedName group name = listedName group' name' ↔ group = group' ∧ name = name' := by
  have htoList (g n : String) : (listedName g n).toList = g.toList ++ '.' :: n.toList := by
    rw [listedName, String.toList_append, String.toList_append, List.append_assoc]
    rfl
  have hdot {s : String} (hs : isBare s) : '.' ∉ s.toList := fun h =>
    ne_of_mem_bare hs h (by decide) rfl
  rw [← String.toList_inj, htoList, htoList,
    List.append_cons_inj_of_notMem (hdot hgroup) (hdot hname), String.toList_inj,
    String.toList_inj, and_iff_right rfl]

namespace Sections

variable {sections : Sections} {group name key text : String}

/-- The values of all sections under their listed names. -/
def listed (sections : Sections) : Entries String :=
  .ofList (sections.flatMap fun s => s.2.map fun e => (listedName s.1 e.1, e.2))

/-- The value in a section. -/
def lookup (sections : Sections) (group name : String) : Option String :=
  (sections.get? group).bind fun values => values.get? name

/-- The sections with a value in one of them, which is added if it is missing. -/
def save (sections : Sections) (group name text : String) : Sections :=
  sections.put group (Entries.put ((sections.get? group).getD []) name text)

theorem lookup_save (sections : Sections) (group name text group' name' : String) :
    (sections.save group name text).lookup group' name' =
      if group = group' ∧ name = name' then some text else sections.lookup group' name' := by
  rw [lookup, save, Entries.get?_put]
  by_cases hgroup : group = group'
  · subst hgroup
    rw [if_pos rfl, Option.bind_some, Entries.get?_put, lookup]
    cases sections.get? group with
    | none => simp
    | some values => simp
  · rw [if_neg hgroup, if_neg fun h => hgroup h.1, lookup]

theorem lookup_eq_some_iff (h : sections.WellNamed) :
    sections.lookup group name = some text ↔
      ∃ values, (group, values) ∈ sections ∧ (name, text) ∈ values := by
  rw [lookup, Option.bind_eq_some_iff]
  refine exists_congr fun values => ?_
  rw [Entries.get?_eq_some_iff h.distinct]
  exact and_congr_right fun hmem => Entries.get?_eq_some_iff (h.distinct_values _ hmem)

theorem mem_listed (h : sections.WellNamed) :
    (key, text) ∈ sections.flatMap (fun s => s.2.map fun e => (listedName s.1 e.1, e.2)) ↔
      ∃ group name, sections.lookup group name = some text ∧ listedName group name = key := by
  rw [List.mem_flatMap]
  constructor
  · rintro ⟨⟨group, values⟩, hs, hmem⟩
    obtain ⟨⟨name, other⟩, he, heq⟩ := List.mem_map.mp hmem
    cases heq
    exact ⟨group, name, (lookup_eq_some_iff h).mpr ⟨values, hs, he⟩, rfl⟩
  · rintro ⟨group, name, hlookup, rfl⟩
    obtain ⟨values, hs, he⟩ := (lookup_eq_some_iff h).mp hlookup
    exact ⟨(group, values), hs, List.mem_map.mpr ⟨(name, text), he, rfl⟩⟩

theorem isBare_of_lookup (h : sections.WellNamed)
    (hlookup : sections.lookup group name = some text) : isBare group ∧ isBare name := by
  obtain ⟨values, hs, he⟩ := (lookup_eq_some_iff h).mp hlookup
  exact ⟨h.isBare (group, values) hs, h.isBare_values (group, values) hs (name, text) he⟩

/-- What is listed under a name is the value of one section. -/
theorem get?_listed (h : sections.WellNamed) :
    sections.listed.get? key = some text ↔
      ∃ group name, sections.lookup group name = some text ∧ listedName group name = key := by
  rw [listed, Entries.get?_ofList_eq_some_iff, mem_listed h]
  intro key v w hv hw
  obtain ⟨group, name, hfirst, rfl⟩ := (mem_listed h).mp hv
  obtain ⟨group', name', hsecond, heq⟩ := (mem_listed h).mp hw
  obtain ⟨hgroup, hname⟩ := isBare_of_lookup h hsecond
  obtain ⟨rfl, rfl⟩ := (listedName_inj hgroup hname).mp heq
  exact Option.some.inj (hfirst.symm.trans hsecond)

/-- The sections are plain if all that is listed is. -/
theorem isPlain_iff (h : sections.WellNamed) :
    sections.IsPlain ↔ ∀ key text, sections.listed.get? key = some text → isPlain text := by
  constructor
  · intro hplain key text hget
    obtain ⟨group, name, hlookup, -⟩ := (get?_listed h).mp hget
    obtain ⟨values, hs, he⟩ := (lookup_eq_some_iff h).mp hlookup
    exact hplain _ hs _ he
  · intro hplain s hs e he
    exact hplain _ _ ((get?_listed h).mpr
      ⟨s.1, e.1, (lookup_eq_some_iff h).mpr ⟨s.2, hs, he⟩, rfl⟩)

/-! ## Saving a value -/

theorem wellNamed_save (h : sections.WellNamed) (hgroup : isBare group) (hname : isBare name)
    (text : String) : (sections.save group name text).WellNamed := by
  have hold : Entries.Distinct ((sections.get? group).getD []) ∧
      ∀ e ∈ (sections.get? group).getD [], isBare e.1 := by
    cases hget : sections.get? group with
    | none => exact ⟨Entries.distinct_nil, fun _ he => (nomatch he)⟩
    | some values =>
        have hmem := Entries.mem_of_get? hget
        exact ⟨h.distinct_values _ hmem, h.isBare_values _ hmem⟩
  refine ⟨Entries.distinct_put h.distinct _ _, fun s hs => ?_, fun s hs => ?_, fun s hs => ?_⟩
  · rcases Entries.mem_put hs with rfl | hs
    · exact Entries.distinct_put hold.1 _ _
    · exact h.distinct_values s hs
  · rcases Entries.mem_put hs with rfl | hs
    · exact hgroup
    · exact h.isBare s hs
  · rcases Entries.mem_put hs with rfl | hs
    · intro e he
      rcases Entries.mem_put he with rfl | he
      · exact hname
      · exact hold.2 e he
    · exact h.isBare_values s hs

/-- A value that is saved is listed under its name, and nothing else changes. -/
theorem get?_listed_save (h : sections.WellNamed) (hgroup : isBare group) (hname : isBare name)
    (text key : String) :
    (sections.save group name text).listed.get? key =
      (sections.listed.put (listedName group name) text).get? key := by
  have hsave := wellNamed_save h hgroup hname text
  rw [Entries.get?_put]
  by_cases hkey : listedName group name = key
  · rw [if_pos hkey]
    refine (get?_listed hsave).mpr ⟨group, name, ?_, hkey⟩
    rw [lookup_save, if_pos ⟨rfl, rfl⟩]
  · refine Option.ext fun other => ?_
    rw [if_neg hkey, get?_listed hsave, get?_listed h]
    refine exists_congr fun group' => exists_congr fun name' => and_congr_left fun heq => ?_
    rw [lookup_save, if_neg fun hsame => hkey (by rw [hsame.1, hsame.2, heq])]

end Sections

end ConfigFile

end SqlTables
