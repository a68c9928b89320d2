import Mathlib.Data.List.Induction
import Mathlib.Logic.Function.Basic
import SqlTables.Proofs.Settings.Written

/-!
# The configuration file as a map

Edits of the configuration file are edits of a map from keys to texts, `StoredSettings`. Over a
whole run that starts without a file, each edit returns what it returns for the map, and the file
then stands for the map: it lists the map, it is there exactly if something is stored, and the
settings that are loaded from it are the defaults but for the keys of the map
(`StoredSettings.follows_edits`).
-/

namespace SqlTables

open ConfigFile

namespace ConfigEdit

/-- The text that is saved, without the blanks at its ends, holds no control characters but
tabs. -/
def IsPlain : ConfigEdit → Prop
  | .set _ value => isPlain (Text.trim value)
  | .unset _ => True

instance (e : ConfigEdit) : Decidable e.IsPlain :=
  match e with
  | .set _ value => inferInstanceAs (Decidable (isPlain (Text.trim value)))
  | .unset _ => isTrue trivial

end ConfigEdit

/-- The texts that are stored for the keys. -/
abbrev StoredSettings := SettingsKey → Option String

namespace StoredSettings

def empty : StoredSettings := fun _ => none

/-- What an edit returns, and what is stored after it. A text is stored without the blanks at its
ends. -/
def edit (m : StoredSettings) : ConfigEdit → Except SettingsProblem EditResult × StoredSettings
  | .set name value =>
    match SettingsKey.ofText? name with
    | none => (.error (.unknownKey name), m)
    | some k =>
      match ({} : Settings).assign k value with
      | .ok _ => (.ok .saved, Function.update m k (some (Text.trim value)))
      | .error problem => (.error problem, m)
  | .unset name =>
    match SettingsKey.ofText? name with
    | none => (.error (.unknownKey name), m)
    | some k => (.ok (.removed (m k).isSome), Function.update m k none)

/-- What is stored after some edits. -/
def edits (m : StoredSettings) (es : List ConfigEdit) : StoredSettings :=
  es.foldl (fun m e => (m.edit e).2) m

/-- The settings are the defaults but for the keys for which something is stored. -/
def IsLoadedAs (m : StoredSettings) (s : Settings) : Prop :=
  ∀ k, match m k with
    | some raw => s.Holds k raw
    | none => Settings.Agree k s {}

/-- What is stored determines the settings. -/
theorem IsLoadedAs.eq {m : StoredSettings} {s t : Settings} (hs : m.IsLoadedAs s)
    (ht : m.IsLoadedAs t) : s = t := by
  refine Settings.eq_of_agree fun k => ?_
  have hs := hs k
  have ht := ht k
  cases hm : m k with
  | none =>
      rw [hm] at hs ht
      exact hs.trans ht.symm
  | some raw =>
      rw [hm] at hs ht
      exact Settings.Holds.agree hs ht

/-- The file stands for what is stored. -/
structure IsKeptBy (m : StoredSettings) (file : ConfigFile) : Prop where
  listed : ∃ stored, file.list = .ok stored ∧ stored.Distinct ∧
    ∀ name, stored.get? name = (SettingsKey.ofText? name).bind m
  isSome_iff : file.isSome ↔ ∃ k, (m k).isSome
  loaded : ∃ s, file.settings = .ok s ∧ m.IsLoadedAs s

/-- The edit does to the file what it does to the map. -/
structure Follows (m : StoredSettings) (file : ConfigFile) (e : ConfigEdit) : Prop where
  result : (file.edit e).1 = (m.edit e).1.mapError .setting
  unchanged : ∀ problem, (file.edit e).1 = .error problem → (file.edit e).2 = file
  isKept : (m.edit e).2.IsKeptBy (file.edit e).2

theorem edits_concat (m : StoredSettings) (es : List ConfigEdit) (e : ConfigEdit) :
    m.edits (es ++ [e]) = ((m.edits es).edit e).2 := by
  rw [edits, List.foldl_append]
  rfl

end StoredSettings

theorem SettingsKey.same_iff (k j : SettingsKey) :
    k.group = j.group ∧ k.name = j.name ↔ j = k := by
  refine ⟨fun hsame => SettingsKey.text_inj.mp ?_, fun hsame => hsame ▸ ⟨rfl, rfl⟩⟩
  rw [SettingsKey.text, SettingsKey.text, hsame.1, hsame.2]

/-! ## Sections that keep a map -/

namespace ConfigFile

namespace Sections

/-- The sections hold the texts of the map and nothing else. -/
structure Keeps (sections : Sections) (m : StoredSettings) : Prop where
  wellNamed : sections.WellNamed
  isPlain : sections.IsPlain
  ne_nil : ∀ s ∈ sections, s.2 ≠ []
  lookup : ∀ k : SettingsKey, sections.lookup k.group k.name = m k
  isKey : ∀ group name text, sections.lookup group name = some text →
    ∃ k : SettingsKey, k.group = group ∧ k.name = name
  accepts : ∀ k raw, m k = some raw → Settings.Accepts k raw

theorem keeps_nil : Keeps [] .empty where
  wellNamed := wellNamed_nil
  isPlain := List.forall_mem_nil _
  ne_nil := List.forall_mem_nil _
  lookup _ := rfl
  isKey _ _ _ h := nomatch h
  accepts _ _ h := nomatch h

variable {sections : Sections} {m : StoredSettings}

namespace Keeps

theorem get?_listed (h : sections.Keeps m) (name : String) :
    sections.listed.get? name = (SettingsKey.ofText? name).bind m := by
  refine Option.ext fun text => ?_
  rw [Sections.get?_listed h.wellNamed, Option.bind_eq_some_iff]
  constructor
  · rintro ⟨group, value, hlookup, rfl⟩
    obtain ⟨k, rfl, rfl⟩ := h.isKey group value text hlookup
    exact ⟨k, SettingsKey.ofText?_text k, (h.lookup k).symm.trans hlookup⟩
  · rintro ⟨k, hk, htext⟩
    exact ⟨k.group, k.name, (h.lookup k).trans htext, SettingsKey.ofText?_eq_some_iff.mp hk⟩

theorem isSome_iff (h : sections.Keeps m) : sections.file.isSome ↔ ∃ k, (m k).isSome := by
  constructor
  · intro hfile
    cases hsections : sections with
    | nil =>
        rw [hsections] at hfile
        cases hfile
    | cons s rest =>
        have hs : s ∈ sections := hsections ▸ List.mem_cons_self
        obtain ⟨e, he⟩ := List.exists_mem_of_ne_nil _ (h.ne_nil s hs)
        have hlookup : sections.lookup s.1 e.1 = some e.2 :=
          (lookup_eq_some_iff h.wellNamed).mpr ⟨s.2, hs, he⟩
        obtain ⟨k, hgroup, hname⟩ := h.isKey _ _ _ hlookup
        refine ⟨k, ?_⟩
        rw [← h.lookup k, hgroup, hname, hlookup, Option.isSome_some]
  · rintro ⟨k, hk⟩
    obtain ⟨text, htext⟩ := Option.isSome_iff_exists.mp hk
    obtain ⟨values, hvalues, -⟩ :=
      (lookup_eq_some_iff h.wellNamed).mp ((h.lookup k).trans htext)
    have hne : sections ≠ [] := List.ne_nil_of_mem hvalues
    simp [file, hne]

theorem isLoadedAs (h : sections.Keeps m) :
    m.IsLoadedAs (({} : Settings).overlays sections.listed) := by
  intro k
  have hdistinct : sections.listed.Distinct := Entries.distinct_ofList _
  have hloaded := Settings.isLoaded_overlays hdistinct {} k
  rw [h.get?_listed, SettingsKey.ofText?_text, Option.bind_some] at hloaded
  -- What is stored was accepted, so it is not passed over when it is loaded.
  cases hm : m k with
  | none =>
      rw [hm] at hloaded
      exact hloaded
  | some raw =>
      rw [hm] at hloaded
      rcases hloaded with hholds | ⟨hnot, -⟩
      · exact hholds
      · exact absurd (h.accepts k raw hm) hnot

theorem isKeptBy (h : sections.Keeps m) : m.IsKeptBy sections.file := by
  have hlist := list_file h.wellNamed h.isPlain
  refine ⟨⟨_, hlist, Entries.distinct_ofList _, h.get?_listed⟩, h.isSome_iff, ?_⟩
  refine ⟨_, ?_, h.isLoadedAs⟩
  rw [settings, hlist]
  rfl

/-! ### One edit -/

variable {k : SettingsKey} {name value : String}

theorem save (h : sections.Keeps m) (haccepts : Settings.Accepts k value)
    (hplain : ConfigFile.isPlain (Text.trim value)) :
    (sections.save k.group k.name (Text.trim value)).Keeps
      (Function.update m k (some (Text.trim value))) := by
  obtain ⟨hgroup, hname⟩ := isBare_key k
  constructor
  case wellNamed => exact wellNamed_save h.wellNamed hgroup hname _
  case isPlain => exact isPlain_save h.isPlain hplain
  case ne_nil =>
    intro s hs
    rcases Entries.mem_put hs with rfl | hs
    · exact List.ne_nil_of_mem (Entries.mem_put_self _ _ _)
    · exact h.ne_nil s hs
  case lookup =>
    intro j
    simp only [lookup_save, k.same_iff, Function.update_apply, h.lookup]
  case isKey =>
    intro group' name' text hlookup
    rw [lookup_save] at hlookup
    split at hlookup
    · next hsame => exact ⟨k, hsame⟩
    · exact h.isKey _ _ _ hlookup
  case accepts =>
    intro j raw hraw
    rw [Function.update_apply] at hraw
    split at hraw
    · next hj =>
        rw [hj, ← Option.some.inj hraw]
        exact Settings.accepts_trim haccepts
    · exact h.accepts j raw hraw

theorem erase (h : sections.Keeps m) (k : SettingsKey) :
    (sections.erase k.group k.name).Keeps (Function.update m k none) := by
  constructor
  case wellNamed => exact wellNamed_erase h.wellNamed _ _
  case isPlain => exact isPlain_erase h.isPlain _ _
  case ne_nil =>
    intro s hs
    rcases mem_erase hs with hs | ⟨hne, -⟩
    · exact h.ne_nil s hs
    · exact hne
  case lookup =>
    intro j
    simp only [lookup_erase, k.same_iff, Function.update_apply, h.lookup]
  case isKey =>
    intro group' name' text hlookup
    rw [lookup_erase] at hlookup
    split at hlookup
    · cases hlookup
    · exact h.isKey _ _ _ hlookup
  case accepts =>
    intro j raw hraw
    rw [Function.update_apply] at hraw
    split at hraw
    · cases hraw
    · exact h.accepts j raw hraw

/-- A key for which nothing is stored can be removed from the map. -/
theorem update_none (h : sections.Keeps m) (hk : m k = none) :
    sections.Keeps (Function.update m k none) := by
  rwa [← hk, Function.update_eq_self]

theorem set_step (h : sections.Keeps m) (name value : String)
    (hplain : ConfigFile.isPlain (Text.trim value)) :
    ∃ after : Sections, after.Keeps (m.edit (.set name value)).2 ∧
      sections.file.edit (.set name value) =
        ((m.edit (.set name value)).1.mapError .setting, after.file) := by
  cases hk : SettingsKey.ofText? name with
  | none =>
      simp only [StoredSettings.edit, hk]
      exact ⟨sections, h, edit_set_error (set_of_not_key hk)⟩
  | some k =>
      cases hassign : ({} : Settings).assign k value with
      | error problem =>
          simp only [StoredSettings.edit, hk, hassign]
          exact ⟨sections, h, edit_set_error (set_of_not_assign hk hassign)⟩
      | ok t =>
          have haccepts : Settings.Accepts k value := ⟨t, hassign⟩
          simp only [StoredSettings.edit, hk, hassign]
          refine ⟨_, h.save haccepts hplain, ?_⟩
          rw [edit_set_ok (set_file h.wellNamed h.isPlain hk haccepts), file_save]
          rfl

theorem unset_step (h : sections.Keeps m) (name : String) :
    ∃ after : Sections, after.Keeps (m.edit (.unset name)).2 ∧
      sections.file.edit (.unset name) =
        ((m.edit (.unset name)).1.mapError .setting, after.file) := by
  cases hk : SettingsKey.ofText? name with
  | none =>
      simp only [StoredSettings.edit, hk]
      exact ⟨sections, h, edit_unset_error (unset_of_not_key hk)⟩
  | some k =>
      have hunset := unset_file h.wellNamed h.isPlain hk
      rw [h.lookup] at hunset
      simp only [StoredSettings.edit, hk]
      cases hm : m k with
      | none =>
          rw [hm] at hunset
          exact ⟨sections, h.update_none hm, edit_unset_ok hunset⟩
      | some text =>
          rw [hm] at hunset
          exact ⟨_, h.erase k, edit_unset_ok hunset⟩

/-- After an edit there are sections that keep the map after it. -/
theorem step (h : sections.Keeps m) {e : ConfigEdit} (hplain : e.IsPlain) :
    ∃ after : Sections, after.Keeps (m.edit e).2 ∧
      sections.file.edit e = ((m.edit e).1.mapError .setting, after.file) := by
  cases e with
  | set name value => exact h.set_step name value hplain
  | unset name => exact h.unset_step name

end Keeps

/-- A whole run from no file leaves the file of sections that keep the map. -/
theorem exists_keeps_edits {es : List ConfigEdit} (hplain : ∀ e ∈ es, e.IsPlain) :
    ∃ sections : Sections, sections.Keeps (StoredSettings.empty.edits es) ∧
      ConfigFile.edits none es = sections.file := by
  induction es using List.reverseRecOn with
  | nil => exact ⟨[], keeps_nil, rfl⟩
  | append_singleton es e ih =>
      rw [List.forall_mem_append, List.forall_mem_singleton] at hplain
      obtain ⟨sections, hkeeps, hfile⟩ := ih hplain.1
      obtain ⟨after, hafter, hedit⟩ := hkeeps.step hplain.2
      rw [StoredSettings.edits_concat, ConfigFile.edits_concat, hfile, hedit]
      exact ⟨after, hafter, rfl⟩

end Sections

end ConfigFile

/-! ## Whole runs -/

namespace StoredSettings

/-- Over a whole run from no file, each edit does to the file what it does to the map. -/
theorem follows_edits (es : List ConfigEdit) (e : ConfigEdit)
    (h : ∀ d ∈ es ++ [e], d.IsPlain) : Follows (empty.edits es) (ConfigFile.edits none es) e := by
  rw [List.forall_mem_append, List.forall_mem_singleton] at h
  obtain ⟨sections, hkeeps, hfile⟩ := Sections.exists_keeps_edits h.1
  obtain ⟨after, hafter, hedit⟩ := hkeeps.step h.2
  rw [hfile]
  constructor
  case result => rw [hedit]
  case unchanged => exact fun problem => edit_refused
  case isKept =>
    rw [hedit]
    exact hafter.isKeptBy

/-- A dialect with quotes, a backslash and another script, a number that is refused, and a setting
that is stored and removed. -/
def mixedEdits : List ConfigEdit :=
  [.set "extract.dialect" " a\"\\ä ", .set "log.retention_days" "0", .set "log.enabled" "No",
    .unset "log.enabled"]

theorem follows_mixedEdits :
    (∀ d ∈ mixedEdits ++ [.unset "extract.dialect"], d.IsPlain) ∧
      Follows (empty.edits mixedEdits) (ConfigFile.edits none mixedEdits)
        (.unset "extract.dialect") := by
  have hplain : ∀ d ∈ mixedEdits ++ [.unset "extract.dialect"], d.IsPlain := by
    decide +kernel
  exact ⟨hplain, follows_edits mixedEdits (.unset "extract.dialect") hplain⟩

end StoredSettings

end SqlTables
