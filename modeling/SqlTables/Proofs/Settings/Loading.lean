import SqlTables.Proofs.Entries
import SqlTables.Proofs.Text
import SqlTables.Settings.ConfigFile

/-!
# Loading settings

The settings in force are the defaults, overlaid with the stored values one after the other. A
stored value touches the field of its own key only, and only if it can be read as a value of
that key. So the settings can be said key by key, whatever else is stored
(`Settings.isLoaded_overlays`), and every field keeps within its bounds
(`Settings.isValid_settings`).
-/

namespace SqlTables

namespace SettingsKey

variable {j k : SettingsKey} {name : String}

theorem ofText?_text (k : SettingsKey) : ofText? k.text = some k := by
  cases k <;> decide

theorem ofText?_eq_some_iff : ofText? name = some k ↔ k.text = name := by
  constructor
  · intro h
    have hfound := List.find?_some h
    exact eq_of_beq hfound
  · rintro rfl
    exact ofText?_text k

theorem text_inj : j.text = k.text ↔ j = k := by
  refine ⟨fun h => ?_, fun h => h ▸ rfl⟩
  have hj := ofText?_text j
  rw [h, ofText?_text] at hj
  exact (Option.some.inj hj).symm

end SettingsKey

namespace Settings

variable {s t u : Settings} {j k : SettingsKey} {key raw : String}

/-- The settings have the same value for a key. -/
def Agree (k : SettingsKey) (s t : Settings) : Prop :=
  match k with
  | .engine => s.engine = t.engine
  | .dialect => s.dialect = t.dialect
  | .separator => s.separator = t.separator
  | .maxInputBytes => s.maxInputBytes = t.maxInputBytes
  | .logEnabled => s.logEnabled = t.logEnabled
  | .logRetentionDays => s.logRetentionDays = t.logRetentionDays

/-- The settings with the value that others have for a key. -/
def adopt (s : Settings) (k : SettingsKey) (t : Settings) : Settings :=
  match k with
  | .engine => { s with engine := t.engine }
  | .dialect => { s with dialect := t.dialect }
  | .separator => { s with separator := t.separator }
  | .maxInputBytes => { s with maxInputBytes := t.maxInputBytes }
  | .logEnabled => { s with logEnabled := t.logEnabled }
  | .logRetentionDays => { s with logRetentionDays := t.logRetentionDays }

theorem Agree.refl (k : SettingsKey) (s : Settings) : Agree k s s := by
  cases k <;> rfl

theorem Agree.trans (h : Agree k s t) (h' : Agree k t u) : Agree k s u := by
  cases k <;> exact Eq.trans h h'

theorem Agree.symm (h : Agree k s t) : Agree k t s := by
  cases k <;> exact Eq.symm h

/-- Settings that agree on every key are the same. -/
theorem eq_of_agree (h : ∀ k, Agree k s t) : s = t := by
  have hengine : s.engine = t.engine := h .engine
  have hdialect : s.dialect = t.dialect := h .dialect
  have hseparator : s.separator = t.separator := h .separator
  have hbytes : s.maxInputBytes = t.maxInputBytes := h .maxInputBytes
  have henabled : s.logEnabled = t.logEnabled := h .logEnabled
  have hdays : s.logRetentionDays = t.logRetentionDays := h .logRetentionDays
  cases s
  simp_all

theorem agree_adopt (s : Settings) (k : SettingsKey) (t : Settings) : Agree k (s.adopt k t) t := by
  cases k <;> rfl

theorem agree_adopt_of_ne (h : j ≠ k) (s t : Settings) : Agree j (s.adopt k t) s := by
  cases j <;> cases k <;> first | rfl | exact absurd rfl h

/-! ## One value -/

/-- What is read for a key does not depend on the settings that it is put into. -/
theorem assign_eq (s : Settings) (k : SettingsKey) (raw : String) :
    s.assign k raw = (({} : Settings).assign k raw).map (s.adopt k) := by
  have hmap {α β γ : Type} (x : Except SettingsProblem α) (f : α → β) (g : β → γ) :
      (x.map f).map g = x.map (g ∘ f) := by
    cases x <;> rfl
  cases k <;> simp only [assign, hmap] <;> rfl

theorem positive_trim {n : Int} (h : positive raw = .ok n) : positive (Text.trim raw) = .ok n := by
  unfold positive at h ⊢
  rw [Text.trim_trim]
  cases hread : integer? (Text.trim raw).toList with
  | none => simp [hread] at h
  | some m => simpa [hread] using h

theorem boolean_trim {b : Bool} (h : boolean raw = .ok b) : boolean (Text.trim raw) = .ok b := by
  simp only [boolean, Text.trim_trim] at h ⊢
  split
  · simp_all
  · split <;> simp_all

theorem exists_of_map {ε α β : Type} {x : Except ε α} {f : α → β} {b : β}
    (h : x.map f = .ok b) : ∃ a, x = .ok a ∧ f a = b := by
  cases x with
  | error problem => cases h
  | ok a => exact ⟨a, rfl, Except.ok.inj h⟩

/-- The blanks around a text do not count. -/
theorem assign_trim (h : s.assign k raw = .ok t) : s.assign k (Text.trim raw) = .ok t := by
  cases k <;> simp only [assign] at h ⊢
  case maxInputBytes =>
    obtain ⟨n, hn, rfl⟩ := exists_of_map h
    rw [positive_trim hn]
    rfl
  case logRetentionDays =>
    obtain ⟨n, hn, rfl⟩ := exists_of_map h
    rw [positive_trim hn]
    rfl
  case logEnabled =>
    obtain ⟨b, hb, rfl⟩ := exists_of_map h
    rw [boolean_trim hb]
    rfl
  all_goals simpa only [choice, nonEmpty, Text.trim_trim] using h

/-- The text can be read as a value of the key. -/
def Accepts (k : SettingsKey) (raw : String) : Prop :=
  ∃ t, ({} : Settings).assign k raw = .ok t

/-- The settings hold the value that is read from a text for a key. -/
def Holds (s : Settings) (k : SettingsKey) (raw : String) : Prop :=
  ∃ t, ({} : Settings).assign k raw = .ok t ∧ Agree k s t

theorem Holds.agree (hs : s.Holds k raw) (ht : t.Holds k raw) : Agree k s t := by
  obtain ⟨u, hu, hs⟩ := hs
  obtain ⟨v, hv, ht⟩ := ht
  rw [hu] at hv
  cases hv
  exact hs.trans ht.symm

theorem Holds.accepts (h : s.Holds k raw) : Accepts k raw := h.imp fun _ h => h.1

theorem accepts_trim (h : Accepts k raw) : Accepts k (Text.trim raw) := by
  obtain ⟨t, ht⟩ := h
  exact ⟨t, assign_trim ht⟩

/-! ## All values -/

/-- What a stored text, or none, makes of the value of a key: a text that cannot be read leaves it
as it was. -/
def IsLoaded (k : SettingsKey) (stored : Option String) (before s : Settings) : Prop :=
  match stored with
  | some raw => s.Holds k raw ∨ ¬ Accepts k raw ∧ Agree k s before
  | none => Agree k s before

theorem IsLoaded.trans {stored : Option String} (h : IsLoaded k stored t s) (h' : Agree k t u) :
    IsLoaded k stored u s := by
  cases stored with
  | none => exact Agree.trans h h'
  | some raw => exact h.imp_right fun h => ⟨h.1, h.2.trans h'⟩

theorem overlay_text (s : Settings) (k : SettingsKey) (raw : String) :
    ConfigFile.overlay s k.text raw =
      match ({} : Settings).assign k raw with
      | .ok t => s.adopt k t
      | .error _ => s := by
  rw [ConfigFile.overlay, SettingsKey.ofText?_text]
  dsimp only
  rw [assign_eq s]
  cases ({} : Settings).assign k raw <;> rfl

theorem isLoaded_overlay (s : Settings) (k : SettingsKey) (raw : String) :
    IsLoaded k (some raw) s (ConfigFile.overlay s k.text raw) := by
  rw [overlay_text]
  cases hread : ({} : Settings).assign k raw with
  | ok t => exact Or.inl ⟨t, hread, agree_adopt s k t⟩
  | error problem =>
      refine Or.inr ⟨?_, Agree.refl k s⟩
      rintro ⟨t, ht⟩
      rw [hread] at ht
      cases ht

theorem agree_overlay_of_ne (h : key ≠ k.text) (s : Settings) (raw : String) :
    Agree k (ConfigFile.overlay s key raw) s := by
  cases hkey : SettingsKey.ofText? key with
  | none =>
      rw [ConfigFile.overlay, hkey]
      exact Agree.refl k s
  | some j =>
      rw [SettingsKey.ofText?_eq_some_iff] at hkey
      subst hkey
      have hne : k ≠ j := fun heq => h (heq ▸ rfl)
      rw [overlay_text]
      split
      · exact agree_adopt_of_ne hne s _
      · exact Agree.refl k s

/-- The settings overlaid with stored values. -/
def overlays (s : Settings) (stored : Entries String) : Settings :=
  stored.foldl (fun s e => ConfigFile.overlay s e.1 e.2) s

/-- Where no name is stored twice, each key has its own stored value, if that can be read. -/
theorem isLoaded_overlays {stored : Entries String} (h : stored.Distinct) (s : Settings)
    (k : SettingsKey) : IsLoaded k (stored.get? k.text) s (s.overlays stored) := by
  induction stored generalizing s with
  | nil => exact Agree.refl k s
  | cons e rest ih =>
      obtain ⟨key, raw⟩ := e
      obtain ⟨hkey, hrest⟩ := Entries.distinct_cons.mp h
      have hlater : IsLoaded k (Entries.get? rest k.text) (ConfigFile.overlay s key raw)
          (s.overlays ((key, raw) :: rest)) := ih hrest _
      by_cases heq : key = k.text
      · -- Nothing behind the value is stored for its key.
        subst heq
        rw [Entries.get?_eq_none_iff.mpr hkey] at hlater
        rw [Entries.get?, if_pos rfl]
        rcases isLoaded_overlay s k raw with ⟨t, ht, hagree⟩ | ⟨hnot, hagree⟩
        · exact Or.inl ⟨t, ht, hlater.trans hagree⟩
        · exact Or.inr ⟨hnot, hlater.trans hagree⟩
      · rw [Entries.get?, if_neg heq]
        exact hlater.trans (agree_overlay_of_ne heq s raw)

/-! ## Bounds -/

/-- Every field is within its bounds. -/
structure IsValid (s : Settings) : Prop where
  engine : s.engine ∈ engines
  dialect : s.dialect ≠ "" ∧ Text.trim s.dialect = s.dialect
  separator : s.joiner?.isSome
  maxInputBytes : 0 < s.maxInputBytes
  logRetentionDays : 0 < s.logRetentionDays

theorem isValid_default : IsValid {} where
  engine := by decide
  dialect := by decide +kernel
  separator := by decide
  maxInputBytes := by decide
  logRetentionDays := by decide

theorem mem_of_choice {choices : List String} {v : String} (h : choice choices raw = .ok v) :
    v ∈ choices := by
  unfold choice at h
  dsimp only at h
  split at h
  · next hmem =>
      rw [← Except.ok.inj h]
      exact List.contains_iff_mem.mp hmem
  · cases h

theorem pos_of_positive {n : Int} (h : positive raw = .ok n) : 0 < n := by
  unfold positive at h
  split at h
  · cases h
  · split at h
    · cases h
    · next hpos =>
        rw [← Except.ok.inj h]
        exact Int.not_le.mp hpos

theorem trimmed_of_nonEmpty {v : String} (h : nonEmpty raw = .ok v) :
    v ≠ "" ∧ Text.trim v = v := by
  unfold nonEmpty at h
  dsimp only at h
  split at h
  · cases h
  · next hne =>
      rw [← Except.ok.inj h]
      exact ⟨hne, Text.trim_trim raw⟩

theorem isSome_lookup_separators :
    ∀ name ∈ separators.map Prod.fst, (separators.lookup name).isSome := by
  decide

theorem IsValid.assign (hs : s.IsValid) (h : s.assign k raw = .ok t) : t.IsValid := by
  cases k <;> simp only [Settings.assign] at h <;> obtain ⟨v, hv, rfl⟩ := exists_of_map h
  case engine => exact { hs with engine := mem_of_choice hv }
  case dialect => exact { hs with dialect := trimmed_of_nonEmpty hv }
  case separator =>
    exact { hs with separator := isSome_lookup_separators v (mem_of_choice hv) }
  case maxInputBytes => exact { hs with maxInputBytes := pos_of_positive hv }
  case logEnabled => exact { hs with }
  case logRetentionDays => exact { hs with logRetentionDays := pos_of_positive hv }

theorem IsValid.overlay (hs : s.IsValid) (key raw : String) :
    (ConfigFile.overlay s key raw).IsValid := by
  unfold ConfigFile.overlay
  split
  · exact hs
  · split
    · next hassign => exact hs.assign hassign
    · exact hs

theorem IsValid.overlays (hs : s.IsValid) (stored : Entries String) :
    (s.overlays stored).IsValid := by
  induction stored generalizing s with
  | nil => exact hs
  | cons e rest ih => exact ih (hs.overlay e.1 e.2)

/-- The settings in force are within their bounds. -/
theorem isValid_settings {file : ConfigFile} (h : file.settings = .ok s) : s.IsValid := by
  unfold ConfigFile.settings at h
  split at h
  · cases h
    exact isValid_default.overlays _
  · cases h
    exact isValid_default
  · cases h

end Settings

end SqlTables
