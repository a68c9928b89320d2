import SqlTables.Proofs.ConfigFile
import SqlTables.Proofs.Settings.Loading

/-!
# Edits of the configuration file

An edit saves a setting or removes one. It returns a result or is refused, and the file is written
as the last thing it does, so an edit that is refused leaves the file (`ConfigFile.edit_refused`).
The name and the value are checked before the file is read (`ConfigFile.set_cases`).
-/

namespace SqlTables

/-- A change of the file that a user asks for. -/
inductive ConfigEdit
  | set (name value : String)
  | unset (name : String)
deriving DecidableEq

/-- What an edit returns: the removal of a setting says whether it was stored. -/
inductive EditResult
  | saved
  | removed (wasStored : Bool)
deriving DecidableEq

namespace ConfigFile

/-! ## The steps of an edit -/

section Steps

variable {file : ConfigFile} {name value : String} {k : SettingsKey}

/-- The file after a value is put into its section. -/
def store (k : SettingsKey) (value : String) (entries : Entries Datum) :
    Except ConfigProblem (List UInt8) :=
  (putIn entries k (Text.trim value)).bind write

/-- The file when nothing is removed, or that with the entries that are left. -/
def leave (file : ConfigFile) : Option (Entries Datum) → Except ConfigProblem (Bool × ConfigFile)
  | none => .ok (false, file)
  | some left =>
    if left.isEmpty then .ok (true, none)
    else (write left).map fun bytes => (true, some bytes)

theorem set_of_not_key (h : SettingsKey.ofText? name = none) :
    file.set name value = .error (.setting (.unknownKey name)) := by
  rw [ConfigFile.set, key, h]
  rfl

theorem set_of_not_assign {problem : SettingsProblem} (hk : SettingsKey.ofText? name = some k)
    (h : ({} : Settings).assign k value = .error problem) :
    file.set name value = .error (.setting problem) := by
  rw [ConfigFile.set, key, hk, ok_bind, h]

theorem set_of_accepts (file : ConfigFile) (hk : SettingsKey.ofText? name = some k)
    (h : Settings.Accepts k value) : file.set name value = file.read.bind (store k value) := by
  obtain ⟨s, hs⟩ := h
  rw [ConfigFile.set, key, hk, ok_bind, hs]
  rfl

/-- A setting is refused at once, or its key accepts the value. -/
theorem set_cases (file : ConfigFile) (name value : String) :
    (∃ problem, file.set name value = .error (.setting problem)) ∨
      ∃ k, SettingsKey.ofText? name = some k ∧ Settings.Accepts k value := by
  cases hk : SettingsKey.ofText? name with
  | none => exact Or.inl ⟨_, set_of_not_key hk⟩
  | some k =>
      cases hassign : ({} : Settings).assign k value with
      | error problem => exact Or.inl ⟨_, set_of_not_assign hk hassign⟩
      | ok s => exact Or.inr ⟨k, rfl, s, hassign⟩

theorem unset_of_not_key (h : SettingsKey.ofText? name = none) :
    file.unset name = .error (.setting (.unknownKey name)) := by
  rw [unset, key, h]
  rfl

theorem unset_of_key (file : ConfigFile) (hk : SettingsKey.ofText? name = some k) :
    file.unset name = file.read.bind fun entries => (removeFrom entries k).bind file.leave := by
  rw [unset, key, hk]
  rfl

end Steps

/-! ## Edits -/

/-- What an edit returns, and the file after it. -/
def edit (file : ConfigFile) : ConfigEdit → Except ConfigProblem EditResult × ConfigFile
  | .set name value =>
    match file.set name value with
    | .ok bytes => (.ok .saved, some bytes)
    | .error problem => (.error problem, file)
  | .unset name =>
    match file.unset name with
    | .ok (wasStored, after) => (.ok (.removed wasStored), after)
    | .error problem => (.error problem, file)

/-- The file after some edits. -/
def edits (file : ConfigFile) (es : List ConfigEdit) : ConfigFile :=
  es.foldl (fun file e => (file.edit e).2) file

variable {file : ConfigFile} {name value : String} {problem : ConfigProblem}

theorem edit_set_ok {bytes : List UInt8} (h : file.set name value = .ok bytes) :
    file.edit (.set name value) = (.ok .saved, some bytes) := by
  rw [edit, h]

theorem edit_set_error (h : file.set name value = .error problem) :
    file.edit (.set name value) = (.error problem, file) := by
  rw [edit, h]

theorem edit_unset_ok {wasStored : Bool} {after : ConfigFile}
    (h : file.unset name = .ok (wasStored, after)) :
    file.edit (.unset name) = (.ok (.removed wasStored), after) := by
  rw [edit, h]

theorem edit_unset_error (h : file.unset name = .error problem) :
    file.edit (.unset name) = (.error problem, file) := by
  rw [edit, h]

theorem set_error_of_edit (h : (file.edit (.set name value)).1 = .error problem) :
    file.set name value = .error problem := by
  cases hset : file.set name value with
  | ok bytes =>
      rw [edit_set_ok hset] at h
      cases h
  | error other =>
      rw [edit_set_error hset] at h
      cases h
      rfl

theorem unset_error_of_edit (h : (file.edit (.unset name)).1 = .error problem) :
    file.unset name = .error problem := by
  cases hunset : file.unset name with
  | ok result =>
      rw [edit_unset_ok hunset] at h
      cases h
  | error other =>
      rw [edit_unset_error hunset] at h
      cases h
      rfl

/-- An edit that is refused leaves the file. -/
theorem edit_refused {e : ConfigEdit} (h : (file.edit e).1 = .error problem) :
    (file.edit e).2 = file := by
  cases e with
  | set name value => rw [edit_set_error (set_error_of_edit h)]
  | unset name => rw [edit_unset_error (unset_error_of_edit h)]

theorem edits_concat (file : ConfigFile) (es : List ConfigEdit) (e : ConfigEdit) :
    file.edits (es ++ [e]) = ((file.edits es).edit e).2 := by
  rw [edits, List.foldl_append]
  rfl

end ConfigFile

end SqlTables
