import SqlTables.Encoding.Utf8
import SqlTables.Settings.Key
import SqlTables.Toml.Document

/-!
# The configuration file

The settings are stored in sections of a configuration file, each value as a text.
`ConfigFile.list` gives what is stored, `ConfigFile.settings` overlays the defaults with those
stored values that are valid, and `ConfigFile.set` and `ConfigFile.unset` give the file after a
change. A change writes the whole file anew, with every value as it is shown, and an entry that is
no section cannot be written.
-/

namespace SqlTables

/-- The bytes of the configuration file, if there is one. -/
abbrev ConfigFile := Option (List UInt8)

/-- Why a change of the file is refused. The type of a value that is in the way is named as the
messages name it. -/
inductive ConfigProblem
  | setting (problem : SettingsProblem)
  /-- The file is not a document, or its bytes are no text. -/
  | unreadable (isText : Bool)
  /-- An integer in the file has that many digits. -/
  | longInteger (digits : Nat)
  /-- An integer has too many digits to be shown. -/
  | notShowable
  | noAssignment (type : String)
  | noDeletion (type : String)
  | noMembers (type : String)
  | listIndex
  | noEntries (type : String)
deriving DecidableEq

namespace ConfigProblem

/-- The bound on the digits of an integer. -/
def digitLimit : String :=
  "Exceeds the limit (" ++ toString Datum.maxDigits ++ " digits) for integer string conversion"

def digitAdvice : String := "; use sys.set_int_max_str_digits() to increase the limit"

def message (path : String) : ConfigProblem → String
  | setting problem => problem.message
  | unreadable _ => path ++ " is not valid TOML"
  | longInteger digits =>
    digitLimit ++ ": value has " ++ toString digits ++ " digits" ++ digitAdvice
  | notShowable => digitLimit ++ digitAdvice
  | noAssignment type => "'" ++ type ++ "' object does not support item assignment"
  | noDeletion type => "'" ++ type ++ "' object does not support item deletion"
  | noMembers type => "argument of type '" ++ type ++ "' is not iterable"
  | listIndex => "list indices must be integers or slices, not str"
  | noEntries type => "'" ++ type ++ "' object has no attribute 'items'"

end ConfigProblem

namespace ConfigFile

/-- The name of a value's type in a message. -/
def typeName : Datum → String
  | .null => "NoneType"
  | .bool _ => "bool"
  | .int _ => "int"
  | .float _ => "float"
  | .string _ => "str"
  | .list _ => "list"
  | .table _ => "dict"
  | .moment _ inner => String.ofList (inner.toList.takeWhile (· ≠ '('))

/-- The entries of the file; an absent file has none. -/
def read (file : ConfigFile) : Except ConfigProblem (Entries Datum) :=
  match file with
  | none => .ok []
  | some bytes =>
    match Utf8.decode bytes with
    | .error _ => .error (.unreadable false)
    | .ok chars =>
      match Toml.read chars with
      | .ok entries => .ok entries
      | .error .malformed => .error (.unreadable true)
      | .error (.longInteger digits) => .error (.longInteger digits)

/-- A value as it is shown. -/
def shown (value : Datum) : Except ConfigProblem String :=
  if value.isShowable then .ok value.text else .error .notShowable

/-- The values of the sections, each under its section and name. -/
def members (entries : Entries Datum) : List (String × Datum) :=
  entries.flatMap fun (group, value) =>
    match value with
    | .table values => values.map fun (name, v) => (group ++ "." ++ name, v)
    | _ => []

/-- The stored values as they are shown, each under its section and name. -/
def flatten (entries : Entries Datum) : Except ConfigProblem (Entries String) := do
  let stored ← (members entries).mapM fun (name, v) => do
    let text ← shown v
    pure (name, text)
  pure (.ofList stored)

/-- What is stored in the file. -/
def list (file : ConfigFile) : Except ConfigProblem (Entries String) := do
  let entries ← file.read
  flatten entries

/-- Takes in one stored value, unless its key is unknown or its text is not valid. -/
def overlay (s : Settings) (key raw : String) : Settings :=
  match SettingsKey.ofText? key with
  | none => s
  | some k =>
    match s.assign k raw with
    | .ok t => t
    | .error _ => s

/-- The settings in force: the defaults, and the valid values of a readable file. Only a value that
cannot be shown stands in the way. -/
def settings (file : ConfigFile) : Except ConfigProblem Settings :=
  match file.list with
  | .ok stored => .ok (stored.foldl (fun s (k, raw) => overlay s k raw) {})
  | .error (.unreadable _) => .ok {}
  | .error problem => .error problem

/-- A value between double quotes: backslashes and quotes are escaped. -/
def quoted (value : String) : List Char :=
  '"' :: value.toList.flatMap (fun c => if c = '\\' ∨ c = '"' then ['\\', c] else [c]) ++ ['"']

/-- The line of one value. -/
def line (name : String) (value : Datum) : Except ConfigProblem (List Char) :=
  (shown value).map fun text => name.toList ++ " = ".toList ++ quoted text

/-- The lines of one section: its header, its values, and an empty line. -/
def sectionLines (name : String) (values : Entries Datum) :
    Except ConfigProblem (List (List Char)) :=
  (values.mapM fun (k, v) => line k v).map fun ls => ('[' :: name.toList ++ [']']) :: ls ++ [[]]

/-- The lines of a file with the given entries, which must all be sections. -/
def lines (entries : Entries Datum) : Except ConfigProblem (List (List Char)) :=
  match entries with
  | [] => .ok []
  | (name, .table values) :: rest => do
    let first ← sectionLines name values
    let others ← lines rest
    pure (first ++ others)
  | (_, value) :: _ => .error (.noEntries (typeName value))

/-- The bytes of a file with the given entries. -/
def write (entries : Entries Datum) : Except ConfigProblem (List UInt8) :=
  (lines entries).map fun ls => Utf8.encode (['\n'].intercalate ls)

/-- The key with the given name. -/
def key (text : String) : Except ConfigProblem SettingsKey :=
  match SettingsKey.ofText? text with
  | some k => .ok k
  | none => .error (.setting (.unknownKey text))

/-- The entries with a value in a section. -/
def putIn (entries : Entries Datum) (k : SettingsKey) (value : String) :
    Except ConfigProblem (Entries Datum) :=
  match entries.get? k.group with
  | none => .ok (entries.put k.group (.table [(k.name, .string value)]))
  | some (.table values) =>
    .ok (entries.put k.group (.table (Entries.put values k.name (.string value))))
  | some (.list _) => .error .listIndex
  | some other => .error (.noAssignment (typeName other))

/-- The file after a setting is saved. The value is checked first. -/
def set (file : ConfigFile) (name value : String) : Except ConfigProblem (List UInt8) := do
  let k ← key name
  match ({} : Settings).assign k value with
  | .error problem => .error (.setting problem)
  | .ok _ => do
    let entries ← file.read
    let changed ← putIn entries k (Text.trim value)
    write changed

/-- Whether a list holds a text. -/
def holds (items : List Datum) (text : String) : Bool :=
  items.any fun
    | .string s => s == text
    | _ => false

/-- Whether a text occurs in another. -/
def occursIn (part chars : List Char) : Bool :=
  match chars with
  | [] => part.isEmpty
  | _ :: rest => part.isPrefixOf chars || occursIn part rest

/-- The entries without a value of a section, if it is there; a section without values goes too. -/
def removeFrom (entries : Entries Datum) (k : SettingsKey) :
    Except ConfigProblem (Option (Entries Datum)) :=
  match entries.get? k.group with
  | none => .ok none
  | some (.table values) =>
    if (Entries.get? values k.name).isSome then
      let left := Entries.remove values k.name
      if left.isEmpty then .ok (some (entries.remove k.group))
      else .ok (some (entries.put k.group (.table left)))
    else .ok none
  | some (.list items) => if holds items k.name then .error .listIndex else .ok none
  | some (.string s) =>
    if occursIn k.name.toList s.toList then .error (.noDeletion "str") else .ok none
  | some other => .error (.noMembers (typeName other))

/-- The file after a setting is removed, and whether it was stored. A file without entries goes. -/
def unset (file : ConfigFile) (name : String) : Except ConfigProblem (Bool × ConfigFile) := do
  let k ← key name
  let entries ← file.read
  match ← removeFrom entries k with
  | none => pure (false, file)
  | some left =>
    if left.isEmpty then pure (true, none)
    else do
      let bytes ← write left
      pure (true, some bytes)

end ConfigFile

end SqlTables
