import SqlTables.Datum
import SqlTables.Settings
import SqlTables.Text
import SqlTables.Unicode.LowerCase
import SqlTables.Unicode.Number

/-!
# Keys of settings

A `SettingsKey` names one setting. `Settings.assign` reads the text of a value as the key requires
and puts it into the settings; a text that the key does not accept is a `SettingsProblem`.
-/

namespace SqlTables

inductive SettingsKey
  | engine
  | dialect
  | separator
  | maxInputBytes
  | logEnabled
  | logRetentionDays
deriving DecidableEq

namespace SettingsKey

/-- Every key, in the order in which they are listed. -/
def all : List SettingsKey :=
  [engine, dialect, separator, maxInputBytes, logEnabled, logRetentionDays]

theorem mem_all (k : SettingsKey) : k ∈ all := by
  cases k <;> decide

/-- The section of the configuration that holds the key. -/
def group : SettingsKey → String
  | engine | dialect | separator | maxInputBytes => "extract"
  | logEnabled | logRetentionDays => "log"

/-- The name of the key in its section. -/
def name : SettingsKey → String
  | engine => "engine"
  | dialect => "dialect"
  | separator => "separator"
  | maxInputBytes => "max_input_bytes"
  | logEnabled => "enabled"
  | logRetentionDays => "retention_days"

def text (k : SettingsKey) : String := k.group ++ "." ++ k.name

def ofText? (s : String) : Option SettingsKey := all.find? fun k => k.text == s

end SettingsKey

inductive SettingsProblem
  | unknownKey (key : String)
  | notAChoice (choices : List String) (given : String)
  | notAnInteger (given : String)
  | notPositive (value : Int)
  | notABoolean (given : String)
  | emptyValue
deriving DecidableEq

namespace SettingsProblem

def message : SettingsProblem → String
  | unknownKey key =>
    "unknown setting '" ++ key ++ "'. Valid: "
      ++ ", ".intercalate (SettingsKey.all.map SettingsKey.text)
  | notAChoice choices given =>
    "expected one of " ++ ", ".intercalate choices ++ ", got '" ++ given ++ "'"
  | notAnInteger given => "expected an integer, got '" ++ given ++ "'"
  | notPositive value => "expected a positive integer, got " ++ toString value
  | notABoolean given => "expected true or false, got '" ++ given ++ "'"
  | emptyValue => "value must not be empty"

end SettingsProblem

namespace Settings

/-- The values of decimal digits of any script, with single underscores between them. -/
def digitValues? : List Char → Option (List Nat)
  | [] => none
  | [c] => (Unicode.decimalValue? c).map fun n => [n]
  | c :: d :: rest =>
    (Unicode.decimalValue? c).bind fun n =>
      (if d = '_' then digitValues? rest else digitValues? (d :: rest)).map (n :: ·)

/-- An integer with an optional sign. -/
def integer? (chars : List Char) : Option Int :=
  let (negative, rest) : Bool × List Char :=
    match chars with
    | '-' :: rest => (true, rest)
    | '+' :: rest => (false, rest)
    | _ => (false, chars)
  (digitValues? rest).bind fun values =>
    if Datum.maxDigits < values.length then none
    else
      let n : Nat := values.foldl (fun n d => 10 * n + d) 0
      some (if negative then -(n : Int) else n)

def choice (choices : List String) (raw : String) : Except SettingsProblem String :=
  let value := Unicode.lower (Text.trim raw)
  if choices.contains value then .ok value else .error (.notAChoice choices value)

def positive (raw : String) : Except SettingsProblem Int :=
  match integer? (Text.trim raw).toList with
  | none => .error (.notAnInteger raw)
  | some n => if n ≤ 0 then .error (.notPositive n) else .ok n

def boolean (raw : String) : Except SettingsProblem Bool :=
  let value := Unicode.lower (Text.trim raw)
  if ["true", "1", "yes", "on"].contains value then .ok true
  else if ["false", "0", "no", "off"].contains value then .ok false
  else .error (.notABoolean raw)

def nonEmpty (raw : String) : Except SettingsProblem String :=
  let value := Text.trim raw
  if value = "" then .error .emptyValue else .ok value

/-- The settings with the value of one key read from a text. -/
def assign (s : Settings) (key : SettingsKey) (raw : String) : Except SettingsProblem Settings :=
  match key with
  | .engine => (choice engines raw).map fun v => { s with engine := v }
  | .dialect => (nonEmpty raw).map fun v => { s with dialect := v }
  | .separator => (choice (separators.map Prod.fst) raw).map fun v => { s with separator := v }
  | .maxInputBytes => (positive raw).map fun v => { s with maxInputBytes := v }
  | .logEnabled => (boolean raw).map fun v => { s with logEnabled := v }
  | .logRetentionDays => (positive raw).map fun v => { s with logRetentionDays := v }

/-- The value of a key as it is shown. -/
def value (s : Settings) (key : SettingsKey) : String :=
  match key with
  | .engine => s.engine
  | .dialect => s.dialect
  | .separator => s.separator
  | .maxInputBytes => toString s.maxInputBytes
  | .logEnabled => if s.logEnabled then "true" else "false"
  | .logRetentionDays => toString s.logRetentionDays

end Settings

end SqlTables
