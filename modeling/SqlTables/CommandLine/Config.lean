import SqlTables.CommandLine.Arguments
import SqlTables.CommandLine.Session

/-!
# The commands `config show`, `config set` and `config unset`

They show the settings in force, save a setting in the configuration file, and remove one from it.
-/

namespace SqlTables

namespace ConfigCommand

/-- The name of the argument that is a key of settings: its choices. -/
def keyName : String := "\x7b" ++ "|".intercalate (SettingsKey.all.map SettingsKey.text) ++ "\x7d"

/-- The key that an argument names. -/
def key? (words : List String) : Except UsageError SettingsKey :=
  let choices := SettingsKey.all.map SettingsKey.text
  match words with
  | [] => .error (.missingArgument keyName choices)
  | word :: _ =>
    match SettingsKey.ofText? word with
    | some k => .ok k
    | none => .error (.notAChoice keyName word choices)

/-- What a refused change of the configuration file comes to. -/
def problem (host : Host) (p : ConfigProblem) : Outcome :=
  match p with
  | .setting cause => .usage (.badSetting cause)
  | .unreadable _ => .refuse 1 (p.message host.configPath)
  | _ => .fail (.config p)

/-- Where the value of a key comes from: the file, if it stores one. -/
def origin (stored : Entries String) (k : SettingsKey) : String :=
  if (stored.get? k.text).isSome then "file" else "default"

/-- The line of one setting. -/
def line (s : Settings) (stored : Entries String) (k : SettingsKey) : String :=
  "  " ++ k.text ++ " = " ++ s.value k ++ " (" ++ origin stored k ++ ")"

/-- Shows the settings in force. -/
def display (host : Host) : Outcome :=
  match host.config.list, host.config.settings with
  | .ok stored, .ok s =>
    .print ("\n".intercalate
      (("# " ++ host.configPath) :: SettingsKey.all.map (line s stored)))
  | .error p, _ | _, .error p => problem host p

/-- Saves a setting. -/
def set (host : Host) (k : SettingsKey) (value : String) : Outcome :=
  match ConfigFile.set host.config k.text value with
  | .error p => problem host p
  | .ok bytes =>
    { Outcome.print ("Saved " ++ k.text ++ " = " ++ value ++ " to " ++ host.configPath) with
      config := some (some bytes) }

/-- Removes a setting. -/
def unset (host : Host) (k : SettingsKey) : Outcome :=
  match ConfigFile.unset host.config k.text with
  | .error p => problem host p
  | .ok (true, file) => { Outcome.print ("Removed " ++ k.text ++ ".") with config := some file }
  | .ok (false, _) =>
    { err := "Setting '" ++ k.text ++ "' is not set.\n", ending := .exit 1 }

/-- The outcome, if no words are left over. -/
def unlessExtra (words : List String) (o : Outcome) : Outcome :=
  if words.isEmpty then o else .usage (.extraArguments words)

def runDisplay (host : Host) (words : List String) : Outcome := unlessExtra words (display host)

def runSet (host : Host) (words : List String) : Outcome :=
  match key? words, words with
  | .error e, _ => .usage e
  | .ok k, _ :: value :: extra => unlessExtra extra (set host k value)
  | .ok _, _ => .usage (.missingArgument UsageError.valueName [])

def runUnset (host : Host) (words : List String) : Outcome :=
  match key? words with
  | .error e => .usage e
  | .ok k => unlessExtra (words.drop 1) (unset host k)

end ConfigCommand

end SqlTables
