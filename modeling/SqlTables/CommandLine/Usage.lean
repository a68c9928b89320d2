import SqlTables.Datum
import SqlTables.Settings.Key

/-!
# Usage errors

A `UsageError` says what is wrong with the arguments of a command.
-/

namespace SqlTables

inductive UsageError
  | noSuchOption (name : String) (similar : List String)
  | noSuchCommand (name : String) (similar : List String)
  | missingCommand
  | missingValue (option : String)
  | needlessValue (option : String)
  | missingArgument (name : String) (choices : List String)
  | extraArguments (words : List String)
  | notAChoice (argument given : String) (choices : List String)
  | noSuchFile (option path : String)
  | directory (option path : String)
  | badSetting (problem : SettingsProblem)
  | severalInputs (given : List String)
  | terminalInput
deriving DecidableEq

namespace UsageError

/-- The name of the argument that is the value of a setting. -/
def valueName : String := "VALUE"

/-- Names in quotes, separated by commas. -/
def listed (names : List String) : String := ", ".intercalate (names.map Datum.quotedLiteral)

/-- The names that may have been meant. -/
def suggestion (similar : List String) : String :=
  match similar with
  | [] => ""
  | [_] => " Did you mean " ++ listed similar ++ "?"
  | _ => " (Did you mean one of: " ++ listed similar ++ "?)"

/-- What is wrong with the value of one argument. -/
def invalid (argument problem : String) : String :=
  "Invalid value for '" ++ argument ++ "': " ++ problem

def message : UsageError → String
  | noSuchOption name similar =>
    "No such option " ++ Datum.quotedLiteral name ++ "." ++ suggestion similar
  | noSuchCommand name similar =>
    "No such command " ++ Datum.quotedLiteral name ++ "." ++ suggestion similar
  | missingCommand => "Missing command."
  | missingValue option => "Option " ++ Datum.quotedLiteral option ++ " requires an argument."
  | needlessValue option => "Option " ++ Datum.quotedLiteral option ++ " does not take a value."
  | missingArgument name choices =>
    "Missing argument '" ++ name ++ "'."
      ++ if choices.isEmpty then ""
        else " Choose from:\n\t" ++ ",\n\t".intercalate choices
  | extraArguments words =>
    "Got unexpected extra argument" ++ (if words.length = 1 then "" else "s") ++ " ("
      ++ " ".intercalate words ++ ")"
  | notAChoice argument given choices =>
    invalid argument (Datum.quotedLiteral given ++ " is not one of " ++ listed choices ++ ".")
  | noSuchFile option path =>
    invalid option ("File " ++ Datum.quotedLiteral path ++ " does not exist.")
  | directory option path =>
    invalid option ("File " ++ Datum.quotedLiteral path ++ " is a directory.")
  | badSetting problem => invalid valueName problem.message
  | severalInputs given => "Provide exactly one input, got " ++ ", ".intercalate given ++ "."
  | terminalInput => "--from-stdin requires piped input (stdin is a terminal)."

end UsageError

end SqlTables
