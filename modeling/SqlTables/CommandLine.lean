import SqlTables.CommandLine.Config
import SqlTables.CommandLine.Extract

/-!
# The command line

`CommandLine.run` finds the command that the arguments name and runs it. The command `config` has
commands of its own.
-/

namespace SqlTables

/-- The options before the name of a command. -/
inductive GroupOption
  | version
  | help
deriving DecidableEq

inductive Command
  | extract
  | config
deriving DecidableEq

inductive ConfigAction
  | display
  | set
  | unset
deriving DecidableEq

namespace CommandLine

/-- What the arguments of a group of commands ask for. -/
inductive Asked (β : Type)
  | option (o : GroupOption)
  | command (name : β) (arguments : List String)
  | nothing
deriving DecidableEq

/-- Finds the command that the arguments name. Where a command is not known, an argument that looks
like an option is read as one, though it comes after `--`. -/
def ask {β : Type} (forms : List (OptionForm GroupOption)) (commands : List (String × β))
    (arguments : List String) : Except UsageError (Asked β) := do
  if arguments.isEmpty then return .nothing
  let a ← Arguments.read forms false arguments
  match a.options, a.words with
  | (o, _) :: _, _ => return .option o
  | [], [] => throw .missingCommand
  | [], name :: rest =>
    match commands.lookup name with
    | some command => return .command command rest
    | none =>
      let again ← Arguments.read forms false (name :: rest)
      match again.options with
      | (o, _) :: _ => return .option o
      | [] => throw (.noSuchCommand name (Similarity.closest name (commands.map Prod.fst)))

def helpForm : OptionForm GroupOption := { option := .help, long := "--help", takesValue := false }

def versionForm : OptionForm GroupOption :=
  { option := .version, long := "--version", takesValue := false }

def version : String := "0.1.0"

/-- How the commands are used. -/
def help (program : String) : String :=
  "\n".intercalate
    ["Usage: " ++ program ++ " COMMAND",
      "",
      "  extract [OPTIONS] [SQL]  List every table that SQL reads from or writes to.",
      "    --file FILE              Read the script from a file.",
      "    --base64 FILE            Read the script from a file in base64 text.",
      "    --from-stdin             Read the script from standard input.",
      "    --engine scan|sqlglot    Choose how statements are read.",
      "    --dialect NAME           Choose the dialect of the parser.",
      "    --format json|text       Choose the form of the output.",
      "    --separator newline|comma",
      "    -v, --verbose            Print diagnostics to standard error.",
      "    --no-log                 Do not log this run.",
      "  config show              Show the settings and where each comes from.",
      "  config set KEY VALUE     Save a setting.",
      "  config unset KEY         Remove a setting."]

def runExtract (parser : SqlParser) (host : Host) (arguments : List String) : Outcome :=
  match Arguments.read ExtractOption.forms true arguments with
  | .error e => .usage e
  | .ok a =>
    if a.has .help then .print (help host.program)
    else
      match ExtractRequest.ofArguments host a with
      | .error e => .usage e
      | .ok r => r.perform parser host

/-- Runs a command that has words and no options. -/
def runAction (host : Host) (action : ConfigAction) (arguments : List String) : Outcome :=
  match Arguments.read [helpForm] true arguments with
  | .error e => .usage e
  | .ok a =>
    if a.has .help then .print (help host.program)
    else
      match action with
      | .display => ConfigCommand.runDisplay host a.words
      | .set => ConfigCommand.runSet host a.words
      | .unset => ConfigCommand.runUnset host a.words

/-- What a group of commands does when it is not asked for a command. -/
def answer (host : Host) : GroupOption → Outcome
  | .version => .print (host.program ++ ", version " ++ version)
  | .help => .print (help host.program)

/-- Shows the help when nothing is asked for. -/
def idle (host : Host) : Outcome := { err := help host.program ++ "\n", ending := .exit 2 }

def runConfig (host : Host) (arguments : List String) : Outcome :=
  match ask [helpForm] [("show", ConfigAction.display), ("set", .set), ("unset", .unset)]
    arguments with
  | .error e => .usage e
  | .ok .nothing => idle host
  | .ok (.option o) => answer host o
  | .ok (.command action rest) => runAction host action rest

/-- The command that a command line asks for. -/
def askCommand (arguments : List String) : Except UsageError (Asked Command) :=
  ask [versionForm, helpForm] [("extract", .extract), ("config", .config)] arguments

/-- What a command line does, before its texts are shown. -/
def outcome (parser : SqlParser) (host : Host) (arguments : List String) : Outcome :=
  match askCommand arguments with
  | .error e => .usage e
  | .ok .nothing => idle host
  | .ok (.option o) => answer host o
  | .ok (.command .extract rest) => runExtract parser host rest
  | .ok (.command .config rest) => runConfig host rest

/-- What a command line does. -/
def run (parser : SqlParser) (host : Host) (arguments : List String) : Outcome :=
  (outcome parser host arguments).shown host

/-- The arguments of `extract`, if that is the command. -/
def extractArguments? (arguments : List String) : Option (Arguments ExtractOption) :=
  match askCommand arguments with
  | .ok (.command .extract rest) => (Arguments.read ExtractOption.forms true rest).toOption
  | _ => none

/-- The paths of the files that a command line needs. -/
def paths (arguments : List String) : List String :=
  match extractArguments? arguments with
  | some a => [ExtractOption.file, .base64].filterMap a.value?
  | none => []

/-- Whether a command line needs standard input. -/
def needsStdin (arguments : List String) : Bool :=
  (extractArguments? arguments).any (·.has .fromStdin)

end CommandLine

end SqlTables
