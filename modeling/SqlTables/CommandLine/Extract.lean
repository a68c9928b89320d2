import SqlTables.CommandLine.Arguments
import SqlTables.CommandLine.Session
import SqlTables.Extraction.Report

/-!
# The command `extract`

`extract` takes a script from its argument, from a file, from a file in base64 text or from standard
input, and prints the tables of the script. Each run is logged, unless the user has turned that off.
-/

namespace SqlTables

inductive ExtractOption
  | file
  | base64
  | fromStdin
  | engine
  | dialect
  | format
  | separator
  | verbose
  | noLog
  | help
deriving DecidableEq

namespace ExtractOption

def forms : List (OptionForm ExtractOption) :=
  [{ option := file, long := "--file" },
    { option := base64, long := "--base64" },
    { option := fromStdin, long := "--from-stdin", takesValue := false },
    { option := engine, long := "--engine" },
    { option := dialect, long := "--dialect" },
    { option := format, long := "--format" },
    { option := separator, long := "--separator" },
    { option := verbose, long := "--verbose", short := some 'v', takesValue := false },
    { option := noLog, long := "--no-log", takesValue := false },
    { option := help, long := "--help", takesValue := false }]

end ExtractOption

/-- What the arguments of `extract` ask for. -/
structure ExtractRequest where
  script : Option String := none
  /-- The bytes of the file. -/
  file : Option (List UInt8) := none
  base64 : Option (List UInt8) := none
  fromStdin : Bool := false
  engine : Option String := none
  dialect : Option String := none
  separator : Option String := none
  format : OutputFormat := .text
  verbose : Bool := false
  noLog : Bool := false
deriving DecidableEq

/-- Why there is no script. -/
inductive ScriptProblem
  | usage (cause : UsageError)
  | input (cause : InputProblem)
  | failure (cause : Failure)
deriving DecidableEq

namespace ExtractRequest

/-- The bytes of the file that an option names. -/
def bytesAt (host : Host) (option path : String) : Except UsageError (List UInt8) :=
  match host.target path with
  | .nothing => .error (.noSuchFile option path)
  | .directory => .error (.directory option path)
  | .file bytes => .ok bytes

/-- The value of an option that allows only certain ones. -/
def chosen (option : String) (choices : List String) (value : String) : Except UsageError String :=
  if choices.contains value then .ok value else .error (.notAChoice option value choices)

/-- Takes in one option with its value. -/
def take (host : Host) (value : String) (r : ExtractRequest) :
    ExtractOption → Except UsageError ExtractRequest
  | .file => (bytesAt host "--file" value).map fun bytes => { r with file := some bytes }
  | .base64 => (bytesAt host "--base64" value).map fun bytes => { r with base64 := some bytes }
  | .fromStdin => .ok { r with fromStdin := true }
  | .engine =>
    (chosen "--engine" Settings.engines value).map fun name => { r with engine := some name }
  | .dialect => .ok { r with dialect := some value }
  | .format =>
    (chosen "--format" ["json", "text"] value).map fun name =>
      { r with format := if name = "json" then .json else .text }
  | .separator =>
    (chosen "--separator" (Settings.separators.map Prod.fst) value).map fun name =>
      { r with separator := some name }
  | .verbose => .ok { r with verbose := true }
  | .noLog => .ok { r with noLog := true }
  | .help => .ok r

/-- What the arguments ask for. The options are checked in the order in which they first occur, each
at its last value. -/
def ofArguments (host : Host) (a : Arguments ExtractOption) : Except UsageError ExtractRequest := do
  let r ← a.given.foldlM (fun r option => take host ((a.value? option).getD "") r option) {}
  match a.words with
  | [] => pure r
  | [script] => pure { r with script := some script }
  | _ :: extra => throw (.extraArguments extra)

/-- The settings in force with what the request changes. -/
def override (r : ExtractRequest) (s : Settings) : Settings :=
  { s with
    engine := r.engine.getD s.engine
    dialect := r.dialect.getD s.dialect
    separator := r.separator.getD s.separator }

/-- The inputs that are given; an empty script counts as absent. -/
def inputNames (r : ExtractRequest) : List String :=
  (if (r.script.filter (· ≠ "")).isSome then ["SQL"] else [])
    ++ (if r.file.isSome then ["--file"] else [])
    ++ (if r.base64.isSome then ["--base64"] else [])
    ++ (if r.fromStdin then ["--from-stdin"] else [])

def isFromFile (r : ExtractRequest) : Bool := r.file.isSome || r.base64.isSome

/-- The bound on the number of characters that can be asked for at once. -/
def longestRead : Int := 9223372036854775807

/-- The script from standard input. -/
def streamed (limit : Int) (stdin : Option String) :
    Except ScriptProblem (String × InputOrigin) :=
  match stdin with
  | none => .error (.usage .terminalInput)
  | some text =>
    if longestRead ≤ limit then .error (.failure .readLength)
    else (Input.ofStream limit text).mapError .input

/-- The one script that the request gives, of at most `limit` bytes. -/
def read (host : Host) (limit : Int) (r : ExtractRequest) :
    Except ScriptProblem (String × InputOrigin) :=
  if 1 < r.inputNames.length then .error (.usage (.severalInputs r.inputNames))
  else if r.fromStdin then streamed limit host.stdin
  else
    match r.file, r.base64 with
    | some bytes, _ => ((Input.ofBytes limit bytes).map (·, .file)).mapError .input
    | none, some bytes => ((Input.ofBase64File limit bytes).map (·, .file)).mapError .input
    | none, none => (Input.resolve r.script none limit).mapError .input

/-- The entry of an attempt without a script. -/
def problemEntry (s : Settings) (r : ExtractRequest) (p : InputProblem) : LogEntry :=
  { script := "", source := (if r.isFromFile then InputOrigin.file else .text).name,
    engine := some s.engine, dialect := some s.dialect,
    diagnostics := [p.diagnostic.code.text], isError := true }

def entry (s : Settings) (origin : InputOrigin) (e : Extraction) : LogEntry :=
  { script := e.script, source := origin.name, engine := some s.engine, dialect := some s.dialect,
    tables := e.tables, statements := e.statements.length,
    diagnostics := e.diagnostics.map (·.code.text) }

/-- A text as it is printed, on a line of its own; nothing for an empty one. -/
def line (text : String) : String := if text = "" then "" else text ++ "\n"

/-- What an extraction prints. -/
def printed (joiner : String) (r : ExtractRequest) (e : Extraction) : Outcome :=
  { out := line (e.render r.format joiner),
    err := if r.verbose && !e.diagnostics.isEmpty then
        Diagnostic.report e.script e.diagnostics ++ "\n"
      else "" }

/-- The outcome with an entry for the log, from which the old files are dropped. -/
def logged (host : Host) (s : Settings) (e : LogEntry) (o : Outcome) : Outcome :=
  match LogFolder.expired host.logFiles host.now s.logRetentionDays with
  | .ok files => { o with entry := some e, expired := files }
  | .error problem => { o with entry := some e, ending := .failed (.retention problem) }

/-- Lists the tables of the script that the request gives, under the given settings. -/
def performWith (parser : SqlParser) (host : Host) (settings : Settings) (r : ExtractRequest) :
    Outcome :=
  let logs := settings.logEnabled && !r.noLog
  match r.read host settings.maxInputBytes with
  | .error (.usage e) => .usage e
  | .error (.failure cause) => .fail cause
  | .error (.input p) =>
    { err := p.diagnostic.showError r.format ++ "\n", ending := .exit 1,
      entry := if logs then some (problemEntry settings r p) else none }
  | .ok (script, origin) =>
    match Extraction.runChosen parser settings.engine (some settings.dialect) script,
      settings.joiner? with
    | .error cause, _ => .fail (.choice cause)
    | .ok _, none => .fail (.choice (.separator settings.separator))
    | .ok e, some joiner =>
      if logs then logged host settings (entry settings origin e) (printed joiner r e)
      else printed joiner r e

/-- Lists the tables of the script that the request gives. -/
def perform (parser : SqlParser) (host : Host) (r : ExtractRequest) : Outcome :=
  match host.config.settings with
  | .error p => .fail (.config p)
  | .ok s => r.performWith parser host (r.override s)

end ExtractRequest

end SqlTables
