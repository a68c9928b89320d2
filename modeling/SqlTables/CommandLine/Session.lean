import SqlTables.CommandLine.Usage
import SqlTables.Form
import SqlTables.Log.Folder
import SqlTables.Settings.ConfigFile
import SqlTables.Text.ControlSequence

/-!
# Sessions

A command is a function from what it finds, a `Host`, to what it does, an `Outcome`: the texts that
it prints, the way it ends, and the changes that it makes to the configuration file and to the log.
-/

namespace SqlTables

/-- What a path leads to. -/
inductive PathTarget
  | nothing
  | directory
  | file (bytes : List UInt8)
deriving DecidableEq

/-- What a command finds. -/
structure Host where
  program : String := "sqltables"
  now : Instant
  configPath : String
  config : ConfigFile
  /-- The names of the log files of the project. -/
  logFiles : List String
  target : String → PathTarget
  /-- The text of standard input, unless that is a terminal. -/
  stdin : Option String
  /-- Whether what is printed goes to a terminal, and whether messages do. -/
  outIsTerminal : Bool := false
  errIsTerminal : Bool := false

/-- An error that ends a command before it is done. -/
inductive Failure
  | choice (cause : ChoiceError)
  | config (cause : ConfigProblem)
  | retention (cause : RetentionProblem)
  /-- The number of characters to read from standard input does not fit a signed number of 64 bits.
  -/
  | readLength
deriving DecidableEq

namespace Failure

def message (configPath : String) : Failure → String
  | choice cause => cause.message
  | config cause => cause.message configPath
  | retention cause => cause.message
  | readLength => "cannot fit 'int' into an index-sized integer"

end Failure

/-- How a command ends. -/
inductive Ending
  | exit (code : Nat)
  | failed (cause : Failure)
deriving DecidableEq

/-- What a command does. -/
structure Outcome where
  out : String := ""
  err : String := ""
  ending : Ending := .exit 0
  /-- The configuration file after the command, if it changes. -/
  config : Option ConfigFile := none
  /-- The entry to be logged. -/
  entry : Option LogEntry := none
  /-- The log files to be dropped. -/
  expired : List String := []
deriving DecidableEq

namespace Outcome

/-- Prints one line. -/
def print (text : String) : Outcome := { out := text ++ "\n" }

/-- Ends with a message about what is wrong. -/
def refuse (code : Nat) (message : String) : Outcome :=
  { err := "Error: " ++ message ++ "\n", ending := .exit code }

def usage (e : UsageError) : Outcome := refuse 2 e.message

def fail (cause : Failure) : Outcome := { ending := .failed cause }

/-- The outcome as the host shows it: only a terminal gets control sequences. -/
def shown (host : Host) (o : Outcome) : Outcome :=
  { o with
    out := if host.outIsTerminal then o.out else ControlSequence.strip o.out
    err := if host.errIsTerminal then o.err else ControlSequence.strip o.err }

/-- The duration that is logged: that of a failed attempt is not. -/
def loggedDuration (measured : Binary64) (e : LogEntry) : Option Binary64 :=
  if e.isError then none else some measured

end Outcome

end SqlTables
