import SqlTables.Dialect
import SqlTables.Entries
import SqlTables.Extraction
import SqlTables.Input
import SqlTables.Settings
import SqlTables.Unicode.LowerCase

/-!
# The form

The form sends a script as pasted text or as the base64 text of a file and gets back one text: the
tables, or what is wrong with the input. `Submission.ofFields` finds the two in the fields of the
form, and `Submission.answer` gives the text.
-/

namespace SqlTables

/-- A choice that names nothing that there is. -/
inductive ChoiceError
  | engine (name : String)
  | dialect (cause : DialectError)
  | separator (name : String)
deriving DecidableEq

namespace ChoiceError

def message : ChoiceError → String
  | engine name => Datum.quotedLiteral name ++ " is not a valid Engine"
  | dialect cause => cause.message
  | separator name => Datum.quotedLiteral name

end ChoiceError

/-- A parser that fails as a whole only over the choice of the dialect. -/
abbrev SqlParser := Parser (Except ChoiceError)

namespace Extraction

/-- Lists the tables of a script with the engine and the dialect that a user has chosen. -/
def runChosen (parser : SqlParser) (engine : String) (dialect : Option String) (script : String) :
    Except ChoiceError Extraction :=
  match Engine.ofText? engine with
  | some e => run e parser dialect script
  | none => .error (.engine engine)

end Extraction

structure Submission where
  text : Option String := some ""
  file : Option String := none
deriving DecidableEq

namespace Submission

/-- The tables joined by `separator`, or else by the configured separator; for an input that gives
no script, the message. -/
def answer (parser : SqlParser) (settings : Settings) (separator : Option String)
    (s : Submission) : Except ChoiceError String :=
  match Input.resolve s.text s.file settings.maxInputBytes with
  | .error problem => .ok problem.message
  | .ok (script, _) => do
    let e ← Extraction.runChosen parser settings.engine settings.dialect script
    match separator.or settings.joiner? with
    | some joiner => pure (joiner.intercalate e.tables)
    | none => .error (.separator settings.separator)

/-- A field name without underscores, hyphens and blanks, in lower case. -/
def normalized (key : String) : String :=
  Unicode.lower (String.ofList (key.toList.filter fun c =>
    !(c = '_' || c = '-' || Unicode.isBlank c)))

/-- Takes in one field, if its name is known and it has a value. -/
def takeField (s : Submission) (key : String) (value : Datum) : Submission :=
  match value with
  | .null => s
  | v =>
    if normalized key = "input" then { s with text := some v.text }
    else if normalized key = "filecontent" then { s with file := some v.text }
    else s

/-- What the fields of a form submit. Of a repeated key the last value counts, at the first place.
-/
def ofFields (fields : List (String × Datum)) : Submission :=
  (Entries.ofList fields).foldl (fun s (k, v) => s.takeField k v) {}

end Submission

end SqlTables
