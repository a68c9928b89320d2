import SqlTables.Calendar
import SqlTables.Datum.Json

/-!
# Log entries

Each extraction is logged as one line that holds a JSON document. Of a long script only the
beginning is kept, but its whole length is noted.
-/

namespace SqlTables

structure LogEntry where
  script : String
  source : String
  engine : Option String := none
  dialect : Option String := none
  statements : Int := 0
  tables : List String := []
  /-- The codes of the diagnostics. -/
  diagnostics : List String := []
  isError : Bool := false
deriving DecidableEq

namespace LogEntry

/-- The number of characters of a script that are kept. -/
def previewLength : Nat := 2000

def preview (script : String) : String := String.ofList (script.toList.take previewLength)

/-- The document of an entry made at `now`, for an extraction that took `duration` milliseconds. -/
def document (now : Instant) (duration : Option Binary64) (e : LogEntry) : Datum :=
  let optional (text : Option String) : Datum := (text.map .string).getD .null
  .table [("ts", .string now.text),
    ("source", .string e.source),
    ("engine", optional e.engine),
    ("dialect", optional e.dialect),
    ("sql_length", .int e.script.length),
    ("sql", .string (preview e.script)),
    ("statements", .int e.statements),
    ("tables", .list (e.tables.map .string)),
    ("diagnostics", .list (e.diagnostics.map .string)),
    ("error", .bool e.isError),
    ("duration_ms", (duration.map .float).getD .null)]

def line (now : Instant) (duration : Option Binary64) (e : LogEntry) : String :=
  (e.document now duration).json

end LogEntry

end SqlTables
