import SqlTables.Datum.Json
import SqlTables.Extraction

/-!
# Reports

How diagnostics and extractions are shown: as lines of text for a terminal, or as a document. The
place of a diagnostic is shown as line and column when the script is at hand.
-/

namespace SqlTables

namespace Diagnostic

/-- The lines of one diagnostic: the message, its place in the script unless that is empty, and the
notes. -/
def lines (script : String) (d : Diagnostic) : List String :=
  let place :=
    match d.primarySpan? with
    | some span =>
      if script = "" then []
      else
        let (line, column) := span.lineColumn script
        ["  --> line " ++ toString line ++ ", column " ++ toString column]
    | none => []
  (d.level.text ++ "[" ++ d.code.text ++ "]: " ++ d.message) :: place
    ++ d.notes.map fun note => "  = note: " ++ note

/-- Diagnostics as text. -/
def report (script : String) (ds : List Diagnostic) : String :=
  "\n".intercalate (ds.flatMap (lines script))

def document (script : String) (d : Diagnostic) : Datum :=
  let place : List (String × Datum) :=
    match d.primarySpan? with
    | some span =>
      ("span", .list [.int span.start, .int span.stop]) ::
        if script = "" then []
        else
          let (line, column) := span.lineColumn script
          [("line", .int line), ("column", .int column)]
    | none => []
  .table (("level", .string d.level.text) :: ("code", .string d.code.text) ::
    ("message", .string d.message) :: ("notes", .list (d.notes.map .string)) :: place)

end Diagnostic

/-- How a command shows what it has found. -/
inductive OutputFormat
  | text
  | json
deriving DecidableEq

namespace StatementSummary

def document (s : StatementSummary) : Datum :=
  .table [("index", .int s.index), ("kind", .string s.kind.text),
    ("engine", (s.engine.map fun e => .string e.text).getD .null),
    ("span", .list [.int s.span.start, .int s.span.stop]),
    ("tables", .list (s.tables.map .string))]

end StatementSummary

namespace Extraction

def document (e : Extraction) : Datum :=
  .table [("tables", .list (e.tables.map .string)),
    ("statements", .list (e.statements.map StatementSummary.document)),
    ("cte_names", .list (e.cteNames.map .string)),
    ("unresolved", .list (e.unresolved.map fun r => .string r.name)),
    ("diagnostics", .list (e.diagnostics.map (Diagnostic.document e.script)))]

/-- An extraction as it is printed: the tables joined by `joiner`, or a document. -/
def render (e : Extraction) (format : OutputFormat) (joiner : String) : String :=
  match format with
  | .json => e.document.indentedJson
  | .text => joiner.intercalate e.tables

end Extraction

namespace Diagnostic

/-- A diagnostic that stands for the whole answer. -/
def showError (d : Diagnostic) (format : OutputFormat) : String :=
  match format with
  | .json => (Datum.table [("tables", .list []), ("error", d.document "")]).indentedJson
  | .text => report "" [d]

end Diagnostic

end SqlTables
