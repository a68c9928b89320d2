import SqlTables.Scan
import SqlTables.Statement.Kind
import SqlTables.TableSet

/-!
# Extraction

`Extraction.run` lists the tables of a script. Each statement is read on its own: a session command
touches no tables, but `USE` sets the database of the names after it; any other statement is
scanned, or handed to a parser and scanned only if the parser does not answer for it. What the
parser is stays open: it maps a statement text and a dialect to a `Parse`, in any monad, so that its
calls can be counted and its failures can escape.
-/

namespace SqlTables

inductive Engine
  | scan
  | parser
deriving DecidableEq

namespace Engine

def text : Engine → String
  | scan => "scan"
  | parser => "sqlglot"

def ofText? (s : String) : Option Engine :=
  [scan, parser].find? fun e => e.text == s

end Engine

/-- Why a parser gives no tree: the text is no statement it knows, or it is nested too deeply. -/
inductive ParseFailure
  | rejected (message : String)
  | tooDeep (message : String)
deriving DecidableEq

namespace ParseFailure

/-- Whether the character ends a line. -/
def isLineEnd (c : Char) : Bool :=
  ['\n', '\r', '\x0b', '\x0c', '\x1c', '\x1d', '\x1e', '\u0085', '\u2028', '\u2029'].contains c

/-- The first line of the message, or the kind of failure when there is none. -/
def note (f : ParseFailure) : String :=
  let (kind, message) :=
    match f with
    | rejected m => ("ParseError", m)
    | tooDeep m => ("RecursionError", m)
  if message = "" then kind
  else String.ofList (message.toList.takeWhile fun c => !isLineEnd c)

end ParseFailure

/-- What a parser says about a statement. -/
inductive Parse
  /-- The tables it names, each as a list of parts. -/
  | tables (names : List (List String))
  /-- It is of a kind for which the parser gives no tables. -/
  | notModelled
  | failed (cause : ParseFailure)
deriving DecidableEq

/-- A parser takes the text of a statement and the dialect, if one is set. -/
abbrev Parser (m : Type → Type) := String → Option String → m Parse

namespace Diagnostic

def unterminated? (t : Token) : Option Diagnostic :=
  let report (code : DiagnosticCode) (message : String) : Option Diagnostic :=
    if t.isUnterminated then
      some ({ level := .warning, code, message : Diagnostic }
        |>.spanning ⟨t.offset, t.offset + 1⟩ "starts here"
        |>.note "the rest of the script was read as part of it")
    else none
  match t.kind with
  | .string => report .unterminatedString "unterminated string literal"
  | .quotedIdentifier => report .unterminatedIdentifier "unterminated quoted identifier"
  | .comment => report .unterminatedComment "unterminated block comment"
  | _ => none

def databaseSwitched (s : Statement) (database : String) : Diagnostic :=
  { level := .info, code := .databaseSwitched,
    message := "current database is now '" ++ database ++ "'" : Diagnostic }
  |>.spanning s.span "USE statement"

def statementSkipped (s : Statement) : Diagnostic :=
  let word := (s.tokens.head?.map Token.upper).getD ""
  { level := .info, code := .statementSkipped,
    message := word ++ " statement does not touch tables" : Diagnostic }
  |>.spanning s.span "skipped"

def parserFallback (s : Statement) (cause : ParseFailure) : Diagnostic :=
  { level := .warning, code := .parserFallback,
    message := "sqlglot could not parse statement " ++ toString (s.index + 1) : Diagnostic }
  |>.spanning s.span "parsed with the keyword walker instead"
  |>.note cause.note

end Diagnostic

/-- What was found in one statement; a session command has no engine. -/
structure StatementSummary where
  index : Nat
  kind : StatementKind
  span : Span
  engine : Option Engine
  tables : List String
deriving DecidableEq

/-- What was found in the statements read so far, and the database in force. -/
structure Progress where
  database : Option String
  tables : TableSet
  statements : List StatementSummary
  references : List Reference
  diagnostics : List Diagnostic
deriving DecidableEq

namespace Progress

/-- Before the first statement only the tokens have been read. -/
def start (tokens : List Token) : Progress :=
  ⟨none, .empty, [], [], tokens.filterMap Diagnostic.unterminated?⟩

/-- Adds what was found in a statement that may touch tables. -/
def add (p : Progress) (s : Statement) (engine : Engine) (found : Findings) : Progress :=
  { p with
    tables := p.tables.insertSources p.database found.references
    statements := p.statements ++ [
      { index := s.index, kind := s.kind, span := s.span, engine := some engine,
        tables := (TableSet.empty.insertSources p.database found.references).sorted }]
    references := p.references ++ found.references
    diagnostics := p.diagnostics ++ found.diagnostics }

/-- Adds a session command. -/
def addSession (p : Progress) (s : Statement) : Progress :=
  let summary : StatementSummary := ⟨s.index, s.kind, s.span, none, []⟩
  let (database, diagnostic) :=
    match s.usedDatabase? with
    | some d => (some d, .databaseSwitched s d)
    | none => (p.database, .statementSkipped s)
  { p with
    database
    statements := p.statements ++ [summary]
    diagnostics := p.diagnostics ++ [diagnostic] }

end Progress

namespace Statement

/-- The references that a parsed statement makes: each table spans the whole statement. -/
def parsed (s : Statement) (names : List (List String)) : Findings :=
  ⟨names.map fun parts =>
    { parts, span := s.span, role := .source, statement := s.index }, []⟩

/-- What an answer of the parser comes to. A statement for which it gives no tables is scanned, and
a failure is reported first. -/
def ofParse (s : Statement) : Parse → Engine × Findings
  | .tables names => (.parser, s.parsed names)
  | .notModelled => (.scan, s.scan)
  | .failed cause =>
    (.scan, { s.scan with diagnostics := .parserFallback s cause :: s.scan.diagnostics })

end Statement

structure Extraction where
  script : String
  tables : List String
  statements : List StatementSummary
  references : List Reference
  diagnostics : List Diagnostic
deriving DecidableEq

namespace Extraction

variable {m : Type → Type} [Monad m]

/-- Reads one statement. -/
def step (engine : Engine) (parser : Parser m) (dialect : Option String) (script : String)
    (p : Progress) (s : Statement) : m Progress :=
  if s.kind = .session then pure (p.addSession s)
  else
    match engine with
    | .scan => pure (p.add s .scan s.scan)
    | .parser => do
      let answer ← parser (s.text script) dialect
      let (used, found) := s.ofParse answer
      pure (p.add s used found)

/-- Reads the statements in order. -/
def steps (engine : Engine) (parser : Parser m) (dialect : Option String) (script : String)
    (p : Progress) : List Statement → m Progress
  | [] => pure p
  | s :: rest => do
    let next ← step engine parser dialect script p s
    steps engine parser dialect script next rest

def ofProgress (script : String) (p : Progress) : Extraction :=
  { script
    tables := p.tables.sorted
    statements := p.statements
    references := p.references
    diagnostics := p.diagnostics }

/-- Lists the tables of a script. -/
def run (engine : Engine) (parser : Parser m) (dialect : Option String) (script : String) :
    m Extraction := do
  let tokens := Token.scan script
  let p ← steps engine parser dialect script (.start tokens) (Statement.ofTokens tokens)
  pure (ofProgress script p)

/-- The parser that answers for no statement. -/
def noParser : Parser Id := fun _ _ => .notModelled

/-- Lists the tables of a script by the scan alone. -/
def scan (script : String) : Extraction :=
  Id.run (run .scan noParser none script)

/-- The names of the common table expressions, each once, by code points. -/
def cteNames (e : Extraction) : List String :=
  let names := (e.references.filter (·.role = .cteDefinition)).map Reference.name
  names.eraseDups.mergeSort fun a b => decide (a ≤ b)

def unresolved (e : Extraction) : List Reference :=
  e.references.filter (·.role = .unresolved)

end Extraction

end SqlTables
