import SqlTables.Span

/-!
# Diagnostics

Extraction does not fail on a malformed script. What could not be read is reported as a
`Diagnostic` next to the result: a level, a stable code, a message, labelled spans of the script,
and notes. Codes are grouped by stage: `S00xx` for the input, `S01xx` for tokens, `S02xx` for
statements, `S03xx` for table references.
-/

namespace SqlTables

inductive Level
  | info
  | warning
  | error
deriving DecidableEq

namespace Level

/-- The place of a level in the order of severity. -/
def severity : Level → Nat
  | info => 0
  | warning => 1
  | error => 2

instance : LE Level := ⟨fun a b => a.severity ≤ b.severity⟩

instance (a b : Level) : Decidable (a ≤ b) := inferInstanceAs (Decidable (a.severity ≤ b.severity))

def text : Level → String
  | info => "info"
  | warning => "warning"
  | error => "error"

/-- The more severe of two levels. -/
def max (a b : Level) : Level := if a ≤ b then b else a

end Level

structure DiagnosticCode where
  number : Int
deriving DecidableEq

namespace DiagnosticCode

/-- The number after the letter, filled up with zeros to four places, of which a sign takes one. -/
def text (c : DiagnosticCode) : String :=
  let sign := if c.number < 0 then "-" else ""
  let digits := toString c.number.natAbs
  "S" ++ sign ++ "".pushn '0' (4 - sign.length - digits.length) ++ digits

def noInput : DiagnosticCode := ⟨1⟩
def inputTooLarge : DiagnosticCode := ⟨2⟩
def notBase64 : DiagnosticCode := ⟨3⟩
def notUtf8 : DiagnosticCode := ⟨4⟩
def unterminatedString : DiagnosticCode := ⟨101⟩
def unterminatedIdentifier : DiagnosticCode := ⟨102⟩
def unterminatedComment : DiagnosticCode := ⟨103⟩
def statementSkipped : DiagnosticCode := ⟨201⟩
def databaseSwitched : DiagnosticCode := ⟨202⟩
def parserFallback : DiagnosticCode := ⟨203⟩
def unclosedParenthesis : DiagnosticCode := ⟨301⟩
def unresolvedReference : DiagnosticCode := ⟨302⟩
def tableFunctionSkipped : DiagnosticCode := ⟨303⟩
def malformedCte : DiagnosticCode := ⟨304⟩

end DiagnosticCode

/-- A span of the script with an optional label; the primary one is where the problem lies. -/
structure SpanLabel where
  span : Span
  isPrimary : Bool
  label : Option String
deriving DecidableEq

structure Diagnostic where
  level : Level
  code : DiagnosticCode
  message : String
  spans : List SpanLabel := []
  notes : List String := []
deriving DecidableEq

namespace Diagnostic

/-- Adds a primary span. -/
def spanning (d : Diagnostic) (span : Span) (label : String) : Diagnostic :=
  { d with spans := d.spans ++ [⟨span, true, some label⟩] }

def note (d : Diagnostic) (text : String) : Diagnostic :=
  { d with notes := d.notes ++ [text] }

def isError (d : Diagnostic) : Bool := d.level == .error

/-- The first span that is marked as primary. -/
def primarySpan? (d : Diagnostic) : Option Span :=
  (d.spans.find? (·.isPrimary)).map (·.span)

/-- The highest level of a list of diagnostics. -/
def maxLevel? : List Diagnostic → Option Level
  | [] => none
  | d :: ds => some (ds.foldl (fun l e => l.max e.level) d.level)

end Diagnostic

end SqlTables
