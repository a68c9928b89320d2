import SqlTables.Binary64
import SqlTables.Unicode.Printable

/-!
# Data

`Datum` is the value of a configuration entry, a form field or an output document: a scalar, a list
or a table whose entries keep their order. `Datum.text` shows a value to a user. A string is shown
as it is; inside a list or a table it is shown as a quoted literal.
-/

namespace SqlTables

inductive Datum
  | null
  | bool (value : Bool)
  | int (value : Int)
  | float (value : Binary64)
  | string (value : String)
  | list (items : List Datum)
  | table (entries : List (String × Datum))
  /-- A date or a time, as it is shown on its own and inside another value. -/
  | moment (shown inner : String)

namespace Datum

/-- Lower-case hexadecimal digits, padded with zeros to the given width. -/
def hex (width n : Nat) : List Char :=
  let digits := Nat.toDigits 16 n
  List.replicate (width - digits.length) '0' ++ digits

/-- One character of a literal between the given quotes: a character that does not print is
written as an escape. -/
def literalChar (quote c : Char) : List Char :=
  if c = quote ∨ c = '\\' then ['\\', c]
  else if c = '\n' then ['\\', 'n']
  else if c = '\r' then ['\\', 'r']
  else if c = '\t' then ['\\', 't']
  else if Unicode.isPrintable c then [c]
  else if c.toNat < 0x100 then '\\' :: 'x' :: hex 2 c.toNat
  else if c.toNat < 0x10000 then '\\' :: 'u' :: hex 4 c.toNat
  else '\\' :: 'U' :: hex 8 c.toNat

/-- A quoted literal. Single quotes are used unless the text holds one and no double quote. -/
def quotedLiteral (s : String) : String :=
  let chars := s.toList
  let quote := if chars.contains '\'' && !chars.contains '"' then '"' else '\''
  String.ofList (quote :: chars.flatMap (literalChar quote) ++ [quote])

mutual

/-- A value as it is shown inside another one. -/
def literal : Datum → String
  | null => "None"
  | bool true => "True"
  | bool false => "False"
  | int n => toString n
  | float x => x.text
  | string s => quotedLiteral s
  | list items => "[" ++ ", ".intercalate (itemLiterals items) ++ "]"
  | table entries => "\x7b" ++ ", ".intercalate (entryLiterals entries) ++ "\x7d"
  | moment _ inner => inner

def itemLiterals : List Datum → List String
  | [] => []
  | d :: rest => literal d :: itemLiterals rest

def entryLiterals : List (String × Datum) → List String
  | [] => []
  | (k, d) :: rest => (quotedLiteral k ++ ": " ++ literal d) :: entryLiterals rest

end

/-- A value as it is shown to a user. -/
def text : Datum → String
  | string s => s
  | moment shown _ => shown
  | d => literal d

@[simp] theorem text_string (s : String) : (string s).text = s := rfl

/-- The number of digits that an integer may have where it is read from a text or shown as one. -/
def maxDigits : Nat := 4300

mutual

/-- Whether each integer of a value has few enough digits to be shown. -/
def isShowable : Datum → Bool
  | int n => n.natAbs < Nat.pow 10 maxDigits
  | list items => areShowable items
  | table entries => haveShowable entries
  | _ => true

def areShowable : List Datum → Bool
  | [] => true
  | d :: rest => isShowable d && areShowable rest

def haveShowable : List (String × Datum) → Bool
  | [] => true
  | (_, d) :: rest => isShowable d && haveShowable rest

end

@[simp] theorem isShowable_string (s : String) : (string s).isShowable = true := by
  simp [isShowable]

end Datum

end SqlTables
