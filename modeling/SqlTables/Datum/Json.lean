import SqlTables.Datum

/-!
# JSON documents

`Datum.json` writes a value on one line, `Datum.indentedJson` one entry a line with two spaces for
each level. Both write plain ASCII: any other character becomes an escape of four hexadecimal
digits, or a surrogate pair of two.
-/

namespace SqlTables

namespace Datum

/-- The escape of one 16-bit unit. -/
def unitEscape (unit : Nat) : List Char := '\\' :: 'u' :: hex 4 unit

/-- One character of a JSON string. -/
def jsonChar (c : Char) : List Char :=
  if c = '"' ∨ c = '\\' then ['\\', c]
  else if c = '\n' then ['\\', 'n']
  else if c = '\r' then ['\\', 'r']
  else if c = '\t' then ['\\', 't']
  else if c = '\x08' then ['\\', 'b']
  else if c = '\x0c' then ['\\', 'f']
  else if ' ' ≤ c ∧ c ≤ '~' then [c]
  else if c.toNat < 0x10000 then unitEscape c.toNat
  else
    let n := c.toNat - 0x10000
    unitEscape (0xD800 + n / 0x400) ++ unitEscape (0xDC00 + n % 0x400)

def jsonString (s : String) : String :=
  String.ofList ('"' :: s.toList.flatMap jsonChar ++ ['"'])

def jsonFloat : Binary64 → String
  | .nan => "NaN"
  | .infinite negative => if negative then "-Infinity" else "Infinity"
  | x => x.text

mutual

/-- A value on one line. -/
def json : Datum → String
  | null => "null"
  | bool b => if b then "true" else "false"
  | int n => toString n
  | float x => jsonFloat x
  | string s => jsonString s
  | list items => "[" ++ ", ".intercalate (jsonItems items) ++ "]"
  | table entries => "\x7b" ++ ", ".intercalate (jsonEntries entries) ++ "\x7d"
  | moment shown _ => jsonString shown

def jsonItems : List Datum → List String
  | [] => []
  | d :: rest => json d :: jsonItems rest

def jsonEntries : List (String × Datum) → List String
  | [] => []
  | (k, d) :: rest => (jsonString k ++ ": " ++ json d) :: jsonEntries rest

end

/-- The start of a line at the given level. -/
def lineStart (level : Nat) : String := "\n" ++ "".pushn ' ' (2 * level)

/-- Entries between brackets, one a line; nothing stands between the brackets of no entries. -/
def bracketed (opening closing : String) (level : Nat) (entries : List String) : String :=
  if entries.isEmpty then opening ++ closing
  else
    opening ++ lineStart (level + 1) ++ ("," ++ lineStart (level + 1)).intercalate entries
      ++ lineStart level ++ closing

mutual

/-- A value whose first line stands at the given level. -/
def indentedJsonAt (level : Nat) : Datum → String
  | list items => bracketed "[" "]" level (indentedItems (level + 1) items)
  | table entries => bracketed "\x7b" "\x7d" level (indentedEntries (level + 1) entries)
  | null => "null"
  | bool b => if b then "true" else "false"
  | int n => toString n
  | float x => jsonFloat x
  | string s => jsonString s
  | moment shown _ => jsonString shown

def indentedItems (level : Nat) : List Datum → List String
  | [] => []
  | d :: rest => indentedJsonAt level d :: indentedItems level rest

def indentedEntries (level : Nat) : List (String × Datum) → List String
  | [] => []
  | (k, d) :: rest => (jsonString k ++ ": " ++ indentedJsonAt level d) :: indentedEntries level rest

end

def indentedJson (d : Datum) : String := indentedJsonAt 0 d

end Datum

end SqlTables
