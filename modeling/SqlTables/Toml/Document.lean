import SqlTables.Text
import SqlTables.Toml.Value

/-!
# Configuration documents

`Toml.read` reads a whole document: assignments, headers of tables, and headers of tables in a
list. Beside the data it keeps which tables may not be opened again by a header, and which values
are closed, as an inline table or an array is.
-/

namespace SqlTables

namespace Toml

/-- What has been read of a document. -/
structure Document where
  entries : Entries Datum
  /-- The table that assignments go to. -/
  header : List String
  /-- Tables that no header may open. -/
  explicit : List (List String)
  /-- Tables that assignments with dots have opened since the last header. -/
  pending : List (List String)
  /-- Values that take no additions. -/
  closed : List (List String)

namespace Document

def empty : Document := ⟨[], [], [], [], []⟩

/-- The pending tables become tables that no header may open. -/
def settle (d : Document) : Document :=
  { d with explicit := d.pending ++ d.explicit, pending := [] }

/-- Opens a table by its header. -/
def openTable? (d : Document) (path : List String) : Option Document :=
  if d.explicit.contains path || isUnder d.closed path then none
  else do
    let entries ← changeAt? true some path d.entries
    pure { d with entries, header := path, explicit := path :: d.explicit }

/-- Adds a table to the list at a key. -/
def appendTable? (key : String) (entries : Entries Datum) : Option (Entries Datum) :=
  match Entries.get? entries key with
  | none => some (Entries.put entries key (.list [.table []]))
  | some (.list items) => some (Entries.put entries key (.list (items ++ [.table []])))
  | some _ => none

/-- Opens another table of a list by its header. What was known of the tables below it is void. -/
def openItem? (d : Document) (path : List String) : Option Document :=
  if isUnder d.closed path then none
  else do
    let entries ← changeAt? true (appendTable? (path.getLastD "")) path.dropLast d.entries
    let others (paths : List (List String)) : List (List String) :=
      paths.filter fun p => !path.isPrefixOf p
    pure { d with
      entries
      header := path
      explicit := path :: others d.explicit
      closed := others d.closed }

/-- The tables that an assignment with dots passes through. -/
def passed (header path : List String) : List (List String) :=
  (List.range (path.length - 1)).map fun i => header ++ path.take (i + 1)

/-- Assigns a value in the current table. -/
def assign? (d : Document) (path : List String) (value : Datum) : Option Document :=
  let through := passed d.header path
  let parent := d.header ++ path.dropLast
  if through.any d.explicit.contains || isUnder d.closed parent then none
  else do
    let entries ← changeAt? true (addNew? (path.getLastD "") value) parent d.entries
    pure { d with
      entries
      pending := through ++ d.pending
      closed := if isClosed value then (d.header ++ path) :: d.closed else d.closed }

end Document

/-- Reads the header of a table or of an item of a list, after its first bracket. -/
def header? (d : Document) (chars : List Char) : Option (Document × List Char) :=
  match chars with
  | '[' :: rest => do
    let (path, rest) ← key? rest.length (skipSpace rest)
    let d ← d.settle.openItem? path
    match rest with
    | ']' :: ']' :: rest => pure (d, skipSpace rest)
    | _ => none
  | _ => do
    let (path, rest) ← key? chars.length (skipSpace chars)
    let d ← d.settle.openTable? path
    match rest with
    | ']' :: rest => pure (d, skipSpace rest)
    | _ => none

/-- Reads one assignment or header, if there is one. -/
def statement (d : Document) (chars : List Char) : Except Problem (Document × List Char) :=
  match chars with
  | [] => .ok (d, chars)
  | c :: rest =>
    if isBareKeyChar c || c = '"' || c = '\'' then do
      let (path, rest) ← wellFormed (key? chars.length chars)
      match rest with
      | '=' :: rest => do
        let (value, rest) ← value (skipSpace rest)
        let d ← wellFormed (d.assign? path value)
        pure (d, skipSpace rest)
      | _ => .error .malformed
    else if c = '[' then wellFormed (header? d rest)
    else if c = '#' ∨ c = '\n' then .ok (d, chars)
    else .error .malformed

/-- Reads the lines of a document; there are at most as many as characters. -/
def lines (fuel : Nat) (d : Document) (chars : List Char) : Except Problem Document :=
  match fuel with
  | 0 => .error .malformed
  | fuel + 1 => do
    let (d, rest) ← statement d (skipSpace chars)
    let rest ← wellFormed (skipComment? rest)
    match rest with
    | [] => pure d
    | '\n' :: rest => lines fuel d rest
    | _ => .error .malformed

/-- The entries of a document. -/
def read (text : List Char) : Except Problem (Entries Datum) :=
  let chars := Text.unifyLineEnds text
  (lines (chars.length + 1) .empty chars).map Document.entries

end Toml

end SqlTables
