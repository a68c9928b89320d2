import SqlTables.Entries
import SqlTables.Toml.Moment

/-!
# Values and keys of a configuration

The readers here take a value or a key from the start of a character list and give it with the
characters after it. A text that is not well formed is a `Toml.Problem`, and so is an integer with
too many digits; readers that meet no integers give nothing instead. Arrays and inline tables nest,
and their readers count down a fuel that `value` takes from the length of the text, twice the number
of characters being enough.
-/

namespace SqlTables

namespace Toml

/-- Why a text cannot be read. -/
inductive Problem
  | malformed
  /-- A decimal integer has that many digits. -/
  | longInteger (digits : Nat)
deriving DecidableEq

/-- A result that is there if the text is well formed. -/
def wellFormed {α : Type} : Option α → Except Problem α
  | some a => .ok a
  | none => .error .malformed

def isSpace (c : Char) : Bool := c = ' ' || c = '\t'

def isSpaceOrNewline (c : Char) : Bool := isSpace c || c = '\n'

def skipSpace (chars : List Char) : List Char := chars.dropWhile isSpace

/-- Control characters, which may stand nowhere but, in the case of a tab, in strings and
comments. -/
def isControl (c : Char) : Bool := c.toNat < 32 || c.toNat = 127

/-- Whether a character may stand in a string or a comment on one line. -/
def isLineChar (c : Char) : Bool := c = '\t' || !isControl c

/-- Whether a character may stand in a string of several lines. -/
def isTextChar (c : Char) : Bool := c = '\n' || isLineChar c

/-! ## Strings -/

def hexValue? (c : Char) : Option Nat :=
  if '0' ≤ c ∧ c ≤ '9' then some (c.toNat - '0'.toNat)
  else if 'a' ≤ c ∧ c ≤ 'f' then some (c.toNat - 'a'.toNat + 10)
  else if 'A' ≤ c ∧ c ≤ 'F' then some (c.toNat - 'A'.toNat + 10)
  else none

/-- The character with the given hexadecimal digits. -/
def hexChar? (digits : List Char) : Option Char := do
  let values ← digits.mapM hexValue?
  let n := values.foldl (fun n d => 16 * n + d) 0
  if n < 0xD800 ∨ (0xDFFF < n ∧ n < 0x110000) then some (Char.ofNat n) else none

/-- The character that a backslash and the given letter stand for. -/
def escaped? (c : Char) : Option Char :=
  match c with
  | 'b' => some '\x08'
  | 't' => some '\t'
  | 'n' => some '\n'
  | 'f' => some '\x0c'
  | 'r' => some '\r'
  | '"' => some '"'
  | '\\' => some '\\'
  | _ => none

/-- A character put in front of what a reader has read. -/
def prepend (c : Char) (read : List Char × List Char) : List Char × List Char :=
  (c :: read.1, read.2)

/-- The body of a string in double quotes, up to its closing quote. -/
def basicBody? : List Char → Option (List Char × List Char)
  | '"' :: rest => some ([], rest)
  | '\\' :: 'u' :: a :: b :: c :: d :: rest => do
    let x ← hexChar? [a, b, c, d]
    let read ← basicBody? rest
    pure (prepend x read)
  | '\\' :: 'U' :: a :: b :: c :: d :: e :: f :: g :: h :: rest => do
    let x ← hexChar? [a, b, c, d, e, f, g, h]
    let read ← basicBody? rest
    pure (prepend x read)
  | '\\' :: e :: rest => do
    let x ← escaped? e
    let read ← basicBody? rest
    pure (prepend x read)
  | c :: rest => if isLineChar c ∧ c ≠ '\\' then (basicBody? rest).map (prepend c) else none
  | [] => none

/-- The body of a string in single quotes, up to its closing quote. -/
def literalBody? : List Char → Option (List Char × List Char)
  | [] => none
  | c :: rest =>
    if c = '\'' then some ([], rest)
    else if isLineChar c then (literalBody? rest).map (prepend c)
    else none

/-- Up to two more quotes after the closing ones of a long string belong to it. -/
def closingQuotes (quote : Char) (rest : List Char) : List Char × List Char :=
  let more := (rest.take 2).takeWhile (· = quote)
  (more, rest.drop more.length)

/-- The body of a string in three double quotes. A backslash at the end of a line takes the blanks
and line ends after it out of the string; `skipping` says that they are passed over. -/
def longBasicBody? (skipping : Bool) : List Char → Option (List Char × List Char)
  | '"' :: '"' :: '"' :: rest => some (closingQuotes '"' rest)
  | '\\' :: 'u' :: a :: b :: c :: d :: rest => do
    let x ← hexChar? [a, b, c, d]
    let read ← longBasicBody? false rest
    pure (prepend x read)
  | '\\' :: 'U' :: a :: b :: c :: d :: e :: f :: g :: h :: rest => do
    let x ← hexChar? [a, b, c, d, e, f, g, h]
    let read ← longBasicBody? false rest
    pure (prepend x read)
  | '\\' :: e :: rest =>
    if isSpaceOrNewline e then
      if e = '\n' ∨ (skipSpace rest).head? = some '\n' then longBasicBody? true rest else none
    else do
      let x ← escaped? e
      let read ← longBasicBody? false rest
      pure (prepend x read)
  | c :: rest =>
    if skipping ∧ isSpaceOrNewline c then longBasicBody? true rest
    else if isTextChar c ∧ c ≠ '\\' then (longBasicBody? false rest).map (prepend c)
    else none
  | [] => none

/-- The body of a string in three single quotes. -/
def longLiteralBody? : List Char → Option (List Char × List Char)
  | '\'' :: '\'' :: '\'' :: rest => some (closingQuotes '\'' rest)
  | c :: rest => if isTextChar c then (longLiteralBody? rest).map (prepend c) else none
  | [] => none

/-- The text without a line end at its start. -/
def withoutNewline : List Char → List Char
  | '\n' :: rest => rest
  | chars => chars

/-- A string of any kind. -/
def string? (chars : List Char) : Option (String × List Char) :=
  let body :=
    match chars with
    | '"' :: '"' :: '"' :: rest => longBasicBody? false (withoutNewline rest)
    | '\'' :: '\'' :: '\'' :: rest => longLiteralBody? (withoutNewline rest)
    | '"' :: rest => basicBody? rest
    | '\'' :: rest => literalBody? rest
    | _ => none
  body.map fun (text, rest) => (String.ofList text, rest)

/-! ## Keys -/

def isBareKeyChar (c : Char) : Bool := c.isAlphanum || c = '-' || c = '_'

/-- One part of a key: bare, or a string on one line. -/
def keyPart? (chars : List Char) : Option (String × List Char) :=
  let bare := chars.takeWhile isBareKeyChar
  if bare.isEmpty then
    let body :=
      match chars with
      | '"' :: rest => basicBody? rest
      | '\'' :: rest => literalBody? rest
      | _ => none
    body.map fun (text, rest) => (String.ofList text, rest)
  else some (String.ofList bare, chars.drop bare.length)

/-- The parts of a key, separated by dots, and the blanks after it. -/
def key? (fuel : Nat) (chars : List Char) : Option (List String × List Char) :=
  match keyPart? chars with
  | none => none
  | some (part, rest) =>
    match fuel, skipSpace rest with
    | fuel + 1, '.' :: more => do
      let (parts, rest) ← key? fuel (skipSpace more)
      pure (part :: parts, rest)
    | _, rest => some ([part], rest)

/-! ## Numbers -/

/-- Digits with single underscores between them; the underscores are dropped. -/
def digits (isDigit : Char → Bool) : List Char → List Char × List Char
  | [] => ([], [])
  | c :: rest =>
    if isDigit c then
      let (more, left) := digits isDigit rest
      (c :: more, left)
    else if c = '_' ∧ rest.head?.any isDigit then digits isDigit rest
    else ([], c :: rest)

/-- Digits of which there is at least one, and which start with one. -/
def digitRun? (isDigit : Char → Bool) (chars : List Char) : Option (List Char × List Char) :=
  if chars.head?.any isDigit then some (digits isDigit chars) else none

def ofDigits (base : Nat) (ds : List Char) : Nat :=
  ds.foldl (fun n c => base * n + (hexValue? c).getD 0) 0

/-- An integer in base sixteen, two or eight. -/
def based? (chars : List Char) : Option (Datum × List Char) :=
  let read (base : Nat) (rest : List Char) : Option (Datum × List Char) :=
    (digitRun? (fun c => (hexValue? c).any (· < base)) rest).map fun (ds, left) =>
      (.int (ofDigits base ds), left)
  match chars with
  | '0' :: 'x' :: rest => read 16 rest
  | '0' :: 'b' :: rest => read 2 rest
  | '0' :: 'o' :: rest => read 8 rest
  | _ => none

/-- The sign at the start, as whether it is a minus. -/
def sign (chars : List Char) : Bool × List Char :=
  match chars with
  | '-' :: rest => (true, rest)
  | '+' :: rest => (false, rest)
  | _ => (false, chars)

/-- The digits after a decimal point. -/
def fraction? (chars : List Char) : Option (List Char × List Char) :=
  match chars with
  | '.' :: rest => digitRun? Moment.isAsciiDigit rest
  | _ => none

/-- The exponent of a float. -/
def exponent? (chars : List Char) : Option (Int × List Char) :=
  match chars with
  | e :: rest =>
    if e = 'e' ∨ e = 'E' then
      let (negative, rest) := sign rest
      (digitRun? Moment.isAsciiDigit rest).map fun (ds, left) =>
        let n : Int := ofDigits 10 ds
        (if negative then -n else n, left)
    else none
  | [] => none

/-- A decimal integer, without zeros in front, or a float. -/
def decimal? (chars : List Char) : Option (Except Problem (Datum × List Char)) := do
  let (negative, rest) := sign chars
  let (whole, rest) ←
    match rest with
    | '0' :: more => some (['0'], more)
    | _ => digitRun? Moment.isAsciiDigit rest
  let part? := fraction? rest
  let (part, rest) := part?.getD ([], rest)
  let power? := exponent? rest
  let (power, rest) := power?.getD (0, rest)
  let n := ofDigits 10 (whole ++ part)
  if part?.isSome || power?.isSome then
    pure (.ok (.float (.ofDecimal negative n (power - part.length)), rest))
  else if Datum.maxDigits < whole.length then pure (.error (.longInteger whole.length))
  else pure (.ok (.int (if negative then -(n : Int) else n), rest))

/-- An infinite value or a value that is not a number. -/
def special? (chars : List Char) : Option (Datum × List Char) :=
  let (negative, rest) := sign chars
  match rest with
  | 'i' :: 'n' :: 'f' :: left => some (.float (.infinite negative), left)
  | 'n' :: 'a' :: 'n' :: left => some (.float .nan, left)
  | _ => none

/-- A number of any kind. -/
def number (chars : List Char) : Except Problem (Datum × List Char) :=
  match based? chars with
  | some read => .ok read
  | none =>
    match decimal? chars with
    | some read => read
    | none => wellFormed (special? chars)

/-- A value that holds no other values. -/
def scalar (chars : List Char) : Except Problem (Datum × List Char) :=
  match chars with
  | '"' :: _ | '\'' :: _ => wellFormed ((string? chars).map fun (s, rest) => (.string s, rest))
  | 't' :: 'r' :: 'u' :: 'e' :: rest => .ok (.bool true, rest)
  | 'f' :: 'a' :: 'l' :: 's' :: 'e' :: rest => .ok (.bool false, rest)
  | _ =>
    match Moment.match? chars with
    | some (m, rest) => if m.isValid then .ok (m.datum, rest) else .error .malformed
    | none => number chars

/-! ## Comments -/

/-- The text after a comment, if there is one at its start. -/
def skipComment? (chars : List Char) : Option (List Char) :=
  match chars with
  | '#' :: rest =>
    let comment := rest.takeWhile (· ≠ '\n')
    if comment.all isLineChar then some (rest.drop comment.length) else none
  | _ => some chars

/-- The text after blanks, line ends and comments. -/
def skipLines? (fuel : Nat) (chars : List Char) : Option (List Char) :=
  let rest := chars.dropWhile isSpaceOrNewline
  match fuel, rest with
  | fuel + 1, '#' :: _ => (skipComment? rest).bind (skipLines? fuel)
  | _, _ => some rest

/-! ## Nested values -/

/-- Changes the table at a path, whose tables are created where they are missing. Where `intoLists`
is set, a list on the path stands for its last table. -/
def changeAt? (intoLists : Bool) (change : Entries Datum → Option (Entries Datum)) :
    List String → Entries Datum → Option (Entries Datum)
  | [], entries => change entries
  | k :: path, entries =>
    match Entries.get? entries k with
    | none => do
      let inner ← changeAt? intoLists change path []
      pure (Entries.put entries k (.table inner))
    | some (.table inner) => do
      let inner ← changeAt? intoLists change path inner
      pure (Entries.put entries k (.table inner))
    | some (.list items) =>
      match intoLists, items.getLast? with
      | true, some (.table inner) => do
        let inner ← changeAt? intoLists change path inner
        pure (Entries.put entries k (.list (items.dropLast ++ [.table inner])))
      | _, _ => none
    | some _ => none

/-- Adds a value at a key that has none. -/
def addNew? (key : String) (value : Datum) (entries : Entries Datum) : Option (Entries Datum) :=
  match Entries.get? entries key with
  | some _ => none
  | none => some (Entries.put entries key value)

/-- Whether one of the paths starts the given one. -/
def isUnder (paths : List (List String)) (path : List String) : Bool :=
  paths.any fun p => p.isPrefixOf path

/-- Whether a value is closed to later additions. -/
def isClosed (d : Datum) : Bool :=
  match d with
  | .table _ | .list _ => true
  | _ => false

mutual

/-- A value of any kind. -/
def valueWith (fuel : Nat) (chars : List Char) : Except Problem (Datum × List Char) :=
  match fuel with
  | 0 => .error .malformed
  | fuel + 1 =>
    match chars with
    | '[' :: rest => do
      let rest ← wellFormed (skipLines? rest.length rest)
      let (items, rest) ← items fuel rest
      pure (.list items, rest)
    | '\x7b' :: rest => do
      let rest := skipSpace rest
      match rest with
      | '\x7d' :: left => pure (.table [], left)
      | _ => do
        let (entries, rest) ← entries fuel [] [] rest
        pure (.table entries, rest)
    | _ => scalar chars

/-- The items of an array up to its closing bracket, which a comma may precede. -/
def items (fuel : Nat) (chars : List Char) : Except Problem (List Datum × List Char) :=
  match fuel with
  | 0 => .error .malformed
  | fuel + 1 =>
    match chars with
    | ']' :: rest => .ok ([], rest)
    | _ => do
      let (item, rest) ← valueWith fuel chars
      let rest ← wellFormed (skipLines? rest.length rest)
      match rest with
      | ']' :: left => pure ([item], left)
      | ',' :: more => do
        let more ← wellFormed (skipLines? more.length more)
        let (others, rest) ← items fuel more
        pure (item :: others, rest)
      | _ => .error .malformed

/-- The entries of an inline table up to its closing brace; `closed` lists the keys whose values
are closed. -/
def entries (fuel : Nat) (closed : List (List String)) (known : Entries Datum)
    (chars : List Char) : Except Problem (Entries Datum × List Char) :=
  match fuel with
  | 0 => .error .malformed
  | fuel + 1 => do
    let (path, rest) ← wellFormed (key? chars.length chars)
    match rest with
    | '=' :: rest => do
      let (value, rest) ← valueWith fuel (skipSpace rest)
      if isUnder closed path then .error .malformed
      else
        let known ← wellFormed
          (changeAt? false (addNew? (path.getLastD "") value) path.dropLast known)
        match skipSpace rest with
        | '\x7d' :: left => pure (known, left)
        | ',' :: more =>
          entries fuel (if isClosed value then path :: closed else closed) known (skipSpace more)
        | _ => .error .malformed
    | _ => .error .malformed

end

/-- A value and the characters after it. -/
def value (chars : List Char) : Except Problem (Datum × List Char) := valueWith (2 * chars.length + 2) chars

end Toml

end SqlTables
