import SqlTables.Dialect
import SqlTables.Extraction
import SqlTables.Unicode.Letter
import SqlTables.Unicode.Number

/-!
# Lexemes

A dialect cuts the text of a statement into lexemes: words, quoted names, texts, numbers, marks, and
hints, which are comments with a meaning. Several words that count as one, such as `GROUP BY`, are
one lexeme. Unlike the scan over tokens, `Lexeme.scan` fails where a text, a quoted name or a block
comment has no end.
-/

namespace SqlTables

namespace Grammar

inductive LexemeKind
  | word
  /-- The name of a parameter, which is no keyword whatever it is. -/
  | parameter
  /-- A quoted name. -/
  | name
  | text
  | number
  | mark
  | hint
deriving DecidableEq

structure Lexeme where
  kind : LexemeKind
  /-- What is written; of a name or a text, what is quoted. -/
  text : String
  upper : String
deriving DecidableEq

namespace Lexeme

def of (kind : LexemeKind) (text : String) : Lexeme := ⟨kind, text, Unicode.upper text⟩

def isWord (l : Lexeme) (word : String) : Bool := l.kind = .word && l.upper == word

def isAnyWord (l : Lexeme) (words : List String) : Bool := l.kind = .word && words.contains l.upper

def isMark (l : Lexeme) (mark : String) : Bool := l.kind = .mark && l.text == mark

def isAnyMark (l : Lexeme) (marks : List String) : Bool := l.kind = .mark && marks.contains l.text

/-- Whether the lexeme reads as the given word, be it quoted or not. -/
def reads (l : Lexeme) (word : String) : Bool := l.kind ≠ .text && l.upper == word

/-! ## Characters and what they start -/

/-- Characters that end a word and are lexemes of their own. -/
def markChars : List Char :=
  ['(', ')', '[', ']', '\x7b', '\x7d', '&', '^', ':', ',', '-', '.', '=', '>', '<', '%', '!', '|',
    '+', ';', '/', '\\', '*', '~', '?', '@', '#', '\'', '"', '\x60']

/-- Quotes, which stand for names where the dialect does not quote with them. -/
def quoteChars : List Char := ['\'', '"', '\x60']

/-- Marks of more than one character, the longest first. -/
def longMarks : List (List Char) :=
  ["<=>", "->>", "#>>", "<->", "-|-", "~~~", "~~*", "?::", "==", "::", "||", "|>", ">=", "<=",
    "<>", "!=", ":=", "->", "=>", "#>", "&&", "??", "~~", "~*", "&<", "&>"].map String.toList

/-- Words that count as one when nothing but blanks is between them. -/
def phrases : List (List String) :=
  [["GROUP", "BY"], ["ORDER", "BY"], ["SORT", "BY"], ["CLUSTER", "BY"], ["DISTRIBUTE", "BY"],
    ["PARTITION", "BY"], ["PARTITIONED", "BY"], ["GROUPING", "SETS"], ["CONNECT", "BY"],
    ["START", "WITH"], ["PRIMARY", "KEY"], ["FOREIGN", "KEY"], ["CHARACTER", "SET"],
    ["SIMILAR", "TO"], ["FOR", "VERSION"], ["FOR", "TIMESTAMP"], ["TIMESTAMP", "AS", "OF"],
    ["VERSION", "AS", "OF"]]

/-- The words after which a comment that starts with a plus is a hint. -/
def hintedWords : List String := ["SELECT", "INSERT", "UPDATE", "DELETE"]

/-- Whether a character ends a word. -/
def isMarkChar (d : Dialect) (c : Char) : Bool :=
  markChars.contains c || (d.hasDollarParameters && c = '$')

def isWordChar (d : Dialect) (c : Char) : Bool := !Unicode.isBlank c && !isMarkChar d c

def startsWith (start chars : List Char) : Bool := start.isPrefixOf chars

/-- The characters after a phrase at their start, which must not go on with a word. -/
def afterPhrase? (d : Dialect) : (words : List String) → List Char → Option (List Char)
  | [], _ => none
  | word :: more, chars =>
    let size := word.length
    let rest := chars.drop size
    if Unicode.upper (String.ofList (chars.take size)) ≠ word then none
    else if more.isEmpty then
      if rest.head?.any (isWordChar d) then none else some rest
    else if rest.head?.any Unicode.isBlank then
      afterPhrase? d more (rest.dropWhile Unicode.isBlank)
    else none

/-! ## Comments -/

/-- The characters after a block comment, `depth` of which are open. A comment that starts inside it
counts from the character after the one that is looked at. -/
def afterComment? (nested : Bool) : (fuel depth : Nat) → List Char → Option (List Char)
  | 0, _, _ => none
  | _, _, [] => none
  | fuel + 1, depth, c :: rest =>
    if c = '*' ∧ rest.head? = some '/' ∧ depth ≤ 1 then some (rest.drop 1)
    else
      let depth := if c = '*' ∧ rest.head? = some '/' then depth - 1 else depth
      match nested, rest with
      | true, '/' :: '*' :: inner => afterComment? nested fuel (depth + 1) inner
      | _, _ => afterComment? nested fuel depth rest

/-- The characters after a comment between braces. -/
def afterBraceComment? : List Char → Option (List Char)
  | '#' :: '\x7d' :: rest => some rest
  | _ :: rest => afterBraceComment? rest
  | [] => none

/-- The characters after a comment, if there is one at their start and it has an end. -/
def comment? (d : Dialect) (chars : List Char) : Option (Option (List Char)) :=
  match chars with
  | '/' :: '*' :: '+' :: rest => some (afterComment? false (rest.length + 1) 1 rest)
  | '/' :: '*' :: rest => some (afterComment? d.hasNestedComments (rest.length + 1) 1 rest)
  | '\x7b' :: '#' :: rest => some (afterBraceComment? rest)
  | _ =>
    if d.lineComments.any fun start => startsWith start.toList chars then
      some (some (chars.dropWhile fun c => c ≠ '\n' && c ≠ '\r'))
    else none

/-! ## Quotes -/

/-- The character that a backslash and a letter stand for. -/
def escaped? : Char → Option Char
  | 'a' => some '\x07'
  | 'b' => some '\x08'
  | 'f' => some '\x0c'
  | 'n' => some '\n'
  | 'r' => some '\r'
  | 't' => some '\t'
  | 'v' => some '\x0b'
  | '\\' => some '\\'
  | _ => none

/-- What is quoted, up to the quote `close`, and the characters after it. -/
def quoted? (d : Dialect) (escapes : List Char) (close : Char) :
    List Char → Option (List Char × List Char)
  | [] => none
  | [c] => if c = close then some ([], []) else none
  | c :: e :: rest =>
    let special? := if c = '\\' ∧ d.textEscapes.contains '\\' then escaped? e else none
    match special? with
    | some x => (quoted? d escapes close rest).map fun (text, left) => (x :: text, left)
    | none =>
      if escapes.contains c && (e = close || escapes.contains e)
          && (!d.textQuotes.contains c || c = e) then
        (quoted? d escapes close rest).map fun (text, left) =>
          ((if e = close then [e] else [c, e]) ++ text, left)
      else if c = close then some ([], e :: rest)
      else (quoted? d escapes close (e :: rest)).map fun (text, left) => (c :: text, left)

/-! ## Numbers -/

/-- How far a number has been read. -/
structure NumberState where
  hasPoint : Bool := false
  hasExponent : Bool := false
  /-- Whether a sign may come next. -/
  signs : Bool := false

/-- The characters of a number and those after it, up to where its letters start. -/
def digits (s : NumberState) : List Char → List Char × List Char
  | [] => ([], [])
  | c :: rest =>
    let go (next : NumberState) : List Char × List Char :=
      let (more, left) := digits next rest
      (c :: more, left)
    if Unicode.isDigit c then go s
    else if c = '.' ∧ !s.hasPoint then go { s with hasPoint := true }
    else if (c = '-' ∨ c = '+') ∧ s.signs then go { s with signs := false }
    else if (c = 'e' ∨ c = 'E') ∧ !s.hasExponent then
      go { s with hasExponent := true, signs := true }
    else ([], c :: rest)

/-- A number, or a name that starts with a digit; the characters after it. -/
def number (d : Dialect) (chars : List Char) : Lexeme × List Char :=
  match chars with
  | '0' :: base :: rest =>
    if ['b', 'B', 'x', 'X'].contains base then (of .number "0", base :: rest)
    else plain chars
  | _ => plain chars
where
  plain (chars : List Char) : Lexeme × List Char :=
    let (body, rest) := digits {} chars
    let letters := rest.takeWhile (isWordChar d)
    let value := of .number (String.ofList body)
    if rest.head?.any fun c => c = '_' || Unicode.isLetter c then
      if d.numberSuffixes.contains (Unicode.upper (String.ofList letters)) then
        (value, rest.drop letters.length)
      else if d.hasDigitNames then
        (of .word (String.ofList (body ++ letters)), rest.drop letters.length)
      else (value, rest)
    else (value, rest)

/-! ## The scan -/

/-- The words that the characters start with and the characters after them. -/
def words (d : Dialect) (last : Option Lexeme) (chars : List Char) : Lexeme × List Char :=
  let found := phrases.findSome? fun ws =>
    (afterPhrase? d ws chars).map fun rest => (" ".intercalate ws, rest)
  match found with
  | some (phrase, rest) => (⟨.word, phrase, phrase⟩, rest)
  | none =>
    let body := String.ofList (chars.takeWhile (isWordChar d))
    let kind : LexemeKind :=
      if last.any (·.isAnyMark ["@", "$"]) then .parameter
      else if d.hasMinus && Unicode.upper body == "MINUS" then .mark
      else .word
    (of kind (if kind = .mark then "MINUS" else body), chars.drop body.length)

/-- The mark that the characters start with and the characters after it. -/
def mark (d : Dialect) (c : Char) (rest : List Char) : Lexeme × List Char :=
  match longMarks.find? fun m => startsWith m (c :: rest) with
  | some m => (of .mark (String.ofList m), (c :: rest).drop m.length)
  | none =>
    if quoteChars.contains c && !d.textQuotes.contains c then (of .word (String.singleton c), rest)
    else (of .mark (String.singleton c), rest)

/-- A quoted text, before which an `N` may stand. -/
def text? (d : Dialect) (chars : List Char) : Option (Option (Lexeme × List Char)) :=
  let body? (quote : Char) (rest : List Char) : Option (Lexeme × List Char) :=
    (quoted? d d.textEscapes quote rest).map fun (text, left) =>
      (of .text (String.ofList text), left)
  match chars with
  | c :: rest =>
    if d.textQuotes.contains c then some (body? c rest)
    else if c = 'n' ∨ c = 'N' then
      match rest with
      | q :: rest => if d.textQuotes.contains q then some (body? q rest) else none
      | [] => none
    else none
  | [] => none

/-- The lexeme that the characters start with and the characters after it; nothing if it has no end.
-/
def first? (d : Dialect) (last : Option Lexeme) (c : Char) (rest : List Char) :
    Option (Lexeme × List Char) :=
  if Unicode.isDigit c then some (number d (c :: rest))
  else
    match d.nameQuotes.lookup c with
    | some close =>
      (quoted? d [close] close rest).map fun (name, left) =>
        (of .name (String.ofList name), left)
    | none =>
      match text? d (c :: rest) with
      | some read => read
      | none =>
        if isMarkChar d c then some (mark d c rest) else some (words d last (c :: rest))

/-- The lexemes of the characters after those that have been read, the last one of which comes
first. There are at most as many as characters. -/
def scanFrom (d : Dialect) (fuel : Nat) (done : List Lexeme) (chars : List Char) :
    Except ParseFailure (List Lexeme) :=
  match fuel, chars with
  | _, [] => .ok done.reverse
  | 0, _ => .ok done.reverse
  | fuel + 1, c :: rest =>
    if Unicode.isBlank c then scanFrom d fuel done rest
    else
      match comment? d (c :: rest) with
      | some none => .error (.rejected "a comment has no end")
      | some (some left) =>
        let isHint := startsWith ['/', '*', '+'] (c :: rest)
          && done.head?.any (·.isAnyWord hintedWords)
        scanFrom d fuel (if isHint then of .hint "" :: done else done) left
      | none =>
        match first? d done.head? c rest with
        | some (l, left) => scanFrom d fuel (l :: done) left
        | none => .error (.rejected "a quote has no end")

/-- The lexemes of a text. -/
def scan (d : Dialect) (text : String) : Except ParseFailure (List Lexeme) :=
  scanFrom d (text.length + 1) [] text.toList

end Lexeme

end Grammar

end SqlTables
