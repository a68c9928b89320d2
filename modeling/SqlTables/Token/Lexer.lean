import SqlTables.Token
import SqlTables.Unicode.Blank
import SqlTables.Unicode.Number

/-!
# Lexing

`Token.scan text` cuts a text into tokens without losing a character. What a token takes beyond its
first character is given by `Lexer.lexeme`; the scan then passes over as many characters. A text
that no rule begins yields a punctuation mark of one character, and a quote or block comment that
is not closed takes the rest of the text, so the scan has no failures.
-/

namespace SqlTables

namespace Lexer

def isWordStart (c : Char) : Bool := c = '_' || Unicode.isLetter c

def isWordChar (c : Char) : Bool := c = '_' || c = '$' || Unicode.isAlphanumeric c

/-- What belongs to a word. A substitution `${…}` is part of it, whatever stands inside;
`inside` says whether one is open. A `${` that is never closed ends the word. -/
def word (inside : Bool) : List Char → List Char
  | [] => []
  | c :: rest =>
    if inside then c :: word (c ≠ '}') rest
    else if c = '$' ∧ rest.head? = some '{' then
      if '}' ∈ rest then c :: word true rest else []
    else if isWordChar c then c :: word false rest
    else []

/-- What belongs to a quoted text after its opening quote: everything up to and including the
closing one, or the rest. A doubled quote does not close the text and, where `escapes` is set,
neither does a quote after a backslash. -/
def quoted (quote : Char) (escapes : Bool) : List Char → List Char
  | [] => []
  | [c] => [c]
  | c :: d :: rest =>
    if escapes && c = '\\' then c :: d :: quoted quote escapes rest
    else if c = quote then
      if d = quote then c :: d :: quoted quote escapes rest else [c]
    else c :: quoted quote escapes (d :: rest)

/-- What belongs to a block comment after its opening mark: everything up to and including the
closing one, or the rest. -/
def blockComment : List Char → List Char
  | [] => []
  | c :: rest =>
    if c = '*' ∧ rest.head? = some '/' then [c, '/'] else c :: blockComment rest

/-- A fraction, which needs a digit after its point. -/
def fraction : List Char → List Char
  | '.' :: d :: rest =>
    if Unicode.isDigit d then '.' :: d :: rest.takeWhile Unicode.isDigit else []
  | _ => []

/-- An exponent, which needs a digit after its mark and sign. -/
def exponent : List Char → List Char
  | e :: rest =>
    if e = 'e' ∨ e = 'E' then
      let sign := (rest.take 1).filter fun c => c = '+' || c = '-'
      let power := (rest.drop sign.length).takeWhile Unicode.isDigit
      if power.isEmpty then [] else e :: sign ++ power
    else []
  | [] => []

/-- A number: digits, a fraction, an exponent, each of which may be absent. -/
def number (chars : List Char) : List Char :=
  let whole := chars.takeWhile Unicode.isDigit
  let part := fraction (chars.drop whole.length)
  whole ++ part ++ exponent (chars.drop (whole.length + part.length))

/-- The kind of a word: a keyword if its upper case spells one. -/
def wordKind (text : List Char) : TokenKind :=
  match Keyword.ofUpper? (Unicode.upper (String.ofList text)) with
  | some k => .keyword k
  | none => .identifier

/-- The kind of the token that starts with `c`, and the characters after `c` that belong to it. -/
def lexeme (c : Char) (rest : List Char) : TokenKind × List Char :=
  if Unicode.isBlank c then (.whitespace, rest.takeWhile Unicode.isBlank)
  else if c = '-' ∧ rest.head? = some '-' then (.comment, rest.takeWhile (· ≠ '\n'))
  else if c = '/' ∧ rest.head? = some '*' then (.comment, '*' :: blockComment rest.tail)
  else if c = '\'' then (.string, quoted c true rest)
  else if c = '"' ∨ c = '`' then (.quotedIdentifier, quoted c false rest)
  else if c = '$' ∧ rest.head? = some '{' ∧ '}' ∈ rest then (.identifier, word true rest)
  else if Unicode.isDigit c ∨ (c = '.' ∧ rest.head?.any Unicode.isDigit) then
    (.number, (number (c :: rest)).tail)
  else if isWordStart c then
    let more := word false rest
    (wordKind (c :: more), more)
  else (.punctuation c, [])

/-- The tokens of a text whose first character stands at `offset`; the first `skip` characters
belong to a token that was already produced. -/
def scanFrom (offset skip : Nat) : List Char → List Token
  | [] => []
  | c :: rest =>
    match skip with
    | k + 1 => scanFrom (offset + 1) k rest
    | 0 =>
      let (kind, more) := lexeme c rest
      ⟨kind, String.ofList (c :: more), offset⟩ :: scanFrom (offset + 1) more.length rest

end Lexer

namespace Token

/-- Every token of a text, in order. -/
def scan (text : String) : List Token := Lexer.scanFrom 0 0 text.toList

/-- The tokens that are neither whitespace nor comments. -/
def scanSignificant (text : String) : List Token := (scan text).filter isSignificant

end Token

end SqlTables
