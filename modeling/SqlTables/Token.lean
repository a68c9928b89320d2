import SqlTables.Span
import SqlTables.Token.Keyword
import SqlTables.Unicode.UpperCase

/-!
# Tokens

A `Token` is a piece of a script: its kind, its text and the offset of its first character. The
kind of a keyword and of a punctuation mark says which one it is, so that the kinds alone steer the
extraction; the texts only give names.
-/

namespace SqlTables

inductive TokenKind
  | keyword (word : Keyword)
  | identifier
  | quotedIdentifier
  | string
  | number
  | punctuation (mark : Char)
  | comment
  | whitespace
deriving DecidableEq

structure Token where
  kind : TokenKind
  text : String
  offset : Nat
deriving DecidableEq

namespace Token

/-- The offset just past the token. -/
def stop (t : Token) : Nat := t.offset + t.text.length

def span (t : Token) : Span := ⟨t.offset, t.stop⟩

def upper (t : Token) : String := Unicode.upper t.text

/-- Whether what follows an opening quote is a quoted body, its closing quote, and nothing else.
A doubled quote stands for itself and, where `escapes` is set, so does a character after a
backslash. -/
def isClosedBody (quote : Char) (escapes : Bool) : List Char → Bool
  | [] => false
  | [c] => c = quote
  | c :: d :: rest =>
    if escapes && c = '\\' then isClosedBody quote escapes rest
    else if c = quote then d = quote && isClosedBody quote escapes rest
    else isClosedBody quote escapes (d :: rest)

/-- Whether the text of a block comment ends with its own closing mark. -/
def isClosedComment (text : List Char) : Bool :=
  4 ≤ text.length && ['*', '/'].isSuffixOf text

/-- Whether the closing delimiter of a string, a quoted identifier or a block comment is missing. -/
def isUnterminated (t : Token) : Bool :=
  let chars := t.text.toList
  match t.kind with
  | .string => !isClosedBody '\'' true chars.tail
  | .quotedIdentifier => !isClosedBody (chars.headD '"') false chars.tail
  | .comment => ['/', '*'].isPrefixOf chars && !isClosedComment chars
  | _ => false

/-- Replaces every doubled quote by a single one. -/
def undouble (quote : Char) : List Char → List Char
  | c :: d :: rest =>
    if c = quote ∧ d = quote then quote :: undouble quote rest
    else c :: undouble quote (d :: rest)
  | chars => chars

/-- The name that an identifier stands for: a quoted one loses its quotes. -/
def value (t : Token) : String :=
  match t.kind, t.text.toList with
  | .quotedIdentifier, quote :: body =>
    String.ofList (undouble quote (if t.isUnterminated then body else body.dropLast))
  | _, _ => t.text

/-- Whether the token is neither whitespace nor a comment. -/
def isSignificant (t : Token) : Bool :=
  match t.kind with
  | .whitespace | .comment => false
  | _ => true

def isName (t : Token) : Bool :=
  match t.kind with
  | .identifier | .quotedIdentifier => true
  | _ => false

def keyword? (t : Token) : Option Keyword :=
  match t.kind with
  | .keyword word => some word
  | _ => none

def isKeyword (t : Token) (word : Keyword) : Bool := t.kind == .keyword word

/-- Whether the token is one of the given keywords. -/
def isAnyKeyword (t : Token) (words : List Keyword) : Bool :=
  match t.kind with
  | .keyword word => words.contains word
  | _ => false

def isMark (t : Token) (mark : Char) : Bool := t.kind == .punctuation mark

end Token

end SqlTables
