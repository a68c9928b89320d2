import SqlTables.Token.Lexer

/-!
# Statements

A script is cut into statements at its semicolons. A `Statement` holds the significant tokens
between two of them, and `Statement.ofTokens` keeps those that have any. Strings, quoted identifiers
and comments are single tokens, so a semicolon inside them separates nothing.
-/

namespace SqlTables

structure Statement where
  index : Nat
  tokens : List Token
deriving DecidableEq

namespace Statement

/-- The tokens between the semicolons; there is always one group more than there are semicolons. -/
def groups : List Token → List (List Token)
  | [] => [[]]
  | t :: rest =>
    if t.isMark ';' then [] :: groups rest
    else
      match groups rest with
      | [] => [[t]]
      | g :: gs => (t :: g) :: gs

theorem groups_nil : groups [] = [[]] := rfl

theorem groups_ne_nil (ts : List Token) : groups ts ≠ [] := by
  cases ts with
  | nil => simp [groups]
  | cons t rest =>
    rw [groups]
    split
    · simp
    · split <;> simp

theorem groups_cons_mark {t : Token} (h : t.isMark ';') (ts : List Token) :
    groups (t :: ts) = [] :: groups ts := by
  simp [groups, h]

/-- Numbers the groups from `index` on. -/
def number (index : Nat) : List (List Token) → List Statement
  | [] => []
  | tokens :: rest => ⟨index, tokens⟩ :: number (index + 1) rest

/-- The statements of a token sequence, numbered from zero. -/
def ofTokens (tokens : List Token) : List Statement :=
  number 0 ((groups (tokens.filter Token.isSignificant)).filter fun g => !g.isEmpty)

/-- The statements of a script. -/
def ofScript (script : String) : List Statement := ofTokens (Token.scan script)

/-- From the start of the first token to the end of the last one. -/
def span (s : Statement) : Span :=
  match s.tokens.head?, s.tokens.getLast? with
  | some first, some last => ⟨first.offset, last.stop⟩
  | _, _ => ⟨0, 0⟩

/-- The part of the script that the statement spans. -/
def text (s : Statement) (script : String) : String := s.span.slice script

end Statement

end SqlTables
