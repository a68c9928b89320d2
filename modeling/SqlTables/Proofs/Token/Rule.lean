import Mathlib.Data.List.Basic
import SqlTables.Token.Lexer

/-!
# Which rule reads a token

The rules of the lexer are tried in turn, and the first that fits reads the token
(`lexeme_eq_read`). Which one that is can be told from the first two characters of the text
and, where they are `${`, from whether a `}` follows (`start_append`).
-/

namespace SqlTables

namespace Lexer

variable {c : Char} {r xs more : List Char} {next : Option Char}

/-- The rules of the lexer. -/
inductive Start
  | blank | line | block | string | quotedName | substitution | number | word | mark

/-- The first rule that fits a text that starts with `c`. Of what follows it asks for the next
character, and whether a substitution would be closed. -/
def Start.of (c : Char) (next : Option Char) (closed : Bool) : Start :=
  if Unicode.isBlank c then .blank
  else if c = '-' ∧ next = some '-' then .line
  else if c = '/' ∧ next = some '*' then .block
  else if c = '\'' then .string
  else if c = '"' ∨ c = '`' then .quotedName
  else if c = '$' ∧ next = some '{' ∧ closed then .substitution
  else if Unicode.isDigit c ∨ (c = '.' ∧ next.any Unicode.isDigit) then .number
  else if isWordStart c then .word
  else .mark

/-- What the rule reads of a text that starts with `c`. -/
def Start.read (c : Char) (r : List Char) : Start → TokenKind × List Char
  | blank => (.whitespace, r.takeWhile Unicode.isBlank)
  | line => (.comment, r.takeWhile (· ≠ '\n'))
  | block => (.comment, '*' :: blockComment r.tail)
  | string => (.string, quoted c true r)
  | quotedName => (.quotedIdentifier, quoted c false r)
  | substitution => (.identifier, Lexer.word true r)
  | number => (.number, (Lexer.number (c :: r)).tail)
  | word => (wordKind (c :: Lexer.word false r), Lexer.word false r)
  | mark => (.punctuation c, [])

/-- What is known of a text if the rule is the first that fits it. -/
def Start.Fits (c : Char) (r : List Char) : Start → Prop
  | blank => Unicode.isBlank c
  | line => c = '-' ∧ r.head? = some '-'
  | block => c = '/' ∧ r.head? = some '*'
  | string => c = '\''
  | quotedName => c = '"' ∨ c = '`'
  | substitution => c = '$' ∧ r.head? = some '{' ∧ '}' ∈ r
  | number => Unicode.isDigit c ∨ (c = '.' ∧ r.head?.any Unicode.isDigit)
  | word => isWordStart c
  | mark => ¬ isWordStart c

/-- The rule of a token that starts with `c`, before `r`. -/
def start (c : Char) (r : List Char) : Start := .of c r.head? ('}' ∈ r)

theorem lexeme_eq_read (c : Char) (r : List Char) : lexeme c r = (start c r).read c r := by
  simp only [lexeme, start, Start.of, decide_eq_true_eq, apply_ite (Start.read c r)]
  rfl

theorem fits_start (c : Char) (r : List Char) : (start c r).Fits c r := by
  simp only [start, Start.of, decide_eq_true_eq]
  repeat' split
  all_goals assumption

/-! ## What a rule depends on -/

theorem Start.of_congr_closed (h : ¬ (c = '$' ∧ next = some '{')) (closed closed' : Bool) :
    of c next closed = of c next closed' := by
  have hnot (closed : Bool) : ¬ (c = '$' ∧ next = some '{' ∧ closed) :=
    fun hc => h ⟨hc.1, hc.2.1⟩
  simp only [of, hnot, if_false]

/-- A text that goes on is read by the same rule, unless it closes a substitution. -/
theorem start_append (hxs : xs ≠ [])
    (hclosed : c = '$' → xs.head? = some '{' → '}' ∈ xs ++ r → '}' ∈ xs) :
    start c (xs ++ r) = start c xs := by
  rw [start, start, List.head?_append_of_ne_nil xs hxs]
  by_cases hdollar : c = '$' ∧ xs.head? = some '{'
  · have hmem : '}' ∈ xs ++ r ↔ '}' ∈ xs :=
      ⟨hclosed hdollar.1 hdollar.2, List.mem_append_left r⟩
    rw [decide_eq_decide.mpr hmem]
  · exact Start.of_congr_closed hdollar _ _

/-- The first character alone tells the rule if the next one fits none with it. -/
theorem start_eq_start_nil (hline : ¬ (c = '-' ∧ r.head? = some '-'))
    (hblock : ¬ (c = '/' ∧ r.head? = some '*'))
    (hdollar : ¬ (c = '$' ∧ r.head? = some '{' ∧ '}' ∈ r))
    (hpoint : ¬ (c = '.' ∧ r.head?.any Unicode.isDigit)) : start c r = start c [] := by
  simp [start, Start.of, hline, hblock, hdollar, hpoint]

theorem start_dollar (h : r.head? = some '{') :
    start '$' r = if '}' ∈ r then .substitution else .mark := by
  have hother : Unicode.isBlank '$' = false ∧ Unicode.isDigit '$' = false ∧
      isWordStart '$' = false := by decide +kernel
  simp [start, Start.of, hother, h]

/-- A character that starts no other token is a mark. -/
theorem lexeme_mark
    (hc : Unicode.isBlank c = false ∧ Unicode.isDigit c = false ∧ isWordStart c = false)
    (hstart : c ∉ ['-', '/', '\'', '"', '`', '$', '.']) (r : List Char) :
    lexeme c r = (.punctuation c, []) := by
  obtain ⟨hblank, hdigit, hword⟩ := hc
  simp only [List.mem_cons, List.not_mem_nil, or_false, not_or] at hstart
  simp [lexeme, hblank, hdigit, hword, hstart]

theorem lexeme_brace (r : List Char) : lexeme '{' r = (.punctuation '{', []) :=
  lexeme_mark (by decide +kernel) (by decide) r

theorem lexeme_dollar (h : '}' ∉ r) : lexeme '$' ('{' :: r) = (.punctuation '$', []) := by
  rw [lexeme_eq_read, start_dollar rfl, if_neg (by simpa using h), Start.read]

theorem lexeme_dollar_closed (h : '}' ∈ r) :
    lexeme '$' ('{' :: r) = (.identifier, '{' :: word true r) := by
  rw [lexeme_eq_read, start_dollar rfl, if_pos (List.mem_cons_of_mem _ h)]
  rfl

/-! ## What is read by a rule -/

/-- The rule by which a text that begins with `c`, before `r`, begins with a token of that kind,
to which `more` of `r` belongs. -/
inductive Rule (c : Char) (r more : List Char) : TokenKind → Prop
  | blank (hc : Unicode.isBlank c) (hmore : r.takeWhile Unicode.isBlank = more) :
      Rule c r more .whitespace
  | line (hc : c = '-' ∧ r.head? = some '-') (hmore : r.takeWhile (· ≠ '\n') = more) :
      Rule c r more .comment
  | block (hc : c = '/' ∧ r.head? = some '*') (hmore : '*' :: blockComment r.tail = more) :
      Rule c r more .comment
  | string (hc : c = '\'') (hmore : quoted c true r = more) : Rule c r more .string
  | quotedName (hc : c = '"' ∨ c = '`') (hmore : quoted c false r = more) :
      Rule c r more .quotedIdentifier
  | substitution (hc : c = '$' ∧ r.head? = some '{' ∧ '}' ∈ r) (hmore : word true r = more) :
      Rule c r more .identifier
  | number (hc : Unicode.isDigit c ∨ (c = '.' ∧ r.head?.any Unicode.isDigit))
      (hmore : (number (c :: r)).tail = more) : Rule c r more .number
  | keyword {k : Keyword} (hc : isWordStart c) (hmore : word false r = more)
      (hk : Keyword.ofUpper? (Unicode.upper (String.ofList (c :: more))) = some k) :
      Rule c r more (.keyword k)
  | name (hc : isWordStart c) (hmore : word false r = more) : Rule c r more .identifier
  | mark (hc : ¬ isWordStart c) (hmore : more = []) : Rule c r more (.punctuation c)

theorem rule_lexeme (c : Char) (r : List Char) : Rule c r (lexeme c r).2 (lexeme c r).1 := by
  have hfits := fits_start c r
  rw [lexeme_eq_read]
  generalize start c r = s at hfits ⊢
  cases s with
  | blank => exact .blank hfits rfl
  | line => exact .line hfits rfl
  | block => exact .block hfits rfl
  | string => exact .string hfits rfl
  | quotedName => exact .quotedName hfits rfl
  | substitution => exact .substitution hfits rfl
  | number => exact .number hfits rfl
  | word =>
      dsimp only [Start.read, wordKind]
      split
      · next hk => exact .keyword hfits rfl hk
      · exact .name hfits rfl
  | mark => exact .mark hfits rfl

theorem rule_of_lexeme {kind : TokenKind} (h : lexeme c r = (kind, more)) :
    Rule c r more kind := by
  have hrule := rule_lexeme c r
  rwa [h] at hrule

theorem eq_of_lexeme_punctuation {m : Char} (h : lexeme c r = (.punctuation m, more)) :
    c = m ∧ more = [] := by
  cases rule_of_lexeme h with
  | mark _ hmore => exact ⟨rfl, hmore⟩

end Lexer

end SqlTables
