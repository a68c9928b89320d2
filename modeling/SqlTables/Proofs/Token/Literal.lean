import SqlTables.Proofs.Token.Cut

/-!
# Closed literals

A literal is a string or a block comment. One that is a token of its own, and closed, is
the same token whatever follows it, a further quote after a string apart
(`LiteralForm.lexeme_append`), and stays so with other contents.
-/

namespace SqlTables

inductive LiteralForm
  | string
  | blockComment
deriving DecidableEq

namespace LiteralForm

def kind : LiteralForm → TokenKind
  | string => .string
  | blockComment => .comment

/-- The character that a literal starts with. -/
def first : LiteralForm → Char
  | string => '\''
  | blockComment => '/'

theorem first_eq (f : LiteralForm) : f.first = '\'' ∨ f.first = '/' := by
  cases f with
  | string => exact Or.inl rfl
  | blockComment => exact Or.inr rfl

/-- What opens a literal, after its first character. -/
def opening : LiteralForm → List Char
  | string => []
  | blockComment => ['*']

theorem opening_ne {f : LiteralForm} : '}' ∉ f.opening := by
  cases f with
  | string => exact List.not_mem_nil
  | blockComment => decide

def closing : LiteralForm → List Char
  | string => ['\'']
  | blockComment => ['*', '/']

/-- Whether the text, read alone, is one closed literal. -/
def isClosed (f : LiteralForm) (text : String) : Bool :=
  match Token.scan text with
  | [t] =>
    t.kind == f.kind && (f.first :: f.opening).isPrefixOf t.text.toList && !t.isUnterminated
  | _ => false

/-- What follows the first character of a closed literal. -/
def IsRest : LiteralForm → List Char → Prop
  | string, rest => Token.isClosedBody '\'' true rest
  | blockComment, rest =>
    ∃ xs, rest = '*' :: xs ∧ Lexer.blockComment xs = xs ∧ ['*', '/'] <:+ xs

end LiteralForm

namespace Lexer

open Token

variable {body after xs : List Char} {quote : Char} {escapes : Bool}

/-- What closes a quoted text is followed by no further quote. -/
theorem quoted_append (hquote : ¬ (escapes && quote = '\\'))
    (h : isClosedBody quote escapes body) (hafter : after.head? ≠ some quote) :
    quoted quote escapes (body ++ after) = body := by
  induction body using isClosedBody.induct quote escapes with
  | case1 => cases h
  | case2 c =>
      obtain rfl : c = quote := by simpa [isClosedBody] using h
      cases after with
      | nil => rfl
      | cons d after =>
          have hd : d ≠ c := fun hd => hafter (congrArg some hd)
          rw [List.singleton_append, quoted, if_neg hquote, if_pos rfl, if_neg hd]
  | case3 c d rest hescape ih =>
      rw [isClosedBody, if_pos hescape] at h
      rw [List.cons_append, List.cons_append, quoted, if_pos hescape, ih h]
  | case4 d rest hescape ih =>
      rw [isClosedBody, if_neg hescape, if_pos rfl, Bool.and_eq_true, decide_eq_true_eq] at h
      rw [List.cons_append, List.cons_append, quoted, if_neg hescape, if_pos rfl, if_pos h.1,
        ih h.2]
  | case5 c d rest hescape hquote ih =>
      rw [isClosedBody, if_neg hescape, if_neg hquote] at h
      rw [List.cons_append, List.cons_append, quoted, if_neg hescape, if_neg hquote,
        ← List.cons_append, ih h]

/-- A further quote would go on with a closed string. -/
theorem head?_ne_quote (h : isClosedBody '\'' true body)
    (hquoted : quoted '\'' true (body ++ after) = body) : after.head? ≠ some '\'' := by
  induction body using isClosedBody.induct '\'' true with
  | case1 => cases h
  | case2 c =>
      obtain rfl : c = '\'' := by simpa [isClosedBody] using h
      intro hafter
      obtain ⟨after, rfl⟩ := List.head?_eq_some_iff.mp hafter
      simp [quoted] at hquoted
  | case3 c d rest hescape ih =>
      rw [isClosedBody, if_pos hescape] at h
      rw [List.cons_append, List.cons_append, quoted, if_pos hescape, List.cons.injEq,
        List.cons.injEq] at hquoted
      exact ih h hquoted.2.2
  | case4 d rest hescape ih =>
      rw [isClosedBody, if_neg hescape, if_pos rfl, Bool.and_eq_true, decide_eq_true_eq] at h
      rw [List.cons_append, List.cons_append, quoted, if_neg hescape, if_pos rfl, if_pos h.1,
        List.cons.injEq, List.cons.injEq] at hquoted
      exact ih h.2 hquoted.2.2
  | case5 c d rest hescape hquote ih =>
      rw [isClosedBody, if_neg hescape, if_neg hquote] at h
      rw [List.cons_append, List.cons_append, quoted, if_neg hescape, if_neg hquote,
        List.cons.injEq, ← List.cons_append] at hquoted
      exact ih h hquoted.2

theorem blockComment_append (h : blockComment xs = xs) (hclose : ['*', '/'] <:+ xs)
    (after : List Char) : blockComment (xs ++ after) = xs := by
  induction xs with
  | nil => cases List.suffix_nil.mp hclose
  | cons c xs ih =>
      have hhead : (xs ++ after).head? = xs.head? := by
        cases xs with
        | nil =>
            have hlength := hclose.length_le
            simp at hlength
        | cons d xs => rfl
      rw [List.cons_append, blockComment] at *
      rw [hhead]
      split at h
      · next hmark => rw [if_pos hmark, h]
      · next hmark =>
          rw [List.cons.injEq] at h
          rw [if_neg hmark]
          rcases List.suffix_cons_iff.mp hclose with heq | hclose
          · cases heq
            exact absurd ⟨rfl, rfl⟩ hmark
          · rw [ih h.2 hclose]

theorem length_le_of_scanFrom_eq_nil {o skip : Nat} (h : scanFrom o skip xs = []) :
    xs.length ≤ skip := by
  induction xs generalizing o skip with
  | nil => exact Nat.zero_le skip
  | cons c xs ih =>
      cases skip with
      | zero => cases h
      | succ k => exact Nat.succ_le_succ (ih h)

theorem isClosedComment_iff (xs : List Char) :
    isClosedComment ('/' :: '*' :: xs) ↔ ['*', '/'] <:+ xs := by
  have hsuffix : xs <:+ '/' :: '*' :: xs := List.suffix_append ['/', '*'] xs
  rw [isClosedComment, Bool.and_eq_true, decide_eq_true_eq, List.isSuffixOf_iff_suffix,
    List.length_cons, List.length_cons]
  constructor
  · intro h
    exact List.suffix_of_suffix_length_le h.2 hsuffix (by simpa using h.1)
  · intro h
    have hlength := h.length_le
    exact ⟨by simpa using hlength, h.trans hsuffix⟩

theorem lexeme_quote (rest : List Char) :
    lexeme '\'' rest = (.string, quoted '\'' true rest) := by
  have hblank : Unicode.isBlank '\'' = false := by decide
  simp [lexeme, hblank]

theorem lexeme_slash (rest : List Char) :
    lexeme '/' ('*' :: rest) = (.comment, '*' :: blockComment rest) := by
  have hblank : Unicode.isBlank '/' = false := by decide
  simp [lexeme, hblank]

/-- A text of one token is that token. -/
theorem eq_of_scan_singleton {text : String} {t : Token} (h : Token.scan text = [t]) :
    ∃ c rest, text.toList = c :: rest ∧ t = ⟨(lexeme c rest).1, text, 0⟩ ∧
      (lexeme c rest).2 = rest := by
  rw [Token.scan] at h
  cases htext : text.toList with
  | nil =>
      rw [htext] at h
      cases h
  | cons c rest =>
      rw [htext, scanFrom, List.cons.injEq] at h
      have hrest : (lexeme c rest).2 = rest :=
        (isPrefix_lexeme c rest).eq_of_length_le (length_le_of_scanFrom_eq_nil h.2)
      refine ⟨c, rest, rfl, ?_, hrest⟩
      rw [← h.1, hrest, ← htext, String.ofList_toList]

end Lexer

namespace LiteralForm

open Lexer

variable {f : LiteralForm} {text : String} {rest after : List Char}

theorem isRest_of_isClosed (h : f.isClosed text) :
    ∃ rest, text.toList = f.first :: rest ∧ f.IsRest rest := by
  unfold isClosed at h
  split at h
  · next t hscan =>
      obtain ⟨c, rest, htext, rfl, hrest⟩ := eq_of_scan_singleton hscan
      rw [Bool.and_eq_true, Bool.and_eq_true, Bool.not_eq_true', htext, List.isPrefixOf_iff_prefix,
        List.cons_prefix_cons, beq_iff_eq] at h
      obtain ⟨⟨hkind, rfl, hopening⟩, hclosed⟩ := h
      refine ⟨rest, htext, ?_⟩
      dsimp only at hkind
      rw [hkind] at hclosed
      cases f with
      | string =>
          simp only [Token.isUnterminated, kind, htext, List.tail_cons,
            Bool.not_eq_false'] at hclosed
          exact hclosed
      | blockComment =>
          obtain ⟨xs, rfl⟩ := hopening
          rw [first, opening, List.singleton_append, lexeme_slash, List.cons.injEq] at hrest
          refine ⟨xs, rfl, hrest.2, ?_⟩
          rw [← isClosedComment_iff]
          simpa [Token.isUnterminated, kind, htext, first, opening] using hclosed
  · cases h

theorem lexeme_append (h : f.IsRest rest) (hafter : f = .string → after.head? ≠ some '\'') :
    lexeme f.first (rest ++ after) = (f.kind, rest) := by
  cases f with
  | string => rw [first, lexeme_quote, quoted_append (by decide) h (hafter rfl), kind]
  | blockComment =>
      obtain ⟨xs, rfl, hxs, hclose⟩ := h
      rw [first, List.cons_append, lexeme_slash, blockComment_append hxs hclose, kind]

theorem isClosed_of_isRest (h : f.IsRest rest) :
    f.isClosed (String.ofList (f.first :: rest)) := by
  have hlex : lexeme f.first (rest ++ []) = (f.kind, rest) :=
    lexeme_append h fun _ => Option.some_ne_none '\'' ∘ Eq.symm
  have hscan := scanFrom_cons 0 hlex rfl
  rw [List.append_nil, scanFrom] at hscan
  rw [isClosed, Token.scan, String.toList_ofList, hscan]
  cases f with
  | string =>
      have hrest : Token.isClosedBody '\'' true rest := h
      simp [kind, first, opening, Token.isUnterminated, hrest]
  | blockComment =>
      obtain ⟨xs, rfl, -, hclose⟩ := h
      have hclosed := (isClosedComment_iff xs).mpr hclose
      simp [kind, first, opening, Token.isUnterminated, hclosed]

/-- Plain characters make a closed literal. -/
theorem isRest_of_plain (f : LiteralForm) {xs : List Char}
    (h : ∀ c ∈ xs, c ≠ '\'' ∧ c ≠ '\\' ∧ c ≠ '*') : f.IsRest (f.opening ++ (xs ++ f.closing)) := by
  cases f with
  | string =>
      change Token.isClosedBody '\'' true (xs ++ ['\''])
      induction xs with
      | nil => rfl
      | cons c xs ih =>
          rw [List.forall_mem_cons] at h
          have hrest := ih h.2
          cases xs with
          | nil => simp [Token.isClosedBody, h.1]
          | cons d xs => simpa [Token.isClosedBody, h.1] using hrest
  | blockComment =>
      refine ⟨xs ++ ['*', '/'], rfl, ?_, List.suffix_append xs _⟩
      induction xs with
      | nil => rfl
      | cons c xs ih =>
          rw [List.forall_mem_cons] at h
          rw [List.cons_append, Lexer.blockComment, if_neg fun hmark => h.1.2.2 hmark.1, ih h.2]

end LiteralForm

end SqlTables
