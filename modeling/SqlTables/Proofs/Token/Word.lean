import SqlTables.Proofs.Token.Lossless
import SqlTables.Proofs.Unicode.LetterCase

/-!
# Keywords in a script

A keyword that is written in capitals, before a character that belongs to no word, is a token
of its own (`Lexer.scanFrom_keyword`), and in capitals each token that is a keyword is the text
of one (`Token.upper_of_mem_scan`).
-/

namespace SqlTables

namespace Lexer

variable {c d : Char} {r xs : List Char}

/-- A word ends before the first character that belongs to none. -/
theorem word_append (hxs : ∀ c ∈ xs, isWordChar c ∧ c ≠ '$') (hd : ¬ isWordChar d)
    (r : List Char) : word false (xs ++ d :: r) = xs := by
  induction xs with
  | nil =>
      have hdollar : d ≠ '$' := by
        rintro rfl
        exact hd (by decide)
      simp [word, hdollar, hd]
  | cons c xs ih =>
      rw [List.forall_mem_cons] at hxs
      simp [word, hxs.1, ih hxs.2]

theorem lexeme_wordStart (hstart : isWordStart c)
    (hc : Unicode.isBlank c = false ∧ Unicode.isDigit c = false)
    (hmark : c ∉ ['-', '/', '\'', '"', '`', '$', '.']) (r : List Char) :
    lexeme c r = (wordKind (c :: word false r), word false r) := by
  obtain ⟨hblank, hdigit⟩ := hc
  simp only [List.mem_cons, List.not_mem_nil, or_false, not_or] at hmark
  simp [lexeme, hblank, hdigit, hmark, hstart]

end Lexer

namespace Keyword

theorem mem_capitals (k : Keyword) {c : Char} (hc : c ∈ k.text.toList) : c ∈ Unicode.capitals := by
  have hall : ∀ k ∈ all, k.text.toList ⊆ Unicode.capitals := by decide +kernel
  exact hall k k.mem_all hc

theorem text_ne (k : Keyword) : k.text.toList ≠ [] := by
  have hall : ∀ k ∈ all, k.text.toList ≠ [] := by decide +kernel
  exact hall k k.mem_all

theorem upper_text (k : Keyword) : Unicode.upper k.text = k.text := by
  have hletters : Unicode.capitals.map Unicode.upperChar = Unicode.capitals.map fun c => [c] := by
    decide +kernel
  have hchars : k.text.toList.flatMap Unicode.upperChar = k.text.toList.flatMap fun c => [c] :=
    List.flatMap_congr fun c hc => List.map_inj_left.mp hletters c (k.mem_capitals hc)
  rw [Unicode.upper, hchars, List.flatMap_singleton', String.ofList_toList]

theorem ofUpper?_text (k : Keyword) : ofUpper? k.text = some k := by
  have hall : ∀ k ∈ all, ofUpper? k.text = some k := by decide +kernel
  exact hall k k.mem_all

theorem eq_text_of_ofUpper? {word : String} {k : Keyword} (h : ofUpper? word = some k) :
    word = k.text := by
  have htext := List.find?_some h
  exact (eq_of_beq htext).symm

end Keyword

namespace Lexer

variable {c d : Char} {r xs : List Char}

theorem wordKind_text (k : Keyword) : wordKind k.text.toList = .keyword k := by
  rw [wordKind, String.ofList_toList, k.upper_text, k.ofUpper?_text]

/-- A letter begins a word, and no token of another kind. -/
theorem lexeme_letter (hc : c ∈ Unicode.capitals) (r : List Char) :
    lexeme c r = (wordKind (c :: word false r), word false r) := by
  have hletters : Unicode.capitals.all fun c => isWordStart c ∧ (Unicode.isBlank c = false ∧
      Unicode.isDigit c = false) ∧ c ∉ ['-', '/', '\'', '"', '`', '$', '.'] := by
    decide +kernel
  obtain ⟨hstart, hother, hmark⟩ := of_decide_eq_true (List.all_eq_true.mp hletters c hc)
  exact lexeme_wordStart hstart hother hmark r

/-- A keyword before a character that belongs to no word. -/
theorem scanFrom_keyword (k : Keyword) (offset : Nat) (hd : ¬ isWordChar d) (r : List Char) :
    scanFrom offset 0 (k.text.toList ++ d :: r) =
      ⟨.keyword k, k.text, offset⟩ :: scanFrom (offset + k.text.length) 0 (d :: r) := by
  have hletters : Unicode.capitals.all fun c => isWordChar c ∧ c ≠ '$' := by decide +kernel
  have hchars : ∀ c ∈ k.text.toList, c ∈ Unicode.capitals := fun c hc => k.mem_capitals hc
  have hkind := wordKind_text k
  cases htext : k.text.toList with
  | nil => exact absurd htext k.text_ne
  | cons c xs =>
      rw [htext] at hkind hchars
      rw [List.forall_mem_cons] at hchars
      have hlength : k.text.length = xs.length + 1 := by
        rw [← String.length_toList, htext, List.length_cons]
      have hword : word false (xs ++ d :: r) = xs :=
        word_append
          (fun c hc => of_decide_eq_true (List.all_eq_true.mp hletters c (hchars.2 c hc))) hd r
      have hlex : lexeme c (xs ++ d :: r) = (.keyword k, xs) := by
        rw [lexeme_letter hchars.1, hword, hkind]
      rw [List.cons_append, scanFrom_cons offset hlex rfl, hlength, ← htext, String.ofList_toList]

theorem scanFrom_space (offset : Nat) (hc : ¬ Unicode.isBlank c) (r : List Char) :
    scanFrom offset 0 (' ' :: c :: r) =
      ⟨.whitespace, " ", offset⟩ :: scanFrom (offset + 1) 0 (c :: r) := by
  have hblank : Unicode.isBlank ' ' := by decide
  exact scanFrom_cons offset (by simp [lexeme, hblank, hc]) rfl

/-- Only a word in front of which nothing else is read can be a keyword. -/
theorem upper_of_lexeme {k : Keyword} {more : List Char} (h : lexeme c r = (.keyword k, more)) :
    Unicode.upper (String.ofList (c :: more)) = k.text := by
  cases rule_of_lexeme h with
  | keyword _ _ hk => exact Keyword.eq_text_of_ofUpper? hk

end Lexer

theorem Token.upper_of_mem_scan {script : String} {t : Token} (ht : t ∈ scan script)
    {k : Keyword} (hk : t.isKeyword k) : t.upper = k.text := by
  obtain ⟨c, more, rest, hlex, htext⟩ :=
    (Lexer.cut_scanFrom 0 script.toList).lexeme_of_mem ht
  rw [eq_of_beq hk] at hlex
  rw [upper, ← String.ofList_toList (s := t.text), htext, Lexer.upper_of_lexeme hlex]

end SqlTables
