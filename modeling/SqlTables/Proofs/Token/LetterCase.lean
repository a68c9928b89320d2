import SqlTables.Proofs.Respelling
import SqlTables.Proofs.Token.Lossless
import SqlTables.Proofs.Unicode.LetterCase

/-!
# Tokens in lower case

A script in lower case has the same tokens in lower case (`Token.scan_toLower`): no rule of
the lexer tells a letter from `A` to `Z` from the small one. So each of them is a keyword if
it was one, and stands for the same name in lower case.
-/

namespace SqlTables

open Unicode

/-- The token in lower case. -/
def Token.toLower (t : Token) : Token := { t with text := t.text.toLower }

theorem Token.stop_toLower (t : Token) : t.toLower.stop = t.stop := by
  rw [stop, stop, toLower, length_toLower]

namespace Lexer

variable {c d : Char} {xs : List Char}

/-! ## The rules of the lexer -/

@[simp] theorem isWordStart_toLower (c : Char) : isWordStart c.toLower = isWordStart c :=
  congr_toLower (by decide +kernel) c

@[simp] theorem isWordChar_toLower (c : Char) : isWordChar c.toLower = isWordChar c :=
  congr_toLower (by decide +kernel) c

theorem takeWhile_toLower {p : Char → Bool} (hp : ∀ c, p c.toLower = p c) (xs : List Char) :
    (xs.map Char.toLower).takeWhile p = (xs.takeWhile p).map Char.toLower := by
  have hcomp : p ∘ Char.toLower = p := funext hp
  rw [List.takeWhile_map, hcomp]

theorem head?_toLower (hd : IsCaseless d) (xs : List Char) :
    (xs.map Char.toLower).head? = some d ↔ xs.head? = some d := by
  cases xs with
  | nil => exact Iff.rfl
  | cons c xs =>
      simp only [List.map_cons, List.head?_cons, Option.some.injEq]
      exact toLower_eq_iff hd

theorem mem_toLower (hd : IsCaseless d) (xs : List Char) :
    d ∈ xs.map Char.toLower ↔ d ∈ xs := by
  simp only [List.mem_map, toLower_eq_iff hd, exists_eq_right]

theorem quoted_toLower {quote : Char} (hquote : IsCaseless quote)
    (escapes : Bool) (xs : List Char) :
    quoted quote escapes (xs.map Char.toLower) = (quoted quote escapes xs).map Char.toLower := by
  have hbackslash (c : Char) : c.toLower = '\\' ↔ c = '\\' := toLower_eq_iff (by decide)
  have hsame (c : Char) : c.toLower = quote ↔ c = quote := toLower_eq_iff hquote
  induction xs using quoted.induct quote escapes with
  | case1 => rfl
  | case2 c => rfl
  | case3 c d rest hescape ih =>
      simp only [List.map_cons, quoted, hbackslash, if_pos hescape, ih]
  | case4 rest hescape ih =>
      simp only [List.map_cons, quoted, hbackslash, hsame, if_pos, if_neg hescape, ih]
  | case5 d rest hescape hd =>
      simp only [List.map_cons, quoted, hbackslash, hsame, if_pos, if_neg hescape, if_neg hd,
        List.map_nil]
  | case6 c d rest hescape hc ih =>
      rw [List.map_cons] at ih
      simp only [List.map_cons, quoted, hbackslash, hsame, if_neg hescape, if_neg hc, ih]

theorem blockComment_toLower (xs : List Char) :
    blockComment (xs.map Char.toLower) = (blockComment xs).map Char.toLower := by
  induction xs with
  | nil => rfl
  | cons c xs ih =>
      have hstar : c.toLower = '*' ↔ c = '*' := toLower_eq_iff (by decide)
      have hslash := head?_toLower (d := '/') (by decide) xs
      simp only [List.map_cons, blockComment, hstar, hslash, ih]
      split
      · next hclose =>
          rw [hclose.1]
          rfl
      · rfl

theorem word_toLower (inside : Bool) (xs : List Char) :
    word inside (xs.map Char.toLower) = (word inside xs).map Char.toLower := by
  induction xs generalizing inside with
  | nil => rfl
  | cons c xs ih =>
      have hdollar : c.toLower = '$' ↔ c = '$' := toLower_eq_iff (by decide)
      have hclose : c.toLower = '}' ↔ c = '}' := toLower_eq_iff (by decide)
      have hbrace := head?_toLower (d := '{') (by decide) xs
      have hclosed := mem_toLower (d := '}') (by decide) xs
      simp only [List.map_cons, word, ne_eq, hdollar, hclose, hbrace, hclosed, isWordChar_toLower,
        ih]
      split
      · rfl
      · split
        · split
          · rfl
          · rfl
        · split
          · rfl
          · rfl

theorem fraction_toLower (xs : List Char) :
    fraction (xs.map Char.toLower) = (fraction xs).map Char.toLower := by
  have hpoint : '.'.toLower = '.' := by decide
  have hdigits := takeWhile_toLower isDigit_toLower
  rcases xs with _ | ⟨c, _ | ⟨d, rest⟩⟩
  · rfl
  · simp [fraction]
  · by_cases hc : c = '.'
    · subst hc
      simp only [List.map_cons, hpoint, fraction, isDigit_toLower, hdigits]
      split
      · simp only [List.map_cons, hpoint]
      · rfl
    · have hc' : c.toLower ≠ '.' := fun h => hc ((toLower_eq_iff (by decide)).mp h)
      simp [fraction, hc, hc']

theorem exponent_toLower (xs : List Char) :
    exponent (xs.map Char.toLower) = (exponent xs).map Char.toLower := by
  cases xs with
  | nil => rfl
  | cons e rest =>
      have hmark : (e.toLower = 'e' ∨ e.toLower = 'E') ↔ (e = 'e' ∨ e = 'E') :=
        decide_eq_decide.mp (congr_toLower (f := fun c => decide (c = 'e' ∨ c = 'E'))
          (by decide) e)
      have hsign : ((rest.map Char.toLower).take 1).filter (fun c => c = '+' || c = '-') =
          ((rest.take 1).filter fun c => c = '+' || c = '-').map Char.toLower := by
        have hcomp : (fun c : Char => decide (c = '+') || decide (c = '-')) ∘ Char.toLower =
            fun c => decide (c = '+') || decide (c = '-') :=
          funext fun c => congr_toLower (f := fun c => decide (c = '+') || decide (c = '-'))
            (by decide) c
        rw [← List.map_take, List.filter_map, hcomp]
      simp only [List.map_cons, exponent, hmark, hsign, List.length_map, ← List.map_drop,
        takeWhile_toLower isDigit_toLower, List.isEmpty_map]
      split
      · split
        · rfl
        · rw [List.map_append, List.map_cons]
      · rfl

theorem number_toLower (xs : List Char) :
    number (xs.map Char.toLower) = (number xs).map Char.toLower := by
  simp only [number, takeWhile_toLower isDigit_toLower, List.length_map, ← List.map_drop,
    fraction_toLower, exponent_toLower, List.map_append]

theorem wordKind_toLower (xs : List Char) : wordKind (xs.map Char.toLower) = wordKind xs := by
  rw [wordKind, wordKind, ← toLower_ofList, upper_toLower]

/-- A text in lower case is read by the same rule. -/
theorem start_toLower (c : Char) (xs : List Char) :
    start c.toLower (xs.map Char.toLower) = start c xs := by
  have hmark {d : Char} (hd : IsCaseless d) : c.toLower = d ↔ c = d := toLower_eq_iff hd
  have hline := head?_toLower (d := '-') (by decide) xs
  have hblock := head?_toLower (d := '*') (by decide) xs
  have hbrace := head?_toLower (d := '{') (by decide) xs
  have hclosed := mem_toLower (d := '}') (by decide) xs
  have hpoint : (xs.map Char.toLower).head?.any isDigit = xs.head?.any isDigit := by
    cases xs with
    | nil => rfl
    | cons d xs => exact isDigit_toLower d
  simp only [start, Start.of, isBlank_toLower, isDigit_toLower, isWordStart_toLower, hline, hblock,
    hbrace, hclosed, hpoint, hmark (d := '-') (by decide), hmark (d := '/') (by decide),
    hmark (d := '\'') (by decide), hmark (d := '"') (by decide), hmark (d := '`') (by decide),
    hmark (d := '$') (by decide), hmark (d := '.') (by decide)]

theorem toLower_of_not_isWordStart (hc : ¬ isWordStart c) : c.toLower = c := by
  have hstarts : capitals.all isWordStart := by decide +kernel
  exact toLower_of_not_mem fun hmem => hc (List.all_eq_true.mp hstarts c hmem)

/-- A text in lower case begins with the same token in lower case. -/
theorem lexeme_toLower (c : Char) (xs : List Char) :
    lexeme c.toLower (xs.map Char.toLower) =
      ((lexeme c xs).1, (lexeme c xs).2.map Char.toLower) := by
  have hfits := fits_start c xs
  rw [lexeme_eq_read, lexeme_eq_read, start_toLower]
  generalize start c xs = s at hfits ⊢
  cases s with
  | blank => rw [Start.read, takeWhile_toLower isBlank_toLower, Start.read]
  | line =>
      have hnewline (c : Char) : decide (c.toLower ≠ '\n') = decide (c ≠ '\n') :=
        congr_toLower (f := fun c => decide (c ≠ '\n')) (by decide) c
      rw [Start.read, takeWhile_toLower hnewline, Start.read]
  | block =>
      rw [Start.read, ← List.map_tail, blockComment_toLower, Start.read]
      rfl
  | string =>
      obtain rfl : c = '\'' := hfits
      have hquote : '\''.toLower = '\'' := by decide
      rw [Start.read, hquote, quoted_toLower (by decide), Start.read]
  | quotedName =>
      have hcaseless : IsCaseless c := by
        rcases hfits with rfl | rfl <;> decide
      have hquote : c.toLower = c := (toLower_eq_iff hcaseless).mpr rfl
      rw [Start.read, hquote, quoted_toLower hcaseless, Start.read]
  | substitution => rw [Start.read, word_toLower, Start.read]
  | number => rw [Start.read, ← List.map_cons, number_toLower, ← List.map_tail, Start.read]
  | word => rw [Start.read, word_toLower, ← List.map_cons, wordKind_toLower, Start.read]
  | mark =>
      rw [Start.read, toLower_of_not_isWordStart hfits, Start.read]
      rfl

/-- A quoted identifier begins with a quote. -/
theorem eq_quote_of_lexeme {rest more : List Char}
    (h : lexeme c rest = (.quotedIdentifier, more)) : c = '"' ∨ c = '`' := by
  cases rule_of_lexeme h with
  | quotedName hc _ => exact hc

theorem scanFrom_toLower (offset skip : Nat) (xs : List Char) :
    scanFrom offset skip (xs.map Char.toLower) =
      (scanFrom offset skip xs).map Token.toLower := by
  induction xs generalizing offset skip with
  | nil => rfl
  | cons c xs ih =>
      rw [List.map_cons]
      cases skip with
      | zero =>
          rw [scanFrom, scanFrom, lexeme_toLower]
          dsimp only
          rw [List.length_map, ih, List.map_cons, ← List.map_cons, ← toLower_ofList]
          rfl
      | succ skip => rw [scanFrom, scanFrom, ih]

end Lexer

namespace Token

variable {t : Token}

/-- A script in lower case has the tokens of the script in lower case. -/
theorem scan_toLower (script : String) : scan script.toLower = (scan script).map toLower := by
  rw [scan, scan, toList_toLower, Lexer.scanFrom_toLower]

theorem scanSignificant_toLower (script : String) :
    scanSignificant script.toLower = (scanSignificant script).map toLower := by
  rw [scanSignificant, scanSignificant, scan_toLower, List.filter_map]
  rfl

/-! ## Names -/

theorem isClosedBody_toLower {quote : Char} (hquote : IsCaseless quote)
    (escapes : Bool) (xs : List Char) :
    isClosedBody quote escapes (xs.map Char.toLower) = isClosedBody quote escapes xs := by
  have hbackslash (c : Char) : c.toLower = '\\' ↔ c = '\\' := toLower_eq_iff (by decide)
  have hsame (c : Char) : c.toLower = quote ↔ c = quote := toLower_eq_iff hquote
  induction xs using isClosedBody.induct quote escapes with
  | case1 => rfl
  | case2 c => simp only [List.map_cons, List.map_nil, isClosedBody, hsame]
  | case3 c d rest hescape ih =>
      simp only [List.map_cons, isClosedBody, hbackslash, if_pos hescape, ih]
  | case4 c rest hescape ih =>
      simp only [List.map_cons, isClosedBody, hbackslash, hsame, if_pos, if_neg hescape, ih]
  | case5 c d rest hescape hc ih =>
      rw [List.map_cons] at ih
      simp only [List.map_cons, isClosedBody, hbackslash, hsame, if_neg hescape, if_neg hc, ih]

theorem undouble_toLower {quote : Char} (hquote : IsCaseless quote)
    (xs : List Char) :
    undouble quote (xs.map Char.toLower) = (undouble quote xs).map Char.toLower := by
  have hsame (c : Char) : c.toLower = quote ↔ c = quote := toLower_eq_iff hquote
  have hself : quote.toLower = quote := (hsame quote).mpr rfl
  induction xs using undouble.induct quote with
  | case1 c d rest hc ih =>
      simp only [List.map_cons, undouble, hsame, if_pos hc, ih, hself]
  | case2 c d rest hc ih =>
      rw [List.map_cons] at ih
      simp only [List.map_cons, undouble, hsame, if_neg hc, ih]
  | case3 chars h =>
      rcases chars with _ | ⟨c, _ | ⟨d, rest⟩⟩
      · rfl
      · rfl
      · exact (h c d rest rfl).elim

/-- The quotes around a name are no letters. -/
theorem quote_of_mem_scan {script : String} (ht : t ∈ scan script)
    (hkind : t.kind = .quotedIdentifier) :
    ∃ quote body, t.text.toList = quote :: body ∧ IsCaseless quote := by
  obtain ⟨c, more, rest, hlex, htext⟩ :=
    (Lexer.cut_scanFrom 0 script.toList).lexeme_of_mem ht
  have hc : c = '"' ∨ c = '`' := Lexer.eq_quote_of_lexeme (hlex.trans (by rw [hkind]))
  refine ⟨c, more, htext, ?_⟩
  rcases hc with rfl | rfl
  · decide
  · decide

/-- What a token stands for in lower case is what it stands for, in lower case. -/
theorem value_toLower {script : String} (ht : t ∈ scan script) :
    t.toLower.value = t.value.toLower := by
  by_cases hkind : t.kind = .quotedIdentifier
  · obtain ⟨quote, body, htext, hquote⟩ := quote_of_mem_scan ht hkind
    have hself : quote.toLower = quote := (toLower_eq_iff hquote).mpr rfl
    have htext' : t.text.toLower.toList = quote :: body.map Char.toLower := by
      rw [toList_toLower, htext, List.map_cons, hself]
    simp only [value, isUnterminated, toLower, hkind, htext, htext', List.headD_cons,
      List.tail_cons, isClosedBody_toLower hquote]
    rw [toLower_ofList, ← undouble_toLower hquote, apply_ite (List.map Char.toLower),
      List.map_dropLast]
  · have hvalue (u : Token) (hu : u.kind ≠ .quotedIdentifier) : u.value = u.text := by
      unfold value
      split
      · next h _ => exact absurd h hu
      · rfl
    rw [hvalue t hkind, hvalue t.toLower hkind, toLower]

end Token

/-- The change to lower case. -/
def Change.toLower : Change := ⟨id, id, String.toLower, lower_toLower⟩

/-- A token of a script in lower case is what it was. -/
theorem Token.recased_toLower {script : String} {t : Token} (ht : t ∈ scan script) :
    t.Recased .toLower t.toLower where
  kind := rfl
  value _ := value_toLower ht
  span := by
    rw [span, span, stop_toLower]
    rfl
  upper _ := upper_toLower t.text

end SqlTables
