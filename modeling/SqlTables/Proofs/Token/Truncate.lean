import SqlTables.Proofs.Token.Cut

/-!
# Tokens at the end of a text

A token that ends inside a text is the same if the text ends there: what a rule takes of
`xs ++ y` without going past `xs` it takes of `xs` alone (`lexeme_truncate`). The exception
is a word before a `$` that is the last of `xs`, where `y` begins with `{`: the `${` ends
the word, and the `$` alone belongs to it.
-/

namespace SqlTables

/-- Whether the token is a word: a keyword or an identifier without quotes. -/
def Token.isWord (t : Token) : Bool :=
  match t.kind with
  | .keyword _ | .identifier => true
  | _ => false

namespace Lexer

variable {c : Char} {xs y more : List Char}

theorem takeWhile_truncate {p : Char → Bool}
    (h : ((xs ++ y).takeWhile p).length ≤ xs.length) :
    xs.takeWhile p = (xs ++ y).takeWhile p := by
  rw [List.takeWhile_append] at h ⊢
  split
  · next hall =>
      rw [if_pos hall, List.length_append] at h
      have hnil : y.takeWhile p = [] := List.eq_nil_of_length_eq_zero (by omega)
      rw [hnil, List.append_nil]
      exact (List.takeWhile_prefix p).eq_of_length hall
  · rfl

theorem quoted_truncate {quote : Char} {escapes : Bool}
    (h : (quoted quote escapes (xs ++ y)).length ≤ xs.length) :
    quoted quote escapes xs = quoted quote escapes (xs ++ y) := by
  induction xs using quoted.induct quote escapes with
  | case1 => exact (List.eq_nil_of_length_eq_zero (Nat.le_zero.mp h)).symm
  | case2 c =>
      cases y with
      | nil => rfl
      | cons d y =>
          have hmore := List.length_pos_iff.mpr (quoted_ne_nil quote escapes d y)
          simp only [List.cons_append, List.nil_append, quoted] at h ⊢
          split
          · next hescape => simp [hescape] at h
          · next hescape =>
              rw [if_neg hescape] at h
              split
              · next hquote =>
                  rw [if_pos hquote] at h
                  split
                  · next hdouble => simp [hdouble] at h
                  · rfl
              · next hquote =>
                  rw [if_neg hquote, List.length_cons, List.length_singleton] at h
                  omega
  | case3 c d rest hescape ih =>
      simp only [List.cons_append, quoted, hescape, if_true, List.length_cons,
        Nat.add_le_add_iff_right] at h ⊢
      rw [ih h]
  | case4 rest hescape ih =>
      simp only [List.cons_append, quoted, hescape, if_true, if_false, Bool.false_eq_true,
        List.length_cons, Nat.add_le_add_iff_right] at h ⊢
      rw [ih h]
  | case5 d rest hdouble hescape => simp [quoted, hescape, hdouble]
  | case6 c d rest hescape hquote ih =>
      simp only [List.cons_append, quoted, hescape, hquote, if_false, Bool.false_eq_true,
        List.length_cons, Nat.add_le_add_iff_right] at h ⊢
      rw [← List.cons_append, ih h]

theorem head?_append_of_head? {d : Char} (h : xs.head? = some d) (y : List Char) :
    (xs ++ y).head? = some d := by
  rw [List.head?_append, h, Option.some_or]

theorem blockComment_truncate (h : (blockComment (xs ++ y)).length ≤ xs.length) :
    blockComment xs = blockComment (xs ++ y) := by
  induction xs with
  | nil => exact (List.eq_nil_of_length_eq_zero (Nat.le_zero.mp h)).symm
  | cons c xs ih =>
      rw [List.cons_append, blockComment] at h ⊢
      rw [blockComment]
      by_cases hclose : c = '*' ∧ (xs ++ y).head? = some '/'
      · rw [if_pos hclose] at h ⊢
        cases xs with
        | nil => simp at h
        | cons d xs => exact if_pos hclose
      · rw [if_neg hclose, List.length_cons, List.length_cons, Nat.add_le_add_iff_right] at h
        rw [if_neg hclose, if_neg fun hc => hclose ⟨hc.1, head?_append_of_head? hc.2 y⟩, ih h]

/-! ## Words -/

/-- A substitution that ends inside a text is closed there. -/
theorem mem_of_word_true_truncate (h : (word true (xs ++ y)).length ≤ xs.length)
    (hy : '}' ∈ xs ++ y) : '}' ∈ xs := by
  induction xs with
  | nil =>
      cases y with
      | nil => cases hy
      | cons d y =>
          rw [List.nil_append, word, if_pos rfl] at h
          cases h
  | cons c xs ih =>
      rw [List.cons_append, word, if_pos rfl, List.length_cons, List.length_cons,
        Nat.add_le_add_iff_right] at h
      by_cases hc : c = '}'
      · rw [hc]
        exact List.mem_cons_self
      · rw [decide_eq_true hc] at h
        refine List.mem_cons_of_mem c (ih h ?_)
        exact (List.mem_cons.mp hy).resolve_left (Ne.symm hc)

theorem word_truncate {inside : Bool} (h : (word inside (xs ++ y)).length ≤ xs.length)
    (hopen : y.head? = some '{' → xs ≠ word inside (xs ++ y) ++ ['$']) :
    word inside xs = word inside (xs ++ y) := by
  induction xs generalizing inside with
  | nil => exact (List.eq_nil_of_length_eq_zero (Nat.le_zero.mp h)).symm
  | cons c xs ih =>
      have hrest {next : Bool} (hword : word inside (c :: (xs ++ y)) = c :: word next (xs ++ y)) :
          word next xs = word next (xs ++ y) := by
        rw [List.cons_append, hword] at h hopen
        rw [List.length_cons, List.length_cons, Nat.add_le_add_iff_right] at h
        refine ih h fun hy hxs => hopen hy ?_
        rw [List.cons_append, ← hxs]
      rw [List.cons_append, word, word]
      by_cases hinside : inside
      · rw [if_pos hinside, if_pos hinside, hrest (by rw [word, if_pos hinside])]
      rw [if_neg hinside, if_neg hinside]
      by_cases hstart : c = '$' ∧ (xs ++ y).head? = some '{'
      · have hxs : xs ≠ [] := by
          rintro rfl
          -- The substitution goes on behind `xs`, or it is the exception.
          obtain ⟨rfl, hhead⟩ := hstart
          obtain ⟨r, rfl⟩ := List.head?_eq_some_iff.mp hhead
          by_cases hclosed : '}' ∈ '{' :: r
          · simp [word, hinside, List.mem_of_ne_of_mem (by decide) hclosed] at h
          · rw [List.mem_cons, not_or] at hclosed
            refine hopen rfl ?_
            simp [word, hinside, hclosed.2]
        have hstart' : c = '$' ∧ xs.head? = some '{' :=
          ⟨hstart.1, by rw [← List.head?_append_of_ne_nil xs hxs, hstart.2]⟩
        rw [if_pos hstart, if_pos hstart']
        by_cases hclosed : '}' ∈ xs ++ y
        · have hword : word inside (c :: (xs ++ y)) = c :: word true (xs ++ y) := by
            rw [word, if_neg hinside, if_pos hstart, if_pos hclosed]
          rw [List.cons_append, hword, List.length_cons, List.length_cons,
            Nat.add_le_add_iff_right] at h
          rw [if_pos hclosed, if_pos (mem_of_word_true_truncate h hclosed), hrest hword]
        · rw [if_neg hclosed, if_neg fun hmem => hclosed (List.mem_append_left y hmem)]
      · rw [if_neg hstart, if_neg fun hc => hstart ⟨hc.1, head?_append_of_head? hc.2 y⟩]
        by_cases hchar : isWordChar c
        · rw [if_pos hchar, if_pos hchar,
            hrest (by rw [word, if_neg hinside, if_neg hstart, if_pos hchar])]
        · rw [if_neg hchar, if_neg hchar]

/-! ## Numbers -/

theorem fraction_truncate (h : (fraction (xs ++ y)).length ≤ xs.length) :
    fraction xs = fraction (xs ++ y) := by
  match xs with
  | [] => exact (List.eq_nil_of_length_eq_zero (Nat.le_zero.mp h)).symm
  | [c] =>
      by_cases hc : c = '.'
      · subst hc
        cases y with
        | nil => rfl
        | cons d y =>
            by_cases hd : Unicode.isDigit d
            · simp [fraction, hd] at h
            · simp [fraction, hd]
      · simp [fraction, hc]
  | c :: d :: xs =>
      by_cases hc : c = '.'
      · subst hc
        by_cases hd : Unicode.isDigit d
        · simp only [List.cons_append, fraction, hd, if_true, List.length_cons,
            Nat.add_le_add_iff_right] at h ⊢
          rw [takeWhile_truncate h]
        · simp [fraction, hd]
      · simp [fraction, hc]

theorem exponent_truncate (h : (exponent (xs ++ y)).length ≤ xs.length) :
    exponent xs = exponent (xs ++ y) := by
  match xs with
  | [] => exact (List.eq_nil_of_length_eq_zero (Nat.le_zero.mp h)).symm
  | [e] =>
      rw [List.cons_append, List.nil_append] at h ⊢
      simp only [exponent] at h ⊢
      split
      · next he =>
          rw [if_pos he] at h
          split at h
          · next hpower =>
              rw [if_pos hpower]
              rfl
          · next hpower =>
              -- An exponent has a digit behind its mark.
              rw [List.isEmpty_iff, ← List.length_eq_zero_iff] at hpower
              simp only [List.length_append, List.length_cons, List.length_nil] at h
              omega
      · rfl
  | e :: s :: xs =>
      have hsign : (List.filter (fun c => c = '+' || c = '-') [s]).length ≤ (s :: xs).length :=
        Nat.le_trans (List.length_filter_le _ _) (Nat.le_add_left 1 xs.length)
      have hdrop (n : Nat) (hn : n ≤ (s :: xs).length) :
          (s :: (xs ++ y)).drop n = (s :: xs).drop n ++ y := by
        rw [← List.cons_append, List.drop_append_of_le_length hn]
      simp only [List.cons_append, exponent, List.take_succ_cons, List.take_zero,
        hdrop _ hsign] at h ⊢
      split
      · next he =>
          rw [if_pos he] at h
          have hpower : ((s :: xs).drop
                (List.filter (fun c => c = '+' || c = '-') [s]).length).takeWhile Unicode.isDigit =
              ((s :: xs).drop (List.filter (fun c => c = '+' || c = '-') [s]).length
                ++ y).takeWhile Unicode.isDigit := takeWhile_truncate (by
            rw [List.length_drop]
            split at h
            · next hempty =>
                rw [List.isEmpty_iff] at hempty
                rw [hempty]
                exact Nat.zero_le _
            · simp only [List.length_append, List.length_cons] at h ⊢
              omega)
          simp only [hpower]
      · rfl

theorem number_truncate (h : (number (xs ++ y)).length ≤ xs.length) :
    number xs = number (xs ++ y) := by
  simp only [number, List.length_append] at h ⊢
  have hwhole : xs.takeWhile Unicode.isDigit = (xs ++ y).takeWhile Unicode.isDigit :=
    takeWhile_truncate (by omega)
  have hle := (List.takeWhile_prefix Unicode.isDigit (l := xs)).length_le
  rw [← hwhole, List.drop_append_of_le_length hle] at h ⊢
  have hpart : fraction (xs.drop (xs.takeWhile Unicode.isDigit).length) =
      fraction (xs.drop (xs.takeWhile Unicode.isDigit).length ++ y) :=
    fraction_truncate (by
      rw [List.length_drop]
      omega)
  have hpart_le := length_fraction_le (xs.drop (xs.takeWhile Unicode.isDigit).length)
  rw [List.length_drop] at hpart_le
  rw [← hpart, List.drop_append_of_le_length (by omega)] at h ⊢
  rw [exponent_truncate (y := y)]
  rw [List.length_drop]
  omega

/-! ## Tokens -/

theorem isWord_wordKind (text : List Char) (s : String) (o : Nat) :
    (⟨wordKind text, s, o⟩ : Token).isWord := by
  unfold wordKind
  split <;> rfl

/-- A rule that asks for the next character takes it. -/
theorem start_nil (h : (lexeme c y).2 = []) : start c [] = start c y := by
  have hother : Unicode.isBlank '-' = false ∧ Unicode.isBlank '/' = false ∧
      Unicode.isBlank '.' = false ∧ Unicode.isDigit '.' = false := by decide
  symm
  refine start_eq_start_nil ?_ ?_ ?_ ?_
  · rintro ⟨rfl, hy⟩
    obtain ⟨r, rfl⟩ := List.head?_eq_some_iff.mp hy
    simp [lexeme, hother] at h
  · rintro ⟨rfl, hy⟩
    obtain ⟨r, rfl⟩ := List.head?_eq_some_iff.mp hy
    simp [lexeme, hother] at h
  · rintro ⟨rfl, hy, hclosed⟩
    obtain ⟨r, rfl⟩ := List.head?_eq_some_iff.mp hy
    rw [lexeme_dollar_closed (by simpa using hclosed)] at h
    cases h
  · rintro ⟨rfl, hy⟩
    obtain ⟨d, hd, hdigit⟩ := (Option.any_eq_true _ _).mp hy
    obtain ⟨r, rfl⟩ := List.head?_eq_some_iff.mp hd
    simp [lexeme, number, fraction, hother, hdigit] at h

theorem start_truncate (h : (lexeme c (xs ++ y)).2.length ≤ xs.length) :
    start c xs = start c (xs ++ y) := by
  by_cases hxs : xs = []
  · subst hxs
    exact start_nil (List.eq_nil_of_length_eq_zero (Nat.le_zero.mp h))
  · refine (start_append hxs fun hc hhead hclosed => ?_).symm
    rw [hc, lexeme_eq_read, start_dollar (head?_append_of_head? hhead y), if_pos hclosed] at h
    exact mem_of_word_true_truncate h hclosed

/-- A token that ends inside a text is the same if the text ends there. -/
theorem lexeme_truncate (h : (lexeme c (xs ++ y)).2.length ≤ xs.length)
    (hopen : y.head? = some '{' → (⟨(lexeme c (xs ++ y)).1, "", 0⟩ : Token).isWord →
      xs ≠ (lexeme c (xs ++ y)).2 ++ ['$']) :
    lexeme c xs = lexeme c (xs ++ y) := by
  have hstart := start_truncate h
  rw [lexeme_eq_read] at h hopen
  rw [lexeme_eq_read, lexeme_eq_read, hstart]
  generalize start c (xs ++ y) = s at h hopen ⊢
  cases s with
  | blank => rw [Start.read, Start.read, takeWhile_truncate h]
  | line => rw [Start.read, Start.read, takeWhile_truncate h]
  | block =>
      cases xs with
      | nil => cases h
      | cons d xs =>
          rw [Start.read, Start.read, List.cons_append, List.tail_cons, List.tail_cons,
            blockComment_truncate (Nat.le_of_succ_le_succ h)]
  | string => rw [Start.read, Start.read, quoted_truncate h]
  | quotedName => rw [Start.read, Start.read, quoted_truncate h]
  | substitution => rw [Start.read, Start.read, word_truncate h fun hy => hopen hy rfl]
  | number =>
      have hnumber : number (c :: xs) = number (c :: xs ++ y) := number_truncate (by
        rw [Start.read, List.length_tail] at h
        rw [List.cons_append, List.length_cons]
        omega)
      rw [Start.read, Start.read, hnumber, List.cons_append]
  | word =>
      dsimp only [Start.read] at h hopen
      have hword := word_truncate h fun hy => hopen hy (isWord_wordKind _ _ _)
      rw [Start.read, Start.read, hword]
  | mark => rfl

end Lexer

end SqlTables
