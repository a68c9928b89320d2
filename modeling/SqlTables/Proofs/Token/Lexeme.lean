import SqlTables.Proofs.Token.Rule

/-!
# Where a token ends

A token ends where the character after it tells it to, and what stands behind that
character does not matter (`lexeme_stop`), with two exceptions. A number looks on, but not
past a character that belongs to no number. And a `${` looks for its `}` through all that
follows: without one it ends a word, and with one it belongs to the word.
-/

namespace SqlTables

namespace Lexer

variable {e f c d : Char} {w r x xs ys more b : List Char}

theorem takeWhile_stop {p : Char → Bool} (h : (xs ++ f :: r).takeWhile p = xs)
    (r' : List Char) : (xs ++ f :: r').takeWhile p = xs := by
  induction xs with
  | nil =>
      rw [List.nil_append, List.takeWhile_cons] at h ⊢
      split at h
      · cases h
      · next hf => rw [if_neg hf]
  | cons c xs ih =>
      rw [List.cons_append, List.takeWhile_cons] at h ⊢
      split at h
      · next hc =>
          rw [List.cons.injEq] at h
          rw [if_pos hc, ih h.2]
      · cases h

theorem takeWhile_append_stop {p : Char → Bool} (hf : p f = false) (ys r : List Char) :
    (ys ++ f :: r).takeWhile p = ys.takeWhile p := by
  induction ys with
  | nil => rw [List.nil_append, List.takeWhile_cons, hf]; rfl
  | cons c ys ih => rw [List.cons_append, List.takeWhile_cons, List.takeWhile_cons, ih]

theorem quoted_ne_nil (quote : Char) (escapes : Bool) (c : Char) (rest : List Char) :
    quoted quote escapes (c :: rest) ≠ [] := by
  unfold quoted
  split
  · cases ‹_ :: _ = []›
  · exact List.cons_ne_nil _ _
  · split
    · exact List.cons_ne_nil _ _
    · split
      · split
        · exact List.cons_ne_nil _ _
        · exact List.cons_ne_nil _ _
      · exact List.cons_ne_nil _ _

theorem quoted_stop {quote : Char} {escapes : Bool}
    (h : quoted quote escapes (xs ++ f :: r) = xs) (r' : List Char) :
    quoted quote escapes (xs ++ f :: r') = xs := by
  induction xs using quoted.induct quote escapes with
  | case1 => exact absurd h (quoted_ne_nil quote escapes f r)
  | case2 c =>
      simp only [List.cons_append, List.nil_append, quoted] at h ⊢
      split at h
      · cases h
      · next hescape =>
          rw [if_neg hescape]
          split at h
          · next hquote =>
              split at h
              · cases h
              · next hdouble => rw [if_pos hquote, if_neg hdouble]
          · rw [List.cons.injEq] at h
            exact absurd h.2 (quoted_ne_nil quote escapes f r)
  | case3 c d rest hescape ih =>
      simp only [List.cons_append, quoted, hescape, if_true, List.cons.injEq, true_and] at h ⊢
      exact ih h
  | case4 rest hescape ih =>
      simp only [List.cons_append, quoted, hescape, if_true, if_false, Bool.false_eq_true,
        List.cons.injEq, true_and] at h ⊢
      exact ih h
  | case5 d rest hdouble hescape =>
      simp [quoted, hescape, hdouble] at h
  | case6 c d rest hescape hquote ih =>
      simp only [List.cons_append, quoted, hescape, hquote, if_false, Bool.false_eq_true,
        List.cons.injEq, true_and] at h ⊢
      exact ih h

theorem blockComment_stop (h : blockComment (xs ++ f :: r) = xs) (r' : List Char) :
    blockComment (xs ++ f :: r') = xs := by
  induction xs with
  | nil =>
      rw [List.nil_append, blockComment] at h
      split at h
      · cases h
      · cases h
  | cons c xs ih =>
      have hhead : (xs ++ f :: r').head? = (xs ++ f :: r).head? := by cases xs <;> rfl
      rw [List.cons_append, blockComment] at h ⊢
      rw [hhead]
      split at h
      · next hclose => rw [if_pos hclose, h]
      · next hclose =>
          rw [List.cons.injEq] at h
          rw [if_neg hclose, ih h.2]

/-! ## Words -/

/-- Inside a substitution a word goes on up to its `}`. -/
theorem mem_of_word_true (h : word true (xs ++ f :: r) = xs) : '}' ∈ xs := by
  induction xs with
  | nil =>
      rw [List.nil_append, word, if_pos rfl] at h
      cases h
  | cons c xs ih =>
      rw [List.cons_append, word, if_pos rfl, List.cons.injEq] at h
      by_cases hc : c = '}'
      · rw [hc]
        exact List.mem_cons_self
      · rw [decide_eq_true hc] at h
        exact List.mem_cons_of_mem c (ih h.2)

/-- The first character of a word that ends before `f` is read as if `f` were all that
follows. -/
theorem word_cons {inside : Bool} (h : word inside (c :: xs ++ f :: r) = c :: xs) :
    ∃ next, word next (xs ++ f :: r) = xs ∧
      ∀ r', word inside (c :: xs ++ f :: r') = c :: word next (xs ++ f :: r') := by
  have hhead (r' : List Char) : (xs ++ f :: r').head? = (xs ++ f :: r).head? := by
    cases xs <;> rfl
  rw [List.cons_append, word] at h
  split at h
  · next hinside =>
      rw [List.cons.injEq] at h
      refine ⟨_, h.2, fun r' => ?_⟩
      rw [List.cons_append, word, if_pos hinside]
  · next hinside =>
      split at h
      · next hopen =>
          split at h
          · rw [List.cons.injEq] at h
            refine ⟨true, h.2, fun r' => ?_⟩
            have hclosed : '}' ∈ xs ++ f :: r' :=
              List.mem_append_left _ (mem_of_word_true h.2)
            rw [List.cons_append, word, if_neg hinside, hhead, if_pos hopen, if_pos hclosed]
          · cases h
      · next hopen =>
          split at h
          · next hchar =>
              rw [List.cons.injEq] at h
              refine ⟨false, h.2, fun r' => ?_⟩
              rw [List.cons_append, word, if_neg hinside, hhead, if_neg hopen, if_pos hchar]
          · cases h

/-- A word that ends before a `$` ends before a substitution that is not closed; if it were
closed, it would belong to the word. -/
theorem word_stop {inside : Bool} (h : word inside (xs ++ f :: r) = xs) :
    (∀ r', word inside (xs ++ f :: r') = xs) ∨
      ∃ r', f :: r = '$' :: '{' :: r' ∧ '}' ∉ r' ∧
        (∀ y, '}' ∈ y → word inside (xs ++ '$' :: '{' :: y) = xs ++ '$' :: '{' :: word true y) ∧
        ∀ y, '}' ∉ y → word inside (xs ++ '$' :: '{' :: y) = xs := by
  induction xs generalizing inside with
  | nil =>
      rw [List.nil_append, word] at h
      split at h
      · cases h
      · next hinside =>
          split at h
          · next hopen =>
              split at h
              · cases h
              · next hclosed =>
                  obtain ⟨rfl, hhead⟩ := hopen
                  obtain ⟨r', rfl⟩ := List.head?_eq_some_iff.mp hhead
                  rw [List.mem_cons, not_or] at hclosed
                  refine Or.inr ⟨r', rfl, hclosed.2, fun y hy => ?_, fun y hy => ?_⟩
                  · simp [word, hinside, hy]
                  · simp [word, hinside, hy]
          · next hopen =>
              split at h
              · cases h
              · next hchar =>
                  left
                  intro r'
                  have hf : f ≠ '$' := by
                    rintro rfl
                    exact hchar (by decide)
                  simp [word, hinside, hf, hchar]
  | cons c xs ih =>
      obtain ⟨next, hnext, hcons⟩ := word_cons h
      rcases ih hnext with hstop | ⟨r', hopen, hclosed, hword, hnone⟩
      · exact Or.inl fun r' => by rw [hcons, hstop]
      · obtain ⟨rfl, rfl⟩ := List.cons.inj hopen
        exact Or.inr ⟨r', rfl, hclosed, fun y hy => by rw [hcons, hword y hy, List.cons_append],
          fun y hy => by rw [hcons, hnone y hy]⟩

/-! ## Numbers -/

/-- Whether the character can stand in a number. -/
def isNumberChar (c : Char) : Bool :=
  Unicode.isDigit c || c = '.' || c = 'e' || c = 'E' || c = '+' || c = '-'

theorem fraction_append (hd : isNumberChar d = false) (ys x : List Char) :
    fraction (ys ++ d :: x) = fraction ys := by
  simp only [isNumberChar, Bool.or_eq_false_iff, decide_eq_false_iff_not] at hd
  obtain ⟨⟨⟨⟨⟨hdigit, hpoint⟩, -⟩, -⟩, -⟩, -⟩ := hd
  cases ys with
  | nil =>
      rw [List.nil_append]
      unfold fraction
      split
      · next heq => exact absurd (List.cons.inj heq).1 hpoint
      · rfl
  | cons c ys =>
      cases ys with
      | nil => by_cases hc : c = '.' <;> simp [fraction, hdigit, hc]
      | cons e ys =>
          by_cases hc : c = '.'
          · subst hc
            simp only [List.cons_append, fraction, takeWhile_append_stop hdigit]
          · simp [fraction, hc]

theorem exponent_append (hd : isNumberChar d = false) (ys x : List Char) :
    exponent (ys ++ d :: x) = exponent ys := by
  simp only [isNumberChar, Bool.or_eq_false_iff, decide_eq_false_iff_not] at hd
  obtain ⟨⟨⟨⟨⟨hdigit, -⟩, he⟩, hE⟩, hplus⟩, hminus⟩ := hd
  cases ys with
  | nil => simp [exponent, he, hE]
  | cons c ys =>
      cases ys with
      | nil => simp [exponent, hplus, hminus, hdigit]
      | cons e ys =>
          have hsign : (List.filter (fun c => c = '+' || c = '-') [e]).length ≤
              (e :: ys).length :=
            Nat.le_trans (List.length_filter_le _ _) (Nat.le_add_left 1 ys.length)
          have hpower (n : Nat) (hn : n ≤ (e :: ys).length) :
              ((e :: (ys ++ d :: x)).drop n).takeWhile Unicode.isDigit =
                ((e :: ys).drop n).takeWhile Unicode.isDigit := by
            rw [← List.cons_append, List.drop_append_of_le_length hn,
              takeWhile_append_stop hdigit]
          simp only [List.cons_append, exponent, List.take_succ_cons, List.take_zero,
            hpower _ hsign]
          rfl

theorem length_fraction_le (ys : List Char) : (fraction ys).length ≤ ys.length := by
  unfold fraction
  split
  · split
    · simpa using (List.takeWhile_prefix _).length_le
    · exact Nat.zero_le _
  · exact Nat.zero_le _

/-- A number does not look past a character that belongs to none. -/
theorem number_append (hd : isNumberChar d = false) (ys x : List Char) :
    number (ys ++ d :: x) = number ys := by
  have hdigit : Unicode.isDigit d = false := by
    simp only [isNumberChar, Bool.or_eq_false_iff] at hd
    exact hd.1.1.1.1.1
  have hwhole : (ys.takeWhile Unicode.isDigit).length ≤ ys.length :=
    (List.takeWhile_prefix _).length_le
  have hpart := length_fraction_le (ys.drop (ys.takeWhile Unicode.isDigit).length)
  rw [List.length_drop] at hpart
  simp only [number, takeWhile_append_stop hdigit, List.drop_append_of_le_length hwhole,
    fraction_append hd]
  rw [List.drop_append_of_le_length (by omega), exponent_append hd]

/-! ## Tokens -/

/-- How a token that takes `more` depends on what stands from the next character `f` on. -/
inductive Stop (c : Char) (more : List Char) (f : Char) (r : List Char) (k : TokenKind) : Prop
  /-- On that character at most. -/
  | here (h : ∀ r', lexeme c (more ++ f :: r') = (k, more))
  /-- As a number does. -/
  | number (hk : k = .number) (h : ∀ r', lexeme c (more ++ f :: r') =
      (.number, (Lexer.number (c :: (more ++ f :: r'))).tail))
  /-- It is the `$` of a substitution that is not closed. -/
  | dollar (hc : c = '$') (hmore : more = []) (hf : f = '{') (hr : '}' ∉ r)
  /-- A substitution that is not closed follows. -/
  | unclosed (r' : List Char) (hf : f :: r = '$' :: '{' :: r') (hr : '}' ∉ r')
      (h : ∀ y, '}' ∈ y → ∃ k', lexeme c (more ++ '$' :: '{' :: y) =
        (k', more ++ '$' :: '{' :: word true y))
      (hnone : ∀ y, '}' ∉ y → lexeme c (more ++ '$' :: '{' :: y) = (k, more))

/-- A rule that stops at the same character whatever follows it. -/
theorem Stop.of_stable {k k' : TokenKind} {g : List Char → List Char}
    (hlex : ∀ r', lexeme c (more ++ f :: r') = (k', g (more ++ f :: r')))
    (h : lexeme c (more ++ f :: r) = (k, more))
    (hstop : g (more ++ f :: r) = more → ∀ r', g (more ++ f :: r') = more) :
    Stop c more f r k := by
  rw [hlex, Prod.mk.injEq] at h
  exact .here fun r' => by rw [hlex, hstop h.2, h.1]

/-- A rule that reads a word. -/
theorem Stop.of_word {k : TokenKind} (inside : Bool) (g : List Char → TokenKind)
    (hlex : ∀ r', lexeme c (more ++ f :: r') =
      (g (word inside (more ++ f :: r')), word inside (more ++ f :: r')))
    (h : lexeme c (more ++ f :: r) = (k, more)) : Stop c more f r k := by
  rw [hlex, Prod.mk.injEq] at h
  rcases word_stop h.2 with hstop | ⟨r', hopen, hr, hword, hnone⟩
  · exact .here fun r' => by rw [hlex, hstop, ← h.1, h.2]
  · obtain ⟨rfl, rfl⟩ := List.cons.inj hopen
    refine .unclosed r' rfl hr (fun y hy => ⟨g (word inside (more ++ '$' :: '{' :: y)), ?_⟩)
      fun y hy => ?_
    · rw [hlex, hword y hy]
    · rw [hlex, hnone y hy, ← h.1, h.2]

/-- A token is read by the same rule whatever follows the next character, unless it is the `$` of
a substitution that is not closed. -/
theorem start_stop {k : TokenKind} (h : lexeme c (more ++ f :: r) = (k, more)) :
    (∀ r', start c (more ++ f :: r') = start c (more ++ f :: r)) ∨
      (c = '$' ∧ more = [] ∧ f = '{' ∧ '}' ∉ r) := by
  have happend (r' : List Char) : more ++ f :: r' = more ++ [f] ++ r' := by simp
  by_cases hopen : c = '$' ∧ (more ++ [f]).head? = some '{' ∧ '}' ∉ more
  · obtain ⟨rfl, hhead, hmore⟩ := hopen
    have hhead' : (more ++ f :: r).head? = some '{' := by
      rw [happend, List.head?_append, hhead, Option.some_or]
    have hclosed : '}' ∉ more ++ f :: r := by
      intro hclosed
      rw [lexeme_eq_read, start_dollar hhead', if_pos hclosed] at h
      exact hmore (mem_of_word_true (congrArg Prod.snd h))
    rw [lexeme_eq_read, start_dollar hhead', if_neg hclosed] at h
    obtain rfl : [] = more := congrArg Prod.snd h
    obtain rfl : f = '{' := Option.some.inj hhead
    exact Or.inr ⟨rfl, rfl, rfl, fun hr => hclosed (List.mem_cons_of_mem _ hr)⟩
  · left
    have hstart (r' : List Char) : start c (more ++ f :: r') = start c (more ++ [f]) := by
      rw [happend]
      refine start_append (by simp) fun hc hhead _ => List.mem_append_left _ ?_
      by_contra hmore
      exact hopen ⟨hc, hhead, hmore⟩
    exact fun r' => (hstart r').trans (hstart r).symm

theorem stop_lexeme {k : TokenKind} (h : lexeme c (more ++ f :: r) = (k, more)) :
    Stop c more f r k := by
  rcases start_stop h with hstart | ⟨hc, hmore, hf, hr⟩
  · have hlex (r' : List Char) : lexeme c (more ++ f :: r') =
        (start c (more ++ f :: r)).read c (more ++ f :: r') := by rw [lexeme_eq_read, hstart]
    generalize start c (more ++ f :: r) = s at hlex
    cases s with
    | blank => exact .of_stable hlex h takeWhile_stop
    | line => exact .of_stable hlex h takeWhile_stop
    | block =>
        refine .of_stable (g := fun rest => '*' :: blockComment rest.tail) hlex h fun hmore r' => ?_
        cases more with
        | nil => cases hmore
        | cons e more =>
            obtain ⟨rfl, hmore⟩ := List.cons.inj hmore
            rw [List.cons_append, List.tail_cons, blockComment_stop hmore]
    | string => exact .of_stable hlex h quoted_stop
    | quotedName => exact .of_stable hlex h quoted_stop
    | substitution => exact .of_word true (fun _ => .identifier) hlex h
    | number => exact .number (congrArg Prod.fst (h.symm.trans (hlex r))) hlex
    | word => exact .of_word false (fun more => wordKind (c :: more)) hlex h
    | mark => exact .of_stable (g := fun _ => []) hlex h fun hmore _ => hmore
  · exact .dollar hc hmore hf hr

/-- What a token takes does not depend on what follows a quote or a slash behind it, unless
a substitution is open in between: one that the token starts, being a lone `$` then, or one
that starts right after it. A `}` that follows would make it part of the token. -/
theorem lexeme_stop {k : TokenKind} (hd : d = '\'' ∨ d = '/')
    (h : lexeme c (more ++ (b ++ d :: x)) = (k, more)) :
    (∀ x', lexeme c (more ++ (b ++ d :: x')) = (k, more)) ∨
      (c = '$' ∧ more = [] ∧ ∃ b', b = '{' :: b' ∧ '}' ∉ b' ++ d :: x) ∨
      ∃ b', b = '$' :: '{' :: b' ∧ '}' ∉ b' ++ d :: x ∧
        ∀ y, '}' ∈ y → ∃ k', lexeme c (more ++ '$' :: '{' :: y) =
          (k', more ++ '$' :: '{' :: word true y) := by
  have hnumber : isNumberChar d = false := by
    rcases hd with rfl | rfl
    · decide
    · decide
  obtain ⟨f, g, hnext⟩ : ∃ (f : Char) (g : List Char → List Char),
      ∀ y, b ++ d :: y = f :: g y := by
    cases b with
    | nil => exact ⟨d, id, fun _ => rfl⟩
    | cons f b => exact ⟨f, fun y => b ++ d :: y, fun _ => rfl⟩
  rw [hnext] at h
  cases stop_lexeme h with
  | here hlex => exact Or.inl fun x' => by rw [hnext, hlex]
  | number hk hlex =>
      left
      intro x'
      have hsame : number (c :: (more ++ f :: g x')) = number (c :: (more ++ f :: g x)) := by
        have happend := number_append hnumber (c :: (more ++ b))
        simp only [List.cons_append, List.append_assoc, hnext] at happend
        rw [happend, happend]
      rw [hnext, hlex, hsame, ← hlex, h]
  | dollar hc hmore hf hr =>
      refine Or.inr (Or.inl ⟨hc, hmore, ?_⟩)
      have hx := hnext x
      rw [hf] at hx
      cases b with
      | nil => rcases hd with rfl | rfl <;> cases hx
      | cons e b =>
          rw [List.cons_append, List.cons.injEq] at hx
          exact ⟨b, by rw [hx.1], by rwa [hx.2]⟩
  | unclosed r' hf hr hlex _ =>
      right
      right
      have hx := (hnext x).trans hf
      rcases b with _ | ⟨e, _ | ⟨e', b⟩⟩
      · rcases hd with rfl | rfl <;> cases hx
      · rcases hd with rfl | rfl <;> cases hx
      · cases hx
        exact ⟨b, rfl, hr, hlex⟩

end Lexer

end SqlTables
