import SqlTables.Proofs.Token.Literal
import SqlTables.Proofs.Token.Lossless

/-!
# Where two texts meet

If a line ends behind a text, the text is read as it is alone, and what follows is read for
itself (`Lexer.Cut.filter_append`). Blanks at the end apart, for which this holds of the
tokens that count, it takes that no string, quoted name or block comment is left open at the
end of the text, and no substitution.
-/

namespace SqlTables

namespace Lexer

open Token

variable {c d f : Char} {b r xs more : List Char} {o : Nat} {ts us : List Token}
  {quote : Char} {escapes inside : Bool} {kind : TokenKind}

/-! ## The last token -/

/-- A word ends before the end of a line, if it is outside a substitution there. -/
theorem word_newline (h : word inside xs = xs) (hclosed : inside → '}' ∈ xs) (r : List Char) :
    word inside (xs ++ '\n' :: r) = xs := by
  induction xs generalizing inside with
  | nil =>
      have hinside : inside = false := by
        cases inside with
        | false => rfl
        | true => exact absurd (hclosed rfl) List.not_mem_nil
      have hchar : isWordChar '\n' = false := by decide
      simp [word, hinside, hchar]
  | cons c xs ih =>
      rw [word] at h
      rw [List.cons_append, word]
      split at h
      · next hinside =>
          rw [List.cons.injEq] at h
          rw [if_pos hinside, ih h.2]
          intro hc
          exact (List.mem_cons.mp (hclosed hinside)).resolve_left (Ne.symm (of_decide_eq_true hc))
      · next hinside =>
          rw [if_neg hinside]
          split at h
          · next hopen =>
              split at h
              · next hbrace =>
                  rw [List.cons.injEq] at h
                  have hhead : (xs ++ '\n' :: r).head? = some '{' :=
                    by rw [List.head?_append, hopen.2, Option.some_or]
                  rw [if_pos ⟨hopen.1, hhead⟩, if_pos (List.mem_append_left _ hbrace),
                    ih h.2 fun _ => hbrace]
              · cases h
          · next hopen =>
              split at h
              · next hchar =>
                  rw [List.cons.injEq] at h
                  have hhead : ¬ (c = '$' ∧ (xs ++ '\n' :: r).head? = some '{') := by
                    intro hc
                    cases xs with
                    | nil => cases hc.2
                    | cons d xs => exact hopen hc
                  rw [if_neg hhead, if_pos hchar, ih h.2 Bool.noConfusion]
              · cases h

/-- The end of a line tells no rule from another. -/
theorem start_newline (c : Char) {xs : List Char}
    (hclosed : c = '$' → xs.head? = some '{' → '}' ∈ xs) (r : List Char) :
    start c (xs ++ '\n' :: r) = start c xs := by
  by_cases hxs : xs = []
  · have hdigit : Unicode.isDigit '\n' = false := by decide
    subst hxs
    exact start_eq_start_nil (by simp) (by simp) (by simp) (by simp [hdigit])
  · exact start_append hxs fun hc hhead _ => hclosed hc hhead

/-- A `$` that takes what follows it is a substitution, and closed. -/
theorem mem_of_lexeme_dollar (h : lexeme '$' more = (kind, more)) (hhead : more.head? = some '{') :
    '}' ∈ more := by
  by_contra hmore
  rw [lexeme_eq_read, start_dollar hhead, if_neg hmore, Start.read, Prod.mk.injEq] at h
  rw [← h.2] at hhead
  cases hhead

/-- What follows the last token of a text does not change it, if the line ends and nothing is
left open. -/
theorem lexeme_newline (h : lexeme c more = (kind, more)) (hc : ¬ Unicode.isBlank c)
    (hclosed : ¬ (⟨kind, String.ofList (c :: more), o⟩ : Token).isUnterminated)
    (r : List Char) : lexeme c (more ++ '\n' :: r) = (kind, more) := by
  have hstart := start_newline c (fun hdollar => mem_of_lexeme_dollar (hdollar ▸ h)) r
  have hfits := fits_start c more
  simp only [Token.isUnterminated, String.toList_ofList, List.tail_cons, List.headD_cons] at hclosed
  rw [lexeme_eq_read, hstart]
  rw [lexeme_eq_read] at h
  generalize start c more = s at h hfits ⊢
  cases s with
  | blank => exact absurd hfits hc
  | line =>
      rw [Start.read, Prod.mk.injEq] at h
      rw [Start.read, takeWhile_append_stop (by decide), h.1, h.2]
  | block =>
      obtain ⟨rfl, hstar⟩ := hfits
      obtain ⟨xs, rfl⟩ := List.head?_eq_some_iff.mp hstar
      rw [Start.read, Prod.mk.injEq, List.tail_cons, List.cons.injEq] at h
      obtain ⟨rfl, -, hxs⟩ := h
      have hclose : ['*', '/'] <:+ xs := by
        rw [← isClosedComment_iff]
        simpa using hclosed
      rw [Start.read, List.cons_append, List.tail_cons, blockComment_append hxs hclose]
  | string =>
      obtain rfl : c = '\'' := hfits
      rw [Start.read, Prod.mk.injEq] at h
      obtain ⟨rfl, -⟩ := h
      rw [Start.read, quoted_append (by decide) (by simpa using hclosed) (by simp)]
  | quotedName =>
      rw [Start.read, Prod.mk.injEq] at h
      obtain ⟨rfl, -⟩ := h
      have hnext : ('\n' :: r).head? ≠ some c := by
        rintro ⟨⟩
        exact hfits.elim (by decide) (by decide)
      rw [Start.read, quoted_append (by simp) (by simpa using hclosed) hnext]
  | substitution =>
      rw [Start.read, Prod.mk.injEq] at h
      rw [Start.read, word_newline h.2 fun _ => hfits.2.2, h.1]
  | number =>
      rw [Start.read, Prod.mk.injEq] at h
      rw [Start.read, ← List.cons_append, number_append (by decide), h.1, h.2]
  | word =>
      rw [Start.read, Prod.mk.injEq] at h
      rw [Start.read, word_newline h.2 Bool.noConfusion, ← h.1, h.2]
  | mark => exact h

/-! ## Blanks -/

/-- A token that begins with a blank is made of blanks. -/
theorem blank_of_lexeme (h : lexeme c xs = (kind, more)) (hc : Unicode.isBlank c) :
    kind = .whitespace ∧ ∀ d ∈ c :: more, Unicode.isBlank d := by
  rw [lexeme, if_pos hc, Prod.mk.injEq] at h
  obtain ⟨rfl, rfl⟩ := h
  refine ⟨rfl, List.forall_mem_cons.mpr ⟨hc, fun d hd => ?_⟩⟩
  exact List.all_eq_true.mp List.all_takeWhile d hd

/-- A blank between tokens counts for nothing, whatever follows it. -/
theorem filter_scanFrom_blank (o : Nat) (hc : Unicode.isBlank c) (r : List Char) :
    (Lexer.scanFrom o 0 (c :: r)).filter isSignificant =
      (Lexer.scanFrom (o + 1) 0 r).filter isSignificant := by
  have hskip (c : Char) (hc : Unicode.isBlank c) (o : Nat) (r : List Char) :
      (Lexer.scanFrom o 0 (c :: r)).filter isSignificant =
        (Lexer.scanFrom (o + 1) (r.takeWhile Unicode.isBlank).length r).filter isSignificant := by
    rw [Lexer.scanFrom, lexeme, if_pos hc]
    exact List.filter_cons_of_neg Bool.false_ne_true
  rw [hskip c hc]
  cases r with
  | nil => rfl
  | cons d r =>
      by_cases hd : Unicode.isBlank d
      · rw [hskip d hd, List.takeWhile_cons_of_pos hd, List.length_cons, Lexer.scanFrom]
      · rw [List.takeWhile_cons_of_neg hd, List.length_nil]

theorem filter_scanFrom_blanks (o : Nat) (hxs : ∀ c ∈ xs, Unicode.isBlank c) (r : List Char) :
    (Lexer.scanFrom o 0 (xs ++ r)).filter isSignificant =
      (Lexer.scanFrom (o + xs.length) 0 r).filter isSignificant := by
  induction xs generalizing o with
  | nil => rfl
  | cons c xs ih =>
      rw [List.forall_mem_cons] at hxs
      rw [List.cons_append, filter_scanFrom_blank o hxs.1, ih _ hxs.2, List.length_cons,
        Nat.add_assoc, Nat.add_comm 1]

/-- A token that others follow is the same if the text goes on behind the end of a line. -/
theorem Cut.lexeme_append (h : lexeme c (more ++ d :: b) = (kind, more))
    (hb : Cut [] (o + (more.length + 1)) (d :: b) ts)
    (hopen : Token.opensSubstitution (⟨kind, String.ofList (c :: more), o⟩ :: ts) → '}' ∉ r) :
    lexeme c (more ++ d :: (b ++ '\n' :: r)) = (kind, more) := by
  cases stop_lexeme h with
  | here hlex => exact hlex _
  | number hk hlex =>
      have hnumber := number_append (d := '\n') (by decide) (c :: (more ++ d :: b)) r
      rw [List.cons_append, List.append_assoc, List.cons_append] at hnumber
      rw [hlex, hnumber, ← hlex, h]
  | dollar hc hmore hd hclosed =>
      subst hc hmore hd
      have hcut : Cut [] o ('$' :: '{' :: b) _ := .cons (by rwa [List.append_nil]) hb
      have hr := hopen (hcut.opensSubstitution (by simpa using hclosed))
      rw [List.nil_append, lexeme_dollar hclosed] at h
      rw [List.nil_append, lexeme_dollar (by simp [hclosed, hr]), h]
  | unclosed b hd hclosed _ hnone =>
      obtain ⟨rfl, rfl⟩ := List.cons.inj hd
      have hopens := hb.opensSubstitution (by simpa using hclosed)
      have hr := hopen (by rw [Token.opensSubstitution, hopens, Bool.or_true])
      exact hnone _ (by simp [hclosed, hr])

/-- What counts in a text that goes on behind the end of a line. -/
theorem Cut.filter_append (h : Cut [] o b ts) (hopen : Token.opensSubstitution ts → '}' ∉ r)
    (hlast : ∀ t ∈ ts.getLast?, ¬ t.isUnterminated) :
    (Lexer.scanFrom o 0 (b ++ '\n' :: r)).filter isSignificant =
      ts.filter isSignificant ++
        (Lexer.scanFrom (o + b.length) 0 ('\n' :: r)).filter isSignificant := by
  induction h with
  | nil o => rfl
  | @cons o c more b kind ts h hb ih =>
      have hrest : Token.opensSubstitution ts → '}' ∉ r := fun hts => by
        refine hopen ?_
        rw [Token.opensSubstitution, hts, Bool.or_true]
      have hlength : o + (c :: (more ++ b)).length = o + (more.length + 1) + b.length := by
        rw [List.length_cons, List.length_append]
        omega
      have hsame (hlex : lexeme c (more ++ (b ++ '\n' :: r)) = (kind, more))
          (hlast : ∀ t ∈ ts.getLast?, ¬ t.isUnterminated) :
          (Lexer.scanFrom o 0 (c :: (more ++ b) ++ '\n' :: r)).filter isSignificant =
            (⟨kind, String.ofList (c :: more), o⟩ :: ts).filter isSignificant ++
              (Lexer.scanFrom (o + (c :: (more ++ b)).length) 0 ('\n' :: r)).filter
                isSignificant := by
        rw [hlength, List.cons_append, List.append_assoc, scanFrom_cons o hlex rfl,
          ← List.singleton_append, List.filter_append, ih hrest hlast, ← List.append_assoc,
          ← List.filter_append, List.singleton_append]
      rw [List.append_nil] at h
      cases b with
      | nil =>
          cases hb
          rw [List.append_nil] at h
          by_cases hc : Unicode.isBlank c
          · -- The blanks are one token with those that follow.
            obtain ⟨rfl, hblank⟩ := blank_of_lexeme h hc
            rw [List.append_nil, filter_scanFrom_blanks o hblank]
            rfl
          · refine hsame (lexeme_newline h hc (hlast _ rfl) r) ?_
            intro t ht
            cases ht
      | cons d b =>
          refine hsame (Cut.lexeme_append h hb hopen) ?_
          cases hb with
          | cons h hb => exact hlast

/-- A substitution that is open among the tokens is open in the text. -/
theorem Cut.exists_of_opensSubstitution (h : Cut r o b ts) (hopen : Token.opensSubstitution ts) :
    ∃ x y, b = x ++ '$' :: '{' :: y ∧ '}' ∉ y ++ r := by
  induction h with
  | nil o => cases hopen
  | @cons o c more b kind ts h hb ih =>
      rw [Token.opensSubstitution, Bool.or_eq_true, Bool.and_eq_true] at hopen
      rcases hopen with ⟨hdollar, hbrace⟩ | hopen
      · obtain rfl : kind = .punctuation '$' := eq_of_beq hdollar
        obtain ⟨rfl, rfl⟩ := eq_of_lexeme_punctuation h
        cases hb with
        | nil => cases hbrace
        | @cons _ e more b kind ts h' hb =>
            obtain rfl : kind = .punctuation '{' := eq_of_beq hbrace
            obtain ⟨rfl, rfl⟩ := eq_of_lexeme_punctuation h'
            refine ⟨[], b, rfl, fun hclosed => ?_⟩
            rw [List.nil_append, List.nil_append, List.cons_append,
              lexeme_dollar_closed hclosed] at h
            cases h
      · obtain ⟨x, y, rfl, hy⟩ := ih hopen
        exact ⟨c :: (more ++ x), y, by simp, hy⟩

/-! ## Tokens that are left open -/

/-- A quoted text that ends before the end of the text is closed. -/
theorem isClosedBody_of_quoted (h : quoted quote escapes (xs ++ f :: r) = xs) :
    isClosedBody quote escapes xs := by
  induction xs using quoted.induct quote escapes with
  | case1 => exact absurd h (quoted_ne_nil quote escapes f r)
  | case2 c =>
      simp only [List.cons_append, List.nil_append, quoted] at h
      split at h
      · cases h
      · split at h
        · next hquote => simp [isClosedBody, hquote]
        · rw [List.cons.injEq] at h
          exact absurd h.2 (quoted_ne_nil quote escapes f r)
  | case3 c d rest hescape ih =>
      rw [List.cons_append, List.cons_append, quoted, if_pos hescape, List.cons.injEq,
        List.cons.injEq] at h
      rw [isClosedBody, if_pos hescape]
      exact ih h.2.2
  | case4 rest hescape ih =>
      rw [List.cons_append, List.cons_append, quoted, if_neg hescape, if_pos rfl, if_pos rfl,
        List.cons.injEq, List.cons.injEq] at h
      rw [isClosedBody, if_neg hescape, if_pos rfl, decide_eq_true rfl, Bool.true_and]
      exact ih h.2.2
  | case5 d rest hdouble hescape =>
      rw [List.cons_append, List.cons_append, quoted, if_neg hescape, if_pos rfl,
        if_neg hdouble] at h
      cases h
  | case6 c d rest hescape hquote ih =>
      rw [List.cons_append, List.cons_append, quoted, if_neg hescape, if_neg hquote,
        List.cons.injEq, ← List.cons_append] at h
      rw [isClosedBody, if_neg hescape, if_neg hquote]
      exact ih h.2

theorem isSuffix_of_blockComment (h : blockComment (xs ++ f :: r) = xs) : ['*', '/'] <:+ xs := by
  induction xs with
  | nil =>
      rw [List.nil_append, blockComment] at h
      split at h
      · cases h
      · cases h
  | cons c xs ih =>
      rw [List.cons_append, blockComment] at h
      split at h
      · next hclose =>
          rw [List.cons.injEq] at h
          rw [hclose.1, ← h.2]
      · rw [List.cons.injEq] at h
        exact (ih h.2).trans (List.suffix_cons c xs)

/-- A token that something follows is not left open. -/
theorem not_isUnterminated_of_lexeme (h : lexeme c (more ++ f :: r) = (kind, more)) :
    ¬ (⟨kind, String.ofList (c :: more), o⟩ : Token).isUnterminated := by
  simp only [Token.isUnterminated, String.toList_ofList, List.tail_cons, List.headD_cons]
  cases rule_of_lexeme h with
  | line hc _ => simp [hc.1]
  | block hc hmore =>
      obtain ⟨rfl, -⟩ := hc
      cases more with
      | nil => cases hmore
      | cons d xs =>
          obtain ⟨rfl, hxs⟩ := List.cons.inj hmore
          have hclosed := (isClosedComment_iff xs).mpr (isSuffix_of_blockComment hxs)
          simp [hclosed]
  | string hc hmore =>
      subst hc
      simp [isClosedBody_of_quoted hmore]
  | quotedName _ hmore => simp [isClosedBody_of_quoted hmore]
  | blank => exact Bool.false_ne_true
  | substitution => exact Bool.false_ne_true
  | number => exact Bool.false_ne_true
  | keyword => exact Bool.false_ne_true
  | name => exact Bool.false_ne_true
  | mark => exact Bool.false_ne_true

/-- Only the last token of a text can be left open. -/
theorem Cut.eq_nil_of_isUnterminated {t : Token} (h : Cut r o b (ts ++ t :: us))
    (ht : t.isUnterminated) : us = [] ∧ r = [] := by
  obtain ⟨b₁, b₂, -, -, hcut⟩ := h.of_append
  cases hcut with
  | @cons _ c more b kind _ hlex hb =>
      cases hrest : b ++ r with
      | nil =>
          obtain ⟨rfl, hr⟩ := List.append_eq_nil_iff.mp hrest
          cases hb
          exact ⟨rfl, hr⟩
      | cons f rest =>
          rw [hrest] at hlex
          exact absurd ht (not_isUnterminated_of_lexeme hlex)

end Lexer

end SqlTables
