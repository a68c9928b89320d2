import SqlTables.Proofs.Token.Lossless
import SqlTables.Proofs.Token.Seam

/-!
# Closing delimiters

What closes a quoted text is the first quote that belongs to no pair (`Closes`), and what
closes a block comment is the first `*/` behind its `/*`. Whether a token is terminated is
found in its own text, and it is so just where the text behind its opening delimiter holds
such a closing one (`isUnterminated_iff`).
-/

namespace SqlTables

namespace Lexer

open Token

variable {quote c d : Char} {escapes : Bool} {rest : List Char}

/-- What may stand between two quotes: a quote must be doubled or, where `escapes` is set, stand
behind a backslash. -/
inductive QuotedBody (quote : Char) (escapes : Bool) : List Char → Prop
  | nil : QuotedBody quote escapes []
  | plain {c : Char} {body : List Char} (hquote : c ≠ quote) (hescape : ¬ (escapes && c = '\\'))
      (h : QuotedBody quote escapes body) : QuotedBody quote escapes (c :: body)
  | doubled {body : List Char} (h : QuotedBody quote escapes body) :
      QuotedBody quote escapes (quote :: quote :: body)
  | escaped {body : List Char} (c : Char) (hescapes : escapes) (h : QuotedBody quote escapes body) :
      QuotedBody quote escapes ('\\' :: c :: body)

/-- The text behind an opening quote holds one that closes it. -/
def Closes (quote : Char) (escapes : Bool) (text : List Char) : Prop :=
  ∃ body after, text = body ++ quote :: after ∧ QuotedBody quote escapes body ∧
    after.head? ≠ some quote

theorem not_closes_nil : ¬ Closes quote escapes [] := by
  rintro ⟨body, after, htext, -⟩
  simp at htext

theorem closes_singleton_iff : Closes quote escapes [c] ↔ c = quote := by
  constructor
  · rintro ⟨body, after, htext, -⟩
    cases body with
    | nil => exact (List.cons.inj htext).1
    | cons e body => simp at htext
  · rintro rfl
    exact ⟨[], [], rfl, .nil, nofun⟩

theorem closes_single (h : d ≠ quote) : Closes quote escapes (quote :: d :: rest) :=
  ⟨[], d :: rest, rfl, .nil, fun heq => h (Option.some.inj heq)⟩

theorem closes_plain_iff (hquote : c ≠ quote) (hescape : ¬ (escapes && c = '\\')) :
    Closes quote escapes (c :: rest) ↔ Closes quote escapes rest := by
  constructor
  · rintro ⟨body, after, htext, hbody, hafter⟩
    cases hbody with
    | nil => exact absurd (List.cons.inj htext).1 hquote
    | plain _ _ h => exact ⟨_, after, (List.cons.inj htext).2, h, hafter⟩
    | doubled _ => exact absurd (List.cons.inj htext).1 hquote
    | escaped e hescapes _ =>
        refine absurd ?_ hescape
        rw [(List.cons.inj htext).1, hescapes]
        rfl
  · rintro ⟨body, after, rfl, hbody, hafter⟩
    exact ⟨c :: body, after, rfl, .plain hquote hescape hbody, hafter⟩

theorem closes_doubled_iff (hquote : ¬ (escapes && quote = '\\')) :
    Closes quote escapes (quote :: quote :: rest) ↔ Closes quote escapes rest := by
  constructor
  · rintro ⟨body, after, htext, hbody, hafter⟩
    cases hbody with
    | nil =>
        rw [← (List.cons.inj htext).2] at hafter
        exact absurd rfl hafter
    | plain hne _ _ => exact absurd (List.cons.inj htext).1.symm hne
    | doubled h => exact ⟨_, after, (List.cons.inj (List.cons.inj htext).2).2, h, hafter⟩
    | escaped e hescapes _ =>
        refine absurd ?_ hquote
        rw [(List.cons.inj htext).1, hescapes]
        rfl
  · rintro ⟨body, after, rfl, hbody, hafter⟩
    exact ⟨quote :: quote :: body, after, rfl, .doubled hbody, hafter⟩

theorem closes_escaped_iff (hquote : ¬ (escapes && quote = '\\')) (hescapes : escapes) (d : Char) :
    Closes quote escapes ('\\' :: d :: rest) ↔ Closes quote escapes rest := by
  have hne : quote ≠ '\\' := fun heq => hquote (by rw [hescapes, heq]; rfl)
  constructor
  · rintro ⟨body, after, htext, hbody, hafter⟩
    cases hbody with
    | nil => exact absurd (List.cons.inj htext).1.symm hne
    | plain _ hescape _ =>
        refine absurd ?_ hescape
        rw [← (List.cons.inj htext).1, hescapes]
        rfl
    | doubled _ => exact absurd (List.cons.inj htext).1.symm hne
    | escaped e _ h => exact ⟨_, after, (List.cons.inj (List.cons.inj htext).2).2, h, hafter⟩
  · rintro ⟨body, after, rfl, hbody, hafter⟩
    exact ⟨'\\' :: d :: body, after, rfl, .escaped d hescapes hbody, hafter⟩

/-- A quoted text is terminated where a quote closes it. -/
theorem isClosedBody_quoted_iff (hquote : ¬ (escapes && quote = '\\')) (text : List Char) :
    isClosedBody quote escapes (quoted quote escapes text) ↔ Closes quote escapes text := by
  induction text using quoted.induct quote escapes with
  | case1 => exact iff_of_false Bool.false_ne_true not_closes_nil
  | case2 c => rw [quoted, isClosedBody, decide_eq_true_eq, closes_singleton_iff]
  | case3 c d rest hescape ih =>
      obtain ⟨hescapes, hc⟩ := Bool.and_eq_true_iff.mp hescape
      obtain rfl : c = '\\' := of_decide_eq_true hc
      rw [quoted, if_pos hescape, isClosedBody, if_pos hescape, ih,
        closes_escaped_iff hquote hescapes]
  | case4 rest hescape ih =>
      rw [quoted, if_neg hescape, if_pos rfl, if_pos rfl, isClosedBody, if_neg hescape, if_pos rfl,
        decide_eq_true rfl, Bool.true_and, ih, closes_doubled_iff hquote]
  | case5 d rest hdouble hescape =>
      rw [quoted, if_neg hescape, if_pos rfl, if_neg hdouble, isClosedBody]
      exact iff_of_true (decide_eq_true rfl) (closes_single hdouble)
  | case6 c d rest hescape hne ih =>
      rw [quoted, if_neg hescape, if_neg hne, closes_plain_iff hne hescape, ← ih]
      obtain ⟨e, more, hmore⟩ := List.exists_cons_of_ne_nil (quoted_ne_nil quote escapes d rest)
      rw [hmore, isClosedBody, if_neg hescape, if_neg hne]

theorem isSuffix_blockComment_iff (text : List Char) :
    ['*', '/'] <:+ blockComment text ↔ ['*', '/'] <:+: text := by
  induction text with
  | nil => simp [blockComment]
  | cons c rest ih =>
      rw [blockComment]
      split
      next hclose =>
          obtain ⟨rfl, hhead⟩ := hclose
          obtain ⟨rest, rfl⟩ := List.head?_eq_some_iff.mp hhead
          exact iff_of_true (List.suffix_refl _) (List.prefix_append ['*', '/'] rest).isInfix
      next hclose =>
          have hprefix : ¬ ['*', '/'] <+: c :: rest := by
            rintro ⟨after, hafter⟩
            obtain ⟨rfl, rfl⟩ := List.cons.inj hafter
            exact hclose ⟨rfl, rfl⟩
          have hwhole : ¬ ['*', '/'] = c :: blockComment rest := by
            intro hwhole
            obtain ⟨more, hmore⟩ := blockComment_prefix rest
            rw [List.cons.injEq] at hwhole
            refine hclose ⟨hwhole.1.symm, ?_⟩
            rw [← hmore, ← hwhole.2]
            rfl
          rw [List.suffix_cons_iff, or_iff_right hwhole, ih, List.infix_cons_iff,
            or_iff_right hprefix]

/-! ## Tokens -/

/-- A token of that kind that the text begins with is not closed by anything in the text. -/
inductive RunsOut : TokenKind → List Char → Prop
  | string {rest : List Char} (h : ¬ Closes '\'' true rest) : RunsOut .string ('\'' :: rest)
  | quotedName {quote : Char} {rest : List Char} (h : ¬ Closes quote false rest) :
      RunsOut .quotedIdentifier (quote :: rest)
  | comment {rest : List Char} (h : ¬ ['*', '/'] <:+: rest) :
      RunsOut .comment ('/' :: '*' :: rest)

/-- The mark of an unterminated token is found in its own text, but says what the whole text
behind its opening delimiter holds. -/
theorem isUnterminated_iff {kind : TokenKind} {more : List Char} {o : Nat}
    (h : lexeme c rest = (kind, more)) :
    (⟨kind, String.ofList (c :: more), o⟩ : Token).isUnterminated ↔ RunsOut kind (c :: rest) := by
  simp only [Token.isUnterminated, String.toList_ofList, List.tail_cons, List.headD_cons]
  cases rule_of_lexeme h with
  | string hc hmore =>
      subst hc hmore
      rw [Bool.not_eq_true', ← Bool.not_eq_true, isClosedBody_quoted_iff (by decide)]
      exact ⟨.string, fun hout => by cases hout; assumption⟩
  | quotedName _ hmore =>
      subst hmore
      rw [Bool.not_eq_true', ← Bool.not_eq_true, isClosedBody_quoted_iff (by simp)]
      exact ⟨.quotedName, fun hout => by cases hout; assumption⟩
  | block hc hmore =>
      obtain ⟨rfl, hhead⟩ := hc
      obtain ⟨text, rfl⟩ := List.head?_eq_some_iff.mp hhead
      subst hmore
      have hclosed : isClosedComment ('/' :: '*' :: blockComment text) ↔ ['*', '/'] <:+: text :=
        (isClosedComment_iff _).trans (isSuffix_blockComment_iff text)
      rw [List.tail_cons, Bool.and_eq_true, Bool.not_eq_true', ← Bool.not_eq_true, hclosed]
      exact ⟨fun hopen => .comment hopen.2, fun hout => by cases hout; exact ⟨rfl, ‹_›⟩⟩
  | line hc _ =>
      refine iff_of_false (by simp [hc.1]) fun hout => ?_
      cases hout
      exact absurd hc.1 (by decide)
  | blank => exact iff_of_false Bool.false_ne_true fun hout => by cases hout
  | substitution => exact iff_of_false Bool.false_ne_true fun hout => by cases hout
  | number => exact iff_of_false Bool.false_ne_true fun hout => by cases hout
  | keyword => exact iff_of_false Bool.false_ne_true fun hout => by cases hout
  | name => exact iff_of_false Bool.false_ne_true fun hout => by cases hout
  | mark => exact iff_of_false Bool.false_ne_true fun hout => by cases hout

/-- A token of a cut is what the lexer reads where the token stands. -/
theorem Cut.lexeme_drop {r b : List Char} {o : Nat} {ts : List Token} {t : Token}
    (h : Cut r o b ts) (ht : t ∈ ts) :
    ∃ c rest more, (b ++ r).drop (t.offset - o) = c :: rest ∧ lexeme c rest = (t.kind, more) ∧
      t.text = String.ofList (c :: more) := by
  obtain ⟨before, after, rfl⟩ := List.append_of_mem ht
  obtain ⟨x, y, rfl, hx, hy⟩ := h.of_append
  have hoffset := hy.offset_head t rfl
  cases hy with
  | @cons _ c more b kind _ hlex _ =>
      refine ⟨c, more ++ (b ++ r), more, ?_, hlex, rfl⟩
      rw [hoffset, Nat.add_sub_cancel_left, List.append_assoc, List.drop_left]
      simp

end Lexer

end SqlTables
