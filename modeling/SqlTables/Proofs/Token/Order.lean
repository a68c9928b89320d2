import Mathlib.Order.Basic
import Mathlib.Tactic.Tauto
import SqlTables.Statement

/-!
# The order of tokens

`Token.Ordered` says that no token is empty and that each one ends before the
next one begins. The tokens of a script are ordered, and so are those of each of
its statements; a position of the script therefore belongs to one token at most,
and a span tells which tokens it covers.
-/

namespace SqlTables

namespace Token

/-- No token is empty, and each one ends before those after it begin. -/
def Ordered (tokens : List Token) : Prop :=
  (∀ t ∈ tokens, t.offset < t.stop) ∧ tokens.Pairwise fun t u => t.stop ≤ u.offset

instance (tokens : List Token) : Decidable (Ordered tokens) :=
  inferInstanceAs (Decidable (_ ∧ _))

theorem ordered_nil : Ordered [] := by
  simp [Ordered]

theorem ordered_cons (t : Token) (ts : List Token) :
    Ordered (t :: ts) ↔
      t.offset < t.stop ∧ (∀ u ∈ ts, t.stop ≤ u.offset) ∧ Ordered ts := by
  simp only [Ordered, List.forall_mem_cons, List.pairwise_cons]
  tauto

theorem ordered_append (xs ys : List Token) :
    Ordered (xs ++ ys) ↔
      Ordered xs ∧ Ordered ys ∧ ∀ t ∈ xs, ∀ u ∈ ys, t.stop ≤ u.offset := by
  simp only [Ordered, List.forall_mem_append, List.pairwise_append]
  tauto

theorem Ordered.sublist {xs ys : List Token} (h : Ordered ys)
    (hsub : xs.Sublist ys) : Ordered xs :=
  ⟨fun t ht => h.1 t (hsub.subset ht), h.2.sublist hsub⟩

theorem Ordered.head_le {ts : List Token} (h : Ordered ts) {first t : Token}
    (hfirst : first ∈ ts.head?) (ht : t ∈ ts) : first.offset ≤ t.offset := by
  obtain ⟨rest, rfl⟩ := List.head?_eq_some_iff.mp hfirst
  rw [ordered_cons] at h
  rcases List.mem_cons.mp ht with rfl | ht
  · exact Nat.le_refl _
  · exact Nat.le_trans (Nat.le_of_lt h.1) (h.2.1 t ht)

theorem Ordered.le_getLast {ts : List Token} (h : Ordered ts) {last t : Token}
    (hlast : last ∈ ts.getLast?) (ht : t ∈ ts) : t.stop ≤ last.stop := by
  obtain ⟨front, rfl⟩ := List.getLast?_eq_some_iff.mp hlast
  rw [ordered_append] at h
  rcases List.mem_append.mp ht with ht | ht
  · have hlt := h.2.1.1 last List.mem_cons_self
    exact Nat.le_trans (h.2.2 t ht last List.mem_cons_self) (Nat.le_of_lt hlt)
  · exact Nat.le_of_eq (congrArg stop (List.mem_singleton.mp ht))

/-- Ordered tokens have one token at most at an offset. -/
theorem Ordered.eq_of_offset_eq {us vs xs ys : List Token} {t u : Token}
    (h : Ordered (us ++ t :: vs)) (heq : us ++ t :: vs = xs ++ u :: ys)
    (hoffset : t.offset = u.offset) : us = xs ∧ t = u ∧ vs = ys := by
  have hlt {as bs : List Token} {a b : Token} (h : Ordered (as ++ a :: bs)) (hb : b ∈ bs) :
      a.offset < b.offset := by
    rw [ordered_append, ordered_cons] at h
    have := h.2.1.2.1 b hb
    omega
  rcases List.append_eq_append_iff.mp heq with ⟨zs, rfl, hzs⟩ | ⟨zs, rfl, hzs⟩
  · cases zs with
    | nil =>
        rw [List.nil_append, List.cons.injEq] at hzs
        exact ⟨(List.append_nil us).symm, hzs⟩
    | cons z zs =>
        rw [List.cons_append, List.cons.injEq] at hzs
        have := hlt h (b := u) (by rw [hzs.2]; simp)
        omega
  · cases zs with
    | nil =>
        rw [List.nil_append, List.cons.injEq] at hzs
        exact ⟨List.append_nil xs, hzs.1.symm, hzs.2.symm⟩
    | cons z zs =>
        rw [List.cons_append, List.cons.injEq] at hzs
        have := hlt (heq ▸ h) (b := t) (by rw [hzs.2]; simp)
        omega

/-- Two cuts of ordered tokens are ordered as their tokens are. -/
theorem Ordered.mem_before {us vs xs ys : List Token} {t u : Token}
    (h : Ordered (us ++ t :: vs)) (heq : us ++ t :: vs = xs ++ u :: ys)
    (hlt : t.offset < u.offset) : ∃ zs, xs = us ++ t :: zs ∧ vs = zs ++ u :: ys := by
  rcases List.append_eq_append_iff.mp heq with ⟨zs, rfl, hzs⟩ | ⟨zs, rfl, hzs⟩
  · cases zs with
    | nil =>
        rw [List.nil_append, List.cons.injEq] at hzs
        exact absurd hlt (by rw [hzs.1]; exact Nat.lt_irrefl _)
    | cons z zs =>
        rw [List.cons_append, List.cons.injEq] at hzs
        exact ⟨zs, by rw [hzs.1], hzs.2⟩
  · -- The token `t` stands at or after `u`, so it does not begin before it.
    cases zs with
    | nil =>
        rw [List.nil_append, List.cons.injEq] at hzs
        exact absurd hlt (by rw [hzs.1]; exact Nat.lt_irrefl _)
    | cons z zs =>
        rw [List.cons_append, List.cons.injEq] at hzs
        obtain ⟨rfl, -⟩ := hzs
        rw [ordered_append, ordered_append] at h
        have hu := h.1.2.1.1 u List.mem_cons_self
        have ht := h.2.2 u (by simp) t List.mem_cons_self
        omega

end Token

namespace Lexer

theorem offset_le_of_mem_scanFrom (chars : List Char) :
    ∀ (offset skip : Nat), ∀ t ∈ scanFrom offset skip chars, offset + skip ≤ t.offset := by
  induction chars with
  | nil => simp [scanFrom]
  | cons c rest ih =>
      intro offset skip t ht
      cases skip with
      | succ k =>
          have := ih (offset + 1) k t ht
          omega
      | zero =>
          rw [scanFrom, List.mem_cons] at ht
          rcases ht with rfl | ht
          · exact Nat.le_refl offset
          · have := ih (offset + 1) _ t ht
            omega

/-- A token takes as many characters as the scan passes over, so the next one
begins where it ends. -/
theorem ordered_scanFrom (chars : List Char) :
    ∀ offset skip : Nat, Token.Ordered (scanFrom offset skip chars) := by
  induction chars with
  | nil =>
      intro offset skip
      exact Token.ordered_nil
  | cons c rest ih =>
      intro offset skip
      cases skip with
      | succ k => exact ih (offset + 1) k
      | zero =>
          rw [scanFrom, Token.ordered_cons]
          have hlength : (String.ofList (c :: (lexeme c rest).2)).length =
              (lexeme c rest).2.length + 1 := by
            rw [String.length_ofList, List.length_cons]
          refine ⟨?_, ?_, ih _ _⟩
          · simp only [Token.stop, hlength]
            omega
          · intro u hu
            have := offset_le_of_mem_scanFrom rest _ _ u hu
            simp only [Token.stop, hlength]
            omega

end Lexer

namespace Statement

theorem sublist_of_mem_groups (ts : List Token) :
    ∀ g ∈ groups ts, g.Sublist ts := by
  induction ts with
  | nil => simp [groups]
  | cons t rest ih =>
      intro g hg
      rw [groups] at hg
      split at hg
      · rcases List.mem_cons.mp hg with rfl | hg
        · exact List.nil_sublist _
        · exact (ih g hg).trans (List.sublist_cons_self t rest)
      · split at hg
        · next hnil => exact absurd hnil (groups_ne_nil rest)
        · next first others hcons =>
            rw [hcons] at ih
            rcases List.mem_cons.mp hg with rfl | hg
            · exact (ih first List.mem_cons_self).cons_cons t
            · exact (ih g (List.mem_cons_of_mem first hg)).trans
                (List.sublist_cons_self t rest)

theorem tokens_mem_of_mem_number (groups : List (List Token)) :
    ∀ (index : Nat), ∀ s ∈ number index groups, s.tokens ∈ groups := by
  induction groups with
  | nil => simp [number]
  | cons g rest ih =>
      intro index s hs
      rcases List.mem_cons.mp hs with rfl | hs
      · exact List.mem_cons_self
      · exact List.mem_cons_of_mem g (ih _ s hs)

theorem tokens_ne_nil {script : String} {s : Statement} (hs : s ∈ ofScript script) :
    s.tokens ≠ [] := by
  simpa using (List.mem_filter.mp (tokens_mem_of_mem_number _ 0 s hs)).2

theorem sublist_scan {script : String} {s : Statement} (hs : s ∈ ofScript script) :
    s.tokens.Sublist (Token.scan script) := by
  have hmem := tokens_mem_of_mem_number _ 0 s hs
  exact (sublist_of_mem_groups _ _ (List.mem_filter.mp hmem).1).trans List.filter_sublist

/-- The tokens of a statement of a script are ordered. -/
theorem ordered_tokens {script : String} {s : Statement}
    (hs : s ∈ ofScript script) : Token.Ordered s.tokens :=
  (Lexer.ordered_scanFrom script.toList 0 0).sublist (sublist_scan hs)

end Statement

end SqlTables
