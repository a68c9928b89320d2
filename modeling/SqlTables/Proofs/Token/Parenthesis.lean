import Mathlib.Tactic.Common
import SqlTables.Scan.Lookahead

/-!
# Matching parentheses

`Token.depth? d ts` counts the parentheses that are open after the tokens `ts`
when `d` are open before; it is `none` when a `)` closes none of them. A sequence
is balanced when it opens as many as it closes and never closes one of an outer
group. A parenthesis is never closed, in the sense of `afterClosing?`, exactly
when the tokens after it have a depth.
-/

namespace SqlTables

namespace Token

/-- The number of parentheses that are open after the tokens, when `depth` are
open before them; `none` when some `)` closes nothing. -/
def depth? (depth : Nat) : List Token → Option Nat
  | [] => some depth
  | t :: rest =>
    if t.isMark '(' then depth? (depth + 1) rest
    else if t.isMark ')' then
      match depth with
      | 0 => none
      | d + 1 => depth? d rest
    else depth? depth rest

/-- Every parenthesis of the tokens is opened and closed among them. -/
def Balanced (tokens : List Token) : Prop := depth? 0 tokens = some 0

instance (tokens : List Token) : Decidable (Balanced tokens) :=
  inferInstanceAs (Decidable (_ = _))

section Kinds

variable {t : Token}

theorem kind_of_isKeyword {k : Keyword} (h : t.isKeyword k) : t.kind = .keyword k := by
  rwa [isKeyword, beq_iff_eq] at h

theorem kind_of_isMark {c : Char} (h : t.isMark c) : t.kind = .punctuation c := by
  rwa [isMark, beq_iff_eq] at h

theorem isAnyKeyword_iff {ks : List Keyword} : t.isAnyKeyword ks ↔ ∃ k ∈ ks, t.isKeyword k := by
  unfold isAnyKeyword isKeyword
  cases t.kind with
  | keyword k => simp
  | _ => simp

theorem not_isAnyKeyword_of_subset {ks ls : List Keyword} (h : ¬ t.isAnyKeyword ls)
    (hsub : ks ⊆ ls) : ¬ t.isAnyKeyword ks := fun hks => by
  obtain ⟨k, hk, ht⟩ := isAnyKeyword_iff.mp hks
  exact h (isAnyKeyword_iff.mpr ⟨k, hsub hk, ht⟩)

theorem not_isMark_of_isKeyword {k : Keyword} (h : t.isKeyword k) (c : Char) :
    ¬ t.isMark c := by
  simp [isMark, kind_of_isKeyword h]

theorem not_isMark_of_isAnyKeyword {ks : List Keyword} (h : t.isAnyKeyword ks)
    (c : Char) : ¬ t.isMark c := by
  obtain ⟨k, -, hk⟩ := isAnyKeyword_iff.mp h
  exact not_isMark_of_isKeyword hk c

theorem not_isMark_of_isName (h : t.isName) (c : Char) : ¬ t.isMark c := by
  unfold isName at h
  split at h
  · next hk => simp [isMark, hk]
  · next hk => simp [isMark, hk]
  · cases h

theorem not_isKeyword_of_isName (h : t.isName) (k : Keyword) : ¬ t.isKeyword k := by
  intro hk
  simp [isName, kind_of_isKeyword hk] at h

theorem isKeyword_of_keyword? {k : Keyword} (h : t.keyword? = some k) : t.isKeyword k := by
  unfold keyword? at h
  split at h
  · next hk => rw [isKeyword, hk, Option.some.inj h, beq_self_eq_true]
  · cases h

theorem not_isMark_of_keyword? {k : Keyword} (h : t.keyword? = some k) (c : Char) :
    ¬ t.isMark c := not_isMark_of_isKeyword (isKeyword_of_keyword? h) c

theorem not_isMark_of_isMark {c d : Char} (h : t.isMark c) (hne : c ≠ d) :
    ¬ t.isMark d := by
  simpa [isMark, kind_of_isMark h] using hne

end Kinds

@[simp] theorem depth?_nil (d : Nat) : depth? d [] = some d := rfl

theorem depth?_cons_open {t : Token} (h : t.isMark '(') (d : Nat) (ts : List Token) :
    depth? d (t :: ts) = depth? (d + 1) ts := by
  simp [depth?, h]

theorem depth?_cons_close_zero {t : Token} (h : t.isMark ')') (ts : List Token) :
    depth? 0 (t :: ts) = none := by
  have hopen : ¬ t.isMark '(' := fun ho => not_isMark_of_isMark ho (by decide) h
  simp [depth?, hopen, h]

theorem depth?_cons_close_succ {t : Token} (h : t.isMark ')') (d : Nat)
    (ts : List Token) : depth? (d + 1) (t :: ts) = depth? d ts := by
  have hopen : ¬ t.isMark '(' := fun ho => not_isMark_of_isMark ho (by decide) h
  simp [depth?, hopen, h]

theorem depth?_cons_other {t : Token} (hopen : ¬ t.isMark '(') (hclose : ¬ t.isMark ')')
    (d : Nat) (ts : List Token) : depth? d (t :: ts) = depth? d ts := by
  simp [depth?, hopen, hclose]

/-- The depth after an appended sequence, counted from the depth after the first
part. -/
theorem depth?_append (xs ys : List Token) (d : Nat) :
    depth? d (xs ++ ys) = (depth? d xs).bind fun e => depth? e ys := by
  induction xs generalizing d with
  | nil => rfl
  | cons t xs ih =>
      rw [List.cons_append]
      by_cases hopen : t.isMark '('
      · rw [depth?_cons_open hopen, depth?_cons_open hopen, ih]
      · by_cases hclose : t.isMark ')'
        · cases d with
          | zero => simp only [depth?_cons_close_zero hclose, Option.bind_none]
          | succ d => rw [depth?_cons_close_succ hclose, depth?_cons_close_succ hclose, ih]
        · rw [depth?_cons_other hopen hclose, depth?_cons_other hopen hclose, ih]

/-- What is open around a sequence stays open in it. -/
theorem depth?_add {xs : List Token} {d e : Nat} (h : depth? d xs = some e) (k : Nat) :
    depth? (d + k) xs = some (e + k) := by
  induction xs generalizing d with
  | nil =>
      rw [depth?_nil, Option.some.injEq] at h
      rw [depth?_nil, h]
  | cons t xs ih =>
      by_cases hopen : t.isMark '('
      · rw [depth?_cons_open hopen] at h ⊢
        rw [Nat.add_right_comm]
        exact ih h
      · by_cases hclose : t.isMark ')'
        · cases d with
          | zero =>
              rw [depth?_cons_close_zero hclose] at h
              cases h
          | succ d =>
              rw [depth?_cons_close_succ hclose] at h
              rw [Nat.add_right_comm, depth?_cons_close_succ hclose]
              exact ih h
        · rw [depth?_cons_other hopen hclose] at h ⊢
          exact ih h

theorem Balanced.depth? {xs : List Token} (h : Balanced xs) (d : Nat) :
    depth? d xs = some d := by
  have hadd := depth?_add h d
  rwa [Nat.zero_add] at hadd

theorem Balanced.depth?_append {xs : List Token} (h : Balanced xs) (d : Nat)
    (ys : List Token) : Token.depth? d (xs ++ ys) = Token.depth? d ys := by
  rw [Token.depth?_append, h.depth? d, Option.bind_some]

/-- A parenthesis with a balanced sequence in it is balanced. -/
theorem Balanced.group {o c : Token} {xs : List Token} (ho : o.isMark '(')
    (hc : c.isMark ')') (h : Balanced xs) : Balanced (o :: xs ++ [c]) := by
  rw [Balanced, List.cons_append, depth?_cons_open ho, h.depth?_append,
    depth?_cons_close_succ hc, depth?_nil]

theorem balanced_of_not_isMark {xs : List Token}
    (h : ∀ t ∈ xs, ¬ t.isMark '(' ∧ ¬ t.isMark ')') : Balanced xs := by
  induction xs with
  | nil => rfl
  | cons t xs ih =>
      rw [List.forall_mem_cons] at h
      rw [Balanced, depth?_cons_other h.1.1 h.1.2]
      exact ih h.2

end Token

/-- Tokens in parentheses. -/
structure TokenGroup where
  opener : Token
  content : List Token
  closer : Token
  isOpening : opener.isMark '('
  isClosing : closer.isMark ')'
  balanced : Token.Balanced content

def TokenGroup.tokens (g : TokenGroup) : List Token := g.opener :: g.content ++ [g.closer]

namespace Scan

open Token

theorem afterClosing?_cons_open {t : Token} (h : t.isMark '(') (d : Nat)
    (ts : List Token) : afterClosing? d (t :: ts) = afterClosing? (d + 1) ts := by
  simp [afterClosing?, h]

theorem afterClosing?_cons_close_zero {t : Token} (h : t.isMark ')')
    (ts : List Token) : afterClosing? 0 (t :: ts) = some ts := by
  have hopen : ¬ t.isMark '(' := fun ho => not_isMark_of_isMark ho (by decide) h
  simp [afterClosing?, hopen, h]

theorem afterClosing?_cons_close_succ {t : Token} (h : t.isMark ')') (d : Nat)
    (ts : List Token) : afterClosing? (d + 1) (t :: ts) = afterClosing? d ts := by
  have hopen : ¬ t.isMark '(' := fun ho => not_isMark_of_isMark ho (by decide) h
  simp [afterClosing?, hopen, h]

theorem afterClosing?_cons_other {t : Token} (hopen : ¬ t.isMark '(')
    (hclose : ¬ t.isMark ')') (d : Nat) (ts : List Token) :
    afterClosing? d (t :: ts) = afterClosing? d ts := by
  simp [afterClosing?, hopen, hclose]

/-- The closing parenthesis is looked for past everything that leaves the depth
above zero. -/
theorem afterClosing?_append {xs : List Token} {d e : Nat}
    (h : depth? d xs = some e) (ys : List Token) :
    afterClosing? d (xs ++ ys) = afterClosing? e ys := by
  induction xs generalizing d with
  | nil =>
      rw [depth?_nil, Option.some.injEq] at h
      rw [h, List.nil_append]
  | cons t xs ih =>
      rw [List.cons_append]
      by_cases hopen : t.isMark '('
      · rw [depth?_cons_open hopen] at h
        rw [afterClosing?_cons_open hopen, ih h]
      · by_cases hclose : t.isMark ')'
        · cases d with
          | zero =>
              rw [depth?_cons_close_zero hclose] at h
              cases h
          | succ d =>
              rw [depth?_cons_close_succ hclose] at h
              rw [afterClosing?_cons_close_succ hclose, ih h]
        · rw [depth?_cons_other hopen hclose] at h
          rw [afterClosing?_cons_other hopen hclose, ih h]

/-- A group is closed by its own parenthesis. -/
theorem afterClosing?_content (g : TokenGroup) (ts : List Token) :
    afterClosing? 0 (g.content ++ g.closer :: ts) = some ts := by
  rw [afterClosing?_append g.balanced, afterClosing?_cons_close_zero g.isClosing]

theorem exists_of_afterClosing? {xs tail : List Token} {d : Nat}
    (h : afterClosing? d xs = some tail) :
    ∃ ys c, xs = ys ++ c :: tail ∧ depth? d ys = some 0 ∧ c.isMark ')' := by
  induction xs generalizing d with
  | nil => cases h
  | cons t xs ih =>
      by_cases hopen : t.isMark '('
      · rw [afterClosing?_cons_open hopen] at h
        obtain ⟨ys, c, rfl, hys, hc⟩ := ih h
        exact ⟨t :: ys, c, rfl, by rw [depth?_cons_open hopen, hys], hc⟩
      · by_cases hclose : t.isMark ')'
        · cases d with
          | zero =>
              rw [afterClosing?_cons_close_zero hclose, Option.some.injEq] at h
              exact ⟨[], t, by rw [h, List.nil_append], rfl, hclose⟩
          | succ d =>
              rw [afterClosing?_cons_close_succ hclose] at h
              obtain ⟨ys, c, rfl, hys, hc⟩ := ih h
              exact ⟨t :: ys, c, rfl, by rw [depth?_cons_close_succ hclose, hys], hc⟩
        · rw [afterClosing?_cons_other hopen hclose] at h
          obtain ⟨ys, c, rfl, hys, hc⟩ := ih h
          exact ⟨t :: ys, c, rfl, by rw [depth?_cons_other hopen hclose, hys], hc⟩

/-- A parenthesis is never closed exactly when no `)` goes below its depth. -/
theorem afterClosing?_eq_none_iff (ts : List Token) (d : Nat) :
    afterClosing? d ts = none ↔ (depth? d ts).isSome := by
  induction ts generalizing d with
  | nil => simp [afterClosing?]
  | cons t ts ih =>
      by_cases hopen : t.isMark '('
      · rw [afterClosing?_cons_open hopen, depth?_cons_open hopen, ih]
      · by_cases hclose : t.isMark ')'
        · cases d with
          | zero =>
              simp [afterClosing?_cons_close_zero hclose, depth?_cons_close_zero hclose]
          | succ d =>
              rw [afterClosing?_cons_close_succ hclose, depth?_cons_close_succ hclose, ih]
        · rw [afterClosing?_cons_other hopen hclose, depth?_cons_other hopen hclose, ih]

theorem afterClosing?_append_of_some {d : Nat} {ts tail : List Token}
    (h : afterClosing? d ts = some tail) (us : List Token) :
    afterClosing? d (ts ++ us) = some (tail ++ us) := by
  obtain ⟨ys, c, rfl, hys, hc⟩ := exists_of_afterClosing? h
  rw [List.append_assoc, afterClosing?_append hys, List.cons_append,
    afterClosing?_cons_close_zero hc]

/-- Tokens that close more than `d` parentheses close one that is opened before them. -/
theorem exists_afterClosing? {ts : List Token} {d e : Nat} (h : depth? e ts = some 0)
    (hd : d < e) : ∃ tail, afterClosing? d ts = some tail := by
  by_contra hnone
  have hopen : afterClosing? d ts = none := by
    rw [Option.eq_none_iff_forall_ne_some]
    exact fun tail htail => hnone ⟨tail, htail⟩
  obtain ⟨k, hk⟩ := Option.isSome_iff_exists.mp ((afterClosing?_eq_none_iff ts d).mp hopen)
  have hadd := depth?_add hk (e - d)
  rw [Nat.add_sub_cancel' (Nat.le_of_lt hd), h, Option.some.injEq] at hadd
  omega

/-- The parenthesis that closes a group, found among the tokens after its opening
one when `d` further ones are open inside it. -/
theorem exists_closing {xs : List Token} {d : Nat} (h : depth? (d + 1) xs = some 0) :
    ∃ ys c zs, xs = ys ++ c :: zs ∧ depth? d ys = some 0 ∧ c.isMark ')' ∧ Balanced zs := by
  obtain ⟨zs, hzs⟩ := exists_afterClosing? h (Nat.lt_succ_self d)
  obtain ⟨ys, c, rfl, hys, hc⟩ := exists_of_afterClosing? hzs
  refine ⟨ys, c, zs, rfl, hys, hc, ?_⟩
  rwa [depth?_append, depth?_add hys 1, Option.bind_some, Nat.zero_add,
    depth?_cons_close_succ hc] at h

/-- What a `CREATE` looks for stands outside all parentheses, so it is looked for
past everything that stays inside one. -/
theorem hasQueryBody_append {xs : List Token} {d e : Nat}
    (h : depth? d xs = some e) (ys : List Token) :
    hasQueryBody (d + 1) (xs ++ ys) = hasQueryBody (e + 1) ys := by
  induction xs generalizing d with
  | nil =>
      rw [depth?_nil, Option.some.injEq] at h
      rw [h, List.nil_append]
  | cons t xs ih =>
      rw [List.cons_append, hasQueryBody]
      by_cases hopen : t.isMark '('
      · rw [depth?_cons_open hopen] at h
        rw [if_pos hopen]
        exact_mod_cast ih h
      · by_cases hclose : t.isMark ')'
        · cases d with
          | zero =>
              rw [depth?_cons_close_zero hclose] at h
              cases h
          | succ d =>
              rw [depth?_cons_close_succ hclose] at h
              rw [if_neg hopen, if_pos hclose]
              have hd : ((d + 1 : Nat) : Int) + 1 - 1 = (d : Int) + 1 := by omega
              rw [hd]
              exact ih h
        · rw [depth?_cons_other hopen hclose] at h
          rw [if_neg hopen, if_neg hclose, ih h]
          have hd : ((d : Int) + 1 == 0) = false := by
            rw [beq_eq_false_iff_ne]
            omega
          rw [hd, Bool.false_and, Bool.false_and, Bool.false_or]

end Scan

end SqlTables
