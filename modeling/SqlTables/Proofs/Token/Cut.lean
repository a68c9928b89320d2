import Mathlib.Data.List.Infix
import SqlTables.Proofs.Token.Lexeme
import SqlTables.Proofs.Token.Order

/-!
# Cuts

A script is cut in two between tokens: `Cut r o b ts` says that the text `b`, which stands
at `o` and is followed by `r`, is made of the tokens `ts`. Where a token starts, there is a
cut (`exists_cut`).

Of what follows a cut, the first character matters, and whether a substitution is open. If
none is, the tokens before a quote or a slash are the same whatever stands behind it
(`Cut.congr`). If one is, a `}` behind it makes a word of all that stands in between
(`Cut.closed`).
-/

namespace SqlTables

/-- Whether a `${` stands among the tokens. It is a substitution that is not closed, as one
that is closed belongs to a word. -/
def Token.opensSubstitution : List Token → Bool
  | [] => false
  | t :: rest =>
    (t.isMark '$' && rest.head?.any fun u => u.isMark '{') || opensSubstitution rest

namespace Lexer

open Token

variable {c d : Char} {b r x y more : List Char} {o : Nat} {ts us : List Token}

/-! ## A token is the start of the text -/

theorem quoted_prefix (quote : Char) (escapes : Bool) (xs : List Char) :
    quoted quote escapes xs <+: xs := by
  induction xs using quoted.induct quote escapes with
  | case1 => exact List.nil_prefix
  | case2 c => exact List.prefix_refl _
  | case3 c d rest hescape ih =>
      rw [quoted, if_pos hescape, List.cons_prefix_cons, List.cons_prefix_cons]
      exact ⟨rfl, rfl, ih⟩
  | case4 rest hescape ih =>
      rw [quoted, if_neg hescape, if_pos rfl, if_pos rfl, List.cons_prefix_cons,
        List.cons_prefix_cons]
      exact ⟨rfl, rfl, ih⟩
  | case5 d rest hdouble hescape =>
      rw [quoted, if_neg hescape, if_pos rfl, if_neg hdouble, List.cons_prefix_cons]
      exact ⟨rfl, List.nil_prefix⟩
  | case6 c d rest hescape hquote ih =>
      rw [quoted, if_neg hescape, if_neg hquote, List.cons_prefix_cons]
      exact ⟨rfl, ih⟩

theorem blockComment_prefix (xs : List Char) : blockComment xs <+: xs := by
  induction xs with
  | nil => exact List.prefix_refl _
  | cons c xs ih =>
      rw [blockComment]
      split
      · next hclose =>
          obtain ⟨rest, rfl⟩ := List.head?_eq_some_iff.mp hclose.2
          exact ⟨rest, rfl⟩
      · exact List.cons_prefix_cons.mpr ⟨rfl, ih⟩

theorem word_prefix (inside : Bool) (xs : List Char) : word inside xs <+: xs := by
  induction xs generalizing inside with
  | nil => exact List.prefix_refl _
  | cons c xs ih =>
      rw [word]
      split
      · exact List.cons_prefix_cons.mpr ⟨rfl, ih _⟩
      · split
        · split
          · exact List.cons_prefix_cons.mpr ⟨rfl, ih _⟩
          · exact List.nil_prefix
        · split
          · exact List.cons_prefix_cons.mpr ⟨rfl, ih _⟩
          · exact List.nil_prefix

theorem isPrefix_fraction (xs : List Char) : fraction xs <+: xs := by
  unfold fraction
  split
  · split
    · simp [List.takeWhile_prefix]
    · exact List.nil_prefix
  · exact List.nil_prefix

theorem isPrefix_append {xs ys zs : List Char} (hx : xs <+: zs) (hy : ys <+: zs.drop xs.length) :
    xs ++ ys <+: zs := by
  obtain ⟨rest, rfl⟩ := hx
  rw [List.drop_left] at hy
  exact (List.prefix_append_right_inj xs).mpr hy

theorem isPrefix_exponent (xs : List Char) : exponent xs <+: xs := by
  cases xs with
  | nil => exact List.prefix_refl _
  | cons e xs =>
      have hsign : (xs.take 1).filter (fun c => c = '+' || c = '-') <+: xs := by
        cases xs with
        | nil => exact List.prefix_refl _
        | cons s xs => by_cases hs : s = '+' ∨ s = '-' <;> simp [hs]
      simp only [exponent]
      split
      · split
        · exact List.nil_prefix
        · exact List.cons_prefix_cons.mpr
            ⟨rfl, isPrefix_append hsign (List.takeWhile_prefix _)⟩
      · exact List.nil_prefix

theorem isPrefix_number (xs : List Char) : number xs <+: xs := by
  have hpart := isPrefix_append (List.takeWhile_prefix Unicode.isDigit) (isPrefix_fraction
    (xs.drop (xs.takeWhile Unicode.isDigit).length))
  refine isPrefix_append hpart ?_
  rw [List.length_append]
  exact isPrefix_exponent _

theorem isPrefix_lexeme (c : Char) (rest : List Char) : (lexeme c rest).2 <+: rest := by
  have hfits := fits_start c rest
  rw [lexeme_eq_read]
  generalize start c rest = s at hfits ⊢
  cases s with
  | blank => exact List.takeWhile_prefix _
  | line => exact List.takeWhile_prefix _
  | block =>
      obtain ⟨rest, rfl⟩ := List.head?_eq_some_iff.mp hfits.2
      exact List.cons_prefix_cons.mpr ⟨rfl, blockComment_prefix rest⟩
  | string => exact quoted_prefix _ _ _
  | quotedName => exact quoted_prefix _ _ _
  | substitution => exact word_prefix _ _
  | number =>
      have hnumber := isPrefix_number (c :: rest)
      rw [Start.read, ← List.drop_one]
      exact hnumber.drop 1
  | word => exact word_prefix _ _
  | mark => exact List.nil_prefix

theorem scanFrom_skip (o skip : Nat) (xs : List Char) :
    scanFrom o skip xs = scanFrom (o + skip) 0 (xs.drop skip) := by
  induction xs generalizing o skip with
  | nil => rw [List.drop_nil, scanFrom, scanFrom]
  | cons c xs ih =>
      cases skip with
      | zero => rfl
      | succ k =>
          rw [scanFrom, ih, List.drop_succ_cons]
          congr 1
          omega

/-! ## Cuts -/

/-- The text `b` at `o`, followed by `r`, is made of the tokens `ts`. -/
inductive Cut (r : List Char) : Nat → List Char → List Token → Prop
  | nil (o : Nat) : Cut r o [] []
  | cons {o : Nat} {c : Char} {more b : List Char} {kind : TokenKind} {ts : List Token}
      (h : lexeme c (more ++ (b ++ r)) = (kind, more)) (hb : Cut r (o + (more.length + 1)) b ts) :
      Cut r o (c :: (more ++ b)) (⟨kind, String.ofList (c :: more), o⟩ :: ts)

theorem scanFrom_cons {kind : TokenKind} {xs : List Char} (o : Nat)
    (h : lexeme c xs = (kind, more)) (hxs : xs = more ++ r) :
    scanFrom o 0 (c :: xs) =
      ⟨kind, String.ofList (c :: more), o⟩ :: scanFrom (o + (more.length + 1)) 0 r := by
  rw [scanFrom, h, hxs]
  dsimp only
  rw [scanFrom_skip, List.drop_left, Nat.add_right_comm, Nat.add_assoc]

theorem Cut.scanFrom (h : Cut r o b ts) :
    Lexer.scanFrom o 0 (b ++ r) = ts ++ Lexer.scanFrom (o + b.length) 0 r := by
  induction h with
  | nil o => rfl
  | @cons o c more b kind ts h hb ih =>
      rw [List.cons_append, List.append_assoc, scanFrom_cons o h rfl, ih, List.cons_append,
        List.length_cons, List.length_append]
      congr 3
      omega

theorem Cut.mem_bounds (h : Cut r o b ts) :
    ∀ t ∈ ts, t.offset < t.stop ∧ t.stop ≤ o + b.length := by
  induction h with
  | nil o => simp
  | @cons o c more b kind ts h hb ih =>
      rw [List.forall_mem_cons]
      refine ⟨?_, fun t ht => ?_⟩
      · simp only [stop, String.length_ofList, List.length_cons, List.length_append]
        omega
      · have hbound := ih t ht
        simp only [List.length_cons, List.length_append]
        omega

/-- Where a token starts, the text before it is made of tokens. -/
theorem exists_cut {t : Token} (ht : t ∈ scanFrom o 0 (b ++ r))
    (hoffset : t.offset = o + b.length) : ∃ ts, Cut r o b ts := by
  induction hn : b.length using Nat.strongRecOn generalizing o b with
  | ind n ih =>
      cases b with
      | nil => exact ⟨[], .nil o⟩
      | cons c rest =>
          rw [List.cons_append, scanFrom] at ht
          cases hlex : lexeme c (rest ++ r) with
          | mk kind more =>
              have hprefix : more <+: rest ++ r := by
                have h := isPrefix_lexeme c (rest ++ r)
                rwa [hlex] at h
              rw [hlex] at ht
              rw [List.length_cons] at hoffset hn
              rcases List.mem_cons.mp ht with rfl | ht
              · dsimp only at hoffset
                omega
              · have hle := offset_le_of_mem_scanFrom _ _ _ t ht
                obtain ⟨b', rfl⟩ := List.prefix_of_prefix_length_le hprefix
                  (List.prefix_append rest r) (by omega)
                rw [List.append_assoc] at hlex ht
                rw [scanFrom_skip, List.drop_left, Nat.add_right_comm, Nat.add_assoc] at ht
                rw [List.length_append] at hoffset hn
                have hstart : t.offset = o + (more.length + 1) + b'.length := by omega
                obtain ⟨ts, hts⟩ := ih b'.length (by omega) ht hstart rfl
                exact ⟨_, .cons hlex hts⟩

/-- A cut before a character is the token that starts with it, and a cut of what is left. -/
theorem Cut.of_cons (h : Cut r o (c :: b) ts) :
    ∃ more b' kind ts', b = more ++ b' ∧ lexeme c (b ++ r) = (kind, more) ∧
      ts = ⟨kind, String.ofList (c :: more), o⟩ :: ts' ∧
      Cut r (o + (more.length + 1)) b' ts' := by
  generalize htext : c :: b = text at h
  cases h with
  | nil => cases htext
  | @cons _ c' more b' kind ts' h hb =>
      obtain ⟨rfl, rfl⟩ := List.cons.inj htext
      rw [← List.append_assoc] at h
      exact ⟨more, b', kind, ts', rfl, h, rfl, hb⟩

/-- A text that is made of tokens can be cut between them. -/
theorem Cut.of_append (h : Cut r o b (ts ++ us)) :
    ∃ b₁ b₂, b = b₁ ++ b₂ ∧ Cut (b₂ ++ r) o b₁ ts ∧ Cut r (o + b₁.length) b₂ us := by
  induction ts generalizing o b with
  | nil => exact ⟨[], b, rfl, .nil o, h⟩
  | cons t ts ih =>
      rw [List.cons_append] at h
      cases h with
      | @cons _ c more b kind _ h hb =>
          obtain ⟨b₁, b₂, rfl, hts, hus⟩ := ih hb
          rw [List.append_assoc] at h
          refine ⟨c :: (more ++ b₁), b₂, by simp, .cons h hts, ?_⟩
          rw [List.length_cons, List.length_append]
          have hoffset : o + (more.length + b₁.length + 1) =
              o + (more.length + 1) + b₁.length := by omega
          rwa [hoffset]

/-! ## Open substitutions -/

theorem Cut.opensSubstitution (h : Cut r o ('$' :: '{' :: b) ts) (hr : '}' ∉ b ++ r) :
    Token.opensSubstitution ts := by
  obtain ⟨more, b', kind, ts', hb, hlex, rfl, hcut⟩ := h.of_cons
  rw [List.cons_append, lexeme_dollar hr] at hlex
  cases hlex
  obtain rfl : b' = '{' :: b := hb.symm
  obtain ⟨more, b', kind, ts'', -, hlex, rfl, -⟩ := hcut.of_cons
  rw [lexeme_brace] at hlex
  cases hlex
  rfl

/-- If no substitution is open, the tokens before a quote or a slash do not depend on what
stands behind it. -/
theorem Cut.congr (hd : d = '\'' ∨ d = '/') (h : Cut (d :: x) o b ts)
    (hopen : ¬ Token.opensSubstitution ts) (x' : List Char) : Cut (d :: x') o b ts := by
  induction h with
  | nil o => exact .nil o
  | @cons o c more b kind ts h hb ih =>
      have hrest : ¬ Token.opensSubstitution ts := by
        rw [Token.opensSubstitution, Bool.or_eq_true, not_or] at hopen
        exact hopen.2
      rcases lexeme_stop hd h with hstop | ⟨rfl, rfl, b', rfl, hr⟩ | ⟨b', rfl, hr, -⟩
      · exact .cons (hstop x') (ih hrest)
      · exact absurd ((Cut.cons h hb).opensSubstitution hr) hopen
      · exact absurd (hb.opensSubstitution hr) hrest

/-- Inside a substitution a word goes on to the next `}`. -/
theorem word_true_append (hx : '}' ∉ x) (r : List Char) :
    word true (x ++ '}' :: ';' :: r) = x ++ ['}'] := by
  induction x with
  | nil =>
      have hmark : isWordChar ';' = false := by decide
      simp [word, hmark]
  | cons c x ih =>
      rw [List.mem_cons, not_or] at hx
      rw [List.cons_append, word, if_pos rfl, decide_eq_true (Ne.symm hx.1), ih hx.2,
        List.cons_append]

theorem Cut.single {kind : TokenKind} (o : Nat) (h : lexeme c (more ++ r) = (kind, more)) :
    Cut r o (c :: more) [⟨kind, String.ofList (c :: more), o⟩] := by
  have hcut : Cut r o (c :: (more ++ [])) _ := .cons (by rwa [List.nil_append]) (.nil _)
  rwa [List.append_nil] at hcut

/-- A token before which what follows does not matter starts no open substitution. -/
theorem Cut.opensSubstitution_of_stable {kind : TokenKind} {p : Nat}
    (hlex : ∀ x', lexeme c (more ++ (b ++ d :: x')) = (kind, more)) (hb : Cut (d :: x) p b ts)
    {text : String} (hopen : Token.opensSubstitution (⟨kind, text, o⟩ :: ts)) :
    Token.opensSubstitution ts := by
  rw [Token.opensSubstitution, Bool.or_eq_true] at hopen
  refine hopen.resolve_left fun hpair => ?_
  rw [Bool.and_eq_true] at hpair
  obtain ⟨hdollar, hbrace⟩ := hpair
  obtain rfl : kind = .punctuation '$' := eq_of_beq hdollar
  obtain ⟨rfl, rfl⟩ := eq_of_lexeme_punctuation (hlex [])
  cases hb with
  | nil => cases hbrace
  | @cons _ e more b kind ts h hb =>
      obtain rfl : kind = .punctuation '{' := eq_of_beq hbrace
      obtain ⟨rfl, rfl⟩ := eq_of_lexeme_punctuation h
      have hclosed := hlex ['}']
      rw [List.nil_append, List.nil_append, List.cons_append, lexeme_dollar_closed (by simp)]
        at hclosed
      cases hclosed

/-- If a substitution is open, a `}` behind the quote or the slash closes it. -/
theorem Cut.closed (hd : d = '\'' ∨ d = '/') (h : Cut (d :: x) o b ts)
    (hopen : Token.opensSubstitution ts) (hy : '}' ∉ y) (z : List Char) :
    ∃ us, Cut (';' :: z) o (b ++ d :: (y ++ ['}'])) us := by
  induction h with
  | nil o => cases hopen
  | @cons o c more b kind ts h hb ih =>
      have hword {b' : List Char} (hr : '}' ∉ b' ++ d :: x) :
          word true (b' ++ d :: (y ++ '}' :: ';' :: z)) = b' ++ d :: (y ++ ['}']) := by
        have hx : '}' ∉ b' ++ d :: y := by
          simp only [List.mem_append, List.mem_cons, not_or] at hr ⊢
          exact ⟨hr.1, hr.2.1, hy⟩
        have happend := word_true_append hx z
        simpa only [List.append_assoc, List.cons_append] using happend
      rw [List.cons_append, List.append_assoc]
      rcases lexeme_stop hd h with hstop | ⟨rfl, rfl, b', rfl, hr⟩ | ⟨b', rfl, hr, hlex⟩
      · obtain ⟨us, hus⟩ := ih (Cut.opensSubstitution_of_stable hstop hb hopen)
        have hsame : lexeme c (more ++ (b ++ d :: (y ++ ['}']) ++ ';' :: z)) = (kind, more) := by
          rw [List.append_assoc, List.cons_append, hstop]
        exact ⟨_, .cons hsame hus⟩
      · have hall : lexeme '$' (('{' :: (b' ++ d :: (y ++ ['}']))) ++ ';' :: z) =
            (.identifier, '{' :: (b' ++ d :: (y ++ ['}']))) := by
          have htext : ('{' :: (b' ++ d :: (y ++ ['}']))) ++ ';' :: z =
              '{' :: (b' ++ d :: (y ++ '}' :: ';' :: z)) := by simp
          rw [htext, lexeme_dollar_closed (by simp), hword hr]
        exact ⟨_, Cut.single o hall⟩
      · obtain ⟨k, hlex⟩ := hlex (b' ++ d :: (y ++ '}' :: ';' :: z)) (by simp)
        have hall : lexeme c ((more ++ '$' :: '{' :: (b' ++ d :: (y ++ ['}']))) ++ ';' :: z) =
            (k, more ++ '$' :: '{' :: (b' ++ d :: (y ++ ['}']))) := by
          have htext : (more ++ '$' :: '{' :: (b' ++ d :: (y ++ ['}']))) ++ ';' :: z =
              more ++ '$' :: '{' :: (b' ++ d :: (y ++ '}' :: ';' :: z)) := by simp
          rw [htext, hlex, hword hr]
        exact ⟨_, Cut.single o hall⟩

end Lexer

end SqlTables
