import SqlTables.Proofs.Token.Parenthesis

/-!
# What a step sees of the tokens to come

A step looks ahead, but only for a few things: `SameSight` names them. `Alike`
relates token sequences of the same kinds, up to the contents of closed groups.
Such sequences are seen alike (`Alike.sameSight`), since a look ahead passes over
a closed group. The one sight that goes further, the query of a `CREATE`, is the
same where no `)` is unmatched (`Alike.hasQueryBody`).

What stands behind tokens that close what is open is seen from among them only when it
is a name, a `(` or one of a few words (`sameSight_append_cons`).
-/

namespace SqlTables

theorem TokenGroup.balanced_tokens (g : TokenGroup) : Token.Balanced g.tokens :=
  g.balanced.group g.isOpening g.isClosing

theorem TokenGroup.tokens_append (g : TokenGroup) (ts : List Token) :
    g.tokens ++ ts = g.opener :: (g.content ++ g.closer :: ts) := by
  simp [tokens]

namespace Token

variable {t u : Token}

/-- A test of a token that looks at its kind only. -/
def OfKind (p : Token → Bool) : Prop := ∀ t u : Token, u.kind = t.kind → p u = p t

theorem ofKind_isName : OfKind isName := by
  intro t u h
  simp only [isName, h]

theorem ofKind_isKeyword (word : Keyword) : OfKind fun t => t.isKeyword word := by
  intro t u h
  simp only [isKeyword, h]

theorem ofKind_isAnyKeyword (words : List Keyword) : OfKind fun t => t.isAnyKeyword words := by
  intro t u h
  simp only [isAnyKeyword, h]

theorem ofKind_isMark (c : Char) : OfKind fun t => t.isMark c := by
  intro t u h
  simp only [isMark, h]

theorem OfKind.or {p q : Token → Bool} (hp : OfKind p) (hq : OfKind q) :
    OfKind fun t => p t || q t := by
  intro t u h
  simp only [hp t u h, hq t u h]

end Token

namespace Scan

open Token

theorem ofKind_isCandidate : OfKind isCandidate :=
  ofKind_isName.or (ofKind_isAnyKeyword nonReserved)

theorem ofKind_startsBody : OfKind startsBody :=
  (ofKind_isAnyKeyword _).or (ofKind_isMark '(')

/-- A step sees the same of the tokens to come, a query for a `CREATE` apart. -/
structure SameSight (ts us : List Token) : Prop where
  subquery : us.head?.any startsSubquery = ts.head?.any startsSubquery
  table : (us.head?.any fun u => u.isKeyword .TABLE) =
    ts.head?.any fun u => u.isKeyword .TABLE
  name : us.head?.any isName = ts.head?.any isName
  operand : (us.head?.any fun u => isCandidate u || u.isMark '(') =
    ts.head?.any fun u => isCandidate u || u.isMark '('
  cte : looksLikeCte us = looksLikeCte ts

theorem not_looksLikeCte_of_not_isName {t : Token} (hname : ¬ t.isName)
    (hrecursive : ¬ t.isKeyword .RECURSIVE) (ts : List Token) :
    looksLikeCte (t :: ts) = false := by
  simp [looksLikeCte, hname, hrecursive]

/-- The words that start a subquery are seen alike. -/
theorem sameSight_of_startsSubquery {ts us : List Token} (hts : ts.head?.any startsSubquery)
    (hus : us.head?.any startsSubquery) : SameSight ts us := by
  have hseen {ts : List Token} (h : ts.head?.any startsSubquery) :
      (ts.head?.any fun t => t.isKeyword .TABLE) = false ∧ ts.head?.any isName = false ∧
        (ts.head?.any fun t => isCandidate t || t.isMark '(') = false ∧
        looksLikeCte ts = false := by
    cases ts with
    | nil => cases h
    | cons t ts =>
        simp only [List.head?_cons, Option.any_some, startsSubquery, isAnyKeyword] at h
        split at h
        · next word hword =>
            have hmem : word ∈ [Keyword.SELECT, .WITH, .VALUES] := List.contains_iff_mem.mp h
            have hwords : ∀ word ∈ [Keyword.SELECT, .WITH, .VALUES],
                word ≠ .TABLE ∧ word ≠ .RECURSIVE ∧ word ∉ nonReserved := by decide
            obtain ⟨htable, hrecursive, hreserved⟩ := hwords word hmem
            have hname : t.isName = false := by simp [isName, hword]
            have hkeyword : t.isKeyword .RECURSIVE = false := by
              simpa [isKeyword, hword] using hrecursive
            refine ⟨?_, hname, ?_, ?_⟩
            · simpa [isKeyword, hword] using htable
            · simpa [isCandidate, hname, isAnyKeyword, isMark, hword] using hreserved
            · exact not_looksLikeCte_of_not_isName (by simp [hname]) (by simp [hkeyword]) ts
        · cases h
  obtain ⟨htable, hname, hoperand, hcte⟩ := hseen hts
  obtain ⟨htable', hname', hoperand', hcte'⟩ := hseen hus
  exact ⟨hus.trans hts.symm, htable'.trans htable.symm, hname'.trans hname.symm,
    hoperand'.trans hoperand.symm, hcte'.trans hcte.symm⟩

/-- Tokens of the same kinds, up to the contents of closed groups. -/
inductive Alike : List Token → List Token → Prop
  | nil : Alike [] []
  | cons {t u : Token} {ts us : List Token} (hkind : u.kind = t.kind) (hts : Alike ts us) :
      Alike (t :: ts) (u :: us)
  | group (g h : TokenGroup) {ts us : List Token} (hts : Alike ts us) :
      Alike (g.tokens ++ ts) (h.tokens ++ us)

namespace Alike

variable {ts us : List Token}

theorem of_forall₂ {xs ys : List Token} (hxs : List.Forall₂ (fun t u => u.kind = t.kind) xs ys)
    (h : Alike ts us) : Alike (xs ++ ts) (ys ++ us) := by
  induction hxs with
  | nil => exact h
  | cons hkind _ ih => exact .cons hkind ih

theorem head?_any (h : Alike ts us) {p : Token → Bool} (hp : OfKind p) :
    us.head?.any p = ts.head?.any p := by
  cases h with
  | nil => rfl
  | cons hkind => exact hp _ _ hkind
  | group g h =>
      rw [g.tokens_append, h.tokens_append]
      exact hp _ _ ((kind_of_isMark h.isOpening).trans (kind_of_isMark g.isOpening).symm)

/-- The same parenthesis closes a group, and what comes after it is alike. -/
theorem afterClosing? (h : Alike ts us) (d : Nat) :
    Option.Rel Alike (Scan.afterClosing? d ts) (Scan.afterClosing? d us) := by
  induction h generalizing d with
  | nil => exact .none
  | @cons t u ts us hkind hts ih =>
      have hmark (c : Char) : u.isMark c = t.isMark c := ofKind_isMark c t u hkind
      by_cases hopen : t.isMark '('
      · rw [afterClosing?_cons_open hopen, afterClosing?_cons_open (by rwa [hmark])]
        exact ih (d + 1)
      · by_cases hclose : t.isMark ')'
        · have hclose' : u.isMark ')' := by rwa [hmark]
          cases d with
          | zero =>
              rw [afterClosing?_cons_close_zero hclose, afterClosing?_cons_close_zero hclose']
              exact .some hts
          | succ d =>
              rw [afterClosing?_cons_close_succ hclose, afterClosing?_cons_close_succ hclose']
              exact ih d
        · rw [afterClosing?_cons_other hopen hclose,
            afterClosing?_cons_other (by rwa [hmark]) (by rwa [hmark])]
          exact ih d
  | group g h hts ih =>
      rw [afterClosing?_append (g.balanced_tokens.depth? d),
        afterClosing?_append (h.balanced_tokens.depth? d)]
      exact ih d

theorem isNone_afterClosing? (h : Alike ts us) (d : Nat) :
    (Scan.afterClosing? d us).isNone = (Scan.afterClosing? d ts).isNone := by
  have hrel := h.afterClosing? d
  generalize Scan.afterClosing? d ts = tail at hrel ⊢
  generalize Scan.afterClosing? d us = tail' at hrel ⊢
  cases hrel <;> rfl

theorem looksLikeCte (h : Alike ts us) : Scan.looksLikeCte us = Scan.looksLikeCte ts := by
  have hgroup (g : TokenGroup) (ts : List Token) :
      Scan.looksLikeCte (g.tokens ++ ts) = false := by
    rw [g.tokens_append]
    refine not_looksLikeCte_of_not_isName (fun hname => ?_) (fun hkeyword => ?_) _
    · exact not_isMark_of_isName hname '(' g.isOpening
    · exact not_isMark_of_isKeyword hkeyword '(' g.isOpening
  cases h with
  | nil => rfl
  | group g h hts => rw [hgroup, hgroup]
  | @cons name name' ts us hkind hts =>
      have hname : name'.isName = name.isName := ofKind_isName _ _ hkind
      have hrecursive : name'.isKeyword .RECURSIVE = name.isKeyword .RECURSIVE :=
        ofKind_isKeyword _ _ _ hkind
      cases hts with
      | nil => simp only [Scan.looksLikeCte, hname, hrecursive]
      | @cons t u ts us hkind' hts =>
          have has : u.isKeyword .AS = t.isKeyword .AS := ofKind_isKeyword _ _ _ hkind'
          have hopen : u.isMark '(' = t.isMark '(' := ofKind_isMark _ _ _ hkind'
          have hbody := hts.head?_any ((ofKind_isMark '(').or
            (ofKind_isAnyKeyword [.NOT, .MATERIALIZED]))
          have htail : ((Scan.afterClosing? 0 us).any fun tail =>
              tail.head?.any fun u => u.isKeyword .AS) =
              (Scan.afterClosing? 0 ts).any fun tail =>
                tail.head?.any fun u => u.isKeyword .AS := by
            have hrel := hts.afterClosing? 0
            generalize Scan.afterClosing? 0 ts = tail at hrel ⊢
            generalize Scan.afterClosing? 0 us = tail' at hrel ⊢
            cases hrel with
            | none => rfl
            | some htail => exact htail.head?_any (ofKind_isKeyword .AS)
          simp only [Scan.looksLikeCte, hname, hrecursive, has, hopen, hbody, htail]
      | @group g h ts us hts =>
          have hhead (g : TokenGroup) : g.opener.isKeyword .AS = false :=
            Bool.eq_false_iff.mpr fun has => not_isMark_of_isKeyword has '(' g.isOpening
          rw [g.tokens_append, h.tokens_append]
          simp only [Scan.looksLikeCte, hname, hrecursive, hhead, g.isOpening, h.isOpening,
            afterClosing?_content, Option.any_some, hts.head?_any (ofKind_isKeyword .AS),
            Bool.false_eq_true, if_false, if_true]

theorem sameSight (h : Alike ts us) : SameSight ts us where
  subquery := h.head?_any (ofKind_isAnyKeyword _)
  table := h.head?_any (ofKind_isKeyword .TABLE)
  name := h.head?_any ofKind_isName
  operand := h.head?_any (ofKind_isCandidate.or (ofKind_isMark '('))
  cte := h.looksLikeCte

/-- A `CREATE` passes over a closed group in looking for its query. -/
theorem hasQueryBody_group (g : TokenGroup) (d : Nat) (ts : List Token) :
    Scan.hasQueryBody d (g.tokens ++ ts) = Scan.hasQueryBody d ts := by
  have hopen : ¬ g.closer.isMark '(' := not_isMark_of_isMark g.isClosing (by decide)
  rw [g.tokens_append, Scan.hasQueryBody, if_pos g.isOpening,
    hasQueryBody_append (g.balanced.depth? d), Scan.hasQueryBody, if_neg hopen,
    if_pos g.isClosing, Int.add_sub_cancel]

theorem hasQueryBody (h : Alike ts us) {d : Nat} (hd : (depth? d ts).isSome) :
    Scan.hasQueryBody d us = Scan.hasQueryBody d ts := by
  induction h generalizing d with
  | nil => rfl
  | @cons t u ts us hkind hts ih =>
      have hmark (c : Char) : u.isMark c = t.isMark c := ofKind_isMark c t u hkind
      rw [Scan.hasQueryBody, Scan.hasQueryBody, hmark, hmark]
      by_cases hopen : t.isMark '('
      · rw [depth?_cons_open hopen] at hd
        rw [if_pos hopen, if_pos hopen]
        exact_mod_cast ih hd
      · by_cases hclose : t.isMark ')'
        · cases d with
          | zero =>
              rw [depth?_cons_close_zero hclose] at hd
              cases hd
          | succ d =>
              rw [depth?_cons_close_succ hclose] at hd
              have hcast : ((d + 1 : Nat) : Int) - 1 = d := by omega
              rw [if_neg hopen, if_neg hopen, if_pos hclose, if_pos hclose, hcast]
              exact ih hd
        · rw [depth?_cons_other hopen hclose] at hd
          have has : u.isKeyword .AS = t.isKeyword .AS := ofKind_isKeyword _ _ _ hkind
          rw [if_neg hopen, if_neg hopen, if_neg hclose, if_neg hclose, has, ih hd,
            hts.head?_any ofKind_startsBody]
  | group g h hts ih =>
      rw [g.balanced_tokens.depth?_append] at hd
      rw [hasQueryBody_group, hasQueryBody_group, ih hd]

end Alike

/-! ## Behind a stretch of tokens -/

/-- The words that a look ahead looks for. -/
def sightWords : List Keyword := nonReserved ++ [.SELECT, .WITH, .VALUES, .TABLE, .AS, .NOT]

/-- Whether a look ahead makes as little of the token as of the end of the tokens. -/
def endsSight (c : Token) : Bool :=
  !c.isName && !c.isMark '(' && !c.isAnyKeyword sightWords

section Behind

variable {c : Token} {ts : List Token}

theorem endsSight_of_isMark (hc : c.isMark ')') : endsSight c := by
  simp [endsSight, isName, isMark, isAnyKeyword, kind_of_isMark hc]

theorem endsSight_of_isAnyKeyword {words : List Keyword} (hc : c.isAnyKeyword words)
    (hwords : ∀ word ∈ words, word ∉ sightWords) : endsSight c := by
  obtain ⟨word, hword, hkeyword⟩ := isAnyKeyword_iff.mp hc
  simp [endsSight, isName, isMark, isAnyKeyword, kind_of_isKeyword hkeyword, hwords word hword]

theorem isAnyKeyword_of_endsSight (hc : endsSight c) {words : List Keyword}
    (hwords : words ⊆ sightWords) : c.isAnyKeyword words = false := by
  simp only [endsSight, Bool.and_eq_true, Bool.not_eq_true'] at hc
  exact Bool.eq_false_iff.mpr (not_isAnyKeyword_of_subset (Bool.eq_false_iff.mp hc.2) hwords)

theorem isKeyword_of_endsSight (hc : endsSight c) {word : Keyword} (hword : word ∈ sightWords) :
    c.isKeyword word = false := by
  rw [Bool.eq_false_iff]
  intro hk
  have hsubset : [word] ⊆ sightWords := fun w hw => List.mem_singleton.mp hw ▸ hword
  have hwords := isAnyKeyword_of_endsSight hc hsubset
  simp [isAnyKeyword, kind_of_isKeyword hk] at hwords

theorem isCandidate_of_endsSight (hc : endsSight c) : isCandidate c = false := by
  have hname : c.isName = false := by
    simp only [endsSight, Bool.and_eq_true, Bool.not_eq_true'] at hc
    exact hc.1.1
  rw [isCandidate, hname, isAnyKeyword_of_endsSight hc (List.subset_append_left _ _)]
  rfl

theorem head?_any_append_cons {p : Token → Bool} (h : p c = false) (ts us : List Token) :
    (ts ++ c :: us).head?.any p = ts.head?.any p := by
  cases ts with
  | nil => exact h
  | cons t ts => rfl

theorem looksLikeCte_append_cons (hc : endsSight c) {d : Nat} (h : depth? d ts = some 0)
    (us : List Token) : looksLikeCte (ts ++ c :: us) = looksLikeCte ts := by
  have hword {word : Keyword} (hword : word ∈ sightWords) := isKeyword_of_endsSight hc hword
  have has : c.isKeyword .AS = false := hword (by decide)
  have hbody : c.isAnyKeyword [.NOT, .MATERIALIZED] = false :=
    isAnyKeyword_of_endsSight hc (by decide)
  have hrecursive : c.isKeyword .RECURSIVE = false := hword (by decide)
  simp only [endsSight, Bool.and_eq_true, Bool.not_eq_true'] at hc
  obtain ⟨⟨hname, hopen⟩, -⟩ := hc
  cases ts with
  | nil => simp [looksLikeCte, hname, hrecursive]
  | cons name ts =>
      cases ts with
      | nil => simp [looksLikeCte, has, hopen]
      | cons t ts =>
          simp only [List.cons_append, looksLikeCte]
          by_cases hisName : name.isName
          · rw [depth?_cons_other (not_isMark_of_isName hisName '(')
              (not_isMark_of_isName hisName ')')] at h
            rw [head?_any_append_cons (by rw [hopen, hbody]; rfl)]
            by_cases hmark : t.isMark '('
            · rw [depth?_cons_open hmark] at h
              obtain ⟨tail, htail⟩ := exists_afterClosing? h (Nat.succ_pos d)
              rw [htail, afterClosing?_append_of_some htail, Option.any_some, Option.any_some,
                head?_any_append_cons has]
            · rw [if_neg hmark, if_neg hmark]
          · simp [hisName]

/-- Behind tokens that close what is open, such a token is seen as the end of the tokens
is. -/
theorem sameSight_append_cons (hc : endsSight c) {d : Nat} (h : depth? d ts = some 0)
    (us : List Token) : SameSight ts (ts ++ c :: us) := by
  have hcandidate := isCandidate_of_endsSight hc
  have hseen := hc
  simp only [endsSight, Bool.and_eq_true, Bool.not_eq_true'] at hseen
  obtain ⟨⟨hname, hopen⟩, -⟩ := hseen
  constructor
  · exact head?_any_append_cons (isAnyKeyword_of_endsSight hc (by decide)) ts us
  · exact head?_any_append_cons (isKeyword_of_endsSight hc (by decide)) ts us
  · exact head?_any_append_cons hname ts us
  · exact head?_any_append_cons (by rw [hcandidate, hopen]; rfl) ts us
  · exact looksLikeCte_append_cons hc h us

end Behind

end Scan

end SqlTables
