import Mathlib.Data.List.DropRight
import Mathlib.Data.List.Induction
import Mathlib.Tactic.Common
import SqlTables.Text

/-!
# Blanks and line ends

Trimming takes blanks from the ends of a text and nothing else, so what is left of it
without any blanks is the same before and after. Unifying the line ends changes line ends
only: a text that comes of it in two parts came of two parts
(`exists_of_unifyLineEnds_append`), and without blanks it is what it was.
-/

namespace SqlTables

namespace Text

variable {chars xs ys : List Char} {c : Char}

/-! ## Blanks -/

theorem squeeze_append (xs ys : List Char) : squeeze (xs ++ ys) = squeeze xs ++ squeeze ys :=
  List.filter_append xs ys

theorem squeeze_of_isBlank (h : ∀ c ∈ xs, Unicode.isBlank c) : squeeze xs = [] :=
  List.filter_eq_nil_iff.mpr fun c hc => by simp [h c hc]

theorem exists_trimLeft (chars : List Char) :
    ∃ blanks, (∀ c ∈ blanks, Unicode.isBlank c) ∧ chars = blanks ++ trimLeft chars :=
  ⟨chars.takeWhile Unicode.isBlank, fun _ => List.mem_takeWhile_imp,
    List.takeWhile_append_dropWhile.symm⟩

theorem exists_trimRight (chars : List Char) :
    ∃ blanks, (∀ c ∈ blanks, Unicode.isBlank c) ∧ chars = trimRight chars ++ blanks :=
  ⟨chars.rtakeWhile Unicode.isBlank, fun _ => List.mem_rtakeWhile_imp,
    (List.rdropWhile_append_rtakeWhile).symm⟩

theorem trimLeft_append (h : ∀ c ∈ xs, Unicode.isBlank c) (hc : Unicode.isBlank c = false)
    (ys : List Char) : trimLeft (xs ++ c :: ys) = c :: ys := by
  rw [trimLeft, List.dropWhile_append_of_pos h, List.dropWhile_cons_of_neg (by simp [hc])]

/-- What stands before a character that is no blank is not trimmed at the end. -/
theorem trimRight_append (hc : Unicode.isBlank c = false) (xs ys : List Char) :
    trimRight (xs ++ c :: ys) = xs ++ c :: trimRight ys := by
  have hconcat (zs : List Char) (d : Char) : trimRight (zs ++ [d]) =
      if Unicode.isBlank d then trimRight zs else zs ++ [d] :=
    List.rdropWhile_concat Unicode.isBlank zs d
  induction ys using List.reverseRecOn with
  | nil =>
      rw [hconcat, hc]
      rfl
  | append_singleton ys d ih =>
      rw [← List.cons_append, ← List.append_assoc, hconcat, hconcat, ih]
      split
      · rfl
      · rw [List.append_assoc, List.cons_append]

theorem squeeze_trimLeft (chars : List Char) : squeeze (trimLeft chars) = squeeze chars := by
  obtain ⟨blanks, hblanks, heq⟩ := exists_trimLeft chars
  conv_rhs => rw [heq, squeeze_append, squeeze_of_isBlank hblanks, List.nil_append]

theorem squeeze_trimRight (chars : List Char) : squeeze (trimRight chars) = squeeze chars := by
  obtain ⟨blanks, hblanks, heq⟩ := exists_trimRight chars
  conv_rhs => rw [heq, squeeze_append, squeeze_of_isBlank hblanks, List.append_nil]

/-- A blank at the start is gone before the end is trimmed. -/
theorem trimLeft_trimRight_trimLeft (chars : List Char) :
    trimLeft (trimRight (trimLeft chars)) = trimRight (trimLeft chars) := by
  have hright : trimRight (trimLeft chars) = (trimLeft chars).rdropWhile Unicode.isBlank := rfl
  obtain ⟨more, hmore⟩ := List.rdropWhile_prefix Unicode.isBlank (l := trimLeft chars)
  rw [hright]
  cases hkept : (trimLeft chars).rdropWhile Unicode.isBlank with
  | nil => rfl
  | cons c rest =>
      have hhead := List.head?_dropWhile_not Unicode.isBlank chars
      rw [hkept] at hmore
      rw [← trimLeft, ← hmore] at hhead
      simp only [List.cons_append, List.head?_cons] at hhead
      simp [trimLeft, hhead]

theorem trim_trim (s : String) : trim (trim s) = trim s := by
  have hright : trimRight (trimRight (trimLeft s.toList)) = trimRight (trimLeft s.toList) :=
    List.rdropWhile_idempotent Unicode.isBlank (trimLeft s.toList)
  simp [trim, trimLeft_trimRight_trimLeft, hright]


/-! ## Line ends -/

theorem unifyLineEnds_cons {c : Char} (h : c ≠ '\r') (rest : List Char) :
    unifyLineEnds (c :: rest) = c :: unifyLineEnds rest := by
  rw [unifyLineEnds]
  · exact fun _ hc _ => h hc
  · exact h

theorem unifyLineEnds_append {chars : List Char} (h : ∀ c ∈ chars, c ≠ '\r') (rest : List Char) :
    unifyLineEnds (chars ++ rest) = chars ++ unifyLineEnds rest := by
  induction chars with
  | nil => rfl
  | cons c chars ih =>
      rw [List.forall_mem_cons] at h
      rw [List.cons_append, unifyLineEnds_cons h.1, ih h.2, List.cons_append]

/-- A text may be cut before anything but a line feed. -/
theorem unifyLineEnds_append_cons (hc : c ≠ '\n') (xs ys : List Char) :
    unifyLineEnds (xs ++ c :: ys) = unifyLineEnds xs ++ unifyLineEnds (c :: ys) := by
  induction xs using unifyLineEnds.induct with
  | case1 rest ih => simp only [List.cons_append, unifyLineEnds, ih]
  | case2 rest hrest ih =>
      rw [unifyLineEnds, List.cons_append, unifyLineEnds, ih, List.cons_append]
      · intro more hmore
        cases rest with
        | nil => exact hc (List.cons.inj hmore).1
        | cons d rest => exact hrest rest (by rw [(List.cons.inj hmore).1])
      · exact hrest
  | case3 d rest _ hd ih =>
      rw [List.cons_append, unifyLineEnds_cons hd, unifyLineEnds_cons hd, ih, List.cons_append]
  | case4 => rfl

/-- What has no part in a line end stays, and so does what comes of the text around it. -/
theorem unifyLineEnds_middle {zs : List Char} (hne : zs ≠ []) (hreturn : '\r' ∉ zs)
    (hfeed : '\n' ∉ zs) (xs ys : List Char) :
    unifyLineEnds (xs ++ (zs ++ ys)) = unifyLineEnds xs ++ (zs ++ unifyLineEnds ys) := by
  cases zs with
  | nil => exact absurd rfl hne
  | cons c zs =>
      have hc : c ≠ '\n' := by
        rintro rfl
        exact hfeed List.mem_cons_self
      have hzs (d : Char) (hd : d ∈ c :: zs) : d ≠ '\r' := by
        rintro rfl
        exact hreturn hd
      rw [List.cons_append, unifyLineEnds_append_cons hc, ← List.cons_append,
        unifyLineEnds_append hzs]

/-- A carriage return becomes a line feed, with the one behind it or alone. -/
theorem unifyLineEnds_return (rest : List Char) :
    ∃ more, unifyLineEnds ('\r' :: rest) = '\n' :: more := by
  cases rest with
  | nil => exact ⟨[], rfl⟩
  | cons c rest =>
      by_cases hc : c = '\n'
      · exact ⟨unifyLineEnds rest, by rw [hc, unifyLineEnds]⟩
      · refine ⟨unifyLineEnds (c :: rest), ?_⟩
        rw [unifyLineEnds]
        exact fun _ heq => hc (List.cons.inj heq).1

theorem count_le_length_unifyLineEnds (chars : List Char) :
    chars.count '\n' ≤ (unifyLineEnds chars).length := by
  induction chars using unifyLineEnds.induct with
  | case1 rest ih =>
      rw [unifyLineEnds, List.count_cons_of_ne (by decide), List.count_cons_self]
      exact Nat.succ_le_succ ih
  | case2 rest hrest ih =>
      rw [unifyLineEnds, List.count_cons_of_ne (by decide)]
      · exact Nat.le_succ_of_le ih
      · exact hrest
  | case3 c rest hreturn hline ih =>
      rw [unifyLineEnds_cons hline, List.count_cons, List.length_cons]
      split
      · exact Nat.succ_le_succ ih
      · exact Nat.le_succ_of_le ih
  | case4 => exact Nat.zero_le _

/-- A text that comes of unified line ends in two parts came of two parts. -/
theorem exists_of_unifyLineEnds_append (h : unifyLineEnds chars = xs ++ ys) :
    ∃ us vs, chars = us ++ vs ∧ unifyLineEnds us = xs ∧ unifyLineEnds vs = ys := by
  induction chars using unifyLineEnds.induct generalizing xs with
  | case1 rest ih =>
      cases xs with
      | nil => exact ⟨[], _, rfl, rfl, h⟩
      | cons x xs =>
          rw [unifyLineEnds, List.cons_append, List.cons.injEq] at h
          obtain ⟨us, vs, rfl, rfl, hvs⟩ := ih h.2
          exact ⟨'\r' :: '\n' :: us, vs, rfl, by rw [unifyLineEnds, h.1], hvs⟩
  | case2 rest hrest ih =>
      cases xs with
      | nil => exact ⟨[], _, rfl, rfl, h⟩
      | cons x xs =>
          rw [unifyLineEnds, List.cons_append, List.cons.injEq] at h
          · obtain ⟨us, vs, rfl, rfl, hvs⟩ := ih h.2
            refine ⟨'\r' :: us, vs, rfl, ?_, hvs⟩
            rw [unifyLineEnds, h.1]
            exact fun us' heq => hrest (us' ++ vs) (by rw [heq, List.cons_append])
          · exact hrest
  | case3 c rest _ hc ih =>
      cases xs with
      | nil => exact ⟨[], _, rfl, rfl, h⟩
      | cons x xs =>
          rw [unifyLineEnds_cons hc, List.cons_append, List.cons.injEq] at h
          obtain ⟨us, vs, rfl, rfl, hvs⟩ := ih h.2
          exact ⟨c :: us, vs, rfl, by rw [unifyLineEnds_cons hc, h.1], hvs⟩
  | case4 =>
      obtain ⟨rfl, rfl⟩ := List.append_eq_nil_iff.mp h.symm
      exact ⟨[], [], rfl, rfl, rfl⟩

/-- Where no line ends, nothing is unified. -/
theorem eq_of_unifyLineEnds_eq (h : unifyLineEnds chars = xs) (hxs : '\n' ∉ xs) : chars = xs := by
  subst h
  induction chars using unifyLineEnds.induct with
  | case1 rest ih => exact absurd (by rw [unifyLineEnds]; exact List.mem_cons_self) hxs
  | case2 rest hrest ih =>
      obtain ⟨more, hmore⟩ := unifyLineEnds_return rest
      exact absurd (by rw [hmore]; exact List.mem_cons_self) hxs
  | case3 c rest _ hc ih =>
      rw [unifyLineEnds_cons hc, List.mem_cons, not_or] at hxs
      rw [unifyLineEnds_cons hc, ← ih hxs.2]
  | case4 => rfl

/-- All that is not part of a line end stays. -/
theorem filter_unifyLineEnds {p : Char → Bool} (hreturn : p '\r' = false) (hfeed : p '\n' = false)
    (chars : List Char) : (unifyLineEnds chars).filter p = chars.filter p := by
  induction chars using unifyLineEnds.induct with
  | case1 rest ih => rw [unifyLineEnds]; simp [hreturn, hfeed, ih]
  | case2 rest hrest ih =>
      rw [unifyLineEnds]
      · simp [hreturn, hfeed, ih]
      · exact hrest
  | case3 c rest _ hc ih => rw [unifyLineEnds_cons hc, List.filter_cons, List.filter_cons, ih]
  | case4 => rfl

theorem squeeze_unifyLineEnds (chars : List Char) : squeeze (unifyLineEnds chars) = squeeze chars :=
  filter_unifyLineEnds rfl rfl chars

theorem mem_unifyLineEnds_iff (hreturn : c ≠ '\r') (hfeed : c ≠ '\n') :
    c ∈ unifyLineEnds chars ↔ c ∈ chars := by
  have hmem (zs : List Char) : c ∈ zs ↔ c ∈ zs.filter (· == c) := by simp
  rw [hmem, filter_unifyLineEnds (by simpa using hreturn.symm) (by simpa using hfeed.symm), ← hmem]

theorem isBlank_unifyLineEnds_iff :
    (∀ c ∈ unifyLineEnds chars, Unicode.isBlank c) ↔ ∀ c ∈ chars, Unicode.isBlank c := by
  have hsqueeze (zs : List Char) : (∀ c ∈ zs, Unicode.isBlank c) ↔ squeeze zs = [] := by
    simp [squeeze]
  rw [hsqueeze, hsqueeze, squeeze_unifyLineEnds]

end Text

end SqlTables
