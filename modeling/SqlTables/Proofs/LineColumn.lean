import Mathlib.Algebra.GroupWithZero.Nat
import Mathlib.Data.List.Induction
import Mathlib.Data.Prod.Lex
import SqlTables.Span

/-!
# Lines and columns

`Span.lineColumn` counts newline characters up to an offset and searches backwards for the last of
them. `IsPosition` says what a line and a column mean without either: the script is cut into lines,
and the offset is the length of the lines before, with their newline characters, and the characters
before the column. `lineColumn_spec` states that the one is the other for every offset of a script,
its end included, so that positions and offsets determine each other and have the same order.
-/

namespace SqlTables

/-- The pieces of a script between its newline characters. -/
def linesOf (script : String) : List (List Char) :=
  script.toList.splitOn '\n'

/-- The offset at which a line begins, `i` lines being before it. -/
def lineStart (pieces : List (List Char)) (i : Nat) : Nat :=
  ((pieces.take i).map fun l => l.length + 1).sum

@[simp]
theorem lineStart_zero (pieces : List (List Char)) : lineStart pieces 0 = 0 := by
  simp [lineStart]

theorem lineStart_succ {pieces : List (List Char)} {i : Nat} {l : List Char}
    (h : pieces[i]? = some l) : lineStart pieces (i + 1) = lineStart pieces i + (l.length + 1) := by
  simp [lineStart, List.take_add_one, h]

theorem lineStart_mono (pieces : List (List Char)) {i j : Nat} (h : i ≤ j) :
    lineStart pieces i ≤ lineStart pieces j := by
  obtain ⟨d, rfl⟩ := Nat.exists_eq_add_of_le h
  simp [lineStart, List.take_add]

/-- Whether a line and a column, both counted from one, stand for an offset of a script. The column
behind the last character of a line is that of the newline character, or of the end. -/
structure IsPosition (script : String) (offset : Int) (place : Nat × Int) : Prop where
  one_le_line : 1 ≤ place.1
  line_le : place.1 ≤ (linesOf script).length
  one_le_column : 1 ≤ place.2
  column_le : ∀ l ∈ (linesOf script)[place.1 - 1]?, place.2 ≤ l.length + 1
  offset_eq : offset = lineStart (linesOf script) (place.1 - 1) + place.2 - 1

namespace IsPosition

variable {script : String} {a b : Int} {x y : Nat × Int}

theorem line_lt (h : IsPosition script a x) : x.1 - 1 < (linesOf script).length := by
  have := h.one_le_line
  have := h.line_le
  omega

/-- An offset is before every later line. -/
theorem lt_lineStart (h : IsPosition script a x) : a < lineStart (linesOf script) x.1 := by
  obtain ⟨l, hl⟩ : ∃ l, (linesOf script)[x.1 - 1]? = some l :=
    ⟨_, List.getElem?_eq_getElem h.line_lt⟩
  have hnext := lineStart_succ hl
  rw [Nat.sub_add_cancel h.one_le_line] at hnext
  have := h.column_le _ hl
  have := h.offset_eq
  omega

/-- A later position stands for a later offset. -/
theorem lt_of_lt (hx : IsPosition script a x) (hy : IsPosition script b y)
    (h : toLex x < toLex y) : a < b := by
  have ha := hx.offset_eq
  have hb := hy.offset_eq
  obtain hline | ⟨hline, hcolumn⟩ := Prod.Lex.toLex_lt_toLex.mp h
  · have hmono := lineStart_mono (linesOf script) (Nat.le_sub_one_of_lt hline)
    have := hx.lt_lineStart
    have := hy.one_le_column
    omega
  · rw [hline] at ha
    omega

theorem lt_iff (hx : IsPosition script a x) (hy : IsPosition script b y) :
    toLex x < toLex y ↔ a < b := by
  constructor
  · exact hx.lt_of_lt hy
  · intro hab
    obtain h | h | h := lt_trichotomy (toLex x) (toLex y)
    · exact h
    · obtain rfl : x = y := toLex_inj.mp h
      have := hx.offset_eq
      have := hy.offset_eq
      omega
    · have := hy.lt_of_lt hx h
      omega

theorem eq_iff (hx : IsPosition script a x) (hy : IsPosition script b y) : x = y ↔ a = b := by
  have hlt := hx.lt_iff hy
  have hgt := hy.lt_iff hx
  rw [← toLex_inj]
  constructor
  · intro h
    simp only [h, lt_irrefl, false_iff] at hlt hgt
    omega
  · rintro rfl
    simp only [lt_irrefl, iff_false] at hlt hgt
    exact le_antisymm (not_lt.mp hgt) (not_lt.mp hlt)

end IsPosition

/-! ## The lines around an offset -/

theorem length_splitOn (chars : List Char) :
    (chars.splitOn '\n').length = chars.count '\n' + 1 := by
  induction chars with
  | nil => simp
  | cons c chars ih =>
      rw [List.splitOn_cons_eq_if_modifyHead]
      by_cases hc : c = '\n' <;> simp [hc, ih]

/-- The first line goes up to the first newline character. -/
theorem getElem?_splitOn_zero (chars : List Char) :
    (chars.splitOn '\n')[0]? = some (chars.takeWhile (· != '\n')) := by
  induction chars with
  | nil => simp
  | cons c chars ih =>
      rw [List.splitOn_cons_eq_if_modifyHead]
      by_cases hc : c = '\n'
      · simp [hc]
      · simp [hc, ih]

/-- The line behind as many newline characters as are passed is what stands on both sides of the
offset. The induction moves the offset by one character: a newline character begins a new line,
any other one is passed on the same line. -/
theorem line_at (passed rest : List Char) :
    ((passed ++ rest).splitOn '\n')[passed.count '\n']? =
        some ((passed.reverse.takeWhile (· != '\n')).reverse ++ rest.takeWhile (· != '\n')) ∧
      passed.length = lineStart ((passed ++ rest).splitOn '\n') (passed.count '\n') +
        (passed.reverse.takeWhile (· != '\n')).length := by
  induction passed using List.reverseRecOn generalizing rest with
  | nil => simp [getElem?_splitOn_zero]
  | append_singleton passed c ih =>
      obtain ⟨hline, hlength⟩ := ih (c :: rest)
      rw [List.append_cons] at hline hlength
      by_cases hc : c = '\n'
      · subst hc
        have hnext := lineStart_succ hline
        constructor
        · simpa [List.splitOn_append_cons_self, length_splitOn] using getElem?_splitOn_zero rest
        · simp at hnext hlength ⊢
          omega
      · simp [hc] at hline hlength ⊢
        exact ⟨hline, by omega⟩

namespace Span

/-- Whether a span begins in a script, or at its end. -/
def StartsIn (script : String) (s : Span) : Prop := 0 ≤ s.start ∧ s.start ≤ script.length

instance (script : String) (s : Span) : Decidable (s.StartsIn script) :=
  inferInstanceAs (Decidable (_ ∧ _))

variable {script : String} {s t : Span}

theorem length_before (hs : s.StartsIn script) : ((s.before script).length : Int) = s.start := by
  obtain ⟨k, hk⟩ := Int.eq_ofNat_of_zero_le hs.1
  have hle := hs.2
  rw [hk] at hle ⊢
  rw [before, hk, clamp_natCast, List.length_take, String.length_toList]
  omega

theorem before_append_drop (s : Span) (script : String) :
    s.before script ++ script.toList.drop (clamp script.length s.start) = script.toList :=
  List.take_append_drop _ _

theorem isPosition_lineColumn (hs : s.StartsIn script) :
    IsPosition script s.start (s.lineColumn script) := by
  have hstart := length_before hs
  obtain ⟨hline, hlength⟩ :=
    line_at (s.before script) (script.toList.drop (clamp script.length s.start))
  rw [before_append_drop] at hline hlength
  obtain ⟨hmem, -⟩ := List.getElem?_eq_some_iff.mp hline
  constructor
  · simp [lineColumn]
  · exact hmem
  · simp only [lineColumn]
    omega
  · intro l hl
    simp only [lineColumn, Nat.add_sub_cancel] at hl ⊢
    rw [linesOf, hline] at hl
    obtain rfl := Option.mem_some_iff.mp hl
    simp
    omega
  · simp only [lineColumn, linesOf, Nat.add_sub_cancel]
    omega

/-- Lines and columns invert to offsets: the place of a start is the one position that stands for
it, and two starts have the same place, or places in lexicographic order, as the offsets do. -/
theorem lineColumn_spec (hs : s.StartsIn script) (ht : t.StartsIn script) :
    (∀ place, s.lineColumn script = place ↔ IsPosition script s.start place) ∧
      (s.lineColumn script = t.lineColumn script ↔ s.start = t.start) ∧
      (toLex (s.lineColumn script) < toLex (t.lineColumn script) ↔ s.start < t.start) := by
  have hplace := isPosition_lineColumn hs
  have hother := isPosition_lineColumn ht
  refine ⟨fun place => ?_, hplace.eq_iff hother, hplace.lt_iff hother⟩
  constructor
  · rintro rfl
    exact hplace
  · intro h
    exact (hplace.eq_iff h).mpr rfl

/-- An empty line and the end of a script without a newline character there. -/
theorem lineColumn_spec_emptyLine :
    StartsIn "ab\n\nc" ⟨3, 4⟩ ∧ StartsIn "ab\n\nc" ⟨5, 5⟩ ∧
      IsPosition "ab\n\nc" 3 (2, 1) ∧ IsPosition "ab\n\nc" 5 (3, 2) := by
  have hempty : StartsIn "ab\n\nc" ⟨3, 4⟩ := by decide
  have hend : StartsIn "ab\n\nc" ⟨5, 5⟩ := by decide
  have hplace : lineColumn ⟨3, 4⟩ "ab\n\nc" = (2, 1) := by decide
  have hlast : lineColumn ⟨5, 5⟩ "ab\n\nc" = (3, 2) := by decide
  exact ⟨hempty, hend, ((lineColumn_spec hempty hend).1 _).mp hplace,
    ((lineColumn_spec hend hempty).1 _).mp hlast⟩

end Span

end SqlTables
