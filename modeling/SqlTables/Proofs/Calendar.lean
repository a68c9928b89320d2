import Mathlib.Tactic.IntervalCases
import SqlTables.Calendar

/-!
# The days of the calendar

No date that exists is behind the last day of the calendar (`Date.dayNumber_le_last`).
-/

namespace SqlTables

namespace Date

variable {d : Date}

/-- The parts of a date are within their bounds. -/
theorem isValid_iff : d.isValid ↔
    (1 ≤ d.year ∧ d.year ≤ 9999) ∧ (1 ≤ d.month ∧ d.month ≤ 12) ∧
      1 ≤ d.day ∧ d.day ≤ daysInMonth d.year d.month := by
  simp [isValid, and_assoc]

/-- The days of a year, up to the end of a month. -/
theorem daysBeforeMonth_add_le (year : Nat) {month : Nat} (h : 1 ≤ month) (h' : month ≤ 12) :
    daysBeforeMonth year month + daysInMonth year month ≤
      365 + if isLeap year then 1 else 0 := by
  interval_cases month <;> simp only [daysBeforeMonth, daysInMonth] <;> split <;> omega

theorem dayNumber_le_last (h : d.isValid) : d.dayNumber ≤ lastDayNumber := by
  obtain ⟨hyear, hmonth, hday⟩ := isValid_iff.mp h
  have hdays := daysBeforeMonth_add_le d.year hmonth.1 hmonth.2
  have hlast : lastDayNumber = 3652059 := by decide +kernel
  rw [hlast, dayNumber]
  -- The last year is no leap year, and a leap day before it is made up for by the years between.
  by_cases hfinal : d.year = 9999
  · have hleap : isLeap 9999 = false := by decide
    rw [hfinal, hleap] at hdays
    rw [hfinal] at hday ⊢
    simp only [Bool.false_eq_true, if_false] at hdays
    omega
  · split at hdays <;> omega

end Date

end SqlTables
