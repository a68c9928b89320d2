/-!
# Intervals of code points

A character class is a list of closed intervals in increasing order, and `Interval.covers` looks a
code point up in it. The search stops at the first interval that starts above the code point, so
the classes of small code points are decided by the first few intervals.
-/

namespace SqlTables

namespace Unicode

/-- The first and the last code point of a closed interval. -/
abbrev Interval := Nat × Nat

namespace Interval

/-- Whether some interval of an increasing list holds the code point. -/
def covers : List Interval → Nat → Bool
  | [], _ => false
  | (first, last) :: rest, n =>
    if n < first then false else if n ≤ last then true else covers rest n

@[simp] theorem covers_nil (n : Nat) : covers [] n = false := rfl

theorem covers_cons (first last : Nat) (rest : List Interval) (n : Nat) :
    covers ((first, last) :: rest) n =
      if n < first then false else if n ≤ last then true else covers rest n := rfl

end Interval

end Unicode

end SqlTables
