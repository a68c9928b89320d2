/-!
# Spans of a text

A `Span` is a pair of code point offsets. Its bounds are integers and need not lie inside the text
it is applied to: as in `slice`, a negative bound counts from the end of the text and a bound past
the end stands for the end. A span that the extraction builds has `0 ≤ start < stop`.
-/

namespace SqlTables

structure Span where
  start : Int
  stop : Int
deriving DecidableEq

namespace Span

/-- The offset that a bound stands for in a text of `n` characters. -/
def clamp (n : Nat) (bound : Int) : Nat :=
  if bound < 0 then (bound + n).toNat else min bound.toNat n

theorem clamp_le (n : Nat) (bound : Int) : clamp n bound ≤ n := by
  unfold clamp
  split <;> omega

theorem clamp_natCast (n k : Nat) : clamp n k = min k n := by
  simp only [clamp, Int.toNat_natCast]
  split <;> omega

/-- The part of the text between the bounds. -/
def slice (s : Span) (text : String) : String :=
  let chars := text.toList
  String.ofList ((chars.take (clamp chars.length s.stop)).drop (clamp chars.length s.start))

/-- The distance between the bounds, which is negative when they are out of order. -/
def width (s : Span) : Int := s.stop - s.start

def isEmpty (s : Span) : Bool := s.start == s.stop

/-- The part of the text before the span. -/
def before (s : Span) (text : String) : List Char :=
  text.toList.take (clamp text.length s.start)

/-- The line and the column of the start, both counted from one. -/
def lineColumn (s : Span) (text : String) : Nat × Int :=
  let passed := s.before text
  let onLine := passed.reverse.takeWhile (· != '\n')
  (passed.count '\n' + 1, s.start - (passed.length - onLine.length : Nat) + 1)

end Span

end SqlTables
