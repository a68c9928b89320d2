/-!
# The calendar

Dates of the Gregorian calendar from year `1` to year `9999`, and the number of days from the first
of them to a date. An `Instant` is a date with the time of the day.
-/

namespace SqlTables

structure Date where
  year : Nat
  month : Nat
  day : Nat
deriving DecidableEq

namespace Date

def isLeap (year : Nat) : Bool := year % 4 = 0 && (year % 100 ≠ 0 || year % 400 = 0)

def daysInMonth (year month : Nat) : Nat :=
  match month with
  | 2 => if isLeap year then 29 else 28
  | 4 | 6 | 9 | 11 => 30
  | _ => 31

/-- Whether the date exists. -/
def isValid (d : Date) : Bool :=
  1 ≤ d.year && d.year ≤ 9999 && 1 ≤ d.month && d.month ≤ 12 && 1 ≤ d.day
    && d.day ≤ daysInMonth d.year d.month

/-- The days of the months before the given one. -/
def daysBeforeMonth (year : Nat) : Nat → Nat
  | 0 => 0
  | 1 => 0
  | m + 1 => daysBeforeMonth year m + daysInMonth year m

/-- The number of the day, where the first day of year `1` has number `1`. -/
def dayNumber (d : Date) : Nat :=
  let past := d.year - 1
  past * 365 + past / 4 - past / 100 + past / 400 + daysBeforeMonth d.year d.month + d.day

/-- The month and the day of a day of the year, from the given month on. -/
def monthAndDay (year : Nat) : (months : Nat) → (month day : Nat) → Nat × Nat
  | 0, month, day => (month, day)
  | more + 1, month, day =>
    if day ≤ daysInMonth year month then (month, day)
    else monthAndDay year more (month + 1) (day - daysInMonth year month)

/-- The date with the given day number. The years are counted in cycles of `400`, `100`, `4` and
`1`; the last day of a cycle that ends in a leap day still belongs to it. -/
def ofDayNumber (number : Nat) : Date :=
  let day := number - 1
  let cycles := day / 146097
  let day := day % 146097
  let centuries := min 3 (day / 36524)
  let day := day - centuries * 36524
  let fours := day / 1461
  let day := day % 1461
  let years := min 3 (day / 365)
  let year := cycles * 400 + centuries * 100 + fours * 4 + years + 1
  let (month, day) := monthAndDay year 11 1 (day - years * 365 + 1)
  ⟨year, month, day⟩

/-- Decimal digits, padded with zeros to the given width. -/
def padded (width n : Nat) : String :=
  let digits := toString n
  "".pushn '0' (width - digits.length) ++ digits

/-- The date as `YYYY-MM-DD`. -/
def text (d : Date) : String :=
  padded 4 d.year ++ "-" ++ padded 2 d.month ++ "-" ++ padded 2 d.day

/-- The number of the last date. -/
def lastDayNumber : Nat := dayNumber ⟨9999, 12, 31⟩

end Date

/-- A moment in universal time, to the microsecond. -/
structure Instant where
  date : Date
  /-- Microseconds since midnight. -/
  clock : Nat
deriving DecidableEq

namespace Instant

def perSecond : Nat := 1000000

def perDay : Nat := 86400 * perSecond

/-- Microseconds since the midnight that a day with number zero would begin with. -/
def ticks (t : Instant) : Nat := t.date.dayNumber * perDay + t.clock

/-- The moment that many microseconds after the first of January 1970. -/
def ofUnixTime (microseconds : Nat) : Instant :=
  let epoch := Date.dayNumber ⟨1970, 1, 1⟩
  ⟨.ofDayNumber (epoch + microseconds / perDay), microseconds % perDay⟩

/-- The moment as `YYYY-MM-DDTHH:MM:SS+00:00`, with the fraction of a second unless that is zero. -/
def text (t : Instant) : String :=
  let seconds := t.clock / perSecond
  let fraction := t.clock % perSecond
  t.date.text ++ "T" ++ Date.padded 2 (seconds / 3600) ++ ":" ++ Date.padded 2 (seconds / 60 % 60)
    ++ ":" ++ Date.padded 2 (seconds % 60)
    ++ (if fraction = 0 then "" else "." ++ Date.padded 6 fraction) ++ "+00:00"

end Instant

end SqlTables
