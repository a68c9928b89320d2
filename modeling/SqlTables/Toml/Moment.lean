import SqlTables.Calendar
import SqlTables.Datum

/-!
# Dates and times

`Moment.read?` reads a date, a time of the day, or both, with an offset where both are given. A
fraction of a second counts to the sixth digit.
-/

namespace SqlTables

namespace Toml

structure TimeOfDay where
  hour : Nat
  minute : Nat
  second : Nat
  micro : Nat
deriving DecidableEq

/-- A date or a time; the offset is in minutes. -/
inductive Moment
  | date (d : Date)
  | time (t : TimeOfDay)
  | both (d : Date) (t : TimeOfDay) (offset : Option Int)
deriving DecidableEq

namespace Moment

def isAsciiDigit (c : Char) : Bool := '0' ≤ c && c ≤ '9'

def value (digits : List Char) : Nat :=
  digits.foldl (fun n c => 10 * n + (c.toNat - '0'.toNat)) 0

/-- A number of exactly `width` digits that lies in the given range. -/
def number? (width low high : Nat) (chars : List Char) : Option (Nat × List Char) :=
  let digits := chars.take width
  let n := value digits
  if digits.length = width ∧ digits.all isAsciiDigit ∧ low ≤ n ∧ n ≤ high then
    some (n, chars.drop width)
  else none

/-- The characters after the given one. -/
def after? (mark : Char) : List Char → Option (List Char)
  | c :: rest => if c = mark then some rest else none
  | [] => none

/-- The fraction of a second, in millionths; without a digit after the point there is none. -/
def fraction (chars : List Char) : Nat × List Char :=
  match chars with
  | '.' :: rest =>
    let digits := rest.takeWhile isAsciiDigit
    if digits.isEmpty then (0, chars)
    else
      let kept := digits.take 6
      (value (kept ++ List.replicate (6 - kept.length) '0'), rest.drop digits.length)
  | _ => (0, chars)

def time? (chars : List Char) : Option (TimeOfDay × List Char) := do
  let (hour, rest) ← number? 2 0 23 chars
  let (minute, rest) ← number? 2 0 59 (← after? ':' rest)
  let (second, rest) ← number? 2 0 59 (← after? ':' rest)
  let (micro, rest) := fraction rest
  pure (⟨hour, minute, second, micro⟩, rest)

/-- A date whose month and day are in range, though the day may not exist in the month. -/
def date? (chars : List Char) : Option (Date × List Char) := do
  let (year, rest) ← number? 4 0 9999 chars
  let (month, rest) ← number? 2 1 12 (← after? '-' rest)
  let (day, rest) ← number? 2 1 31 (← after? '-' rest)
  pure (⟨year, month, day⟩, rest)

/-- An offset from universal time, in minutes. -/
def offset (chars : List Char) : Option Int × List Char :=
  let signed (sign : Int) (rest : List Char) : Option Int × List Char :=
    let read : Option (Int × List Char) := do
      let (hours, rest) ← number? 2 0 23 rest
      let (minutes, rest) ← number? 2 0 59 (← after? ':' rest)
      pure (sign * (60 * hours + minutes), rest)
    match read with
    | some (n, rest) => (some n, rest)
    | none => (none, chars)
  match chars with
  | 'Z' :: rest | 'z' :: rest => (some 0, rest)
  | '+' :: rest => signed 1 rest
  | '-' :: rest => signed (-1) rest
  | _ => (none, chars)

/-- The moment at the start of the characters, before its date is checked. -/
def match? (chars : List Char) : Option (Moment × List Char) :=
  match date? chars with
  | some (d, rest) =>
    let timed : Option (TimeOfDay × List Char) :=
      match rest with
      | c :: more => if c = 'T' ∨ c = 't' ∨ c = ' ' then time? more else none
      | [] => none
    match timed with
    | some (t, rest) =>
      let (o, rest) := offset rest
      some (both d t o, rest)
    | none => some (date d, rest)
  | none => (time? chars).map fun (t, rest) => (time t, rest)

/-- Whether the date of the moment exists. -/
def isValid : Moment → Bool
  | date d | both d _ _ => d.isValid
  | time _ => true

/-- The seconds and the fraction, left out where they are zero. -/
def timeArguments (t : TimeOfDay) : List String :=
  let all := [t.hour, t.minute, t.second, t.micro]
  let kept := if t.micro ≠ 0 then 4 else if t.second ≠ 0 then 3 else 2
  (all.take kept).map toString

def dateArguments (d : Date) : List String := [d.year, d.month, d.day].map toString

def timeText (t : TimeOfDay) : String :=
  Date.padded 2 t.hour ++ ":" ++ Date.padded 2 t.minute ++ ":" ++ Date.padded 2 t.second
    ++ if t.micro = 0 then "" else "." ++ Date.padded 6 t.micro

def offsetText (minutes : Int) : String :=
  let size := minutes.natAbs
  (if minutes < 0 then "-" else "+") ++ Date.padded 2 (size / 60) ++ ":"
    ++ Date.padded 2 (size % 60)

def zoneLiteral (minutes : Int) : String :=
  if minutes = 0 then "datetime.timezone.utc"
  else
    let seconds := toString (minutes * 60 % 86400)
    "datetime.timezone(datetime.timedelta("
      ++ (if minutes < 0 then "days=-1, seconds=" else "seconds=") ++ seconds ++ "))"

/-- The moment as it is shown. -/
def datum : Moment → Datum
  | date d => .moment d.text ("datetime.date(" ++ ", ".intercalate (dateArguments d) ++ ")")
  | time t => .moment (timeText t) ("datetime.time(" ++ ", ".intercalate (timeArguments t) ++ ")")
  | both d t o =>
    .moment (d.text ++ " " ++ timeText t ++ (o.map offsetText).getD "")
      ("datetime.datetime(" ++ ", ".intercalate (dateArguments d ++ timeArguments t
        ++ (o.map fun m => "tzinfo=" ++ zoneLiteral m).toList) ++ ")")

end Moment

end Toml

end SqlTables
