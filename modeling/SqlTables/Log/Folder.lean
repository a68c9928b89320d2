import SqlTables.Entries
import SqlTables.Log.Entry
import SqlTables.Unicode.Number

/-!
# Log folders

The entries of a project are kept in its folder, one file a day. `LogFolder.add` appends an entry to
the file of the day, and `LogFolder.cleanUp` drops the files of days that began before the retention
time. A file whose name is no date is kept, whatever its age.
-/

namespace SqlTables

/-- A number of days that cannot be counted back from a moment. -/
inductive RetentionProblem
  /-- It does not fit a signed number of 32 bits. -/
  | notAWord (days : Int)
  /-- It is longer than any span of time that is reckoned with. -/
  | tooLong (days : Int)
  /-- It leads out of the calendar. -/
  | outsideCalendar
deriving DecidableEq

namespace RetentionProblem

/-- The longest span of time in days. -/
def longestSpan : Nat := 999999999

def message : RetentionProblem → String
  | notAWord days => "days=" ++ toString days ++ "; must fit a signed number of 32 bits"
  | tooLong days =>
    "days=" ++ toString days ++ "; must have magnitude <= " ++ toString longestSpan
  | outsideCalendar => "date value out of range"

end RetentionProblem

/-- The lines of each file of a folder, by the name of the file. A folder without files is absent.
-/
abbrev LogFolder := Entries (List String)

namespace LogFolder

/-- The name of the folder for a project in the given directory. -/
def slug (directory : String) : String :=
  let chars := directory.toList.map fun c => if c = '/' then '-' else c
  String.ofList (chars.dropWhile (· = '-'))

def suffix : String := ".jsonl"

/-- The file for the entries of one day. Unlike the month and the day, the year is not filled up
with zeros. -/
def fileName (d : Date) : String :=
  toString d.year ++ "-" ++ Date.padded 2 d.month ++ "-" ++ Date.padded 2 d.day ++ suffix

/-- The name of a log file without its suffix. -/
def stem? (file : String) : Option (List Char) :=
  let chars := file.toList
  let size := chars.length - suffix.length
  if chars.drop size = suffix.toList then some (chars.take size) else none

/-- A year of four digits. -/
def year? (chars : List Char) : Option Nat :=
  match chars.mapM Unicode.decimalValue? with
  | some [a, b, c, d] => some (1000 * a + 100 * b + 10 * c + d)
  | _ => none

/-- The value of an ASCII digit that is not zero. -/
def unit? (c : Char) : Option Nat :=
  if '1' ≤ c ∧ c ≤ '9' then some (c.toNat - '0'.toNat) else none

/-- A month of one or two digits. -/
def month? : List Char → Option Nat
  | [c] => unit? c
  | ['0', c] => unit? c
  | ['1', '0'] => some 10
  | ['1', '1'] => some 11
  | ['1', '2'] => some 12
  | _ => none

/-- A day of one or two digits; a blank may stand for the first. -/
def day? : List Char → Option Nat
  | [c] => unit? c
  | ['0', c] => unit? c
  | [' ', c] => unit? c
  | ['1', c] => (Unicode.decimalValue? c).map (10 + ·)
  | ['2', c] => (Unicode.decimalValue? c).map (20 + ·)
  | ['3', '0'] => some 30
  | ['3', '1'] => some 31
  | _ => none

/-- A date as year, month and day with hyphens between them. -/
def date? (chars : List Char) : Option Date := do
  let isHyphen (c : Char) : Bool := c = '-'
  let afterYear := (chars.dropWhile (!isHyphen ·)).drop 1
  let year ← year? (chars.takeWhile (!isHyphen ·))
  let month ← month? (afterYear.takeWhile (!isHyphen ·))
  let day ← day? ((afterYear.dropWhile (!isHyphen ·)).drop 1)
  if (⟨year, month, day⟩ : Date).isValid then some ⟨year, month, day⟩ else none

/-- The day that a file is for. -/
def dateOf? (file : String) : Option Date := (stem? file).bind date?

/-- The moment that lies `days` days before `now`, in microseconds. -/
def cutoff (now : Instant) (days : Int) : Except RetentionProblem Int :=
  let day := now.date.dayNumber - days
  if days < -2147483648 ∨ 2147483647 < days then .error (.notAWord days)
  else if RetentionProblem.longestSpan < days.natAbs then .error (.tooLong days)
  else if day < 1 ∨ Date.lastDayNumber < day then .error .outsideCalendar
  else .ok (day * Instant.perDay + now.clock)

/-- Whether a file is for a day that began before the given moment. -/
def isExpired (limit : Int) (file : String) : Bool :=
  match dateOf? file with
  | some d => decide ((d.dayNumber * Instant.perDay : Int) < limit)
  | none => false

/-- Those of the files that are older than `days` days. -/
def expired (files : List String) (now : Instant) (days : Int) :
    Except RetentionProblem (List String) :=
  (cutoff now days).map fun limit => files.filter (isExpired limit)

/-- The folder with a line more in the file of the day. -/
def add (folder : LogFolder) (now : Instant) (line : String) : LogFolder :=
  let file := fileName now.date
  folder.put file ((folder.get? file).getD [] ++ [line])

/-- The folder without the given files. -/
def without (folder : LogFolder) (files : List String) : LogFolder :=
  folder.filter fun entry => !files.contains entry.1

theorem get?_add (folder : LogFolder) (now : Instant) (line file : String) :
    (folder.add now line).get? file =
      if fileName now.date = file then some ((folder.get? file).getD [] ++ [line])
      else folder.get? file := by
  rw [add, Entries.get?_put]
  split
  · rename_i h
    rw [h]
  · rfl

theorem get?_without (folder : LogFolder) (files : List String) (file : String) :
    (folder.without files).get? file = if files.contains file then none else folder.get? file := by
  rw [without, Entries.get?_filter folder (fun name => !files.contains name)]
  cases files.contains file <;> simp

/-- The number of files that are older than `days` days, and the folder without them. -/
def cleanUp (folder : LogFolder) (now : Instant) (days : Int) :
    Except RetentionProblem (Nat × LogFolder) :=
  (expired (folder.map Prod.fst) now days).map fun files => (files.length, folder.without files)

end LogFolder

end SqlTables
