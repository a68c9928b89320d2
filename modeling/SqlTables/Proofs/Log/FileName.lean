import Mathlib.Data.List.Basic
import SqlTables.Log.Folder
import SqlTables.Proofs.Calendar

/-!
# The names of log files

The name of the file of a day is read back as this day, but for the days of a year before `1000`:
the year is written without zeros in front and is only read if it has four digits
(`LogFolder.dateOf?_fileName`).
-/

namespace SqlTables

namespace LogFolder

variable {d : Date} {chars : List Char} {n year : Nat}

theorem stem?_append (name : String) : stem? (name ++ suffix) = some name.toList := by
  rw [stem?, String.toList_append]
  simp only [List.length_append, String.length_toList, Nat.add_sub_cancel]
  rw [← String.length_toList, List.drop_left, List.take_left, if_pos rfl]

/-! ## Years -/

theorem decimalValue?_digitChar : ∀ d < 10, Unicode.decimalValue? (Nat.digitChar d) = some d := by
  decide +kernel

theorem length_of_mapM {α β : Type} {f : α → Option β} {xs : List α} {ys : List β}
    (h : xs.mapM f = some ys) : ys.length = xs.length := by
  induction xs generalizing ys with
  | nil =>
      cases h
      rfl
  | cons x xs ih =>
      rw [List.mapM_cons] at h
      obtain ⟨y, -, h⟩ := Option.bind_eq_some_iff.mp h
      obtain ⟨rest, hrest, h⟩ := Option.bind_eq_some_iff.mp h
      cases h
      exact congrArg (· + 1) (ih hrest)

theorem length_of_year? (h : year? chars = some year) : chars.length = 4 := by
  unfold year? at h
  split at h
  · next hvalues => exact (length_of_mapM hvalues).symm
  · cases h

/-- A number of four digits is read as a year. -/
theorem year?_toDigits (h : 1000 ≤ n) (h' : n ≤ 9999) : year? (Nat.toDigits 10 n) = some n := by
  have hdigits : Nat.toDigits 10 n = [Nat.digitChar (n / 10 / 10 / 10),
      Nat.digitChar (n / 10 / 10 % 10), Nat.digitChar (n / 10 % 10), Nat.digitChar (n % 10)] := by
    rw [Nat.toDigits_eq_if (by decide), if_neg (by omega), Nat.toDigits_eq_if (by decide),
      if_neg (by omega), Nat.toDigits_eq_if (by decide), if_neg (by omega),
      Nat.toDigits_of_lt_base (by omega)]
    rfl
  have hvalue (d : Nat) (hd : d < 10) := decimalValue?_digitChar d hd
  rw [year?, hdigits]
  simp only [List.mapM_cons, List.mapM_nil]
  rw [hvalue _ (by omega), hvalue _ (by omega), hvalue _ (by omega), hvalue _ (by omega)]
  refine congrArg some ?_
  omega

/-- A smaller number has fewer digits. -/
theorem year?_toDigits_of_lt (h : n < 1000) : year? (Nat.toDigits 10 n) = none := by
  have hlength : (Nat.toDigits 10 n).length ≤ 3 :=
    (Nat.length_toDigits_le_iff (by decide) (by decide)).mpr h
  cases hyear : year? (Nat.toDigits 10 n) with
  | none => rfl
  | some year =>
      have hfour := length_of_year? hyear
      omega

theorem hyphen_notMem_toDigits (n : Nat) : '-' ∉ Nat.toDigits 10 n := fun h =>
  absurd (Nat.isDigit_of_mem_toDigits (by decide) (by decide) h) (by decide)

/-! ## Months and days -/

theorem month?_padded : ∀ m ≤ 12, 1 ≤ m →
    month? (Date.padded 2 m).toList = some m ∧ '-' ∉ (Date.padded 2 m).toList := by
  decide +kernel

theorem day?_padded : ∀ n ≤ 31, 1 ≤ n → day? (Date.padded 2 n).toList = some n := by
  decide +kernel

theorem daysInMonth_le (year month : Nat) : Date.daysInMonth year month ≤ 31 := by
  unfold Date.daysInMonth
  split
  · split <;> decide
  all_goals decide

/-! ## Dates -/

/-- A text with two hyphens is read part by part. -/
theorem date?_append {years months days : List Char} (hyears : '-' ∉ years)
    (hmonths : '-' ∉ months) :
    date? (years ++ '-' :: (months ++ '-' :: days)) = (do
      let year ← year? years
      let month ← month? months
      let day ← day? days
      if (⟨year, month, day⟩ : Date).isValid then some ⟨year, month, day⟩ else none) := by
  have htake {xs : List Char} (h : '-' ∉ xs) (rest : List Char) :
      (xs ++ '-' :: rest).takeWhile (fun c => !decide (c = '-')) = xs ∧
        (xs ++ '-' :: rest).dropWhile (fun c => !decide (c = '-')) = '-' :: rest := by
    have hall : ∀ c ∈ xs, (!decide (c = '-')) = true := fun c hc => by
      simpa using fun heq : c = '-' => h (heq ▸ hc)
    rw [List.takeWhile_append_of_pos hall, List.dropWhile_append_of_pos hall]
    simp
  simp only [date?, (htake hyears _).1, (htake hyears _).2, List.drop_succ_cons, List.drop_zero,
    (htake hmonths _).1, (htake hmonths _).2]

/-- The name of the file of a day is read back exactly if the year has four digits. -/
theorem dateOf?_fileName (h : d.isValid) :
    dateOf? (fileName d) = if 1000 ≤ d.year then some d else none := by
  obtain ⟨hyear, hmonth, hday⟩ := Date.isValid_iff.mp h
  obtain ⟨hmonths, hhyphen⟩ := month?_padded d.month hmonth.2 hmonth.1
  have hdays := day?_padded d.day (hday.2.trans (daysInMonth_le _ _)) hday.1
  have hyears : (toString d.year).toList = Nat.toDigits 10 d.year := String.toList_ofList
  have hdash : "-".toList = ['-'] := rfl
  have hchars : (toString d.year ++ "-" ++ Date.padded 2 d.month ++ "-" ++
      Date.padded 2 d.day).toList = Nat.toDigits 10 d.year ++
        '-' :: ((Date.padded 2 d.month).toList ++ '-' :: (Date.padded 2 d.day).toList) := by
    simp only [String.toList_append, List.append_assoc, hyears, hdash, List.cons_append,
      List.nil_append]
  rw [dateOf?, fileName, stem?_append, Option.bind_some, hchars,
    date?_append (hyphen_notMem_toDigits _) hhyphen, hmonths, hdays]
  split
  · next hlong =>
      rw [year?_toDigits hlong hyear.2]
      exact if_pos h
  · next hshort =>
      rw [year?_toDigits_of_lt (Nat.lt_of_not_le hshort)]
      rfl

end LogFolder

end SqlTables
