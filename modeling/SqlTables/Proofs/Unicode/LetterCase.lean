import Mathlib.Data.List.Basic
import SqlTables.Unicode.Blank
import SqlTables.Unicode.CaseFold
import SqlTables.Unicode.LowerCase
import SqlTables.Unicode.Number
import SqlTables.Unicode.UpperCase

/-!
# The case of the Latin letters

`Char.toLower` and `String.toLower` change the letters from `A` to `Z` and nothing else. The
classes of characters and the mappings to upper, lower and folded case do not tell such a letter
from the small one, since it is enough to look at the 26 letters (`congr_toLower`).
-/

namespace SqlTables

namespace Unicode

/-- The letters from `A` to `Z`. -/
def capitals : List Char :=
  ['A', 'B', 'C', 'D', 'E', 'F', 'G', 'H', 'I', 'J', 'K', 'L', 'M', 'N', 'O', 'P', 'Q', 'R', 'S',
    'T', 'U', 'V', 'W', 'X', 'Y', 'Z']

/-- The character is no letter from `A` to `Z` and none from `a` to `z`. -/
def IsCaseless (d : Char) : Prop := d ∉ capitals ∧ d ∉ capitals.map Char.toLower

instance (d : Char) : Decidable (IsCaseless d) := inferInstanceAs (Decidable (_ ∧ _))

variable {c d : Char} {xs : List Char}

theorem mem_capitals (hle : 'A'.val ≤ c.val) (hge : c.val ≤ 'Z'.val) : c ∈ capitals := by
  have hall : ∀ k < 26, Char.ofNat (k + 65) ∈ capitals := by decide +kernel
  rw [UInt32.le_iff_toNat_le] at hle hge
  have hlow : 65 ≤ c.toNat := hle
  have hhigh : c.toNat ≤ 90 := hge
  have hmem := hall (c.toNat - 65) (by omega)
  rwa [Nat.sub_add_cancel hlow, Char.ofNat_toNat] at hmem

theorem toLower_of_not_mem (hc : c ∉ capitals) : c.toLower = c :=
  dif_neg fun h => hc (mem_capitals h.1 h.2)

/-- What does not tell the letters from `A` to `Z` from the small ones does not look at case. -/
theorem congr_toLower {α : Type} {f : Char → α}
    (h : capitals.map (f ∘ Char.toLower) = capitals.map f) (c : Char) : f c.toLower = f c := by
  by_cases hc : c ∈ capitals
  · exact List.map_inj_left.mp h c hc
  · rw [toLower_of_not_mem hc]

/-- A character that is no letter is no other one in lower case. -/
theorem toLower_eq_iff (hd : IsCaseless d) : c.toLower = d ↔ c = d := by
  by_cases hc : c ∈ capitals
  · refine iff_of_false ?_ ?_
    · rintro rfl
      exact hd.2 (List.mem_map_of_mem hc)
    · rintro rfl
      exact hd.1 hc
  · rw [toLower_of_not_mem hc]

@[simp] theorem isBlank_toLower (c : Char) : isBlank c.toLower = isBlank c :=
  congr_toLower (by decide +kernel) c

@[simp] theorem isDigit_toLower (c : Char) : isDigit c.toLower = isDigit c :=
  congr_toLower (by decide +kernel) c

@[simp] theorem isCased_toLower (c : Char) : isCased c.toLower = isCased c :=
  congr_toLower (by decide +kernel) c

@[simp] theorem isCaseIgnorable_toLower (c : Char) :
    isCaseIgnorable c.toLower = isCaseIgnorable c :=
  congr_toLower (by decide +kernel) c

@[simp] theorem upperChar_toLower (c : Char) : upperChar c.toLower = upperChar c :=
  congr_toLower (by decide +kernel) c

@[simp] theorem lowerChar_toLower (c : Char) : lowerChar c.toLower = lowerChar c :=
  congr_toLower (by decide +kernel) c

@[simp] theorem foldChar_toLower (c : Char) : foldChar c.toLower = foldChar c :=
  congr_toLower (by decide +kernel) c

/-! ## Texts -/

@[simp] theorem toList_toLower (s : String) : s.toLower.toList = s.toList.map Char.toLower :=
  String.toList_map

@[simp] theorem length_toLower (s : String) : s.toLower.length = s.length := String.length_map

theorem toLower_ofList (xs : List Char) :
    (String.ofList xs).toLower = String.ofList (xs.map Char.toLower) := by
  rw [← String.toList_inj, toList_toLower, String.toList_ofList, String.toList_ofList]

theorem toLower_eq_self {s : String} (h : s.toList.map Char.toLower = s.toList) :
    s.toLower = s := by
  rw [← String.toList_inj, toList_toLower, h]

theorem toLower_append (s t : String) : (s ++ t).toLower = s.toLower ++ t.toLower := by
  rw [← String.toList_inj]
  simp only [toList_toLower, String.toList_append, List.map_append]

@[simp] theorem toLower_eq_empty_iff {s : String} : s.toLower = "" ↔ s = "" := by
  rw [← String.toList_inj, ← String.toList_inj, toList_toLower]
  exact List.map_eq_nil_iff

theorem toLower_intercalate (sep : String) (parts : List String) :
    (sep.intercalate parts).toLower = sep.toLower.intercalate (parts.map String.toLower) := by
  induction parts with
  | nil => exact toLower_eq_empty_iff.mpr rfl
  | cons part parts ih =>
      cases parts with
      | nil =>
          rw [List.map_singleton, String.intercalate_singleton, String.intercalate_singleton]
      | cons next parts =>
          rw [List.map_cons, List.map_cons, String.intercalate_cons_cons,
            String.intercalate_cons_cons, toLower_append, toLower_append, ih, List.map_cons]

@[simp] theorem upper_toLower (s : String) : upper s.toLower = upper s := by
  rw [upper, upper, toList_toLower, List.flatMap_map]
  exact congrArg String.ofList (List.flatMap_congr fun c _ => upperChar_toLower c)

@[simp] theorem fold_toLower (s : String) : fold s.toLower = fold s := by
  rw [fold, fold, toList_toLower, List.flatMap_map]
  exact congrArg String.ofList (List.flatMap_congr fun c _ => foldChar_toLower c)

theorem meetsCased_toLower (xs : List Char) :
    meetsCased (xs.map Char.toLower) = meetsCased xs := by
  induction xs with
  | nil => rfl
  | cons c xs ih =>
      rw [List.map_cons, meetsCased, meetsCased, isCaseIgnorable_toLower, isCased_toLower, ih]

/-- The letters around a sigma have a case in either case. -/
theorem lowerAfter_toLower (before xs : List Char) :
    lowerAfter (before.map Char.toLower) (xs.map Char.toLower) = lowerAfter before xs := by
  induction xs generalizing before with
  | nil => rfl
  | cons c xs ih =>
      have hsigma : c.toLower = 'Σ' ↔ c = 'Σ' := toLower_eq_iff (by decide +kernel)
      rw [List.map_cons, lowerAfter, lowerAfter, meetsCased_toLower, meetsCased_toLower,
        lowerChar_toLower, ← List.map_cons, ih]
      simp only [hsigma]

@[simp] theorem lower_toLower (s : String) : lower s.toLower = lower s := by
  rw [lower, lower, toList_toLower]
  exact congrArg String.ofList (lowerAfter_toLower [] s.toList)

end Unicode

end SqlTables
