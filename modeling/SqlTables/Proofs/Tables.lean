import Mathlib.Data.List.Pairwise
import Mathlib.Data.String.Basic
import SqlTables.Proofs.Found

/-!
# Lists of tables

The names that a script reports are put into a set, which keeps the first spelling of each,
and listed in order (`TableSet.listing`). The list of further names behind others is that of
both lists together, in which a name is spelled as it was first (`TableSet.listing_append`).
-/

namespace SqlTables

namespace TableSet

variable {S T : TableSet} {name other : String} {a b c : String}

/-- The names in order, each in its first spelling. -/
def listing (names : List String) : List String := (names.foldl insert empty).sorted

/-- Both lists of tables in one, where a name of the second list gives way to the same name
in another spelling. -/
def union (xs ys : List String) : List String :=
  (xs ++ ys.filter fun y => !xs.any fun x => Unicode.fold x == Unicode.fold y).mergeSort precedes

@[simp] theorem listing_nil : listing [] = [] := List.mergeSort_nil

theorem listing_singleton (name : String) : listing [name] = [name] :=
  List.mergeSort_singleton name

theorem contains_foldl_insert (names : List String) (h : T.contains name ∨ name ∈ names) :
    (names.foldl insert T).contains name := by
  induction names generalizing T with
  | nil => exact h.resolve_right List.not_mem_nil
  | cons other names ih =>
      rw [List.foldl_cons]
      rcases h with h | h
      · exact ih (Or.inl (contains_insert h other))
      · rcases List.mem_cons.mp h with rfl | h
        · exact ih (Or.inl (contains_insert_self T name))
        · exact ih (Or.inr h)

/-- A name is listed in some spelling. -/
theorem exists_mem_listing {names : List String} (h : name ∈ names) :
    ∃ x ∈ listing names, Unicode.fold x = Unicode.fold name := by
  obtain ⟨x, hx, hfold⟩ := List.any_eq_true.mp
    (contains_foldl_insert (T := empty) names (Or.inr h))
  exact ⟨x, List.mem_mergeSort.mpr hx, eq_of_beq hfold⟩

/-! ## The order -/

theorem precedes_iff : precedes a b ↔
    Unicode.fold a < Unicode.fold b ∨ Unicode.fold a = Unicode.fold b ∧ a ≤ b := by
  simp [precedes]

theorem precedes_total (a b : String) : precedes a b || precedes b a := by
  rw [Bool.or_eq_true, precedes_iff, precedes_iff]
  rcases lt_trichotomy (Unicode.fold a) (Unicode.fold b) with hlt | heq | hlt
  · exact Or.inl (Or.inl hlt)
  · rcases String.le_total a b with hle | hle
    · exact Or.inl (Or.inr ⟨heq, hle⟩)
    · exact Or.inr (Or.inr ⟨heq.symm, hle⟩)
  · exact Or.inr (Or.inl hlt)

theorem precedes_trans (hab : precedes a b) (hbc : precedes b c) : precedes a c := by
  rw [precedes_iff] at hab hbc ⊢
  rcases hab with hab | ⟨hab, hle⟩
  · rcases hbc with hbc | ⟨hbc, -⟩
    · exact Or.inl (lt_trans hab hbc)
    · exact Or.inl (hbc ▸ hab)
  · rcases hbc with hbc | ⟨hbc, hle'⟩
    · exact Or.inl (hab ▸ hbc)
    · exact Or.inr ⟨hab.trans hbc, String.le_trans hle hle'⟩

theorem precedes_antisymm (hab : precedes a b) (hba : precedes b a) : a = b := by
  rw [precedes_iff] at hab hba
  rcases hab with hab | ⟨hab, hle⟩
  · rcases hba with hba | ⟨hba, -⟩
    · exact absurd hba (lt_asymm hab)
    · exact absurd hab (hba ▸ lt_irrefl _)
  · rcases hba with hba | ⟨-, hle'⟩
    · exact absurd hba (hab ▸ lt_irrefl _)
    · exact String.le_antisymm hle hle'

theorem pairwise_precedes (names : List String) :
    (names.mergeSort precedes).Pairwise fun a b => precedes a b := by
  apply List.pairwise_mergeSort
  · intro a b c hab hbc
    exact precedes_trans hab hbc
  · intro a b
    exact precedes_total a b

/-- The order of a list does not depend on where its names come from. -/
theorem mergeSort_eq_of_perm {xs ys : List String} (h : xs.Perm ys) :
    xs.mergeSort precedes = ys.mergeSort precedes := by
  have hperm : (xs.mergeSort precedes).Perm (ys.mergeSort precedes) :=
    (List.mergeSort_perm xs _).trans (h.trans (List.mergeSort_perm ys _).symm)
  refine List.Perm.eq_of_pairwise ?_ (pairwise_precedes xs) (pairwise_precedes ys) hperm
  intro a b _ _ hab hba
  exact precedes_antisymm hab hba

/-! ## Other spellings -/

/-- No two names of the set are the same in different spellings. -/
theorem pairwise_insert (h : T.toList.Pairwise fun a b => Unicode.fold a ≠ Unicode.fold b)
    (name : String) :
    (T.insert name).toList.Pairwise fun a b => Unicode.fold a ≠ Unicode.fold b := by
  rw [toList_insert]
  split
  · exact h
  · next hnone =>
      refine List.pairwise_append.mpr ⟨h, List.pairwise_singleton _ _, fun x hx y hy => ?_⟩
      obtain rfl := List.mem_singleton.mp hy
      exact fun hfold => hnone (List.any_eq_true.mpr ⟨x, hx, beq_iff_eq.mpr hfold⟩)

theorem pairwise_foldl_insert (names : List String)
    (h : T.toList.Pairwise fun a b => Unicode.fold a ≠ Unicode.fold b) :
    (names.foldl insert T).toList.Pairwise fun a b => Unicode.fold a ≠ Unicode.fold b := by
  induction names generalizing T with
  | nil => exact h
  | cons name names ih => exact ih (pairwise_insert h name)

/-- The names are listed in strictly increasing order by their folded texts. -/
theorem pairwise_listing (names : List String) :
    (listing names).Pairwise fun a b => Unicode.fold a < Unicode.fold b := by
  have hdistinct : (listing names).Pairwise fun a b => Unicode.fold a ≠ Unicode.fold b :=
    (List.mergeSort_perm _ _).symm.pairwise
      (pairwise_foldl_insert (T := empty) names .nil) fun h => h.symm
  refine (hdistinct.and (pairwise_precedes _)).imp fun h => ?_
  obtain hlt | ⟨heq, -⟩ := precedes_iff.mp h.2
  · exact hlt
  · exact absurd heq h.1

/-- A set finds the first spelling of each name. -/
theorem find?_foldl_insert (T : TableSet) (names : List String) (key : String) :
    (names.foldl insert T).toList.find? (fun n => Unicode.fold n == key) =
      (T.toList ++ names).find? fun n => Unicode.fold n == key := by
  induction names generalizing T with
  | nil => rw [List.foldl_nil, List.append_nil]
  | cons name names ih =>
      rw [List.foldl_cons, ih, toList_insert]
      split
      · next hname =>
          -- The name is there, so that its later spelling is not the first one.
          rw [List.find?_append, List.find?_append, List.find?_cons]
          split
          · next hkey =>
              obtain ⟨x, hx, hfold⟩ := List.any_eq_true.mp hname
              have hsome : (T.toList.find? fun n => Unicode.fold n == key).isSome :=
                List.find?_isSome.mpr ⟨x, hx, by rw [eq_of_beq hfold, hkey]⟩
              rw [Option.or_of_isSome hsome, Option.or_of_isSome hsome]
          · rfl
      · rw [List.append_assoc, List.singleton_append]

/-- The names that are listed are those that no name before them spells otherwise. -/
theorem mem_listing_iff {names : List String} :
    name ∈ listing names ↔
      names.find? (fun n => Unicode.fold n == Unicode.fold name) = some name := by
  have hfind := find?_foldl_insert empty names (Unicode.fold name)
  rw [toList_empty, List.nil_append] at hfind
  have hdistinct := pairwise_foldl_insert (T := empty) names .nil
  rw [← hfind, listing, sorted, List.mem_mergeSort]
  refine ⟨fun hname => ?_, List.mem_of_find?_eq_some⟩
  have hsome : ((names.foldl insert empty).toList.find? fun n =>
      Unicode.fold n == Unicode.fold name).isSome :=
    List.find?_isSome.mpr ⟨name, hname, beq_self_eq_true _⟩
  obtain ⟨first, hfirst⟩ := Option.isSome_iff_exists.mp hsome
  have hfold : Unicode.fold first = Unicode.fold name :=
    eq_of_beq (List.find?_some (p := fun n => Unicode.fold n == Unicode.fold name) hfirst)
  have : Std.Symm fun a b => Unicode.fold a ≠ Unicode.fold b := ⟨fun _ _ h => h.symm⟩
  by_cases hne : first = name
  · rw [hfirst, hne]
  · exact absurd hfold (hdistinct.forall (List.mem_of_find?_eq_some hfirst) hname hne)

theorem mem_fold_listing_iff {names : List String} {key : String} :
    key ∈ (listing names).map Unicode.fold ↔ key ∈ names.map Unicode.fold := by
  rw [List.mem_map, List.mem_map]
  constructor
  · rintro ⟨name, hname, rfl⟩
    exact ⟨name, List.mem_of_find?_eq_some (mem_listing_iff.mp hname), rfl⟩
  · rintro ⟨name, hname, rfl⟩
    exact exists_mem_listing hname

variable {respell : String → String}

theorem contains_map (hrespell : ∀ x, Unicode.fold (respell x) = Unicode.fold x) (T : TableSet)
    (name : String) : (⟨T.toList.map respell⟩ : TableSet).contains (respell name) =
      T.contains name := by
  simp only [contains, List.any_map, Function.comp_def, hrespell]

theorem foldl_insert_map (hrespell : ∀ x, Unicode.fold (respell x) = Unicode.fold x)
    (T : TableSet) (names : List String) :
    ((names.map respell).foldl insert ⟨T.toList.map respell⟩).toList =
      (names.foldl insert T).toList.map respell := by
  induction names generalizing T with
  | nil => rfl
  | cons name names ih =>
      have hinsert : (⟨T.toList.map respell⟩ : TableSet).insert (respell name) =
          ⟨(T.insert name).toList.map respell⟩ := by
        rw [insert, insert, contains_map hrespell]
        split
        · rfl
        · rw [List.map_append, List.map_singleton]
      rw [List.map_cons, List.foldl_cons, List.foldl_cons, hinsert, ih]

/-- Other spellings of the same names are listed in the same order. -/
theorem listing_map (hrespell : ∀ x, Unicode.fold (respell x) = Unicode.fold x)
    (names : List String) : listing (names.map respell) = (listing names).map respell := by
  have hpairwise := pairwise_foldl_insert (T := empty) names .nil
  have hmap := foldl_insert_map hrespell empty names
  rw [listing, listing, sorted, sorted]
  rw [toList_empty, List.map_nil] at hmap
  refine (congrArg (List.mergeSort · precedes) hmap).trans (List.map_mergeSort ?_).symm
  intro a ha b hb
  rw [Bool.eq_iff_iff, precedes_iff, precedes_iff, hrespell, hrespell]
  by_cases hab : a = b
  · rw [hab]
    simp
  · have : Std.Symm fun a b => Unicode.fold a ≠ Unicode.fold b := ⟨fun _ _ h => h.symm⟩
    have hfold := hpairwise.forall ha hb hab
    simp [hfold]

/-! ## Further names -/

/-- The set `S` without the names that `T` holds in some spelling. -/
def besides (T S : TableSet) : List String := S.toList.filter fun y => !T.contains y

theorem contains_congr (T : TableSet) (h : Unicode.fold name = Unicode.fold other) :
    T.contains name = T.contains other := by
  rw [contains, contains, h]

theorem contains_append_besides (T S : TableSet) (name : String) :
    (⟨T.toList ++ T.besides S⟩ : TableSet).contains name =
      (T.contains name || S.contains name) := by
  cases hname : T.contains name with
  | true =>
      rw [contains, List.any_append, Bool.true_or]
      rw [contains] at hname
      rw [hname, Bool.true_or]
  | false =>
      have hsame (y : String) : (!T.contains y && Unicode.fold y == Unicode.fold name) =
          (Unicode.fold y == Unicode.fold name) := by
        by_cases hy : Unicode.fold y = Unicode.fold name
        · simp [contains_congr T hy, hname]
        · simp [hy]
      have hsecond : (T.besides S).any (fun n => Unicode.fold n == Unicode.fold name) =
          S.contains name := by
        rw [besides, List.any_filter, contains]
        exact congrArg S.toList.any (funext hsame)
      rw [contains, List.any_append, hsecond]
      rw [contains] at hname
      rw [hname]

/-- Names that are added behind others are added beside them. -/
theorem foldl_insert_besides (T S : TableSet) (names : List String) :
    (names.foldl insert ⟨T.toList ++ T.besides S⟩).toList =
      T.toList ++ T.besides (names.foldl insert S) := by
  induction names generalizing S with
  | nil => rfl
  | cons name names ih =>
      have hinsert : (⟨T.toList ++ T.besides S⟩ : TableSet).insert name =
          ⟨T.toList ++ T.besides (S.insert name)⟩ := by
        rw [insert, insert, contains_append_besides]
        cases hS : S.contains name with
        | true => rw [Bool.or_true, if_pos rfl, if_pos rfl]
        | false =>
            rw [if_neg Bool.false_ne_true, besides, besides, List.filter_append, Bool.or_false]
            cases hT : T.contains name with
            | true => simp [hT]
            | false => simp [hT]
      rw [List.foldl_cons, List.foldl_cons, hinsert, ih]

theorem any_sorted (T : TableSet) (name : String) :
    (T.sorted.any fun x => Unicode.fold x == Unicode.fold name) = T.contains name :=
  (List.mergeSort_perm T.toList precedes).any_eq

/-- Names behind others are listed with them. -/
theorem listing_append (xs ys : List String) :
    listing (xs ++ ys) = union (listing xs) (listing ys) := by
  have hfold := foldl_insert_besides (xs.foldl insert empty) empty ys
  have hempty : (xs.foldl insert empty).besides empty = [] := rfl
  rw [hempty, List.append_nil] at hfold
  rw [listing, List.foldl_append, sorted, union]
  simp only [listing, any_sorted]
  refine mergeSort_eq_of_perm ?_
  refine (List.Perm.of_eq hfold).trans ?_
  exact (List.mergeSort_perm _ _).symm.append ((List.mergeSort_perm _ _).symm.filter _)

end TableSet

end SqlTables
