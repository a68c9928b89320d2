import Mathlib.Data.List.Induction
import Mathlib.Data.List.Nodup
import SqlTables.Entries

/-!
# Entries as a mapping

Entries whose keys are distinct hold a pair exactly if its value is looked up at its key.
`Entries.put` keeps keys distinct, and `Entries.ofList` takes up every pair of a list in which no
key has two values.
-/

namespace SqlTables

namespace Entries

variable {α : Type}

/-- No key stands twice. -/
def Distinct (entries : Entries α) : Prop := (entries.map Prod.fst).Nodup

instance (entries : Entries α) : Decidable entries.Distinct :=
  inferInstanceAs (Decidable (List.Nodup _))

theorem distinct_nil : Distinct ([] : Entries α) := List.nodup_nil

theorem distinct_cons {k : String} {v : α} {rest : Entries α} :
    Distinct ((k, v) :: rest) ↔ (∀ e ∈ rest, e.1 ≠ k) ∧ Distinct rest := by
  rw [Distinct, List.map_cons, List.nodup_cons, List.mem_map, not_exists]
  exact and_congr_left fun _ => forall_congr' fun e => not_and

theorem mem_of_get? {entries : Entries α} {key : String} {value : α}
    (h : entries.get? key = some value) : (key, value) ∈ entries := by
  induction entries with
  | nil => cases h
  | cons e rest ih =>
      obtain ⟨k, v⟩ := e
      by_cases hk : k = key
      · rw [get?, if_pos hk, Option.some_inj] at h
        subst hk h
        exact List.mem_cons_self
      · rw [get?, if_neg hk] at h
        exact List.mem_cons_of_mem _ (ih h)

theorem get?_eq_none_iff {entries : Entries α} {key : String} :
    entries.get? key = none ↔ ∀ e ∈ entries, e.1 ≠ key := by
  induction entries with
  | nil => simp
  | cons e rest ih =>
      obtain ⟨k, v⟩ := e
      by_cases hk : k = key <;> simp [get?, hk, ih]

theorem get?_eq_some_iff {entries : Entries α} (h : Distinct entries) {key : String} {value : α} :
    entries.get? key = some value ↔ (key, value) ∈ entries := by
  refine ⟨mem_of_get?, fun hmem => ?_⟩
  induction entries with
  | nil => cases hmem
  | cons e rest ih =>
      obtain ⟨k, v⟩ := e
      obtain ⟨hk, hrest⟩ := distinct_cons.mp h
      rcases List.mem_cons.mp hmem with heq | hlater
      · cases heq
        exact if_pos rfl
      · rw [get?, if_neg (hk _ hlater).symm, ih hrest hlater]

theorem get?_append (before rest : Entries α) (key : String) :
    get? (before ++ rest) key = (before.get? key).or (get? rest key) := by
  induction before with
  | nil => rfl
  | cons e before ih =>
      obtain ⟨k, v⟩ := e
      by_cases hk : k = key <;> simp [get?, hk, ih]

theorem get?_eq_none_of_distinct {before rest : Entries α} {key : String} {value : α}
    (h : Distinct (before ++ (key, value) :: rest)) : before.get? key = none := by
  rw [Distinct, List.map_append, List.nodup_append] at h
  exact get?_eq_none_iff.mpr fun e he =>
    h.2.2 e.1 (List.mem_map_of_mem he) key (List.mem_cons_self)

theorem get?_map {β : Type} (f : α → β) (entries : Entries α) (key : String) :
    get? (entries.map fun e => (e.1, f e.2)) key = (entries.get? key).map f := by
  induction entries with
  | nil => rfl
  | cons e rest ih =>
      obtain ⟨k, v⟩ := e
      by_cases hk : k = key <;> simp [get?, hk, ih]

theorem distinct_map {β : Type} (f : α → β) {entries : Entries α} :
    Distinct (entries.map fun e => (e.1, f e.2)) ↔ Distinct entries := by
  rw [Distinct, Distinct, List.map_map]
  exact Iff.rfl

/-! ## A value that is put -/

theorem put_append {before : Entries α} {key : String} (h : before.get? key = none)
    (rest : Entries α) (value : α) :
    put (before ++ rest) key value = before ++ put rest key value := by
  induction before with
  | nil => rfl
  | cons e before ih =>
      obtain ⟨k, v⟩ := e
      by_cases hk : k = key
      · rw [get?, if_pos hk] at h
        cases h
      · rw [get?, if_neg hk] at h
        rw [List.cons_append, put, if_neg hk, ih h, List.cons_append]

theorem put_new {entries : Entries α} {key : String} (h : entries.get? key = none) (value : α) :
    put entries key value = entries ++ [(key, value)] := by
  have hput := put_append h [] value
  rwa [List.append_nil] at hput

theorem map_put {β : Type} (f : α → β) (entries : Entries α) (key : String) (value : α) :
    (put entries key value).map (fun e => (e.1, f e.2)) =
      put (entries.map fun e => (e.1, f e.2)) key (f value) := by
  induction entries with
  | nil => rfl
  | cons e rest ih =>
      obtain ⟨k, v⟩ := e
      by_cases hk : k = key <;> simp [put, hk, ih]

theorem mem_put {entries : Entries α} {key : String} {value : α} {e : String × α}
    (h : e ∈ put entries key value) : e = (key, value) ∨ e ∈ entries := by
  induction entries with
  | nil => exact Or.inl (List.mem_singleton.mp h)
  | cons d rest ih =>
      obtain ⟨k, v⟩ := d
      by_cases hk : k = key
      · rw [put, if_pos hk, hk] at h
        exact (List.mem_cons.mp h).imp_right (List.mem_cons_of_mem _)
      · rw [put, if_neg hk] at h
        rcases List.mem_cons.mp h with rfl | hrest
        · exact Or.inr List.mem_cons_self
        · exact (ih hrest).imp_right (List.mem_cons_of_mem _)

theorem distinct_put {entries : Entries α} (h : Distinct entries) (key : String) (value : α) :
    Distinct (put entries key value) := by
  induction entries with
  | nil => exact List.nodup_singleton _
  | cons e rest ih =>
      obtain ⟨k, v⟩ := e
      obtain ⟨hk, hrest⟩ := distinct_cons.mp h
      by_cases hkey : k = key
      · rw [put, if_pos hkey]
        exact distinct_cons.mpr ⟨hk, hrest⟩
      · rw [put, if_neg hkey]
        refine distinct_cons.mpr ⟨fun d hd => ?_, ih hrest⟩
        rcases mem_put hd with rfl | hmem
        · exact Ne.symm hkey
        · exact hk d hmem

theorem mem_put_of_ne {entries : Entries α} {key : String} {e : String × α} (h : e ∈ entries)
    (hne : e.1 ≠ key) (value : α) : e ∈ put entries key value := by
  induction entries with
  | nil => cases h
  | cons d rest ih =>
      obtain ⟨k, v⟩ := d
      rw [put]
      split
      · next hk =>
          rcases List.mem_cons.mp h with rfl | hrest
          · exact absurd hk hne
          · exact List.mem_cons_of_mem _ hrest
      · rcases List.mem_cons.mp h with rfl | hrest
        · exact List.mem_cons_self
        · exact List.mem_cons_of_mem _ (ih hrest)

theorem mem_put_self (entries : Entries α) (key : String) (value : α) :
    (key, value) ∈ put entries key value :=
  mem_of_get? (by rw [get?_put, if_pos rfl])

/-! ## A key that is removed -/

theorem mem_of_mem_remove {entries : Entries α} {key : String} {e : String × α}
    (h : e ∈ remove entries key) : e ∈ entries :=
  List.mem_of_mem_filter h

theorem distinct_remove {entries : Entries α} (h : Distinct entries) (key : String) :
    Distinct (remove entries key) :=
  h.sublist (List.filter_sublist.map Prod.fst)

theorem map_remove {β : Type} (f : α → β) (entries : Entries α) (key : String) :
    (remove entries key).map (fun e => (e.1, f e.2)) =
      remove (entries.map fun e => (e.1, f e.2)) key := by
  rw [remove, remove, List.filter_map]
  rfl

/-! ## Entries from a list -/

theorem ofList_concat (pairs : List (String × α)) (key : String) (value : α) :
    ofList (pairs ++ [(key, value)]) = put (ofList pairs) key value := by
  rw [ofList, List.foldl_append]
  rfl

theorem distinct_ofList (pairs : List (String × α)) : Distinct (ofList pairs) := by
  induction pairs using List.reverseRecOn with
  | nil => exact distinct_nil
  | append_singleton pairs e ih =>
      obtain ⟨key, value⟩ := e
      rw [ofList_concat]
      exact distinct_put ih key value

/-- What is looked up is a pair of the list, and every key of the list is there. -/
theorem get?_ofList (pairs : List (String × α)) (key : String) :
    (∀ value, (ofList pairs).get? key = some value → (key, value) ∈ pairs) ∧
      ((ofList pairs).get? key = none → ∀ e ∈ pairs, e.1 ≠ key) := by
  induction pairs using List.reverseRecOn with
  | nil => exact ⟨fun _ h => (nomatch h), fun _ _ he => (nomatch he)⟩
  | append_singleton pairs e ih =>
      obtain ⟨k, v⟩ := e
      rw [ofList_concat, get?_put]
      by_cases hk : k = key
      · rw [if_pos hk]
        refine ⟨fun value h => ?_, fun h => (nomatch h)⟩
        cases h
        exact hk ▸ List.mem_append_right _ List.mem_cons_self
      · rw [if_neg hk]
        refine ⟨fun value h => List.mem_append_left _ (ih.1 value h), fun h e he => ?_⟩
        rcases List.mem_append.mp he with hbefore | hlast
        · exact ih.2 h e hbefore
        · rwa [List.mem_singleton.mp hlast]

theorem get?_ofList_eq_some_iff {pairs : List (String × α)}
    (h : ∀ key v w, (key, v) ∈ pairs → (key, w) ∈ pairs → v = w) {key : String} {value : α} :
    (ofList pairs).get? key = some value ↔ (key, value) ∈ pairs := by
  obtain ⟨hmem, hnone⟩ := get?_ofList pairs key
  refine ⟨hmem value, fun hvalue => ?_⟩
  cases hget : (ofList pairs).get? key with
  | none => exact absurd rfl (hnone hget _ hvalue)
  | some v => rw [h key v value (hmem v hget) hvalue]

end Entries

end SqlTables
