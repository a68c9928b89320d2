/-!
# Ordered entries

A table whose entries keep their order is a list of pairs with distinct keys. `put` changes the
value of a key in its place, or adds the key at the end.
-/

namespace SqlTables

abbrev Entries (α : Type) := List (String × α)

namespace Entries

variable {α : Type}

/-- Sets the value at a key; a key that is there keeps its place. -/
def put (entries : Entries α) (key : String) (value : α) : Entries α :=
  match entries with
  | [] => [(key, value)]
  | (k, v) :: rest => if k = key then (k, value) :: rest else (k, v) :: put rest key value

/-- The value at a key. -/
def get? (entries : Entries α) (key : String) : Option α :=
  match entries with
  | [] => none
  | (k, v) :: rest => if k = key then some v else get? rest key

/-- The entries without a key. -/
def remove (entries : Entries α) (key : String) : Entries α :=
  entries.filter fun e => e.1 ≠ key

/-- Entries from a list in which a key may be repeated: its first place and its last value count. -/
def ofList (pairs : List (String × α)) : Entries α :=
  pairs.foldl (fun entries (k, v) => put entries k v) []

@[simp] theorem get?_nil (key : String) : get? ([] : Entries α) key = none := rfl

theorem get?_put (entries : Entries α) (key other : String) (value : α) :
    (entries.put key value).get? other =
      if key = other then some value else entries.get? other := by
  induction entries with
  | nil => simp [put, get?]
  | cons e rest ih =>
    obtain ⟨k, v⟩ := e
    by_cases h : k = key
    · subst h
      by_cases h' : k = other <;> simp [put, get?, h']
    · by_cases h' : k = other
      · have : key ≠ other := fun e => h (h'.trans e.symm)
        subst h'
        simp [put, get?, h, this]
      · simp [put, get?, h, h', ih]

theorem get?_filter (entries : Entries α) (p : String → Bool) (key : String) :
    get? (entries.filter fun e => p e.1) key = if p key then entries.get? key else none := by
  induction entries with
  | nil => simp
  | cons e rest ih =>
    obtain ⟨k, v⟩ := e
    by_cases h : k = key
    · subst h
      by_cases hp : p k <;> simp_all [get?]
    · by_cases hp : p k <;> simp [get?, hp, h, ih]

theorem get?_remove (entries : Entries α) (key other : String) :
    (entries.remove key).get? other = if other = key then none else entries.get? other := by
  rw [remove, get?_filter entries (fun k => decide (k ≠ key))]
  by_cases h : other = key <;> simp [h]

end Entries

end SqlTables
