import Mathlib.Data.List.Dedup
import Mathlib.Data.List.Induction
import Mathlib.Data.Prod.Lex
import SqlTables.Proofs.Run

/-!
# First spellings

Names are added to a set of tables one by one or with the sources among some references. Whatever
was added before, the set holds every name once, in its first spelling and in the order in which
the names came first, and `TableSet.add` tells a name that is new from one that is there in some
spelling. So the list of the set depends on the order of the additions in its spellings only
(`TableSet.keepsFirst_ofAdditions`).
-/

namespace SqlTables

/-- What is added to a set of tables: a name, or the sources among some references. -/
inductive Addition
  | table (name : String)
  | sources (references : List Reference) (database : Option String)

/-- The names that are added, in their order. -/
def Addition.names : Addition → List String
  | table name => [name]
  | sources references database => Reference.qualifiedNames database references

namespace TableSet

/-- The set after an addition. -/
def extend (s : TableSet) : Addition → TableSet
  | .table name => (s.add name).2
  | .sources references database => s.insertSources database references

/-- The set that some additions make out of the empty one. -/
def ofAdditions (additions : List Addition) : TableSet := additions.foldl extend empty

/-- The first place of a list at which a name stands in some spelling. -/
def place (names : List String) (name : String) : Nat :=
  names.findIdx fun n => Unicode.fold n == Unicode.fold name

/-- Of the names that were added the set keeps the first spellings. -/
structure KeepsFirst (names : List String) (s : TableSet) : Prop where
  distinct : (s.toList.map Unicode.fold).Nodup
  complete : ∀ key, key ∈ s.toList.map Unicode.fold ↔ key ∈ names.map Unicode.fold
  spelling : ∀ name ∈ s.toList, names[place names name]? = some name
  inOrder : s.toList.Pairwise fun a b => place names a < place names b
  /-- A further name is new exactly if it was not added before in any spelling. -/
  isNew_iff : ∀ name, (s.add name).1 ↔ ∀ n ∈ names, Unicode.fold n ≠ Unicode.fold name
  contains_iff : ∀ name, s.contains name ↔ Unicode.fold name ∈ s.toList.map Unicode.fold
  size_eq : s.size = s.toList.length
  size_eq_dedup : s.size = (names.map Unicode.fold).dedup.length
  sorted_perm : s.sorted.Perm s.toList
  increasing : s.sorted.Pairwise fun a b => toLex (Unicode.fold a, a) < toLex (Unicode.fold b, b)

variable {names others : List String} {name : String}

theorem contains_iff (s : TableSet) (name : String) :
    s.contains name ↔ Unicode.fold name ∈ s.toList.map Unicode.fold := by
  rw [contains, List.any_eq_true, List.mem_map]
  exact exists_congr fun n => and_congr_right fun _ => beq_iff_eq

theorem extend_eq (s : TableSet) (a : Addition) : s.extend a = a.names.foldl insert s := by
  cases a with
  | table name => rfl
  | sources references database => exact insertSources_eq s database references

theorem ofAdditions_eq (additions : List Addition) :
    ofAdditions additions = (additions.flatMap Addition.names).foldl insert empty := by
  rw [ofAdditions, List.foldl_flatMap]
  exact congrArg (fun f => additions.foldl f empty) (funext₂ extend_eq)

theorem mem_fold_foldl_insert_iff {key : String} :
    key ∈ (names.foldl insert empty).toList.map Unicode.fold ↔ key ∈ names.map Unicode.fold :=
  ((List.mergeSort_perm _ _).map Unicode.fold).mem_iff.symm.trans mem_fold_listing_iff

/-! ## First places -/

theorem place_lt_length_iff :
    place names name < names.length ↔ Unicode.fold name ∈ names.map Unicode.fold := by
  rw [place, List.findIdx_lt_length, List.mem_map]
  exact exists_congr fun n => and_congr_right fun _ => beq_iff_eq

/-- A name that is there keeps its place when more names follow. -/
theorem place_append (h : Unicode.fold name ∈ names.map Unicode.fold) (more : List String) :
    place (names ++ more) name = place names name := by
  rw [place, List.findIdx_append]
  exact if_pos (place_lt_length_iff.mpr h)

/-- A name that is not there comes behind those that are. -/
theorem length_le_place (h : Unicode.fold name ∉ names.map Unicode.fold) (more : List String) :
    names.length ≤ place (names ++ more) name := by
  have hnot := mt place_lt_length_iff.mp h
  rw [place] at hnot
  rw [place, List.findIdx_append, if_neg hnot]
  exact Nat.le_add_left _ _

/-- The names of a set stand in the order of their first places. -/
theorem pairwise_place (names : List String) :
    (names.foldl insert empty).toList.Pairwise fun a b => place names a < place names b := by
  induction names using List.reverseRecOn with
  | nil => exact List.Pairwise.nil
  | append_singleton names name ih =>
      have hthere : ∀ a ∈ (names.foldl insert empty).toList,
          Unicode.fold a ∈ names.map Unicode.fold := fun a ha =>
        mem_fold_foldl_insert_iff.mp (List.mem_map_of_mem ha)
      have hbefore : (names.foldl insert empty).toList.Pairwise fun a b =>
          place (names ++ [name]) a < place (names ++ [name]) b := by
        refine ih.imp_of_mem fun ha hb hlt => ?_
        rwa [place_append (hthere _ ha), place_append (hthere _ hb)]
      rw [List.foldl_append, List.foldl_cons, List.foldl_nil, toList_insert]
      split
      · exact hbefore
      · next hnew =>
          rw [contains_iff, mem_fold_foldl_insert_iff] at hnew
          refine List.pairwise_append.mpr ⟨hbefore, List.pairwise_singleton _ _, ?_⟩
          intro a ha b hb
          obtain rfl := List.mem_singleton.mp hb
          rw [place_append (hthere a ha)]
          exact (place_lt_length_iff.mpr (hthere a ha)).trans_le (length_le_place hnew _)

/-! ## Lists of the set -/

theorem nodup_fold_foldl_insert (names : List String) :
    ((names.foldl insert empty).toList.map Unicode.fold).Nodup :=
  List.pairwise_map.mpr (pairwise_foldl_insert names .nil)

/-- Up to spelling, the list does not depend on the order of the names. -/
theorem map_fold_listing_of_perm (h : names.Perm others) :
    (listing names).map Unicode.fold = (listing others).map Unicode.fold := by
  have hincreasing (names : List String) :
      ((listing names).map Unicode.fold).Pairwise (· < ·) :=
    List.pairwise_map.mpr (pairwise_listing names)
  have hperm : ((listing names).map Unicode.fold).Perm ((listing others).map Unicode.fold) := by
    refine (List.perm_ext_iff_of_nodup ((hincreasing _).imp ne_of_lt)
      ((hincreasing _).imp ne_of_lt)).mpr fun key => ?_
    rw [mem_fold_listing_iff, mem_fold_listing_iff]
    exact (h.map Unicode.fold).mem_iff
  exact hperm.eq_of_pairwise (fun _ _ _ _ hlt hgt => absurd hgt (lt_asymm hlt))
    (hincreasing names) (hincreasing others)

theorem keepsFirst_foldl_insert (names : List String) :
    (names.foldl insert empty).KeepsFirst names := by
  have hlisting : listing names = (names.foldl insert empty).sorted := rfl
  constructor
  case distinct => exact nodup_fold_foldl_insert names
  case complete => exact fun key => mem_fold_foldl_insert_iff
  case spelling =>
    intro name hname
    rw [place, ← List.find?_eq_getElem?_findIdx, ← mem_listing_iff]
    exact List.mem_mergeSort.mpr hname
  case inOrder => exact pairwise_place names
  case isNew_iff =>
    intro name
    rw [add, Bool.not_eq_true', Bool.eq_false_iff, ne_eq, contains_iff, mem_fold_foldl_insert_iff,
      List.mem_map]
    simp
  case contains_iff => exact contains_iff _
  case size_eq => rfl
  case size_eq_dedup =>
    have hperm : ((names.foldl insert empty).toList.map Unicode.fold).Perm
        (names.map Unicode.fold).dedup := by
      refine (List.perm_ext_iff_of_nodup (nodup_fold_foldl_insert names)
        (List.nodup_dedup _)).mpr fun key => ?_
      rw [mem_fold_foldl_insert_iff, List.mem_dedup]
    rw [size, ← hperm.length_eq, List.length_map]
  case sorted_perm => exact List.mergeSort_perm _ _
  case increasing =>
    rw [← hlisting]
    exact (pairwise_listing names).imp fun h => Prod.Lex.toLex_lt_toLex.mpr (Or.inl h)

/-- Whatever is added in whatever way, the first spellings are kept, and the order of the additions
shows in the spellings alone. -/
theorem keepsFirst_ofAdditions (additions : List Addition) :
    (ofAdditions additions).KeepsFirst (additions.flatMap Addition.names) ∧
      ∀ others : List Addition,
        (others.flatMap Addition.names).Perm (additions.flatMap Addition.names) →
          (ofAdditions others).sorted.map Unicode.fold =
            (ofAdditions additions).sorted.map Unicode.fold := by
  refine ⟨?_, fun others hperm => ?_⟩
  · rw [ofAdditions_eq]
    exact keepsFirst_foldl_insert _
  · rw [ofAdditions_eq, ofAdditions_eq]
    exact map_fold_listing_of_perm hperm

/-- A name stays one name in a spelling of more letters. -/
example :
    let s := ofAdditions [.table "db.Straße", .sources [⟨["STRASSE"], ⟨0, 7⟩, .source, 0⟩,
      ⟨["a"], ⟨8, 9⟩, .unresolved, 0⟩, ⟨["x"], ⟨10, 11⟩, .aliasDefinition, 0⟩] (some "Db")]
    s.toList = ["db.Straße", "Db.a"] ∧ (s.add "DB.strasse").1 = false := by
  decide +kernel

end TableSet

end SqlTables
