import Mathlib.Logic.ExistsUnique
import SqlTables.Scope.Tree

/-!
# Lexical scope

A tree of scopes grows while names are defined in it and looked up. A `ScopeHistory` is all that
was asked of a tree. It says inside which scope each one was nested (`ScopeHistory.parent?`) and how
a name was last defined in a scope itself (`ScopeHistory.latest?`), and these decide every look-up:
the nearest scope on the path to the root that has the name answers, whether the name was defined
before or after the scopes inside were nested. A definition is seen in its scope and inside it, and
nowhere else (`ScopeHistory.isLexical`). A scan keeps of the tree the chain of the scope that it is
in, and changes it as the tree is changed (`ScopeHistory.chain_define`, `ScopeHistory.chain_nest`).
-/

namespace SqlTables

/-! ## The operations of a tree -/

namespace ScopeTree

variable {tree : ScopeTree} {i : Nat}

theorem names_root (k : Nat) : root.names k = [] := by
  cases k <;> rfl

theorem names_define (hi : i < tree.nodes.length) (name : String) (role : Role) (k : Nat) :
    (tree.define i name role).names k =
      if k = i then (tree.names k).define name role else tree.names k := by
  rw [names, names, define]
  by_cases hk : k = i
  · rw [hk, if_pos rfl, List.getElem?_modify_eq, List.getElem?_eq_getElem hi]
    rfl
  · rw [if_neg hk, List.getElem?_modify_ne _ _ (Ne.symm hk)]

theorem around_define (tree : ScopeTree) (i : Nat) (name : String) (role : Role) (k : Nat) :
    (tree.define i name role).around k = tree.around k := by
  rw [around, around, define]
  by_cases hk : k = i
  · rw [hk, List.getElem?_modify_eq]
    cases tree.nodes[i]? <;> rfl
  · rw [List.getElem?_modify_ne _ _ (Ne.symm hk)]

/-- A scope has no names when it is nested. -/
theorem names_nest (tree : ScopeTree) (i k : Nat) : (tree.nest i).names k = tree.names k := by
  rw [names, names, nest, List.getElem?_append]
  split
  · rfl
  · next hk =>
      rw [List.getElem?_eq_none (Nat.not_lt.mp hk)]
      cases k - tree.nodes.length <;> rfl

theorem around_nest_self (tree : ScopeTree) (i : Nat) :
    (tree.nest i).around tree.nodes.length = i :: tree.around i := by
  rw [around, nest, List.getElem?_concat_length]
  rfl

theorem around_nest_of_lt {k : Nat} (hk : k < tree.nodes.length) (i : Nat) :
    (tree.nest i).around k = tree.around k := by
  rw [around, around, nest, List.getElem?_append_left hk]

theorem lookup?_eq (tree : ScopeTree) (i : Nat) (name : String) :
    tree.lookup? i name =
      (i :: tree.around i).findSome? fun k => (tree.names k).lookup? name := by
  rw [lookup?, Scope.lookup?, chain, List.findSome?_map]
  rfl

end ScopeTree

/-! ## What was asked of a tree -/

/-- What was asked of a tree of scopes, from the root alone on, the last of it outermost. The index
is the number of scopes, and only scopes that are there are asked. -/
inductive ScopeHistory : Nat → Type
  | root : ScopeHistory 1
  | define {n : Nat} (before : ScopeHistory n) (i : Fin n) (name : String) (role : Role) :
      ScopeHistory n
  | nest {n : Nat} (before : ScopeHistory n) (i : Fin n) : ScopeHistory (n + 1)
  | lookUp {n : Nat} (before : ScopeHistory n) (i : Fin n) (name : String) : ScopeHistory n

namespace ScopeHistory

/-- The tree behind it. A look-up leaves the tree as it is. -/
def tree : {n : Nat} → ScopeHistory n → ScopeTree
  | _, root => .root
  | _, define before i name role => before.tree.define i name role
  | _, nest before i => before.tree.nest i
  | _, lookUp before _ _ => before.tree

/-- The scope inside which a scope was nested. -/
def parent? : {n : Nat} → ScopeHistory n → Nat → Option Nat
  | _, root, _ => none
  | _, define before _ _ _, k => before.parent? k
  | n + 1, nest before i, k => if k = n then some i else before.parent? k
  | _, lookUp before _ _, k => before.parent? k

/-- The role of a name, ignoring case, in its most recent definition in a scope itself. -/
def latest? : {n : Nat} → ScopeHistory n → Nat → String → Option Role
  | _, root, _, _ => none
  | _, define before i name role, k, other =>
    if k = i ∧ Unicode.lower other = Unicode.lower name then some role
    else before.latest? k other
  | _, nest before _, k, other => before.latest? k other
  | _, lookUp before _ _, k, other => before.latest? k other

variable {n : Nat}

/-- The scopes from a scope to the root, each nested inside the next one. -/
inductive IsPath (h : ScopeHistory n) : Nat → List Nat → Prop
  | root : h.IsPath 0 [0]
  | inside {i j : Nat} {path : List Nat} (hparent : h.parent? i = some j)
      (hpath : h.IsPath j path) : h.IsPath i (i :: path)

/-- Names are looked up in the tree as in nested blocks of a text. -/
structure IsLexical (h : ScopeHistory n) : Prop where
  existsUnique_path : ∀ i < n, ∃! path, h.IsPath i path
  /-- The nearest scope that has the name answers, with its most recent definition. -/
  lookup : ∀ {i path}, h.IsPath i path → ∀ name,
    h.tree.lookup? i name = path.findSome? fun k => h.latest? k name
  /-- A definition is seen from everywhere inside its scope where no nearer scope has the name. -/
  seen : ∀ (j : Fin n) (name : String) (role : Role) {i inner outer},
    h.IsPath i (inner ++ j.val :: outer) → ∀ other, Unicode.lower other = Unicode.lower name →
      (∀ k ∈ inner, h.latest? k other = none) →
        (h.define j name role).tree.lookup? i other = some role
  /-- A definition changes no look-up of another name or from outside its scope. -/
  kept : ∀ (j : Fin n) (name : String) (role : Role) {i path}, h.IsPath i path → ∀ other,
    (Unicode.lower other = Unicode.lower name → j.val ∉ path) →
      (h.define j name role).tree.lookup? i other = h.tree.lookup? i other

variable {h : ScopeHistory n} {i j : Nat} {path : List Nat}

theorem length_nodes (h : ScopeHistory n) : h.tree.nodes.length = n := by
  induction h with
  | root => rfl
  | define before i name role ih => rw [tree, ScopeTree.define, List.length_modify, ih]
  | nest before i ih => rw [tree, ScopeTree.nest, List.length_append, ih, List.length_singleton]
  | lookUp before i name ih => exact ih

/-- The names of a scope are those that were defined in it. -/
theorem lookup?_names (h : ScopeHistory n) (k : Nat) (name : String) :
    (h.tree.names k).lookup? name = h.latest? k name := by
  induction h with
  | root =>
      rw [tree, ScopeTree.names_root]
      rfl
  | define before i other role ih =>
      have hi : i.val < before.tree.nodes.length := before.length_nodes.symm ▸ i.isLt
      rw [tree, ScopeTree.names_define hi, latest?]
      by_cases hk : k = i
      · rw [if_pos hk, Names.lookup?_define, ih]
        simp [hk]
      · rw [if_neg hk, ih]
        simp [hk]
  | nest before i ih => rw [tree, ScopeTree.names_nest, ih, latest?]
  | lookUp before i other ih => exact ih

/-! ## Paths -/

/-- A scope is nested inside an earlier one. -/
theorem lt_of_parent? (hparent : h.parent? i = some j) : j < i ∧ i < n := by
  induction h with
  | root => cases hparent
  | define before k name role ih => exact ih hparent
  | nest before k ih =>
      rw [parent?] at hparent
      split at hparent
      · cases hparent
        omega
      · have := ih hparent
        omega
  | lookUp before k name ih => exact ih hparent

theorem around_nest_of_lt {k : Nat} (hk : k < n) (h : ScopeHistory n) (i : Fin n) :
    (h.nest i).tree.around k = h.tree.around k :=
  ScopeTree.around_nest_of_lt (h.length_nodes.symm ▸ hk) i

theorem around_nest_self (h : ScopeHistory n) (i : Fin n) :
    (h.nest i).tree.around n = i.val :: h.tree.around i := by
  have hself := h.tree.around_nest_self i
  rwa [h.length_nodes] at hself

theorem around_zero (h : ScopeHistory n) : h.tree.around 0 = [] := by
  induction h with
  | root => rfl
  | define before k name role ih => rw [tree, ScopeTree.around_define, ih]
  | nest before k ih => rw [around_nest_of_lt (Nat.zero_lt_of_lt k.isLt), ih]
  | lookUp before k name ih => exact ih

/-- Around a scope are its parent and the scopes around that. -/
theorem around_of_parent? (hparent : h.parent? i = some j) :
    h.tree.around i = j :: h.tree.around j := by
  induction h with
  | root => cases hparent
  | define before k name role ih =>
      rw [tree, ScopeTree.around_define, ScopeTree.around_define]
      exact ih hparent
  | nest before k ih =>
      rw [parent?] at hparent
      split at hparent
      · next hi =>
          cases hparent
          rw [hi, around_nest_self, around_nest_of_lt k.isLt]
      · have hlt := lt_of_parent? hparent
        rw [around_nest_of_lt hlt.2, around_nest_of_lt (Nat.lt_trans hlt.1 hlt.2), ih hparent]
  | lookUp before k name ih => exact ih hparent

theorem IsPath.eq (hpath : h.IsPath i path) : path = i :: h.tree.around i := by
  induction hpath with
  | root => rw [h.around_zero]
  | inside hparent hpath ih => rw [around_of_parent? hparent, ih]

/-- A path stays a path when more is asked. -/
theorem IsPath.mono {m : Nat} {later : ScopeHistory m}
    (hlater : ∀ i j, h.parent? i = some j → later.parent? i = some j) (hpath : h.IsPath i path) :
    later.IsPath i path := by
  induction hpath with
  | root => exact .root
  | inside hparent _ ih => exact .inside (hlater _ _ hparent) ih

theorem IsPath.define (hpath : h.IsPath i path) (j : Fin n) (name : String) (role : Role) :
    (h.define j name role).IsPath i path := by
  have hlater : ∀ k l, h.parent? k = some l → (h.define j name role).parent? k = some l :=
    fun _ _ hparent => hparent
  exact hpath.mono hlater

theorem IsPath.lookUp (hpath : h.IsPath i path) (j : Fin n) (name : String) :
    (h.lookUp j name).IsPath i path := by
  have hlater : ∀ k l, h.parent? k = some l → (h.lookUp j name).parent? k = some l :=
    fun _ _ hparent => hparent
  exact hpath.mono hlater

theorem IsPath.nest (hpath : h.IsPath i path) (j : Fin n) : (h.nest j).IsPath i path := by
  refine hpath.mono fun k l hparent => ?_
  rw [parent?, if_neg (Nat.ne_of_lt (lt_of_parent? hparent).2), hparent]

theorem exists_isPath (h : ScopeHistory n) (hi : i < n) : ∃ path, h.IsPath i path := by
  induction h generalizing i with
  | root =>
      obtain rfl : i = 0 := by omega
      exact ⟨_, .root⟩
  | define before k name role ih =>
      obtain ⟨path, hpath⟩ := ih hi
      exact ⟨path, hpath.define k name role⟩
  | @nest n before k ih =>
      by_cases hlast : i = n
      · obtain ⟨path, hpath⟩ := ih k.isLt
        exact ⟨i :: path, .inside (if_pos hlast) (hpath.nest k)⟩
      · obtain ⟨path, hpath⟩ := ih (by omega : i < n)
        exact ⟨path, hpath.nest k⟩
  | lookUp before k name ih =>
      obtain ⟨path, hpath⟩ := ih hi
      exact ⟨path, hpath.lookUp k name⟩

theorem IsPath.le_of_mem (hpath : h.IsPath i path) {k : Nat} (hk : k ∈ path) : k ≤ i := by
  induction hpath with
  | root => exact Nat.le_of_eq (List.mem_singleton.mp hk)
  | inside hparent _ ih =>
      rcases List.mem_cons.mp hk with rfl | hk
      · exact Nat.le_refl _
      · exact Nat.le_trans (ih hk) (Nat.le_of_lt (lt_of_parent? hparent).1)

/-! ## Chains -/

theorem lt_of_mem_around (hi : i < n) {k : Nat} (hk : k ∈ h.tree.around i) : k < i := by
  obtain ⟨path, hpath⟩ := h.exists_isPath hi
  cases hpath with
  | root =>
      rw [h.around_zero] at hk
      cases hk
  | inside hparent hpath =>
      rw [around_of_parent? hparent, ← hpath.eq] at hk
      exact Nat.lt_of_le_of_lt (hpath.le_of_mem hk) (lt_of_parent? hparent).1

/-- A definition in a scope goes into the innermost list of its chain. -/
theorem chain_define (h : ScopeHistory n) (i : Fin n) (name : String) (role : Role) :
    (h.define i name role).tree.chain i = (h.tree.chain i).define name role := by
  have hi : i.val < h.tree.nodes.length := h.length_nodes.symm ▸ i.isLt
  have houter : ∀ k ∈ h.tree.around i, (h.tree.define i name role).names k = h.tree.names k := by
    intro k hk
    rw [ScopeTree.names_define hi, if_neg (Nat.ne_of_lt (lt_of_mem_around i.isLt hk))]
  rw [tree, ScopeTree.chain, ScopeTree.chain, ScopeTree.around_define, List.map_cons,
    List.map_cons, List.map_congr_left houter, ScopeTree.names_define hi, if_pos rfl]
  rfl

theorem chain_nest (h : ScopeHistory n) (i : Fin n) :
    (h.nest i).tree.chain n = (h.tree.chain i).child := by
  have hnew : h.tree.names n = [] := by
    rw [ScopeTree.names, List.getElem?_eq_none (Nat.le_of_eq h.length_nodes)]
    rfl
  rw [ScopeTree.chain, around_nest_self, tree, funext (h.tree.names_nest i), List.map_cons, hnew]
  rfl

/-! ## Look-ups -/

theorem lookup?_tree (hpath : h.IsPath i path) (name : String) :
    h.tree.lookup? i name = path.findSome? fun k => h.latest? k name := by
  rw [ScopeTree.lookup?_eq, ← hpath.eq]
  simp only [lookup?_names]

section Definition

variable {name other : String}

theorem latest?_define_of_eq (h : ScopeHistory n) (j : Fin n) (role : Role)
    (hname : Unicode.lower other = Unicode.lower name) :
    (h.define j name role).latest? j other = some role := by
  rw [latest?, if_pos ⟨rfl, hname⟩]

theorem latest?_define_of_ne (h : ScopeHistory n) (j : Fin n) (role : Role) {k : Nat}
    (hne : Unicode.lower other = Unicode.lower name → k ≠ j) :
    (h.define j name role).latest? k other = h.latest? k other := by
  rw [latest?, if_neg fun hsame => hne hsame.2 hsame.1]

theorem lookup?_define_of_mem {j : Fin n} {inner outer : List Nat}
    (hpath : h.IsPath i (inner ++ j.val :: outer)) (role : Role)
    (hname : Unicode.lower other = Unicode.lower name)
    (hinner : ∀ k ∈ inner, h.latest? k other = none) :
    (h.define j name role).tree.lookup? i other = some role := by
  rw [lookup?_tree (hpath.define j name role), List.findSome?_append, List.findSome?_cons,
    latest?_define_of_eq h j role hname]
  cases hfound : inner.findSome? fun k => (h.define j name role).latest? k other with
  | none => rfl
  | some found =>
      obtain ⟨k, hk, hlatest⟩ := List.exists_of_findSome?_eq_some hfound
      by_cases hj : k = j
      · rw [hj, latest?_define_of_eq h j role hname] at hlatest
        rw [hlatest, Option.some_or]
      · rw [latest?_define_of_ne h j role fun _ => hj, hinner k hk] at hlatest
        cases hlatest

theorem lookup?_define_of_notMem (hpath : h.IsPath i path) {j : Fin n} (role : Role)
    (houtside : Unicode.lower other = Unicode.lower name → j.val ∉ path) :
    (h.define j name role).tree.lookup? i other = h.tree.lookup? i other := by
  have hlatest : ∀ k ∈ path, (h.define j name role).latest? k other = h.latest? k other :=
    fun k hk => latest?_define_of_ne h j role fun hname hj => houtside hname (hj ▸ hk)
  have hmap := congrArg (List.findSome? id) (List.map_congr_left hlatest)
  rw [List.findSome?_map, List.findSome?_map] at hmap
  rw [lookup?_tree (hpath.define j name role), lookup?_tree hpath]
  exact hmap

end Definition

/-- Every tree looks names up lexically, whatever was asked of it before. -/
theorem isLexical (h : ScopeHistory n) : h.IsLexical := by
  constructor
  case existsUnique_path =>
    intro i hi
    obtain ⟨path, hpath⟩ := h.exists_isPath hi
    exact ⟨path, hpath, fun other hother => hother.eq.trans hpath.eq.symm⟩
  case lookup => exact fun hpath name => lookup?_tree hpath name
  case seen =>
    intro j name role i inner outer hpath other hname hinner
    exact lookup?_define_of_mem hpath role hname hinner
  case kept =>
    intro j name role i path hpath other houtside
    exact lookup?_define_of_notMem hpath role houtside

/-- The root defines the name last, so scope `2` sees it and scope `1` keeps its own. -/
example :
    let h := (((root.nest 0).nest 0).define 1 "n" .aliasDefinition).define 0 "N" .cteDefinition
    [0, 1, 2].map (fun i => h.tree.lookup? i "N") =
      [some .cteDefinition, some .aliasDefinition, some .cteDefinition] := by
  decide +kernel

end ScopeHistory

end SqlTables
