import SqlTables.Scope

/-!
# Trees of scopes

A `ScopeTree` keeps every scope of a nest at once: scope `0` is the root, and each further one is
numbered when it is nested inside an earlier one. A scope holds the numbers of the scopes around
it, nearest first, so `ScopeTree.chain` reads off the chain that a look-up follows, with all that
has been defined in it so far.
-/

namespace SqlTables

structure ScopeNode where
  around : List Nat
  names : Names

structure ScopeTree where
  nodes : List ScopeNode

namespace ScopeTree

/-- The tree with an empty root alone. -/
def root : ScopeTree := ⟨[⟨[], []⟩]⟩

/-- The names defined in a scope itself. -/
def names (tree : ScopeTree) (i : Nat) : Names :=
  (tree.nodes[i]?.map ScopeNode.names).getD []

/-- The numbers of the scopes around a scope, nearest first. -/
def around (tree : ScopeTree) (i : Nat) : List Nat :=
  (tree.nodes[i]?.map ScopeNode.around).getD []

/-- Nests a scope inside scope `i`; its number is the number of scopes before. -/
def nest (tree : ScopeTree) (i : Nat) : ScopeTree :=
  ⟨tree.nodes ++ [⟨i :: tree.around i, []⟩]⟩

def define (tree : ScopeTree) (i : Nat) (name : String) (role : Role) : ScopeTree :=
  ⟨tree.nodes.modify i fun node => { node with names := node.names.define name role }⟩

/-- The scope `i` as a chain, innermost first. -/
def chain (tree : ScopeTree) (i : Nat) : Scope :=
  (i :: tree.around i).map tree.names

def lookup? (tree : ScopeTree) (i : Nat) (name : String) : Option Role :=
  (tree.chain i).lookup? name

end ScopeTree

end SqlTables
