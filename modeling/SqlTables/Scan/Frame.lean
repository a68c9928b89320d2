import SqlTables.Diagnostic
import SqlTables.Scan.DottedName
import SqlTables.Scope

/-!
# Open groups

The scan keeps one `Frame` for each group that is open: the statement itself, and every parenthesis
that has not been closed yet. What a group is decides what its tokens mean:

* a *query* reacts to the keywords that introduce a table;
* an *expression* is passed over, apart from the groups inside it;
* a *flat* group stands past the depth limit and is searched for table names without regard to its
  structure, so it opens no groups inside it.

A query has two scopes. Common table expressions are defined in its base scope; aliases are defined
in a branch below it, which a set operator replaces, so that an alias of one branch hides nothing in
another. A join tree `(a JOIN b …)` in a table position defines its names in the scope of the query
around it: it has no branch, its base is that scope, and what it defined is handed back when it
closes.
-/

namespace SqlTables

namespace Scan

/-- What comes after a table: in the table list of a `FROM` clause a comma brings another one. -/
inductive Follow
  | list
  | clause
deriving DecidableEq

/-- What a name in a table position is read for. -/
inductive Purpose
  | operand (follow : Follow)
  | target
  | created
deriving DecidableEq

/-- What the next token of a query may be. A token that does not fit is read as the start of a
clause. -/
inductive Mode
  /-- Anything; `fresh` says that an `UPDATE` here starts a statement. -/
  | clauses (fresh : Bool)
  /-- A table, a group in its place, or `LATERAL`. -/
  | operand (follow : Follow)
  /-- A comma that continues the table list. -/
  | listed
  /-- The written table, after an optional `TABLE`. -/
  | target
  /-- The written table. -/
  | targetName
  /-- The next part of a name. -/
  | name (purpose : Purpose) (read : DottedName)
  /-- A sample, an alias. -/
  | operandEnd (follow : Follow)
  /-- The size of a sample, an alias. -/
  | sample (follow : Follow)
  /-- An alias, after an optional `AS`. -/
  | alias (follow : Follow)
  /-- The column names of an alias. -/
  | columns (follow : Follow)
  /-- What is created. -/
  | create
  /-- The created table, after words of which the given ones may still come. -/
  | createName (optional : List Keyword)
  /-- The name of a common table expression; `first` says that `RECURSIVE` may stand before it. -/
  | cteName (clause : Span) (first : Bool)
  /-- Its column names or `AS`. -/
  | cteColumns (clause : Span)
  /-- The word `AS`. -/
  | cteAs (clause : Span)
  /-- Its body, after words of which the given ones may still come. -/
  | cteBody (clause : Span) (optional : List Keyword)
  /-- A comma that brings another definition. -/
  | cteNext (clause : Span)
deriving DecidableEq

namespace Follow

/-- What is expected once a table and its alias are complete. -/
def mode : Follow → Mode
  | list => .listed
  | clause => .clauses false

end Follow

structure Query where
  /-- The scope of the common table expressions. -/
  base : Scope
  /-- The names of the branch; without them, the aliases are defined in the base scope as well. -/
  branch : Option Names
  /-- Whether the base scope is that of the query around this one. -/
  isJoinTree : Bool
  /-- Whether the table list at the start of a join tree is still being read. -/
  inFirstList : Bool
  mode : Mode
deriving DecidableEq

namespace Query

/-- A query of its own inside the given scope. -/
def inside (scope : Scope) : Query := ⟨scope.child, some [], false, false, .clauses true⟩

/-- The whole statement. -/
def statement : Query := ⟨[[]], some [], false, false, .clauses true⟩

/-- A join tree inside a query with the given scope. -/
def joinTree (scope : Scope) : Query := ⟨scope, none, true, true, .operand .list⟩

/-- The scope that the names of the current branch are looked up in. -/
def scope (q : Query) : Scope :=
  match q.branch with
  | some names => names :: q.base
  | none => q.base

def defineAlias (q : Query) (name : String) : Query :=
  match q.branch with
  | some names => { q with branch := some (names.define name .aliasDefinition) }
  | none => { q with base := q.base.define name .aliasDefinition }

def defineCte (q : Query) (name : String) : Query :=
  { q with base := q.base.define name .cteDefinition }

/-- Starts another branch, in which no alias is defined yet. -/
def newBranch (q : Query) : Query := { q with branch := some [] }

/-- Takes the current scope back from a join tree. -/
def withScope (q : Query) (scope : Scope) : Query :=
  match q.branch, scope with
  | some _, names :: outer => { q with base := outer, branch := some names }
  | _, _ => { q with base := scope }

def goto (q : Query) (mode : Mode) : Query := { q with mode := mode }

end Query

/-- A group past the depth limit: its scope, the number of parentheses open inside it, whether a
table is expected next, and the name that is being read. -/
structure Flat where
  scope : Scope
  depth : Nat
  expecting : Bool
  read : Option DottedName
deriving DecidableEq

inductive Body
  | query (q : Query)
  | expression (scope : Scope)
  | flat (f : Flat)
deriving DecidableEq

/-- A group, where it was opened, and what has been found directly in it or in groups that are
closed. The references in `firm` stay as they are when the group is never closed. -/
structure Frame where
  opener : Option Span
  body : Body
  firm : Array Reference := #[]
  references : Array Reference := #[]
  diagnostics : Array Diagnostic := #[]
deriving DecidableEq

/-- What a token does to the stack of groups. -/
inductive Action
  | stay
  | enter (body : Body)
  | leave
deriving DecidableEq

/-- What a token does to the innermost group. -/
structure Outcome where
  body : Body
  action : Action := .stay
  references : List Reference := []
  diagnostics : List Diagnostic := []
  /-- What becomes of the expectation of a `MERGE` source, if it changes. -/
  merging : Option Bool := none
deriving DecidableEq

namespace Outcome

/-- Puts a reference before those found. -/
def found (o : Outcome) (r : Reference) : Outcome := { o with references := r :: o.references }

/-- Puts a diagnostic before those reported. -/
def reported (o : Outcome) (d : Diagnostic) : Outcome :=
  { o with diagnostics := d :: o.diagnostics }

end Outcome

/-- How much of `IS [NOT] DISTINCT` stands right before the next token, where `NOT DISTINCT` counts
as well: a `FROM` after all of it belongs to a comparison. -/
inductive Comparison
  | none
  | started
  | complete
deriving DecidableEq

namespace Comparison

def next (c : Comparison) (t : Token) : Comparison :=
  if t.isAnyKeyword [.IS, .NOT] then .started
  else if c = .started ∧ t.isKeyword .DISTINCT then .complete
  else .none

end Comparison

/-- What the innermost group is told about its surroundings. -/
structure Surroundings where
  /-- Whether the group is in parentheses. -/
  nested : Bool
  /-- Whether the depth limit is reached, so that groups inside are flat. -/
  full : Bool
  /-- Whether a `MERGE` still lacks its source. -/
  merging : Bool
  comparison : Comparison
deriving DecidableEq

namespace Surroundings

/-- A group whose tokens are passed over. -/
def expression (w : Surroundings) (scope : Scope) : Body :=
  if w.full then .flat ⟨scope, 0, false, none⟩ else .expression scope

/-- A query of its own. -/
def subquery (w : Surroundings) (scope : Scope) : Body :=
  if w.full then .flat ⟨scope, 0, false, none⟩ else .query (.inside scope)

end Surroundings

end Scan

end SqlTables
