import SqlTables.Grammar.Tree
import SqlTables.Unicode.LowerCase

/-!
# The names of a statement

`Tree.names` gives the tables that a statement names. A query sees the tables below it as far as no
other query begins, and looks for the queries that it is made of: common table expressions, tables
in parentheses, and queries in expressions. What is neither seen by a query nor looked for by one is
not named. For a statement without any query `Tree.allNames` gives all tables.

How a node is looked at depends on what is around it, so `Look` says that, `Look.below` gives the
ways in which the children are looked at, and `Tree.mentions` is the recursion over the tree.
-/

namespace SqlTables

namespace Grammar

/-- What is found in a statement. -/
inductive Mention
  /-- A query that sees tables. -/
  | query
  | table (name : TableName)
  /-- A common table expression. -/
  | cte (name : String)
deriving DecidableEq

/-- What a query looks for, apart from the tables that it sees. -/
structure Reach where
  ctes : Bool := false
  /-- Queries among the tables. -/
  sources : Bool := false
  /-- Queries in expressions. -/
  subqueries : Bool := false

namespace Reach

def ofQuery : Reach := { ctes := true, sources := true, subqueries := true }

/-- A set operation looks for its two queries, and leaves the others to them. -/
def ofOperation : Reach := { ctes := true }

/-- A table that stands for a query, as it is all that is in parentheses with an alias. -/
def ofTable : Reach := { sources := true }

end Reach

/-- Where in a query a node is. -/
inductive Place
  /-- Among the tables. -/
  | source
  /-- Below a join, or below the first table, where no tables are looked for. -/
  | joined
  | apart
deriving DecidableEq

/-- How a node is looked at. -/
inductive Look
  | skip
  /-- As a part of the query around it. -/
  | part (reach : Reach) (parent : NodeKind) (place : Place)
  /-- As a query of its own, whose parentheses do not count. -/
  | query
  /-- As a query of its own with its parentheses. -/
  | whole (place : Place)
  /-- As a part of the change around it. -/
  | change (parent : NodeKind) (place : Place)

/-- How the children of a node are looked at: by their number and their kind. -/
abbrev Glance := Nat → NodeKind → Look

namespace Glance

/-- All children are looked at in the same way. -/
def all (l : Look) : Glance := fun _ _ => l

/-- The first children are looked at, so many of them. -/
def first (count : Nat) (l : Look) : Glance := fun i _ => if i < count then l else .skip

end Glance

namespace Look

/-- Whether a query that is in parentheses, and is not looked at from inside, is among the tables of
the query around it or in a function that gives rows. -/
def isBounded (parent : NodeKind) (isDerived : Bool) : Bool :=
  parent.isSpread || (isDerived && (parent = .source || parent = .join))

/-- Whether parentheses make a table of a query: they have an alias, or a query alone is in them. -/
def isDerived (name : String) (head : Option NodeKind) : Bool :=
  name ≠ "" || head.any NodeKind.isBareQuery

/-- Whether a child of a query is a table of it. -/
def isSource : NodeKind → Bool
  | .source | .join | .lateral => true
  | _ => false

/-- The place of a join after a table at the given place. -/
def afterTable (place : Place) (child : NodeKind) : Place :=
  if child = .join ∧ place = .source then .source else .apart

/-- The place of what is joined. -/
def ofJoined (place : Place) : Place := if place = .source then .source else .joined

/-- The parts of a query, or of a table that stands for one. -/
def ofQuery (reach : Reach) (k : NodeKind) : Glance := fun _ child =>
  .part reach k (if isSource child then .source else .apart)

/-- The queries in an item that gives rows. -/
def ofRows : Glance := fun _ child =>
  match child with
  | .subquery _ => .query
  | _ => .skip

/-- The parts of a statement that changes rows by a query: that query, and what it may refer to. -/
def ofChangeByQuery (k : NodeKind) : Glance := fun i child =>
  if child = .ctes then .part .ofOperation k .apart
  else if 0 < i ∧ child.isQuery then .whole .apart
  else .skip

/-- How the children of a query of its own are looked at; `others` are the kinds of its children
after the first. -/
def belowQuery (k : NodeKind) (others : List NodeKind) : List Glance :=
  match k with
  | .subquery _ => [.first 1 .query]
  | .select => [ofQuery .ofQuery k]
  | .setOperation => [.first 2 .query, .all (.part .ofOperation k .apart)]
  | .table _ => [ofQuery .ofTable k]
  | .rows => [.all (.part {} k .apart)]
  | .unnest | .lateral => [ofRows, .all (.part {} k .apart)]
  | .insert | .create => if others.any NodeKind.isQuery then [ofChangeByQuery k] else []
  | .update | .delete | .merge => [.all (.change k .apart)]
  | _ => []

/-- Whether a node is a query that sees tables, or stands for one. -/
def seesTables : NodeKind → Bool
  | .select | .setOperation | .table _ | .rows | .unnest | .lateral => true
  | _ => false

/-- How the children of a query with its parentheses are looked at. -/
def belowWhole (place : Place) (k : NodeKind) (others : List NodeKind) : List Glance :=
  let parts : Glance := fun i child =>
    if i = 0 then .part .ofQuery k (if place = .apart then .apart else .joined)
    else ofQuery .ofQuery k i child
  match k with
  | .subquery _ => [parts]
  | _ => belowQuery k others

/-- How the children of a query in parentheses that is a part of the query around it are looked at.
-/
def belowWrapped (reach : Reach) (parent : NodeKind) (place : Place) (name : String)
    (head : Option NodeKind) : List Glance :=
  let k : NodeKind := .subquery name
  let derived := isDerived name head
  let outer : Glance := fun i child =>
    if isBounded parent derived && (i = 0 || !isSource child) then .skip
    else .part reach k (if i = 0 then place else afterTable place child)
  if derived && reach.sources && place = .source then [.first 1 .query, outer] else [outer]

/-- How the children of a part of a query are looked at. -/
def belowPart (reach : Reach) (parent : NodeKind) (place : Place) (k : NodeKind)
    (head : Option NodeKind) : List Glance :=
  let apart : Glance := .all (.part reach k .apart)
  let joined : Glance := fun i _ => .part reach k (if i = 0 then ofJoined place else .joined)
  let afterTable : Glance := fun _ child => .part reach k (afterTable place child)
  match k with
  | .cte _ => if reach.ctes then [.all .query] else []
  | .select | .setOperation => if place = .apart && reach.subqueries then belowQuery k [] else []
  | .subquery name => belowWrapped reach parent place name head
  | .source => [.all (.part reach k place)]
  | .join => [joined]
  | .table _ => [afterTable]
  | .unnest | .lateral =>
    if reach.sources && place = .source then [ofRows, apart] else [apart]
  | _ => [apart]

/-- Whether a query below the given parent is looked for by the change around it. -/
def startsBelow (parent : NodeKind) : Bool :=
  match parent with
  | .cte _ | .subquery _ => false
  | _ => true

/-- How the children of a part of a change are looked at. -/
def belowChange (parent : NodeKind) (place : Place) (k : NodeKind) (head : Option NodeKind) :
    List Glance :=
  let outer (isBounded : Bool) : Glance := fun i child =>
    if isBounded && (i = 0 || !isSource child) then .skip
    else .change k (if i = 0 then place else .apart)
  match k with
  | .cte _ => [.all .query]
  | .select | .setOperation => if startsBelow parent then belowQuery k [] else []
  | .subquery name =>
    let parts := outer (isBounded parent (isDerived name head))
    if startsBelow parent then belowWhole place k [] ++ [parts] else [parts]
  | .source | .join => [.all (.change k .joined)]
  | _ => [.all (.change k .apart)]

/-- How the children of a node are looked at that is of kind `k` and whose children are of the given
kinds. -/
def below (l : Look) (k : NodeKind) (children : List NodeKind) : List Glance :=
  match l with
  | skip => []
  | part reach parent place => belowPart reach parent place k children.head?
  | query => belowQuery k children.tail
  | whole place => belowWhole place k children.tail
  | change parent place => belowChange parent place k children.head?

/-- Whether the node is looked at as a query. -/
def isQuery (l : Look) (k : NodeKind) : Bool :=
  let isWrapped := match k with
    | .subquery _ => true
    | _ => false
  match l with
  | skip => false
  | part reach _ place =>
    (k.isBareQuery && place = .apart && reach.subqueries)
      || ((k = .rows || k = .unnest || k = .lateral) && place = .source && reach.sources)
  | query => seesTables k
  | whole _ => isWrapped || seesTables k
  | change parent _ => startsBelow parent && (isWrapped || k.isBareQuery)

/-- Whether common table expressions are looked for. -/
def findsCtes : Look → Bool
  | part reach _ _ => reach.ctes
  | change _ _ => true
  | skip | query | whole _ => false

/-- What a node itself mentions; `name` is the name of a common table expression. -/
def own (l : Look) (k : NodeKind) (name : Option String) : List Mention :=
  (if l.isQuery k then [.query] else []) ++
    match k, l with
    | .table n, .part _ _ _ => [.table n]
    | .cte _, _ => if l.findsCtes then name.toList.map .cte else []
    | _, _ => []

end Look

namespace Tree

/-- The name under which the body of a common table expression is known: the name after the
innermost parentheses around it, if there are any; nothing for a body that is no query. -/
def bodyName? (name : String) : Tree → Option String
  | node (.subquery inner) (head :: _) => bodyName? inner head
  | node k _ => if Look.seesTables k then some name else none

/-- The name of a common table expression. -/
def cteName? : Tree → Option String
  | node (.cte name) (body :: _) => bodyName? name body
  | _ => none

mutual

/-- What is found in a tree that is looked at in a given way. -/
def mentions (l : Look) : Tree → List Mention
  | node k cs =>
    l.own k (cteName? (node k cs))
      ++ (l.below k (cs.map kind)).flatMap fun glance => mentionsBelow glance 0 cs

/-- What is found in children that are looked at in given ways; `i` children were before them. -/
def mentionsBelow (glance : Glance) (i : Nat) : List Tree → List Mention
  | [] => []
  | t :: rest => mentions (glance i t.kind) t ++ mentionsBelow glance (i + 1) rest

end

end Tree

namespace TableName

/-- Whether the name is that of a common table expression, given in lower case. -/
def isCte (n : TableName) (ctes : List String) : Bool :=
  n.database = "" && ctes.contains (Unicode.lower n.table)

/-- The parts of each name that is no common table expression: by code points, each once. -/
def sorted (ctes : List String) (names : List TableName) : List (List String) :=
  let found := (names.filter fun n => !n.isCte ctes).map parts
  found.eraseDups.mergeSort fun a b => !decide (b < a)

end TableName

namespace NodeKind

def table? : NodeKind → Option TableName
  | table name => some name
  | _ => none

def cte? : NodeKind → Option String
  | cte name => some name
  | _ => none

end NodeKind

namespace Tree

/-- The first table of a tree, unless that has no name. -/
def target? (t : Tree) : Option TableName := do
  let first ← t.find? fun k => k.table?.isSome
  first.kind.table?.filter fun n => n.table ≠ ""

/-- The tables that a statement writes to: the first one of each kind of change in it, and the one
that it creates. -/
def targets (t : Tree) : List TableName :=
  let changes := [.insert, .delete, .update, .merge].filterMap fun change =>
    t.find? fun k => k = change
  let created := if t.kind = .create then [t] else []
  (changes ++ created).filterMap target?

/-- All tables of a statement. -/
def allNames (t : Tree) : List (List String) :=
  let ctes := (t.kinds.filterMap NodeKind.cte?).map Unicode.lower
  TableName.sorted ctes ((t.kinds.filterMap NodeKind.table?).filter fun n => n.table ≠ "")

/-- The tables that a statement names. -/
def names (t : Tree) : List (List String) :=
  let found := t.mentions (.whole .apart)
  if found.contains .query then
    let ctes := found.filterMap fun
      | .cte name => some (Unicode.lower name)
      | _ => none
    let tables := found.filterMap fun
      | .table name => some name
      | _ => none
    TableName.sorted ctes (tables ++ t.targets)
  else t.allNames

end Tree

end Grammar

end SqlTables
