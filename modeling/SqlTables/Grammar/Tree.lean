import SqlTables.Grammar.Lexeme

/-!
# Syntax trees

A `Tree` keeps of a statement what decides which tables it names: queries, set operations, tables,
joins, common table expressions and changes. Everything else is an expression, whose parts are its
children. The children of a node are in the order in which they are looked at, level by level, by
`Tree.find?`.
-/

namespace SqlTables

namespace Grammar

/-- The name of a table; a part that is absent, or that is no name but a function, is empty. -/
structure TableName where
  catalog : String := ""
  database : String := ""
  table : String := ""
deriving DecidableEq

namespace TableName

/-- The parts that are present. -/
def parts (n : TableName) : List String := [n.catalog, n.database, n.table].filter (· ≠ "")

end TableName

inductive NodeKind
  /-- A query that starts with `SELECT`, or a `FROM` alone. -/
  | select
  /-- Two queries with an operator between them, or what stands for one. -/
  | setOperation
  /-- A query, a table or joined tables in parentheses, with an alias or none. -/
  | subquery (name : String)
  /-- Rows of values. -/
  | rows
  | table (name : TableName)
  | unnest
  | lateral
  /-- A function that gives a row for each item of an array. -/
  | spread
  /-- The first table of a query. -/
  | source
  /-- A joined table, which is the first child, and the condition. -/
  | join
  /-- The common table expressions of a statement. -/
  | ctes
  | cte (name : String)
  /-- A clause of a query, by its name. -/
  | clause (name : String)
  | insert
  | update
  | delete
  | merge
  | create
  | expression
  /-- A statement of another kind. -/
  | other
deriving DecidableEq

namespace NodeKind

/-- Whether the node is a query, in parentheses or not. -/
def isQuery : NodeKind → Bool
  | select | setOperation | subquery _ => true
  | _ => false

/-- Whether the node is a query without parentheses. -/
def isBareQuery : NodeKind → Bool
  | select | setOperation => true
  | _ => false

/-- Whether the node gives rows without being a query. -/
def isSpread : NodeKind → Bool
  | rows | unnest | lateral | spread => true
  | _ => false

/-- Whether the node may have common table expressions. -/
def takesCtes : NodeKind → Bool
  | select | setOperation | subquery _ | insert | update | delete | merge | create => true
  | _ => false

/-- Whether clauses may follow the node. -/
def takesClauses : NodeKind → Bool
  | select | setOperation | subquery _ | table _ | rows => true
  | _ => false

end NodeKind

inductive Tree
  | node (kind : NodeKind) (children : List Tree)

namespace Tree

def kind : Tree → NodeKind
  | node k _ => k

def children : Tree → List Tree
  | node _ cs => cs

/-- An expression of the parts that are there. -/
def ofParts (parts : List (Option Tree)) : Tree := node .expression (parts.filterMap id)

/-- The tree with more children. -/
def add (t : Tree) (more : List Tree) : Tree := node t.kind (t.children ++ more)

/-- Whether a clause of the given name is there. -/
def hasClause (t : Tree) (name : String) : Bool := t.children.any (·.kind = .clause name)

/-- A query in parentheses that nothing else belongs to stands for what is inside. -/
def unwrap : Tree → Tree
  | node (.subquery "") [inner] => unwrap inner
  | t => t

/-- The nodes that many levels below the root. -/
def level : Nat → Tree → List Tree
  | 0, t => [t]
  | n + 1, node _ cs => cs.flatMap (level n)

mutual

/-- The number of levels. -/
def depth : Tree → Nat
  | node _ cs => maxDepth cs + 1

def maxDepth : List Tree → Nat
  | [] => 0
  | t :: rest => Nat.max (depth t) (maxDepth rest)

end

/-- The first node of a kind, level by level. -/
def find? (p : NodeKind → Bool) (t : Tree) : Option Tree :=
  (List.range t.depth).findSome? fun n => (level n t).find? fun s => p s.kind

mutual

/-- The kinds of all nodes. -/
def kinds : Tree → List NodeKind
  | node k cs => k :: allKinds cs

def allKinds : List Tree → List NodeKind
  | [] => []
  | t :: rest => kinds t ++ allKinds rest

end

end Tree

end Grammar

end SqlTables
