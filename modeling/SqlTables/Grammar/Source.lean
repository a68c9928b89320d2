import SqlTables.Grammar.Expression

/-!
# Tables and joins

A place for a table may hold a name, a function, rows of values, an array to be spread, or a query
or joined tables in parentheses. A table that follows a comma may be absent; any other has to be
there.
-/

namespace SqlTables

namespace Grammar

open Reading

/-- Where a table is read. -/
structure TablePlace where
  names : NameUse := .tableAlias
  /-- Joins may follow. -/
  joins : Bool := false
  /-- A list of columns may follow, and no alias. -/
  columns : Bool := false
  /-- A partition may follow. -/
  partition : Bool := false

/-- A part of the name of a table. -/
inductive NamePart
  | name (text : String)
  | parameter (text : String)
  | function (call : Tree)

namespace NamePart

/-- The part as the name of a table. -/
def tableText : NamePart → String
  | name text | parameter text => text
  | function _ => ""

/-- The part as the name of a database. -/
def databaseText : NamePart → String
  | name text => text
  | parameter _ | function _ => ""

def calls : NamePart → List Tree
  | function call => [call]
  | _ => []

end NamePart

/-- The parts of a name that have been read. -/
structure PartialName where
  catalog : Option NamePart := none
  database : Option NamePart := none
  table : Option NamePart := none
  /-- The functions in parts beyond the third. -/
  calls : List Tree := []

namespace PartialName

/-- The name with a part more. A fourth part and later ones take the place of the third. -/
def extend? (n : PartialName) (part : Option NamePart) : Option PartialName :=
  match n.catalog, part with
  | some _, some p => some { n with table := p, calls := n.calls ++ (n.table.map (·.calls)).getD [] }
  | some _, none => none
  | none, _ => some { n with catalog := n.database, database := n.table, table := part }

/-- The name of the table, if it has one. -/
def tableName? (n : PartialName) : Option TableName :=
  n.table.map fun t =>
    { catalog := (n.catalog.map NamePart.databaseText).getD ""
      database := (n.database.map NamePart.databaseText).getD ""
      table := t.tableText }

def allCalls (n : PartialName) : List Tree :=
  n.calls ++ [n.catalog, n.database, n.table].flatMap fun p => (p.map NamePart.calls).getD []

end PartialName

namespace TableName

/-- The name whose parts are separated by the dots inside them; what goes beyond the third part
counts for the third. -/
def splitDots (n : TableName) : TableName :=
  let parts := (".".intercalate n.parts).splitOn "."
  match List.replicate (3 - parts.length) "" ++ parts with
  | catalog :: database :: rest => ⟨catalog, database, rest.getLastD ""⟩
  | _ => n

end TableName

namespace Source

variable (r : Readers)

/-! ## Names -/

/-- A part of a name; `plain` says that it is no function. -/
def part? (plain : Bool) : Reading (Option NamePart) := do
  let call ← if plain then pure none else Expression.function? r false
  match call with
  | some t => pure (some (.function t))
  | none =>
    match ← take? fun l => l.kind = .text || l.names .any with
    | some l => pure (some (.name l.text))
    | none => return (← Identifier.placeholder?).map .parameter

/-- The name of a table. -/
def tableName (plain : Bool) : Reading Tree := do
  let first ← part? r plain
  let n ← grow (fun (n : PartialName) => do
    if ← mark "." then
      let part ← part? r plain
      pure (some (← present (n.extend? part)))
    else pure none) { table := first }
  let name ← present n.tableName?
  let d ← dialect
  let isWhole := match n.table with
    | some (.name _) => true
    | _ => false
  let split := d.splitsQuotedNames && isWhole && name.parts.any (·.toList.contains '.')
  pure (.node (.table (if split then name.splitDots else name)) n.allCalls)

/-! ## What follows a table -/

/-- The alias of a table, which may have names for the columns; it is empty if it has only those. -/
def alias? (use : NameUse) : Reading (Option String) := do
  if ← Expression.startsLimit r then return none
  let forced ← word "AS"
  let name ← Identifier.read? use forced
  let name ← if name.isNone then Identifier.text? else pure name
  let start ← get
  let columns ←
    if ← mark "(" then
      let columns ← separated (Column.named? r.calculation)
      if columns.isEmpty then set start else closing ")"
      pure columns
    else pure []
  if columns.isEmpty then pure name else pure (some (name.getD ""))

/-- A sample of the rows. -/
def skipSample : Reading Unit := do
  if ← word "TABLESAMPLE" then
    if !(← nextIsMark "(") then
      let _ ← take? (·.names .any)
    if ← nextIsMark "(" then skipGroup
    if (← nextIsMark "(") then skipGroup
    else if ← anyText ["SEED", "REPEATABLE"] then skipGroup

/-- Rows turned into columns, or columns into rows. -/
def skipPivots : Reading Unit := do
  let _ ← many do
    if ← nextAre (·.isAnyWord ["PIVOT", "UNPIVOT"]) (·.isMark "(") then
      skip 1
      skipGroup
      if !(← nextIs (·.isAnyWord ["PIVOT", "UNPIVOT"])) then
        let _ ← alias? r .tableAlias
      pure (some ())
    else pure none

/-- The version of a table at some time. -/
def version : Reading (List Tree) := do
  if ← anyWord ["FOR VERSION", "FOR TIMESTAMP", "TIMESTAMP AS OF", "VERSION AS OF"] then
    let _ ← phrase ["AS", "OF"]
    return (← Expression.operand r).toList
  else pure []

/-- The partition of a table. -/
def partition : Reading (List Tree) := do
  if ← word "PARTITION" then wrapped (nested Room.operator r.expression) else pure []

/-! ## Tables that are no names -/

/-- A query or a table in parentheses with its alias. -/
def subquery (mayName : Bool) (inner : Tree) : Reading Tree := do
  skipPivots r
  let name ← if mayName then alias? r .tableAlias else pure none
  skipSample
  pure (.node (.subquery (name.getD "")) [inner])

/-- An array that is spread over rows. -/
def unnest? (mayName : Bool) : Reading (Option Tree) := do
  if ← nextAre (·.isWord "UNNEST") (·.isMark "(") then
    skip 1
    let items ← nested Room.call (wrapped r.comparison)
    let _ ← phrase ["WITH", "ORDINALITY"]
    if mayName then
      let _ ← alias? r .tableAlias
    if ← phrase ["WITH", "OFFSET"] then
      let forced ← word "AS"
      let _ ← Identifier.read? .tableAlias forced
    pure (some (.node .unnest items))
  else pure none

/-- One row of values. -/
def row? : Reading (Option Tree) := do
  if ← mark "(" then
    let items ← nested Room.parenthesis (separated (Expression.nestedAliased r false))
    closing ")"
    pure (some (.node .expression items))
  else nested Room.operator (Expression.nestedAliased r false)

/-- Rows of values, which may be in parentheses together with their alias. -/
def rows? : Reading (Option Tree) := do
  let isWrapped ← nextAre (·.isMark "(") (·.isWord "VALUES")
  if isWrapped then skip 2
  if ← (pure isWrapped <||> anyText ["VALUES"] <||> phrase ["FORMAT", "VALUES"]) then
    let rows ← separated (row? r)
    if rows.isEmpty then fail "there are no values"
    let name ← alias? r .tableAlias
    if isWrapped then closing ")"
    if name.isNone then
      let _ ← alias? r .tableAlias
    pure (some (.node .rows rows))
  else pure none

/-- What a lateral view spreads, if it is no query: a function or a name, which may be qualified. -/
def lateralItem : Reading Tree := do
  let item? (bare : Bool) : Reading (Option Tree) := do
    match ← Expression.function? r bare with
    | some t => pure (some t)
    | none => Expression.name? false
  let first ←
    match ← unnest? r true with
    | some t => pure t
    | none => required (item? true)
  grow (fun t => do
    if ← mark "." then pure (some (.node .expression [t, ← required (item? true)]))
    else pure none) first

/-- A lateral view, or a query that may use the tables before it. -/
def lateral? : Reading (Option Tree) := do
  let applies ← nextAre (·.isAnyWord ["OUTER", "CROSS"]) (·.isWord "APPLY")
  if applies then skip 2
  if ← (pure applies <||> word "LATERAL") then
    let query ← nested Room.table (r.query { ofTable := true })
    let isView ← if applies then pure false else word "VIEW"
    if !applies then
      let _ ← word "OUTER"
    let item ←
      match query with
      | some q => pure q
      | none => lateralItem r
    if isView then
      let _ ← Identifier.read? .any false
      if ← word "AS" then
        let _ ← separated (Identifier.read? .any true)
    else
      let hasName := match item.kind with
        | .subquery name => name ≠ ""
        | _ => false
      if !hasName then
        let _ ← phrase ["WITH", "ORDINALITY"]
        let _ ← alias? r .tableAlias
    pure (some (.node .lateral [item]))
  else pure none

/-! ## Joins -/

/-- The words that a join may start with, of each of three lists one. -/
def joinWords : Reading (Bool × Option Lexeme) := do
  let method ← anyWord ["ASOF", "NATURAL"]
  let _ ← anyWord ["FULL", "LEFT", "RIGHT"]
  let kind ← take? (·.isAnyWord ["ANTI", "CROSS", "INNER", "OUTER", "SEMI", "STRAIGHT_JOIN"])
  pure (method, kind)

/-- The condition of a join, if there is one: an expression, which may be absent, or columns. -/
def condition? : Reading (Option (List Tree)) := do
  if ← word "ON" then return some (← Expression.disjunction r).toList
  else if ← word "USING" then
    Identifier.wrapped
    pure (some [])
  else pure none

/-- The joins between a joined table and its condition, together with that condition. -/
def innerJoins : Reading (List Tree × List Tree) := do
  let start ← get
  let joins ← nested Room.join r.joins
  if joins.isEmpty then
    set start
    return ([], [])
  match ← condition? r with
  | some condition => pure (joins, condition)
  | none =>
    set start
    pure ([], [])

/-- A join whose table is read by `table`. -/
def joinWith? (table : Reading Tree) : Reading (Option Tree) := do
  if ← mark "," then
    return (← attempt (some <$> table)).map fun t => .node .join [t]
  let start ← get
  let (method, kind) ← joinWords
  let _ ← phrase ["DIRECTED"]
  let isJoin ← word "JOIN"
  let straight := kind.any (·.isWord "STRAIGHT_JOIN")
  if !isJoin && !straight then
    set start
  let applies ← nextAre (·.isAnyWord ["OUTER", "CROSS"]) (·.isWord "APPLY")
  if !isJoin && !straight && !applies then return none
  let t ← table
  match ← condition? r with
  | some condition => pure (some (.node .join (t :: condition)))
  | none =>
    let mayNest := !method && !applies && t.kind ≠ .unnest && !(kind.any (·.isWord "CROSS"))
    if mayNest then
      let (joins, condition) ← innerJoins r
      pure (some (.node .join (t.add joins :: condition)))
    else pure (some (.node .join [t]))

/-! ## Tables -/

/-- What follows the name of a table. -/
def finish (p : TablePlace) (joins : Reading (List Tree)) (t : Tree) : Reading Tree := do
  let versions ← version r
  let d ← dialect
  if d.samplesBeforeAlias then skipSample
  let _ ← alias? r p.names
  if ← nextAre (·.isWord "WITH") (·.isMark "(") then
    skip 1
    skipGroup
  skipPivots r
  if !d.samplesBeforeAlias then skipSample
  let joined ← if p.joins then joins else pure []
  if ← phrase ["WITH", "ORDINALITY"] then
    let _ ← alias? r .tableAlias
  pure (t.add (versions ++ joined))

/-- A table by its name. -/
def namedTable (p : TablePlace) (joins : Reading (List Tree)) : Reading Tree := do
  let name ← tableName r p.columns
  let t ← required (Expression.bracketed r (some name))
  skipPivots r
  let _ ← mark "*"
  let parts ← if p.partition then partition r else pure []
  let t := t.add parts
  if p.columns then
    let start := (← get).rest.length
    Column.list r.calculation
    let stop := (← get).rest.length
    pure (if stop < start then .node .expression [t] else t)
  else finish r p joins t

/-- A table, whose joins are read by `joins`. -/
def tableWith (p : TablePlace) (joins : Reading (List Tree)) : Reading Tree := do
  if let some t ← lateral? r then return t
  if let some t ← unnest? r true then return t
  if let some t ← rows? r then return t
  match ← nested Room.table (r.query { ofTable := true }) with
  | some t =>
    skipPivots r
    if p.joins then return t.add (← joins) else pure t
  | none => namedTable r p joins

/-- Joins, as many as follow. -/
def joins : Reading (List Tree) := many (joinWith? r (tableWith r {} (pure [])))

/-- A table. -/
def table (p : TablePlace) : Reading Tree := tableWith r p (joins r)

/-- The first table of a query, after `FROM`. -/
def first (mayJoin : Bool) : Reading Tree := do
  pure (.node .source [← table r { joins := mayJoin }])

end Source

end Grammar

end SqlTables
