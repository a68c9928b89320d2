import SqlTables.Grammar.Source

/-!
# Queries

A query with its clauses, the operators between queries, and common table expressions before them.
A clause may come in any order, but only once.
-/

namespace SqlTables

namespace Grammar

open Reading

namespace Query

variable (r : Readers)

/-! ## Clauses -/

/-- The groups of rows of one kind: combinations, or sets of columns. -/
def grouping : Reading (Option (List Tree)) := do
  let afterWith ← word "WITH"
  if ← anyWord ["CUBE", "ROLLUP"] then
    if afterWith then pure (some []) else some <$> wrapped (Expression.calculation r)
  else if ← nextAre (·.isWord "GROUPING SETS") (·.isMark "(") then
    skip 1
    skipGroup
    pure (some [])
  else if ← phrase ["TOTALS"] then pure (some [])
  else pure none

/-- What follows `GROUP BY`, which may be nothing. -/
def groups : Reading (List Tree) := do
  let _ ← anyWord ["ALL", "DISTINCT"]
  let expression : Reading (Option Tree) := do
    if ← nextIs (·.isAnyWord ["CUBE", "ROLLUP"]) then pure none else Expression.whole r
  let first ← separated expression
  let more ← many do
    match ← attempt (grouping r) with
    | some parts => pure (some (parts ++ (← separated expression)))
    | none => pure none
  pure (first ++ more.flatten)

/-- The words that may follow the size of a limit. -/
def limitOptions : Reading Unit := do
  let _ ← accept fun l => l.isWord "PERCENT" || l.isMark "%"
  let _ ← anyWord ["ROW", "ROWS"]
  let _ ← phrase ["ONLY"]
  let _ ← phrase ["WITH", "TIES"]

/-- What follows `LIMIT`. -/
def limit : Reading (List Tree) := do
  let first ←
    match ← attempt (Expression.sum r) with
    | some t => pure t
    | none => required (Expression.product r)
  limitOptions
  if ← mark "," then
    let t ← required (Expression.sum r)
    pure [.node (.clause "limit") [t], .node (.clause "offset") [first]]
  else pure [.node (.clause "limit") [first]]

/-- What follows `FETCH`. -/
def fetch : Reading (List Tree) := do
  let _ ← anyWord ["FIRST", "NEXT"]
  if !(← nextIs (·.isAnyWord ["ROW", "ROWS", "PERCENT"])) then
    let _ ← Expression.field? r
  limitOptions
  pure [.node (.clause "limit") []]

/-- What follows `WINDOW`. -/
def windows : Reading (List Tree) := do
  let parts ← separated do
    match ← Identifier.read? .any true with
    | none => pure none
    | some _ =>
      let _ ← word "AS"
      if ← mark "(" then
        let parts ← nested Room.parenthesis (Expression.windowBody r)
        closing ")"
        pure (some parts)
      else
        let _ ← Identifier.read? .any false
        pure (some [])
  pure (if parts.isEmpty then [] else [.node (.clause "window") parts.flatten])

/-- The rows that are to be locked, after `FOR`. -/
def lock : Reading (List Tree) := do
  if ← (phrase ["FOR", "UPDATE"] <||> phrase ["FOR", "SHARE"]) then
    let tables ←
      if ← phrase ["OF"] then separated (some <$> Source.table r { columns := true }) else pure []
    let _ ← phrase ["NOWAIT"]
    let _ ← phrase ["SKIP", "LOCKED"]
    pure [.node (.clause "lock") tables]
  else if ← phrase ["LOCK", "IN", "SHARE", "MODE"] then pure [.node (.clause "lock") []]
  else pure []

/-- A clause of one expression. -/
def single (name : String) : Reading (List Tree) := do
  pure [.node (.clause name) [← required (Expression.disjunction r)]]

/-- A clause of expressions in an order. -/
def list (name : String) : Reading (List Tree) := do
  match ← Expression.ordered r with
  | [] => fail "there is nothing to order by"
  | ts => pure [.node (.clause name) ts]

/-- The clauses that come next: none, one, or a limit with an offset. -/
def clauses : Reading (List Tree) := do
  if ← word "WHERE" then single r "where"
  else if ← word "GROUP BY" then pure [.node (.clause "group") (← groups r)]
  else if ← word "HAVING" then single r "having"
  else if ← word "QUALIFY" then single r "qualify"
  else if ← word "WINDOW" then windows r
  else if ← word "ORDER BY" then list r "order"
  else if ← word "SORT BY" then list r "sort"
  else if ← word "CLUSTER BY" then list r "cluster"
  else if ← word "DISTRIBUTE BY" then list r "distribute"
  else if ← word "LIMIT" then limit r
  else if ← word "FETCH" then fetch r
  else if ← word "OFFSET" then
    let t ← required (Expression.sum r)
    let _ ← anyWord ["ROW", "ROWS"]
    pure [.node (.clause "offset") [t]]
  else if ← nextIs (·.isAnyWord ["FOR", "LOCK"]) then lock r
  else if ← nextIsWord "TABLESAMPLE" then
    Source.skipSample
    pure [.node (.clause "sample") []]
  else pure []

/-- The query with the clauses that come next, if there are any that it does not have. -/
def withClauses? (t : Tree) : Reading (Option Tree) := do
  let found ← clauses r
  match found with
  | [] => pure none
  | first :: _ =>
    let isRepeated := match first.kind with
      | .clause name => t.hasClause name
      | _ => false
    if isRepeated then fail "a clause is repeated"
    pure (some (t.add found))

/-- A query or a table with the joins, lateral views and clauses after it. -/
def modified (t : Tree) : Reading Tree := do
  if t.kind.takesClauses then
    let joins ← Source.joins r
    let laterals ← many (Source.lateral? r)
    grow (withClauses? r) (t.add (joins ++ laterals))
  else pure t

/-! ## Set operations -/

/-- The operators between queries. -/
def operators : List String := ["UNION", "EXCEPT", "INTERSECT"]

/-- Takes the operator between two queries with the words around it. -/
def operator? : Reading (Option Unit) := do
  let start ← get
  let d ← dialect
  let _ ← Source.joinWords
  match ← take? fun l => l.isAnyWord operators || l.isMark "MINUS" with
  | none =>
    set start
    pure none
  | some l =>
    let isFull ← anyWord ["ALL", "DISTINCT"]
    if !isFull && d.fullOperators.contains l.upper then fail "neither ALL nor DISTINCT"
    let byName ←
      phrase ["BY", "NAME"] <||> phrase ["STRICT", "CORRESPONDING"] <||> phrase ["CORRESPONDING"]
    if ← (pure byName <&&> anyText ["ON", "BY"]) then Identifier.wrapped
    pure (some ())

/-- The clauses of the last query that count for the whole operation. -/
def isShared (t : Tree) : Bool :=
  [.clause "order", .clause "limit", .clause "offset"].contains t.kind

/-- The query with one set operation more. -/
def operation? (left : Tree) : Reading (Option Tree) := do
  match ← operator? with
  | none => pure none
  | some _ =>
    let right ← nested Room.table (required (r.query { mayWrap := true, mayCombine := false }))
    let own := right.children.filter fun t => !isShared t
    let shared := right.children.filter isShared
    pure (some (.node .setOperation (left :: .node right.kind own :: shared)))

/-- A query with the set operations after it. -/
def combined (t : Tree) : Reading Tree := grow (operation? r) t

/-! ## Common table expressions -/

/-- A query of rows for the rows of a common table expression. -/
def ofRows (t : Tree) : Tree :=
  if t.kind = .rows then .node .select [.node .source [t]] else t

/-- A common table expression. -/
def cte? : Reading (Option Tree) := do
  let start ← get
  let name := (← Source.alias? r .any).getD ""
  if name = "" then fail "a common table expression has no name"
  if ← phrase ["USING", "KEY"] then Identifier.wrapped
  let d ← dialect
  if !(← word "AS") && !d.hasBareCtes then
    set start
    return none
  let _ ← phrase ["NOT", "MATERIALIZED"]
  let _ ← phrase ["MATERIALIZED"]
  if !(← mark "(") then fail "no opening parenthesis"
  let body ← nested Room.cte (required r.statement)
  closing ")"
  pure (some (.node (.cte name) [ofRows body]))

/-- The common table expressions after `WITH`. -/
def ctes? : Reading (Option Tree) := do
  if !(← word "WITH") then return none
  let _ ← word "RECURSIVE"
  let first ← cte? r
  let more ← many do
    if ← (mark "," <||> word "WITH") then
      let _ ← word "WITH"
      let t ← cte? r
      pure (some t)
    else pure none
  match (first :: more).filterMap id with
  | [] => fail "there are no common table expressions"
  | ts => pure (some (.node .ctes ts))

/-- The statement with the common table expressions before it. -/
def withCtes (ctes : Tree) (statement : Tree) : Reading Tree := do
  let t := statement.unwrap
  if t.kind.takesCtes then pure (t.add [ctes])
  else fail "the statement takes no common table expressions"

/-! ## Queries -/

/-- The words between `SELECT` and the results. -/
def selectWords : Reading (List Tree) := do
  let _ ← accept (·.kind = .hint)
  let parts ←
    if (← second?).any (!·.isMark ".") then
      let isAll ← word "ALL"
      let isDistinct ← word "DISTINCT"
      if isAll && isDistinct then fail "both ALL and DISTINCT"
      if ← (pure isDistinct <&&> word "ON") then
        let on ← Source.row? r
        pure on.toList
      else pure []
    else pure []
  if ← word "AS" then
    let _ ← anyText ["STRUCT", "VALUE"]
  pure parts

/-- The table that the results of a query go to. -/
def into : Reading (List Tree) := do
  if ← word "INTO" then
    let _ ← anyWord ["TEMP", "TEMPORARY"]
    let _ ← phrase ["UNLOGGED"]
    let _ ← word "TABLE"
    pure [.node .expression [← Source.table r { columns := true }]]
  else pure []

/-- What a query reads from, where that stands before `SELECT`: the first table with its joins, and
lateral views. Without `FROM` there is nothing. -/
def leading : Reading (List Tree) := do
  if ← word "FROM" then
    let source ← Source.first r true
    let laterals ← many (Source.lateral? r)
    pure (source :: laterals)
  else pure []

/-- What follows `SELECT`; what the query reads from may have been read already. -/
def select (sources : List Tree) : Reading Tree := do
  let distinct ← selectWords r
  let results ← separated (Expression.named r)
  let target ← into r
  let isAhead ← if sources.isEmpty then word "FROM" else pure false
  let found ← if isAhead then List.singleton <$> Source.first r false else pure sources
  modified r (.node .select (distinct ++ results ++ target ++ found))

/-- The query of all columns of what it reads from. -/
def ofSources (sources : List Tree) : Tree := .node .select (Expression.leaf :: sources)

/-- The query with a first table, if it has none. -/
def withSource (source query : Tree) : Tree :=
  if query.children.any (·.kind = .source) then query else query.add [source]

/-- A query after an opening parenthesis, or a table where one may stand. -/
def inParentheses (ofTable : Bool) : Reading (Option Tree) := do
  if ← word "FROM" then
    let source ← Source.first r false
    match ← nested Room.table (r.query {}) with
    | some q => pure (some (withSource source q))
    | none => some <$> (do modified r (← combined r (ofSources [source])))
  else
    let inner ←
      if ofTable then some <$> nested Room.table r.table
      else nested Room.table (r.query { mayWrap := true, mayCombine := false })
    match inner with
    | some t => some <$> (do modified r (← combined r t))
    | none => pure none

/-- A query without common table expressions before it. -/
def bare? (p : QueryPlace) : Reading (Option Tree) := do
  let finish (t : Tree) : Reading (Option Tree) := do
    if p.mayCombine then some <$> combined r t else pure (some t)
  let d ← dialect
  let sources ← leading r
  if ← (pure d.hasSelect <&&> word "SELECT") then finish (← select r sources)
  else if ← (pure (p.ofTable || p.mayWrap) <&&> mark "(") then
    let inner ← inParentheses r p.ofTable
    closing ")"
    match inner with
    | some t => some <$> Source.subquery r p.mayName t
    | none => pure none
  else if ← nextIsWord "VALUES" then
    match ← Source.rows? r with
    | some t => finish t
    | none => pure none
  else if sources.isEmpty then pure none
  else finish (ofSources sources)

/-- A query, if one comes next. -/
def query? (p : QueryPlace) : Reading (Option Tree) := do
  match ← ctes? r with
  | some ctes =>
    let statement ← nested Room.table (required r.statement)
    some <$> withCtes ctes statement
  | none => bare? r p

/-- The query of a change or a creation, if one comes next. -/
def ofChange? : Reading (Option Tree) := do
  match ← query? r { mayWrap := true, mayName := false } with
  | some t => some <$> (do modified r (← combined r t))
  | none => pure none

end Query

end Grammar

end SqlTables
