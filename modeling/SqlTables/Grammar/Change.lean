import SqlTables.Grammar.Query

/-!
# Changes

The statements that change the rows of a table: `INSERT`, `UPDATE`, `DELETE` and `MERGE`. The table
is the first child of each.
-/

namespace SqlTables

namespace Grammar

open Reading

namespace Change

variable (r : Readers)

/-! ## Parts of several statements -/

/-- What follows `SET`. -/
def assignments : Reading (List Tree) := separated (Expression.comparison r)

/-- What a statement gives back of the rows that it changes. -/
def returning : Reading (List Tree) := do
  if ← word "RETURNING" then
    let parts ← separated (Expression.named r)
    if ← word "INTO" then
      let _ ← Identifier.read? .any false
    pure parts
  else pure []

/-- The condition that rows have to meet. -/
def condition : Reading (List Tree) := do
  if ← word "WHERE" then Query.single r "where" else pure []

/-- The words `IF EXISTS` or `IF NOT EXISTS`. -/
def skipExists : Reading Unit := do
  let _ ← (phrase ["IF", "EXISTS"] <||> phrase ["IF", "NOT", "EXISTS"])

/-- A text or a name. -/
def skipValue : Reading Unit := do
  let _ ← take? fun l => l.kind = .text || l.kind = .number || l.names .any

/-- How a file stores rows, after `STORED`. -/
def skipStorage : Reading Unit := do
  let _ ← (word "AS" <||> phrase ["BY"])
  if ← phrase ["INPUTFORMAT"] then
    skipValue
    let _ ← phrase ["OUTPUTFORMAT"]
  skipValue

/-- The parts of rows that a mark ends, each by the words before `TERMINATED BY`. -/
def rowParts : List (List String) :=
  [["FIELDS", "TERMINATED", "BY"], ["ESCAPED", "BY"], ["COLLECTION", "ITEMS", "TERMINATED", "BY"],
    ["MAP", "KEYS", "TERMINATED", "BY"], ["LINES", "TERMINATED", "BY"], ["NULL", "DEFINED", "AS"]]

/-- Takes the first of several phrases that comes next. -/
def anyPhrase : List (List String) → Reading Bool
  | [] => pure false
  | ws :: rest => do if ← phrase ws then pure true else anyPhrase rest

/-- How a row is written, after `ROW FORMAT`. -/
def skipRowFormat : Reading Unit := do
  if ← phrase ["SERDE"] then
    skipValue
    if ← nextAre (·.isWord "WITH") (·.isWord "SERDEPROPERTIES") then
      skip 2
      skipGroup
  else
    let _ ← phrase ["DELIMITED"]
    let _ ← many do
      if ← anyPhrase rowParts then
        skipValue
        pure (some ())
      else pure none

/-! ## Insertions -/

/-- The directory that rows are written to. -/
def directory : Reading Tree := do
  skipValue
  if ← phrase ["ROW", "FORMAT"] then skipRowFormat
  pure (.node .expression [])

/-- The table that rows are inserted into. -/
def insertTarget : Reading Tree := do
  if ← word "OR" then
    let _ ← anyText ["ABORT", "FAIL", "IGNORE", "OVERWRITE", "REPLACE", "ROLLBACK"]
  let _ ← word "INTO"
  let _ ← word "TABLE"
  if ← word "FUNCTION" then required (Expression.function? r true)
  else
    let t ← Source.table r { columns := true, partition := true }
    if ← nextIsWord "AS" then
      let _ ← Source.alias? r .tableAlias
    pure t

/-- What is done with rows that are there already. -/
def conflict : Reading (List Tree) := do
  if ← (phrase ["ON", "CONFLICT"] <||> phrase ["ON", "DUPLICATE", "KEY"]) then
    if ← phrase ["ON", "CONSTRAINT"] then
      let _ ← Identifier.read? .any false
    else if ← nextIsMark "(" then skipGroup
    let _ ← phrase ["DO"]
    let _ ← phrase ["NOTHING"]
    let parts ←
      if ← word "UPDATE" then
        let _ ← word "SET"
        assignments r
      else pure []
    pure (parts ++ (← condition r))
  else pure []

/-- What follows `INSERT`. -/
def insert : Reading Tree := do
  let _ ← accept (·.kind = .hint)
  let _ ← word "OVERWRITE"
  let _ ← phrase ["LOCAL"]
  let target ← if ← phrase ["DIRECTORY"] then directory else insertTarget r
  let given ← returning r
  if ← phrase ["STORED"] then skipStorage
  let _ ← phrase ["BY", "NAME"]
  skipExists
  let replaced ←
    if ← phrase ["REPLACE", "WHERE"] then pure [← required (Expression.disjunction r)] else pure []
  let _ ← phrase ["DEFAULT", "VALUES"]
  let rows ←
    match ← Source.rows? r with
    | some t => pure (some t)
    | none => Query.ofChange? r
  let handled ← conflict r
  let more ← returning r
  let table ← if ← word "TABLE" then pure [← Source.table r {}] else pure []
  let rest := [given, handled, more, table].map (.node .expression)
  pure (.node .insert (target :: .node .expression replaced :: rows.toList ++ rest))

/-! ## Updates and deletions -/

/-- A part of an update after its table. -/
def updatePart? : Reading (Option (List Tree)) := do
  if ← word "SET" then some <$> assignments r
  else if ← nextIsWord "RETURNING" then some <$> returning r
  else if ← word "FROM" then
    let source ← Source.first r true
    pure (some [source])
  else if ← nextIsWord "WHERE" then some <$> condition r
  else if ← word "ORDER BY" then some <$> Query.list r "order"
  else if ← word "LIMIT" then some <$> Query.limit r
  else pure none

/-- What follows `UPDATE`. -/
def update : Reading Tree := do
  let _ ← accept (·.kind = .hint)
  let t ← Source.table r { joins := true, names := .changedAlias }
  let parts ← many (updatePart? r)
  pure (.node .update (t :: parts.flatten))

/-- What follows `DELETE`. -/
def delete : Reading Tree := do
  let _ ← accept (·.kind = .hint)
  let tables ←
    if ← nextIsWord "FROM" then pure [] else separated (some <$> Source.table r {})
  let given ← returning r
  let t ← if ← word "FROM" then pure [← Source.table r { joins := true }] else pure []
  let using_ ←
    if ← word "USING" then separated (some <$> Source.table r { joins := true }) else pure []
  let rows ← condition r
  let more ← returning r
  let order ← if ← word "ORDER BY" then Query.list r "order" else pure []
  let limit ← if ← word "LIMIT" then Query.limit r else pure []
  pure (.node .delete (tables ++ t ++ using_ ++ rows ++ given ++ more ++ order ++ limit))

/-! ## Merges -/

/-- The insertion of a merge. -/
def mergeInsert : Reading Tree := do
  if ← mark "*" then pure (.node .insert [← Expression.star r])
  else
    let columns ← if ← phrase ["ROW"] then pure none else Source.row? r
    let values ← if ← phrase ["VALUES"] then Source.row? r else pure none
    pure (.node .insert (columns.toList ++ values.toList))

/-- The update of a merge. -/
def mergeUpdate : Reading Tree := do
  if ← mark "*" then pure (.node .update [← Expression.star r])
  else
    let parts ← if ← word "SET" then assignments r else pure []
    pure (.node .update parts)

/-- What a merge does with the rows of one kind. -/
def action : Reading Tree := do
  if ← word "INSERT" then mergeInsert r
  else if ← word "UPDATE" then mergeUpdate r
  else if ← (word "DELETE" <||> phrase ["DO", "NOTHING"]) then pure (.node .expression [])
  else fail "a merge does nothing"

/-- The case of a merge after `WHEN`. -/
def mergeCase? : Reading (Option Tree) := do
  if !(← word "WHEN") then return none
  let _ ← word "NOT"
  let _ ← phrase ["MATCHED"]
  let _ ← (phrase ["BY", "TARGET"] <||> phrase ["BY", "SOURCE"])
  let condition ← if ← word "AND" then Expression.disjunction r else pure none
  let _ ← word "THEN"
  let t ← action r
  pure (some (.node .expression (condition.toList ++ [t])))

/-- What follows `MERGE`. -/
def merge : Reading Tree := do
  let _ ← word "INTO"
  let target ← Source.table r {}
  let _ ← word "USING"
  let source ← Source.table r {}
  let condition ← Source.condition? r
  match ← many (mergeCase? r) with
  | [] => fail "a merge has no cases"
  | cases => pure (.node .merge (target :: source :: condition.getD [] ++ cases))

end Change

end Grammar

end SqlTables
