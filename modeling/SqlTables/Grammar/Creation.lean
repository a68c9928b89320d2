import SqlTables.Grammar.Change

/-!
# Creations

The statement `CREATE`. Only a table or a view that a query fills touches tables, so what else a
creation says is passed over: before the kind of what is created, after its name and at the end
there may be properties. A creation that goes on after all that is a statement of another kind.
-/

namespace SqlTables

namespace Grammar

open Reading

namespace Creation

variable (r : Readers)

/-- Passes over the rest of the statement, which is of a kind that touches no tables. -/
def other : Reading Tree := do
  skip (← get).rest.length
  pure (.node .other [])

/-! ## Properties -/

/-- The properties of one word. -/
def flags : List String :=
  ["DETERMINISTIC", "EXTERNAL", "GLOBAL", "HEAP", "ICEBERG", "IMMUTABLE", "MATERIALIZED",
    "MULTISET", "SECURE", "STABLE", "STREAMING", "STRICT", "TEMP", "TEMPORARY", "TRANSIENT",
    "UNLOGGED", "VOLATILE"]

/-- The properties with a value, before which a mark may stand or not. -/
def valued : List String :=
  ["ALGORITHM", "AUTO_INCREMENT", "COLLATE", "COMMENT", "ENGINE", "FORMAT", "LOCATION"]

/-- How rows are spread over files. -/
def skipBuckets : Reading Unit := do
  let _ ← phrase ["BY"]
  if ← nextIsMark "(" then skipGroup
  if ← phrase ["SORTED", "BY"] then
    if ← nextIsMark "(" then skipGroup
  let _ ← word "INTO"
  Change.skipValue
  let _ ← phrase ["BUCKETS"]

/-- A property with a key of its own. -/
def custom? : Reading (Option Unit) := do
  let start ← get
  let key ← Expression.column r
  if ← (pure key.isSome <&&> mark "=") then
    match ← Expression.calculation r with
    | some _ => pure ()
    | none =>
      let _ ← take? Lexeme.isForced
    pure (some ())
  else
    set start
    pure none

/-- A property, if one comes next. -/
def property? : Reading (Option Unit) := do
  if ← phrase ["STORED"] then some <$> Change.skipStorage
  else if ← phrase ["ROW", "FORMAT"] then some <$> Change.skipRowFormat
  else if ← anyWord ["PARTITIONED BY", "PARTITION BY", "PARTITIONED_BY"] then
    if ← nextIsMark "(" then some <$> skipGroup
    else
      let _ ← Expression.column r
      pure (some ())
  else if ← phrase ["CLUSTERED"] then some <$> skipBuckets
  else if ← anyText ["TBLPROPERTIES", "OPTIONS", "SERDEPROPERTIES"] then
    if ← nextIsMark "(" then some <$> skipGroup else fail "there are no properties"
  else if ← word "USING" then
    let _ ← take? Lexeme.isForced
    pure (some ())
  else if ← word "LIKE" then
    let _ ← Source.table r { columns := true }
    pure (some ())
  else if ← word "WITH" then
    if ← nextIsMark "(" then some <$> skipGroup
    else if ← (phrase ["DATA"] <||> phrase ["NO", "DATA"]) then pure (some ())
    else pure none
  else if ← anyText valued then
    let _ ← mark "="
    let _ ← word "AS"
    let _ ← Expression.field? r
    pure (some ())
  else if ← anyText flags then pure (some ())
  else custom? r

/-- Passes over properties and says whether there are any. -/
def skipProperties : Reading Bool := do
  return !(← many (property? r)).isEmpty

/-! ## What is created -/

/-- The kinds of what may have a query. -/
def filled : List String := ["TABLE", "VIEW", "SCHEMA", "DATABASE"]

/-- The name of what is created, with the columns in a node of their own. -/
def target : Reading Tree := do
  let name ← Source.tableName r true
  let _ ← mark ","
  let start := (← get).rest.length
  Column.list r.calculation
  let stop := (← get).rest.length
  pure (if stop < start then .node .expression [name] else name)

/-- The query after the name of what is created, or the table that may stand for it. -/
def body? : Reading (Option Tree) := do
  let _ ← skipProperties r
  let named ← word "AS"
  if !(← nextIs fun l => l.isAnyWord ["SELECT", "WITH"] || l.isMark "(") then
    let _ ← skipProperties r
  match ← Query.ofChange? r with
  | some t => pure (some t)
  | none => if named then attempt (some <$> Source.tableName r false) else pure none

/-- What follows the kind of what is created. -/
def ofKind (kind : String) : Reading Tree := do
  let _ ← phrase ["CONCURRENTLY"]
  let _ ← phrase ["IF", "NOT", "EXISTS"]
  let name ← target r
  let body ← body? r
  if kind = "TABLE" then
    let _ ← skipProperties r
  if kind = "VIEW" then
    let _ ← phrase ["WITH", "NO", "SCHEMA", "BINDING"]
  let isWhole ← (do return (← next?).all (·.isAnyMark [")", ","]))
  if isWhole then pure (.node .create (name :: body.toList)) else other

/-- What follows `CREATE`. -/
def create : Reading Tree := do
  let _ ← Change.anyPhrase [["OR", "REPLACE"], ["OR", "ALTER"], ["OR", "REFRESH"]]
  let _ ← word "UNIQUE"
  match ← take? (·.isAnyWord filled) with
  | some l => ofKind r l.upper
  | none =>
    let _ ← skipProperties r
    match ← take? (·.isAnyWord filled) with
    | some l => ofKind r l.upper
    | none => other

end Creation

end Grammar

end SqlTables
