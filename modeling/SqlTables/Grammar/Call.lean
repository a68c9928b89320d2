import SqlTables.Grammar.Primary

/-!
# Calls

The arguments of functions, some of which have a grammar of their own, and the windows that may
follow a call.
-/

namespace SqlTables

namespace Grammar

open Reading

namespace Expression

variable (r : Readers)

/-! ## Windows -/

/-- The order of rows, in a clause or among the arguments of a function. -/
def ordered : Reading (List Tree) :=
  separated do
    match ← nested Room.operator r.expression with
    | none => pure none
    | some t =>
      let _ ← anyWord ["ASC", "DESC"]
      let _ ← (phrase ["NULLS", "FIRST"])
      let _ ← (phrase ["NULLS", "LAST"])
      pure (some t)

/-- The rows after `ORDER BY`, at least one. -/
def orderBy? : Reading (List Tree) := do
  if ← word "ORDER BY" then
    match ← ordered r with
    | [] => fail "there is nothing to order by"
    | ts => pure ts
  else pure []

/-- One end of the frame of a window. -/
def frameEnd : Reading (List Tree) := do
  if ← (phrase ["UNBOUNDED"] <||> phrase ["CURRENT", "ROW"]) then
    let _ ← anyText ["PRECEDING", "FOLLOWING"]
    pure []
  else
    let t ← nested Room.operator r.calculation
    let _ ← anyText ["PRECEDING", "FOLLOWING"]
    pure t.toList

/-- What is between the parentheses of a window. -/
def windowBody : Reading (List Tree) := do
  let startsBody (l : Lexeme) : Bool := l.isAnyWord ["RANGE", "ROWS"]
  if !(← nextIs startsBody) then
    let _ ← Identifier.read? .any false
  let parts ← if ← word "PARTITION BY" then separated (nested Room.operator r.expression) else pure []
  let order ← orderBy? r
  let frame ←
    if ← anyWord ["RANGE", "ROWS"] then
      let _ ← word "BETWEEN"
      let start ← frameEnd r
      let stop ← if ← word "AND" then frameEnd r else pure []
      pure (start ++ stop)
    else pure []
  pure (parts ++ order ++ frame)

/-- What may follow a call: a filter, an order within a group, a window. -/
def windowed (t : Tree) : Reading Tree := do
  let t ←
    if ← phrase ["WITHIN", "GROUP"] then
      if !(← mark "(") then fail "no opening parenthesis"
      let order ← nested Room.parenthesis (orderBy? r)
      closing ")"
      pure (t.add order)
    else pure t
  let t ←
    if ← nextAre (·.isWord "FILTER") (·.isMark "(") then
      skip 2
      let _ ← word "WHERE"
      let condition ← nested Room.parenthesis (required r.expression)
      closing ")"
      pure (t.add [condition])
    else pure t
  let _ ← phrase ["IGNORE", "NULLS"]
  let _ ← phrase ["RESPECT", "NULLS"]
  let windows ← many do
    if ← word "OVER" then
      if ← mark "(" then
        let parts ← nested Room.parenthesis (windowBody r)
        closing ")"
        pure (some parts)
      else
        let _ ← Identifier.read? .any false
        pure (some [])
    else pure none
  pure (t.add windows.flatten)

/-! ## Functions -/

/-- The functions that give a row for each item of an array. -/
def spreading : List String :=
  ["EXPLODE", "EXPLODE_OUTER", "POSEXPLODE", "POSEXPLODE_OUTER", "UNNEST", "GENERATOR"]

/-- An argument that is a function of its own, such as `x -> x + 1`, or that has a name. -/
def lambda? : Reading (Option Tree) :=
  attempt do
    if ← mark "(" then
      let _ ← separated (Identifier.read? .any true)
      closing ")"
    else
      let _ ← Identifier.read? .any true
    if ← accept (·.isAnyMark ["->", "=>"]) then pure (some (← required r.expression))
    else pure none

/-- A query, or else an expression, after which set operations may follow. -/
def queryOr (expression : Reading (Option Tree)) :
    Reading (Option Tree) := do
  match ← r.query {} with
  | some q => pure (some q)
  | none =>
    match ← expression with
    | some t => pure (some (← r.combined t))
    | none => pure none

/-- An argument of a function. -/
def argument : Reading (Option Tree) := do
  match ← lambda? r with
  | some t => pure (some t)
  | none =>
    let t ←
      if ← word "DISTINCT" then
        pure (some (.node .expression (← separated r.expression)))
      else queryOr r (nestedAliased r true)
    let _ ← phrase ["IGNORE", "NULLS"]
    let _ ← phrase ["RESPECT", "NULLS"]
    let order ← orderBy? r
    let limit ← if ← word "LIMIT" then pure [← required r.calculation] else pure []
    pure (t.map fun t => if (order ++ limit).isEmpty then t else .node .expression (t :: order ++ limit))

/-- The arguments of a function. -/
def arguments : Reading (List Tree) := separated (argument r)

/-- The parts of `CAST (x AS type)`. -/
def cast : Reading (List Tree) := do
  let t ← required r.expression
  if ← word "AS" then
    let _ ← required DataType.read?
    if ← word "FORMAT" then
      let _ ← accept (·.kind = .text)
  else if ← mark "," then
    let _ ← Identifier.text?
  else fail "no type follows"
  pure [t]

/-- The parts of `CONVERT (x, type)`. -/
def convert : Reading (List Tree) := do
  let t ← required r.calculation
  if ← word "USING" then
    let _ ← Identifier.read? .any true
  else if ← mark "," then
    let _ ← required DataType.read?
  else fail "no type follows"
  pure [t]

/-- The parts of `EXTRACT (part FROM x)`. -/
def extract : Reading (List Tree) := do
  let _ ← accept fun l => l.kind = .text || l.names .any
  if ← nextIsMark "(" then skipGroup
  if !(← (word "FROM" <||> mark ",")) then fail "nothing to extract from"
  pure [← required r.calculation]

/-- The parts of `TRIM (BOTH x FROM y)`. -/
def trim : Reading (List Tree) := do
  let _ ← anyText ["BOTH", "LEADING", "TRAILING"]
  let t ← required r.calculation
  let more ←
    if ← (word "FROM" <||> mark ",") then pure [← required r.calculation] else pure []
  if ← word "COLLATE" then
    let _ ← r.calculation
  pure (t :: more)

/-- The parts of `SUBSTRING (x FROM n FOR m)`. -/
def substring : Reading (List Tree) := do
  let parts ← separated r.calculation
  let start ← if ← word "FROM" then pure [← required r.calculation] else pure []
  let size ← if ← word "FOR" then pure [← required r.calculation] else pure []
  pure (parts ++ start ++ size)

/-- The parts of `POSITION (x IN y)`. -/
def position : Reading (List Tree) := do
  let parts ← separated r.calculation
  let more ← if ← word "IN" then pure [← required r.calculation] else pure []
  pure (parts ++ more)

/-- What is between the parentheses of a call of the given name. -/
def callBody (name : String) : Reading (List Tree) :=
  match name with
  | "CAST" | "TRY_CAST" | "SAFE_CAST" => cast r
  | "CONVERT" | "TRY_CONVERT" => convert r
  | "EXTRACT" => extract r
  | "TRIM" => trim r
  | "SUBSTRING" => substring r
  | "POSITION" => position r
  | _ => arguments r

end Expression

end Grammar

end SqlTables
