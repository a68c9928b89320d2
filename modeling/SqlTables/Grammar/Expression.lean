import SqlTables.Grammar.Call

/-!
# Expressions

The levels of an expression, from the operands up to `Expression.disjunction`. Where an operator
stands, what it works on must be there.
-/

namespace SqlTables

namespace Grammar

open Reading

namespace Expression

variable (r : Readers)

/-! ## Functions and columns -/

/-- The words that ask for a query in the parentheses after them. -/
def predicates : List String := ["ALL", "ANY", "EXISTS", "SOME"]

/-- A call after its opening parenthesis; `plain` says that all functions are read alike. -/
def call (function : Lexeme) (plain : Bool) : Reading Tree := do
  let ofQuery := function.isAnyWord predicates
  if ofQuery && (← nextIs (·.isAnyWord ["SELECT", "WITH"])) then
    let q ← nested Room.call (required (r.query {}))
    closing ")"
    pure (.node .expression [q])
  else
    let parts ← nested Room.call (if plain then arguments r else callBody r function.upper)
    closing ")"
    let spreads := !plain && spreading.contains function.upper
    windowed r (.node (if spreads then .spread else .expression) parts)

/-- What follows `CASE`. -/
def caseParts : Reading (List Tree) :=
  nested Room.call do
    let subject ← r.expression
    let branches ← many do
      if ← word "WHEN" then
        let condition ← required r.expression
        let _ ← word "THEN"
        let result ← required r.expression
        pure (some [condition, result])
      else pure none
    let otherwise ← if ← word "ELSE" then r.expression else pure none
    if !(← word "END") then fail "a case has no end"
    if branches.isEmpty then fail "a case has no branches"
    pure (subject.toList ++ branches.flatten ++ otherwise.toList)

/-- What follows `IF`, unless that is a name. -/
def ifParts? : Reading (Option (List Tree)) :=
  nested Room.call do
    if ← mark "(" then
      let parts ← separated (nestedAliased r true)
      closing ")"
      if parts.length < 2 || 3 < parts.length then fail "a condition has too few or many parts"
      pure (some parts)
    else
      match ← r.expression with
      | none => pure none
      | some condition =>
        let _ ← word "THEN"
        let result ← required r.expression
        let otherwise ← if ← word "ELSE" then r.expression else pure none
        let _ ← word "END"
        pure (some (condition :: result :: otherwise.toList))

/-- A function that starts with the given word and may do without parentheses. -/
def wordFunction? (word : String) : Reading (Option Tree) := do
  let start ← get
  let followed ← second?
  match word with
  | "CASE" =>
    if followed.any (·.isMark ".") then pure none
    else
      skip 1
      pure (some (← windowed r (.node .expression (← caseParts r))))
  | "IF" =>
    skip 1
    match ← ifParts? r with
    | some parts => pure (some (← windowed r (.node .expression parts)))
    | none =>
      set start
      pure none
  | "ANY" =>
    skip 1
    let t ← nested Room.call (required r.calculation)
    pure (some (← windowed r (.node .expression [t])))
  | _ => pure none

/-- A function; `bare` says that it may do without parentheses. -/
def function? (bare : Bool) : Reading (Option Tree) := do
  match ← next? with
  | none => pure none
  | some l =>
    if bare && l.isAnyWord ["CASE", "IF", "ANY"] then wordFunction? r l.upper
    else if l.isFunctionName && (← second?).any (·.isMark "(") then
      skip 2
      pure (some (← call r l false))
    else pure none

/-- A name as an expression. -/
def name? (forced : Bool) : Reading (Option Tree) := do
  return (← Identifier.read? .any forced).map fun _ => leaf

/-- A primary expression, a function or a name. -/
def field? : Reading (Option Tree) := do
  match ← primary r with
  | some t => pure (some t)
  | none =>
    match ← function? r true with
    | some t => pure (some t)
    | none => name? false

/-- What follows a dot in an expression. -/
def member : Reading Tree := do
  match (← next?).filter Lexeme.isForced with
  | some l =>
    if (← second?).any (·.isMark "(") then
      skip 2
      call r l true
    else
      match ← primary r with
      | some t => pure t
      | none => required (name? true)
  | none =>
    match ← primary r with
    | some t => pure t
    | none => required (name? true)

/-- An item between brackets: an expression, or two with a colon between them. -/
def bracketItem : Reading (Option Tree) := do
  let start ← nestedAliased r true
  if ← mark ":" then
    let stop ← r.expression
    pure (some (.ofParts [start, stop]))
  else pure start

/-- What may be in brackets or braces after an expression, or stand for one. -/
def bracketed (t : Option Tree) : Reading (Option Tree) :=
  grow (fun t => do
    let group (close : String) : Reading (Option (Option Tree)) := do
      let items ← nested Room.parenthesis (separated (bracketItem r))
      closing close
      pure (some (some (.node .expression (t.toList ++ items))))
    if ← mark "[" then group "]"
    else if ← mark "\x7b" then group "\x7d"
    else pure none) t

/-- The members, items, types and paths after an expression. -/
def withMembers (t : Tree) : Reading (Option Tree) := do
  let start ← bracketed r (some t)
  grow (fun t => do
    if ← mark "." then
      let m ← member r
      return some (← bracketed r (some (Tree.ofParts [t, some m])))
    else if ← mark "::" then
      let _ ← required DataType.read?
      return some (← bracketed r t)
    else if ← accept (·.isAnyMark ["->", "->>", "#>", "#>>"]) then
      let path ← match ← field? r with
        | some p => pure (some p)
        | none => nested Room.operator r.calculation
      return some (← bracketed r (some (Tree.ofParts [t, path])))
    else pure none) start

/-- A column, or another expression with what belongs to it. -/
def column : Reading (Option Tree) := do
  let found ← field? r
  let d ← dialect
  let isValuesName := (← nextIsWord "VALUES") && !(← second?).any (·.isMark "(")
  let found ← if found.isNone && d.hasValuesName && isValuesName then name? true else pure found
  match found with
  | some t => withMembers r t
  | none => bracketed r none

/-! ## Operands -/

/-- The unit of a span of time, which may go on to another. -/
def timeUnit : Reading Unit := do
  if !(← nextIsWord "AS") then
    let _ ← take? Lexeme.isForced
  if ← phrase ["TO"] then
    let _ ← take? Lexeme.isForced

/-- A span of time, unless `INTERVAL` is a name. -/
def interval? : Reading (Option Tree) := do
  let start ← get
  if !(← word "INTERVAL") then return none
  let size ← next?
  match ← nested Room.operator r.calculation with
  | none =>
    set start
    pure none
  | some t =>
    let bare := size.any fun l => l.kind = .word && !l.isMark "("
    let hasUnit ← nextIs (·.isAnyWord Word.timeUnits)
    if bare && !hasUnit then
      set start
      pure none
    else
      let hasUnitInside := size.any fun l => l.kind = .text && l.text.toList.any Char.isAlpha
      if !hasUnitInside then timeUnit
      pure (some t)

/-- An operand without an operator before it. -/
def simpleOperand : Reading (Option Tree) := do
  match ← interval? r with
  | some t => pure (some t)
  | none =>
    let isLiteral (l : Lexeme) : Bool := l.kind = .text || l.kind = .number
    if ← nextAre Lexeme.isType isLiteral then
      skip 1
      let _ ← primary r
      withMembers r leaf
    else column r

/-- An operand with the operators before it. -/
def operand : Reading (Option Tree) := do
  if ← accept (·.isAnyMark ["-", "~"]) then
    pure (some (.node .expression [← nested Room.operator (required r.operand)]))
  else if ← mark "+" then nested Room.operator r.operand
  else if ← (word "NOT" <||> mark "!") then
    pure (some (.node .expression [← nested Room.operator (required r.comparison)]))
  else simpleOperand r

/-- An operand with its time zone. -/
def zoned : Reading (Option Tree) := do
  let t ← operand r
  if ← phrase ["AT", "TIME", "ZONE"] then
    let zone ← nested Room.operator (required r.operand)
    pure (some (.ofParts [t, some zone]))
  else pure t

/-! ## Operators -/

/-- Two operands, both of which must be there. -/
def both (left : Option Tree) (right : Tree) : Reading (Option Tree) := do
  pure (some (.node .expression [← present left, right]))

/-- Operands with operators of one level between them. -/
def joined (isOperator : Lexeme → Bool) (operand : Reading (Option Tree)) :
    Reading (Option Tree) := do
  grow (fun left => do
    if ← accept isOperator then
      let right ← required operand
      pure (some (← both left right))
    else pure none) (← operand)

/-- The rest of a product after `DIV`, unless that is a name. -/
def quotient? (left : Option Tree) : Reading (Option (Option Tree)) := do
  let start ← get
  if !(← word "DIV") then return none
  match ← operand r with
  | some right => pure (some (← both left right))
  | none =>
    set start
    pure none

def product : Reading (Option Tree) := do
  grow (fun left => do
    if ← accept (·.isAnyMark ["*", "/", "<->"]) then
      let right ← required (operand r)
      pure (some (← both left right))
    else quotient? r left) (← zoned r)

def sum : Reading (Option Tree) :=
  joined (fun l => l.isAnyMark ["-", "+", "%"] || l.isWord "COLLATE") (product r)

/-- The marks of the level above sums. -/
def bitMarks : List String := ["&", "^", "|", "||", "??"]

def calculation : Reading (Option Tree) := do
  grow (fun left => do
    let isShift ←
      nextAre (·.isMark "<") (·.isMark "<") <||> nextAre (·.isMark ">") (·.isMark ">")
    if isShift then skip 2
    if ← (pure isShift <||> accept (·.isAnyMark bitMarks)) then
      let right ← required (sum r)
      pure (some (← both left right))
    else pure none) (← sum r)

/-- What `IN` takes: a list or a query in parentheses, or a column. -/
def range (left : Tree) : Reading Tree := do
  let items (close : String) : Reading Tree := do
    let parts ← nested Room.list (separated (queryOr r r.expression))
    let parts ←
      match parts with
      | [q] => if q.kind.isQuery then pure [.node (.subquery "") [← r.modified q]] else pure [q]
      | _ => pure parts
    closing close
    pure (.node .expression (left :: parts))
  if ← mark "(" then items ")"
  else if ← mark "[" then items "]"
  else
    let t ← column r
    pure (.ofParts [some left, t])

/-- What follows `BETWEEN`. -/
def between (left : Tree) : Reading Tree := do
  let _ ← anyText ["SYMMETRIC", "ASYMMETRIC"]
  let low ← required (calculation r)
  let _ ← word "AND"
  let high ← required (calculation r)
  pure (.node .expression [left, low, high])

/-- What follows `LIKE` and its relatives. -/
def pattern (left : Tree) : Reading Tree := do
  let right ← required (calculation r)
  if ← word "ESCAPE" then
    if !(← (accept (·.kind = .text) <||> word "NULL")) then fail "an escape is missing"
  pure (.node .expression [left, right])

/-- What follows `IS`, unless that is a name. -/
def state? (left : Option Tree) : Reading (Option Tree) := do
  let start ← get
  if !(← word "IS") then return none
  let _ ← (word "NOT" <||> mark "!")
  if ← phrase ["DISTINCT", "FROM"] then
    both left (← required (calculation r))
  else
    match ← calculation r with
    | some right =>
      match ← both left right with
      | some t => withMembers r t
      | none => pure none
    | none =>
      set start
      pure none

/-- The words of comparisons with a pattern. -/
def patternWords : List String :=
  ["GLOB", "ILIKE", "LIKE", "OVERLAPS", "REGEXP", "RLIKE", "SIMILAR TO"]

/-- The marks that mean the same. -/
def patternMarks : List String := ["&&", "~~", "~~*", "~*", "~~~", "-|-"]

/-- An expression with `IN`, `BETWEEN`, `LIKE` or `IS` after it. -/
def tested : Reading (Option Tree) := do
  let left ← calculation r
  let negated ← (word "NOT" <||> mark "!")
  let t ←
    if ← word "BETWEEN" then pure (some (← between r (← present left)))
    else if ← word "IN" then pure (some (← range r (← present left)))
    else if ← accept fun l => l.isAnyWord patternWords || l.isAnyMark patternMarks then
      pure (some (← pattern r (← present left)))
    else if ← anyWord (if negated then ["ISNULL", "NULL"] else ["ISNULL"]) then
      pure (some (.node .expression [← present left]))
    else pure left
  let t ← if ← word "NOTNULL" then pure (some (.node .expression [← present t])) else pure t
  match ← state? r t with
  | some whole => pure (some whole)
  | none => pure t

def comparison : Reading (Option Tree) :=
  joined (·.isAnyMark ["=", "==", "<>", "!=", "<=>"])
    (joined (·.isAnyMark [">", ">=", "<", "<="]) (tested r))

def disjunction : Reading (Option Tree) :=
  joined (·.isWord "OR") (joined (·.isWord "AND") (comparison r))

/-- An expression of any level. -/
def whole : Reading (Option Tree) := joined (·.isMark ":=") (disjunction r)

/-- An expression with its alias. -/
def named : Reading (Option Tree) := do aliased r false (← whole r)

end Expression

end Grammar

end SqlTables
