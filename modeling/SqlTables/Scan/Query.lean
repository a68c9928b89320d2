import SqlTables.Scan.Frame
import SqlTables.Scan.Lookahead

/-!
# The scan of a query

`Query.step` reads one token of a query. Each mode has a function of its own, which falls back on
that of the next weaker expectation when the token does not fit, and in the end on `clauseStep`,
where every token fits. `Query.settle` says what is still found when the tokens end.
-/

namespace SqlTables

namespace Diagnostic

def tableFunctionSkipped (name : DottedName) : Diagnostic :=
  { level := .info, code := .tableFunctionSkipped,
    message := "'" ++ name.text ++ "' is a table function, not a table" : Diagnostic }
  |>.spanning name.span "function call"

def malformedCte (clause : Span) : Diagnostic :=
  { level := .warning, code := .malformedCte, message := "could not read WITH clause" : Diagnostic }
  |>.spanning clause "clause starts here"
  |>.note "expected `<name> AS ( <query> )`"

end Diagnostic

namespace Scan

namespace Query

/-- The reference to a table that a name in a table position makes: a name of one part may be that
of an alias or a common table expression, and a dangling name is not known to be complete. -/
def reference (q : Query) (n : DottedName) : Reference :=
  let role :=
    if n.dangling then .unresolved
    else (n.single?.bind q.scope.lookup?).getD .source
  { parts := n.parts, span := n.span, role }

/-- A token that an earlier expectation left over, or that is read without one. -/
def clauseStep (w : Surroundings) (q : Query) (fresh : Bool) (t : Token) (rest : List Token) :
    Outcome :=
  let idle := q.goto (.clauses false)
  let goto (mode : Mode) : Outcome := { body := .query (q.goto mode) }
  match t.kind with
  | .punctuation ')' => { body := .query idle, action := if w.nested then .leave else .stay }
  | .punctuation '(' =>
    { body := .query idle,
      action := .enter
        (if rest.head?.any startsSubquery then w.subquery q.scope else w.expression q.scope) }
  | .keyword word =>
    match word with
    | .UNION | .INTERSECT | .EXCEPT | .MINUS => { body := .query idle.newBranch }
    | .WITH => if looksLikeCte rest then goto (.cteName t.span true) else { body := .query idle }
    | .FROM =>
      if w.comparison = .complete then { body := .query idle } else goto (.operand .list)
    | .JOIN => goto (.operand .clause)
    | .INTO => goto .target
    | .OVERWRITE =>
      if rest.head?.any fun u => u.isKeyword .TABLE then goto .target else { body := .query idle }
    | .UPDATE => if fresh then goto .target else { body := .query idle }
    | .MERGE => { body := .query idle, merging := some true }
    | .USING =>
      if w.merging then { goto (.operand .clause) with merging := some false }
      else { body := .query idle }
    | .CREATE => goto .create
    | _ => { body := .query idle }
  | _ => { body := .query idle }

/-- After a table of a list. The end of the first list of a join tree starts its clauses. -/
def listedStep (w : Surroundings) (q : Query) (t : Token) (rest : List Token) : Outcome :=
  if t.isMark ',' then { body := .query (q.goto (.operand .list)) }
  else clauseStep w { q with inFirstList := false } q.inFirstList t rest

def followStep (w : Surroundings) (q : Query) (follow : Follow) (t : Token) (rest : List Token) :
    Outcome :=
  match follow with
  | .list => listedStep w q t rest
  | .clause => clauseStep w q false t rest

/-- After an alias: a parenthesis holds column names. -/
def columnsStep (w : Surroundings) (q : Query) (follow : Follow) (t : Token) (rest : List Token) :
    Outcome :=
  if t.isMark '(' then
    { body := .query (q.goto follow.mode), action := .enter (w.expression q.scope) }
  else followStep w q follow t rest

/-- An alias, which is any name; `AS` counts only before a name. -/
def aliasStep (w : Surroundings) (q : Query) (follow : Follow) (t : Token) (rest : List Token) :
    Outcome :=
  if t.isName then
    { body := .query ((q.defineAlias t.value).goto (.columns follow)),
      references := [{ parts := [t.value], span := t.span, role := .aliasDefinition }] }
  else if t.isKeyword .AS ∧ rest.head?.any Token.isName then
    { body := .query (q.goto (.alias follow)) }
  else followStep w q follow t rest

/-- After `TABLESAMPLE`: a parenthesis holds the size. -/
def sampleStep (w : Surroundings) (q : Query) (follow : Follow) (t : Token) (rest : List Token) :
    Outcome :=
  if t.isMark '(' then
    { body := .query (q.goto (.alias follow)), action := .enter (w.expression q.scope) }
  else aliasStep w q follow t rest

/-- After a table or a group in its place. -/
def operandEndStep (w : Surroundings) (q : Query) (follow : Follow) (t : Token)
    (rest : List Token) : Outcome :=
  if t.isKeyword .TABLESAMPLE then { body := .query (q.goto (.sample follow)) }
  else aliasStep w q follow t rest

/-- A group in a table position: past the depth limit its first name counts as a table; else it is
a subquery, a join tree or an expression by its first token. -/
def operandGroup (w : Surroundings) (q : Query) (rest : List Token) : Body :=
  if w.full then .flat ⟨q.scope, 0, true, none⟩
  else if rest.head?.any startsSubquery then .query (.inside q.scope)
  else if rest.head?.any fun u => isCandidate u || u.isMark '(' then .query (.joinTree q.scope)
  else .expression q.scope

def operandStep (w : Surroundings) (q : Query) (follow : Follow) (t : Token) (rest : List Token) :
    Outcome :=
  if t.isKeyword .LATERAL then { body := .query (q.goto (.operand follow)) }
  else if t.isMark '(' then
    { body := .query (q.goto (.operandEnd follow)), action := .enter (operandGroup w q rest) }
  else if isCandidate t then
    { body := .query (q.goto (.name (.operand follow) (.ofToken t))) }
  else followStep w q follow t rest

/-- The token after a complete name. A table followed by a parenthesis is a function call; a created
table counts only if a query follows it. -/
def nameEndStep (w : Surroundings) (q : Query) (purpose : Purpose) (n : DottedName) (t : Token)
    (rest : List Token) : Outcome :=
  match purpose with
  | .operand follow =>
    if t.isMark '(' then
      { body := .query (q.goto (.operandEnd follow)), action := .enter (w.expression q.scope),
        diagnostics := [.tableFunctionSkipped n] }
    else (operandEndStep w q follow t rest).found (q.reference n)
  | .target => (operandEndStep w q .clause t rest).found (q.reference n)
  | .created =>
    let o := clauseStep w q false t rest
    if hasQueryBody 0 (t :: rest) then o.found (q.reference n) else o

def nameStep (w : Surroundings) (q : Query) (purpose : Purpose) (n : DottedName) (t : Token)
    (rest : List Token) : Outcome :=
  match n.extend? t with
  | some longer => { body := .query (q.goto (.name purpose longer)) }
  | none => nameEndStep w q purpose n t rest

def targetNameStep (w : Surroundings) (q : Query) (t : Token) (rest : List Token) : Outcome :=
  if isCandidate t then { body := .query (q.goto (.name .target (.ofToken t))) }
  else clauseStep w q false t rest

def targetStep (w : Surroundings) (q : Query) (t : Token) (rest : List Token) : Outcome :=
  if t.isKeyword .TABLE then { body := .query (q.goto .targetName) }
  else targetNameStep w q t rest

/-- The words that may stand between `CREATE` and the kind of what is created. -/
def createModifiers : List Keyword :=
  [.OR, .REPLACE, .TEMPORARY, .TEMP, .EXTERNAL, .GLOBAL, .LOCAL, .MATERIALIZED, .TRANSACTIONAL]

def createStep (w : Surroundings) (q : Query) (t : Token) (rest : List Token) : Outcome :=
  if t.isAnyKeyword createModifiers then { body := .query (q.goto .create) }
  else if t.isAnyKeyword [.TABLE, .VIEW] then { body := .query (q.goto (.createName [.IF])) }
  else clauseStep w q false t rest

/-- The optional words that may come after the given one. -/
def optionalAfter (word : Keyword) (optional : List Keyword) : List Keyword :=
  if word = .IF then [.NOT, .EXISTS] else (optional.dropWhile (· ≠ word)).tail

def createNameStep (w : Surroundings) (q : Query) (optional : List Keyword) (t : Token)
    (rest : List Token) : Outcome :=
  match t.keyword?.filter optional.contains with
  | some word => { body := .query (q.goto (.createName (optionalAfter word optional))) }
  | none =>
    if isCandidate t then { body := .query (q.goto (.name .created (.ofToken t))) }
    else clauseStep w q false t rest

/-- A `WITH` clause that cannot be read further; the token starts the statement behind it. -/
def cteFailure (w : Surroundings) (q : Query) (clause : Span) (t : Token) (rest : List Token) :
    Outcome :=
  (clauseStep w q true t rest).reported (.malformedCte clause)

/-- The name is defined before the body is read, so that a recursive query refers to itself. -/
def cteNameStep (w : Surroundings) (q : Query) (clause : Span) (first : Bool) (t : Token)
    (rest : List Token) : Outcome :=
  if first ∧ t.isKeyword .RECURSIVE then { body := .query (q.goto (.cteName clause false)) }
  else if t.isName then
    { body := .query ((q.defineCte t.value).goto (.cteColumns clause)),
      references := [{ parts := [t.value], span := t.span, role := .cteDefinition }] }
  else cteFailure w q clause t rest

def cteAsStep (w : Surroundings) (q : Query) (clause : Span) (t : Token) (rest : List Token) :
    Outcome :=
  if t.isKeyword .AS then { body := .query (q.goto (.cteBody clause [.NOT, .MATERIALIZED])) }
  else cteFailure w q clause t rest

def cteColumnsStep (w : Surroundings) (q : Query) (clause : Span) (t : Token)
    (rest : List Token) : Outcome :=
  if t.isMark '(' then
    { body := .query (q.goto (.cteAs clause)), action := .enter (w.expression q.base) }
  else cteAsStep w q clause t rest

def cteBodyStep (w : Surroundings) (q : Query) (clause : Span) (optional : List Keyword)
    (t : Token) (rest : List Token) : Outcome :=
  match t.keyword?.filter optional.contains with
  | some word => { body := .query (q.goto (.cteBody clause (optionalAfter word optional))) }
  | none =>
    if t.isMark '(' then
      { body := .query (q.goto (.cteNext clause)), action := .enter (w.subquery q.base) }
    else cteFailure w q clause t rest

def cteNextStep (w : Surroundings) (q : Query) (clause : Span) (t : Token) (rest : List Token) :
    Outcome :=
  if t.isMark ',' then { body := .query (q.goto (.cteName clause false)) }
  else clauseStep w q true t rest

/-- Reads the token `t` of a query, with the tokens after it in sight. -/
def step (w : Surroundings) (q : Query) (t : Token) (rest : List Token) : Outcome :=
  match q.mode with
  | .clauses fresh => clauseStep w q fresh t rest
  | .operand follow => operandStep w q follow t rest
  | .listed => listedStep w q t rest
  | .target => targetStep w q t rest
  | .targetName => targetNameStep w q t rest
  | .name purpose n => nameStep w q purpose n t rest
  | .operandEnd follow => operandEndStep w q follow t rest
  | .sample follow => sampleStep w q follow t rest
  | .alias follow => aliasStep w q follow t rest
  | .columns follow => columnsStep w q follow t rest
  | .create => createStep w q t rest
  | .createName optional => createNameStep w q optional t rest
  | .cteName clause first => cteNameStep w q clause first t rest
  | .cteColumns clause => cteColumnsStep w q clause t rest
  | .cteAs clause => cteAsStep w q clause t rest
  | .cteBody clause optional => cteBodyStep w q clause optional t rest
  | .cteNext clause => cteNextStep w q clause t rest

/-- What is found at the end of the tokens: a name that was being read, and a clause that was being
read and cannot be complete. -/
def settle (q : Query) : List Reference × List Diagnostic :=
  match q.mode with
  | .name (.operand _) n | .name .target n => ([q.reference n], [])
  | .cteName clause _ | .cteColumns clause | .cteAs clause | .cteBody clause _ =>
    ([], [.malformedCte clause])
  | _ => ([], [])

end Query

end Scan

end SqlTables
