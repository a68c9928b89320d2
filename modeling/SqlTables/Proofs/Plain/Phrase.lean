import SqlTables.Proofs.FromClause
import SqlTables.Unicode.LowerCase

/-!
# Plain statements

`Phrase` is a grammar of queries, as a relation between the tokens of a phrase and what
it mentions: `SELECT` lists, tables with aliases and queries with aliases in a table list,
joins with conditions, a condition of its own, set operations, and a `WITH` clause before
a query or a subquery. A `PlainStatement` is such a query, by itself or after
`INSERT INTO name` or `CREATE TABLE name AS`.

A phrase has two indices besides its kind. `depth` bounds how many of its parentheses are
open at once. `visible` holds the common table expressions that may be used in it, in
lower case: those of the queries around it, those that were defined before it, and the
one in whose body it stands. A name of one part that is any of `ctes` has to be visible.
-/

namespace SqlTables

namespace TableName

/-- Between one part and three, all of them non-empty. -/
def IsWritten (n : TableName) : Prop := n.parts.length ≤ 2 ∧ ∀ part ∈ n.read.parts, part ≠ ""

instance (n : TableName) : Decidable n.IsWritten :=
  inferInstanceAs (Decidable (_ ∧ ∀ part ∈ n.read.parts, _))

/-- Whether the name is that of a common table expression. -/
def isUse (ctes : List String) (n : TableName) : Bool :=
  n.read.single?.any fun part => ctes.contains (Unicode.lower part)

end TableName

namespace Plain

/-- What a phrase mentions, in the order in which it stands there. -/
inductive Mention
  | table (name : TableName)
  | aliased (name : Token)
  | cte (name : Token)

/-- Where an expression stands: in a clause, or in parentheses. -/
inductive Ground
  | clause
  | parentheses
deriving DecidableEq

/-- The words that separate the parts of a statement. -/
def separators : List Keyword :=
  [.CREATE, .DISTINCT, .EXCEPT, .FROM, .INTERSECT, .INTO, .JOIN, .MERGE, .MINUS, .ON, .OVERWRITE,
    .SELECT, .UNION, .UPDATE, .USING, .WHERE, .WITH]

/-- Whether the token may stand in an expression. In parentheses all words may, as those
of `CAST (x AS INT)`. -/
def Ground.admits (g : Ground) (t : Token) : Bool :=
  !t.isMark '(' && !t.isMark ')' &&
    match g with
    | clause => !t.isMark ',' && !t.isAnyKeyword separators
    | parentheses => true

/-- The kinds of phrases. -/
inductive Part
  | expression (ground : Ground)
  /-- What is selected. -/
  | list
  /-- A table or a query, with an alias. -/
  | source
  | sources
  | joins
  | filter
  /-- What follows the list of a `SELECT`. -/
  | clauses
  /-- A `SELECT` and the branches after it. -/
  | selects
  | branches
  /-- What follows `WITH`. -/
  | definitions
  | query

/-- The common table expressions that are visible behind a definition. -/
def define (name : Token) (visible : List String) : List String :=
  Unicode.lower name.value :: visible

/-- The alias of a table. -/
def aliasMention (r : AliasedTable) : List Mention := (r.alias.map (.aliased ·.name)).toList

/-- The tokens are a phrase of the given kind and mention these names. -/
inductive Phrase (ctes : List String) :
    Nat → Part → List String → List Token → List Mention → Prop
  -- Expressions: names, calls, comparisons, `IN (query)`, `EXISTS (query)`.
  | empty {depth visible ground} : Phrase ctes depth (.expression ground) visible [] []
  | operand {depth visible ground t xs ms} (ht : ground.admits t)
      (h : Phrase ctes depth (.expression ground) visible xs ms) :
      Phrase ctes depth (.expression ground) visible (t :: xs) ms
  | distinct {depth visible t word source xs ms} (ht : t.isAnyKeyword [.IS, .NOT])
      (hword : word.isKeyword .DISTINCT) (hsource : source.isKeyword .FROM)
      (h : Phrase ctes depth (.expression .clause) visible xs ms) :
      Phrase ctes depth (.expression .clause) visible (t :: word :: source :: xs) ms
  | parens {depth visible ground o c xs ys ms ns} (ho : o.isMark '(') (hc : c.isMark ')')
      (hhead : ¬ xs.head?.any Scan.startsSubquery)
      (hinner : Phrase ctes depth (.expression .parentheses) visible xs ms)
      (h : Phrase ctes (depth + 1) (.expression ground) visible ys ns) :
      Phrase ctes (depth + 1) (.expression ground) visible (o :: xs ++ [c] ++ ys) (ms ++ ns)
  | subquery {depth visible ground o c xs ys ms ns} (ho : o.isMark '(') (hc : c.isMark ')')
      (hinner : Phrase ctes depth .query visible xs ms)
      (h : Phrase ctes (depth + 1) (.expression ground) visible ys ns) :
      Phrase ctes (depth + 1) (.expression ground) visible (o :: xs ++ [c] ++ ys) (ms ++ ns)
  -- Lists of expressions.
  | one {depth visible xs ms} (h : Phrase ctes depth (.expression .clause) visible xs ms) :
      Phrase ctes depth .list visible xs ms
  | more {depth visible comma xs ys ms ns}
      (h : Phrase ctes depth (.expression .clause) visible xs ms) (hcomma : comma.isMark ',')
      (hrest : Phrase ctes depth .list visible ys ns) :
      Phrase ctes depth .list visible (xs ++ comma :: ys) (ms ++ ns)
  -- Tables, queries as tables, and lists of both.
  | table {depth visible} (r : AliasedTable) (hwritten : r.name.IsWritten)
      (hvisible : r.name.isUse ctes → r.name.isUse visible) :
      Phrase ctes depth .source visible r.tokens (.table r.name :: aliasMention r)
  | derived {depth visible o c xs ms} (ho : o.isMark '(') (hc : c.isMark ')')
      (hinner : Phrase ctes depth .query visible xs ms) (a : TableAlias) :
      Phrase ctes (depth + 1) .source visible (o :: xs ++ [c] ++ a.tokens)
        (ms ++ [.aliased a.name])
  | source {depth visible xs ms} (h : Phrase ctes depth .source visible xs ms) :
      Phrase ctes depth .sources visible xs ms
  | comma {depth visible comma xs ys ms ns} (h : Phrase ctes depth .source visible xs ms)
      (hcomma : comma.isMark ',') (hrest : Phrase ctes depth .sources visible ys ns) :
      Phrase ctes depth .sources visible (xs ++ comma :: ys) (ms ++ ns)
  -- The clauses behind the list of a `SELECT`.
  | unjoined {depth visible} : Phrase ctes depth .joins visible [] []
  | join {depth visible word on xs ys zs ms ns os} (hword : word.isKeyword .JOIN)
      (h : Phrase ctes depth .source visible xs ms) (hon : on.isKeyword .ON)
      (hcondition : Phrase ctes depth (.expression .clause) visible ys ns)
      (hrest : Phrase ctes depth .joins visible zs os) :
      Phrase ctes depth .joins visible (word :: xs ++ on :: ys ++ zs) (ms ++ ns ++ os)
  | unfiltered {depth visible} : Phrase ctes depth .filter visible [] []
  | filter {depth visible word xs ms} (hword : word.isKeyword .WHERE)
      (h : Phrase ctes depth (.expression .clause) visible xs ms) :
      Phrase ctes depth .filter visible (word :: xs) ms
  | bare {depth visible} : Phrase ctes depth .clauses visible [] []
  | clauses {depth visible word xs ys zs ms ns os} (hword : word.isKeyword .FROM)
      (hsources : Phrase ctes depth .sources visible xs ms)
      (hjoins : Phrase ctes depth .joins visible ys ns)
      (hfilter : Phrase ctes depth .filter visible zs os) :
      Phrase ctes depth .clauses visible (word :: xs ++ ys ++ zs) (ms ++ ns ++ os)
  -- Queries.
  | select {depth visible word xs ys zs ms ns os} (hword : word.isKeyword .SELECT)
      (hlist : Phrase ctes depth .list visible xs ms)
      (hclauses : Phrase ctes depth .clauses visible ys ns)
      (hbranches : Phrase ctes depth .branches visible zs os) :
      Phrase ctes depth .selects visible (word :: xs ++ ys ++ zs) (ms ++ ns ++ os)
  | done {depth visible} : Phrase ctes depth .branches visible [] []
  | branch {depth visible operator xs ms} {all : Option Token}
      (hoperator : operator.isAnyKeyword Scan.setOperators) (hall : ∀ t ∈ all, t.isKeyword .ALL)
      (h : Phrase ctes depth .selects visible xs ms) :
      Phrase ctes depth .branches visible (operator :: all.toList ++ xs) ms
  | definition {depth visible name word o c comma xs ys ms ns} (hname : name.isName)
      (hword : word.isKeyword .AS) (ho : o.isMark '(') (hc : c.isMark ')')
      (hinner : Phrase ctes depth .query (define name visible) xs ms) (hcomma : comma.isMark ',')
      (hrest : Phrase ctes (depth + 1) .definitions (define name visible) ys ns) :
      Phrase ctes (depth + 1) .definitions visible
        (name :: word :: (o :: xs ++ [c]) ++ comma :: ys) (.cte name :: ms ++ ns)
  | lastDefinition {depth visible name word o c xs ys ms ns} (hname : name.isName)
      (hword : word.isKeyword .AS) (ho : o.isMark '(') (hc : c.isMark ')')
      (hinner : Phrase ctes depth .query (define name visible) xs ms)
      (hrest : Phrase ctes (depth + 1) .selects (define name visible) ys ns) :
      Phrase ctes (depth + 1) .definitions visible
        (name :: word :: (o :: xs ++ [c]) ++ ys) (.cte name :: ms ++ ns)
  | plain {depth visible xs ms} (h : Phrase ctes depth .selects visible xs ms) :
      Phrase ctes depth .query visible xs ms
  | with {depth visible word xs ms} {recursive : Option Token} (hword : word.isKeyword .WITH)
      (hrecursive : ∀ t ∈ recursive, t.isKeyword .RECURSIVE)
      (h : Phrase ctes depth .definitions visible xs ms) :
      Phrase ctes depth .query visible (word :: recursive.toList ++ xs) ms

/-- The words before a query that say where its rows go, and the table that they name. -/
inductive Heading : Option TableName → List Token → Prop
  | none : Heading none []
  | insert {insert into : Token} (hinsert : insert.isKeyword .INSERT) (hinto : into.isKeyword .INTO)
      (n : TableName) : Heading (some n) (insert :: into :: n.tokens)
  | create {create kind word : Token} (hcreate : create.isKeyword .CREATE)
      (hkind : kind.isAnyKeyword [.TABLE, .VIEW]) (n : TableName) (hword : word.isKeyword .AS) :
      Heading (some n) (create :: kind :: n.tokens ++ [word])

/-- The common table expressions that are defined, in lower case. -/
def cteNames (ms : List Mention) : List String :=
  ms.filterMap fun
    | .cte name => some (Unicode.lower name.value)
    | _ => none

/-- The aliases, in lower case. -/
def aliasNames (ms : List Mention) : List String :=
  ms.filterMap fun
    | .aliased name => some (Unicode.lower name.value)
    | _ => none

/-- The names in table positions. -/
def tables (ms : List Mention) : List TableName :=
  ms.filterMap fun
    | .table n => some n
    | _ => none

/-- The names in table positions that are those of tables. -/
def sources (ctes : List String) (ms : List Mention) : List TableName :=
  (tables ms).filter fun n => !n.isUse ctes

end Plain

open Plain in
/-- A query of the grammar, by itself or with a table that its rows go to. -/
structure PlainStatement where
  heading : List Token
  target : Option TableName
  query : List Token
  mentions : List Mention
  isHeading : Heading target heading
  isQuery : Phrase (cteNames mentions) 98 .query [] query mentions
  /-- No alias is the name of a table. -/
  aliases : ∀ n ∈ sources (cteNames mentions) mentions,
    ∀ part ∈ n.read.single?, Unicode.lower part ∉ aliasNames mentions
  isWritten : ∀ n ∈ target, n.IsWritten
  /-- The written table has not the name of a common table expression. -/
  isTarget : ∀ n ∈ target, ¬ n.isUse (cteNames mentions)

namespace PlainStatement

def tokens (p : PlainStatement) : List Token := p.heading ++ p.query

/-- The names of common table expressions, in lower case. -/
def ctes (p : PlainStatement) : List String := Plain.cteNames p.mentions

/-- All names in table positions. -/
def tables (p : PlainStatement) : List TableName := p.target.toList ++ Plain.tables p.mentions

/-- The names of tables. -/
def sources (p : PlainStatement) : List TableName :=
  p.target.toList ++ Plain.sources p.ctes p.mentions

end PlainStatement

end SqlTables
