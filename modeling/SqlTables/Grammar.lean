import SqlTables.Form
import SqlTables.Grammar.Names
import SqlTables.Grammar.Statement

/-!
# The parser

`Grammar.parse` is the parser of the program: it reads a text as a whole in the grammar of a dialect
and gives the tables that its first statement names. For a statement that touches no rows, such as
the definition of a table by its columns, the parser gives no tables.
-/

namespace SqlTables

namespace Grammar

/-- The lexemes between semicolons. One at the end of the text separates nothing. -/
def chunks : List Lexeme → List (List Lexeme)
  | [] => [[]]
  | l :: rest =>
    if l.isMark ";" then if rest.isEmpty then [[]] else [] :: chunks rest
    else
      match chunks rest with
      | chunk :: more => (l :: chunk) :: more
      | [] => [[l]]

/-- The first statement of a text. All of them have to be in the grammar. -/
def firstStatement (d : Dialect) (text : String) : Except ParseFailure Tree := do
  let lexemes ← Lexeme.scan d text
  let statements ← (chunks lexemes).mapM (Tree.ofLexemes? d)
  match statements.head?.join with
  | some t => pure t
  | none => throw (.rejected "there is no statement")

/-- Whether the parser gives tables for a statement: it is a query, or it changes rows. -/
def isModelled (t : Tree) : Bool :=
  match t.kind with
  | .insert | .update | .delete | .merge => true
  | .create => (t.children.drop 1).any (·.kind.isQuery)
  | k => k.isQuery

/-- What the parser says about a text, where `names` gives the tables of a statement. -/
def answer (names : Tree → List (List String)) (d : Dialect) (text : String) : Parse :=
  match firstStatement d text with
  | .error cause => .failed cause
  | .ok t => if isModelled t then .tables (names t) else .notModelled

/-- The parser that gives the tables of a statement by `names`. -/
def parseBy (names : Tree → List (List String)) : SqlParser := fun text dialect =>
  match Dialect.choose dialect with
  | .ok d => .ok (answer names d text)
  | .error cause => .error (.dialect cause)

/-- The parser. -/
def parse : SqlParser := parseBy Tree.names

/-- The parser that looks at no queries: it gives all tables of a statement. -/
def parseAll : SqlParser := parseBy Tree.allNames

end Grammar

end SqlTables
