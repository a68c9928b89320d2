import SqlTables.Scan.Flat
import SqlTables.Scan.Query
import SqlTables.Statement

/-!
# The scan of a statement

The scan finds the table references of a statement from its keywords, without a parse tree. It is a
machine that reads one token at a time and keeps a stack of open groups, one for each parenthesis
that has not been closed: `Scan.run` is a recursion on the tokens, and `Scan.step` changes the
innermost group, opens one inside it, or closes it. A group that closes hands what was found in it
to the group around it; groups that are still open when the tokens end are closed by `Scan.unwind`,
which reports them and demotes the tables found in them.

The stack holds at most one group more than the depth limit. A group that would exceed the limit is
flat, and a flat group opens none.
-/

namespace SqlTables

/-- The references of a statement, in the order in which they stand, and what could not be read. -/
structure Findings where
  references : List Reference
  diagnostics : List Diagnostic
deriving DecidableEq

namespace Findings

/-- The references that are reported as tables. -/
def sources (f : Findings) : List Reference := f.references.filter Reference.isSource

end Findings

namespace Diagnostic

def unclosedParenthesis (opener : Span) : Diagnostic :=
  { level := .warning, code := .unclosedParenthesis,
    message := "unclosed parenthesis" : Diagnostic }
  |>.spanning opener "opened here and never closed"

def unresolvedReference (r : Reference) : Diagnostic :=
  { level := .warning, code := .unresolvedReference,
    message := "could not fully resolve '" ++ r.name ++ "'" : Diagnostic }
  |>.spanning r.span "reported as a source table"
  |>.note "unresolved references are kept so no dependency is dropped"

end Diagnostic

structure Scan where
  /-- The innermost group. -/
  top : Scan.Frame
  /-- The groups around it, nearest first. -/
  below : List Scan.Frame
  merging : Bool
  comparison : Scan.Comparison
deriving DecidableEq

namespace Scan

namespace Frame

/-- Takes in what the innermost group has found with a token. When the first list of a join tree is
over, what was found in it is firm. -/
def take (f : Frame) (o : Outcome) : Frame :=
  let references := f.references ++ o.references
  let endsFirstList :=
    match f.body, o.body with
    | .query before, .query after => before.inFirstList && !after.inFirstList
    | _, _ => false
  { opener := f.opener
    body := o.body
    firm := if endsFirstList then f.firm ++ references else f.firm
    references := if endsFirstList then #[] else references
    diagnostics := f.diagnostics ++ o.diagnostics }

/-- Takes in what a group inside this one has found. A join tree hands back its scope. -/
def absorb (f inner : Frame) : Frame :=
  let body :=
    match f.body, inner.body with
    | .query q, .query tree => if tree.isJoinTree then .query (q.withScope tree.base) else .query q
    | body, _ => body
  { f with
    body
    references := f.references ++ (inner.firm ++ inner.references)
    diagnostics := f.diagnostics ++ inner.diagnostics }

/-- Adds what is found at the end of the tokens. -/
def settle (f : Frame) : Frame :=
  let (references, diagnostics) :=
    match f.body with
    | .query q => q.settle
    | .expression _ => ([], [])
    | .flat flat => (flat.settle, [])
  { f with
    references := f.references ++ references
    diagnostics := f.diagnostics ++ diagnostics }

/-- Closes a group whose parenthesis is never closed: its tables are demoted, save those of a join
tree that were found in its first list. -/
def giveUp (f : Frame) : Frame :=
  match f.opener with
  | none => f
  | some opener =>
    let isFirm :=
      match f.body with
      | .query q => q.inFirstList
      | _ => false
    { f with
      references := if isFirm then f.references else f.references.map Reference.demote
      diagnostics := f.diagnostics.push (.unclosedParenthesis opener) }

/-- The references found so far. -/
def found (f : Frame) : Array Reference := f.firm ++ f.references

end Frame

/-- The scan of a statement before its first token. -/
def start : Scan := ⟨{ opener := none, body := .query .statement }, [], false, .none⟩

def surroundings (limit : Nat) (s : Scan) : Surroundings :=
  { nested := s.top.opener.isSome
    full := limit ≤ s.below.length + 1
    merging := s.merging
    comparison := s.comparison }

/-- What the token `t` means in the innermost group. -/
def outcome (limit : Nat) (s : Scan) (t : Token) (rest : List Token) : Outcome :=
  match s.top.body with
  | .query q => q.step (s.surroundings limit) t rest
  | .flat f => f.step t
  | .expression scope =>
    if t.isMark '(' then
      let w := s.surroundings limit
      { body := s.top.body,
        action := .enter
          (if rest.head?.any startsSubquery then w.subquery scope else w.expression scope) }
    else if t.isMark ')' then { body := s.top.body, action := .leave }
    else { body := s.top.body }

/-- Carries out what a token does to the stack. -/
def act (s : Scan) (t : Token) : Action → Scan
  | .stay => s
  | .enter body => { s with top := { opener := some t.span, body }, below := s.top :: s.below }
  | .leave =>
    match s.below with
    | [] => s
    | outer :: below => { s with top := outer.absorb s.top, below }

/-- Reads the token `t`, with the tokens after it in sight. -/
def step (limit : Nat) (s : Scan) (t : Token) (rest : List Token) : Scan :=
  let o := s.outcome limit t rest
  { s with
    top := s.top.take o
    merging := o.merging.getD s.merging
    comparison := s.comparison.next t : Scan }.act t o.action

/-- Reads all tokens. -/
def run (limit : Nat) (s : Scan) : List Token → Scan
  | [] => s
  | t :: rest => run limit (s.step limit t rest) rest

@[simp] theorem run_nil (limit : Nat) (s : Scan) : s.run limit [] = s := rfl

theorem run_cons (limit : Nat) (s : Scan) (t : Token) (rest : List Token) :
    s.run limit (t :: rest) = (s.step limit t rest).run limit rest := rfl

/-- Closes the groups that are still open, from the innermost outwards. -/
def unwind (f : Frame) : List Frame → Frame
  | [] => f.settle.giveUp
  | outer :: below => unwind (outer.absorb f.settle.giveUp) below

/-- How many groups may be open at once before a further one is flat. -/
def depthLimit : Nat := 100

/-- What the scan finds in a token sequence. -/
def find (limit : Nat) (tokens : List Token) : Findings :=
  let s := start.run limit tokens
  let statement := unwind s.top s.below
  let references := statement.found.toList
  { references
    diagnostics := statement.diagnostics.toList
      ++ (references.filter (·.role = .unresolved)).map .unresolvedReference }

end Scan

namespace Statement

/-- What the scan finds in a statement. -/
def scan (s : Statement) : Findings :=
  let found := Scan.find Scan.depthLimit s.tokens
  { found with references := found.references.map fun r => { r with statement := s.index } }

end Statement

end SqlTables
