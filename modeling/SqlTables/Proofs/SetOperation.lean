import SqlTables.Proofs.Scan.Covers
import SqlTables.Proofs.Subquery
import SqlTables.Proofs.WithClause

/-!
# Branches of a set operation

The branches of a set operation are independent: behind the operator a branch is read as
it is read right behind the `WITH` clause, whatever the branch before it is
(`SetOperation.references_tokens`). An alias of one branch hides nothing in another, and
the common table expressions are seen in both.

Over the first branch only its aliases can change, since nothing is defined in it, and the
operator drops these (`AtQuery.advance_branch`, `AtQuery.step_operator`). What the first
branch sees of the tokens to come is the operator, which is as good as their end.
-/

namespace SqlTables

open Token

/-- The scope with the names of the definitions, one defined after the other. -/
def CteDefinition.defineAll (base : Scope) (ds : List CteDefinition) : Scope :=
  ds.foldl (fun base d => base.define d.name.value .cteDefinition) base

/-- A branch without common table expressions of its own. -/
structure IsBranch (ts : List Token) : Prop where
  head : ts.head?.any fun t => t.isKeyword .SELECT
  defines : ∀ t ∈ ts, ¬ t.isKeyword .WITH
  creates : ∀ t ∈ ts, ¬ t.isKeyword .CREATE
  merges : ∀ t ∈ ts, ¬ t.isKeyword .MERGE

/-- A set operation `[clause] left operator [ALL] right`. -/
structure SetOperation where
  clause : Option WithClause
  left : List Token
  operator : Token
  all : Option Token
  right : List Token
  /-- The right branch where it stands without the left one. -/
  alone : List Token
  /-- How far the left branch and the operator move the right one. -/
  shift : Int
  isNamed : ∀ w ∈ clause, ∀ d ∈ w.definitions, d.name.isName
  creates : ∀ w ∈ clause, ∀ t ∈ w.tokens, ¬ t.isKeyword .CREATE
  merges : ∀ w ∈ clause, ∀ t ∈ w.tokens, ¬ t.isKeyword .MERGE
  isLeft : IsBranch left
  balanced : Balanced left
  isComplete : ∀ t ∈ left.getLast?, ¬ t.isMark '.'
  isOperator : operator.isAnyKeyword Scan.setOperators
  isAll : ∀ t ∈ all, t.isKeyword .ALL
  isRight : IsBranch right
  displaced : List.Forall₂ (Token.Displaced shift) alone right

namespace SetOperation

def clauseTokens (o : SetOperation) : List Token := (o.clause.map WithClause.tokens).getD []

/-- The left branch by itself, with the clause. -/
def leftTokens (o : SetOperation) : List Token := o.clauseTokens ++ o.left

/-- The right branch by itself, with the clause. -/
def rightTokens (o : SetOperation) : List Token := o.clauseTokens ++ o.alone

def tokens (o : SetOperation) : List Token :=
  o.leftTokens ++ o.operator :: (o.all.toList ++ o.right)

/-- Whether the span stands behind the clause. -/
def isBehind (o : SetOperation) (s : Span) : Bool :=
  o.clauseTokens.all fun t => (t.stop : Int) ≤ s.start

end SetOperation

namespace Scan

variable {limit : Nat} {s : Scan} {t : Token} {base : Scope} {names : Names} {mode : Mode}
  {clause : Span} {first : Bool} {opener : Option Span} {below : List Frame}

/-! ## The clause -/

theorem AtQuery.advance_definitions (h : s.AtTop base names (.cteName clause first)) (limit : Nat)
    (after : List Token) (d : CteDefinition) (more : List (Token × CteDefinition))
    (hcommas : ∀ p ∈ more, p.1.isMark ',') (hnames : ∀ e ∈ d :: more.map (·.2), e.name.isName) :
    (s.advance limit after (d.tokens ++ CteDefinition.listTokens more)).AtTop
      (CteDefinition.defineAll base (d :: more.map (·.2))) names (.cteNext clause) := by
  induction more generalizing s base first d with
  | nil =>
      rw [CteDefinition.listTokens, List.flatMap_nil, List.append_nil]
      exact h.advance_definition limit after d (hnames d List.mem_cons_self)
  | cons p more ih =>
      rw [List.forall_mem_cons] at hcommas
      rw [List.map_cons, List.forall_mem_cons] at hnames
      have hnext := (h.advance_definition limit
        (CteDefinition.listTokens (p :: more) ++ after) d hnames.1).step_cteNext limit
        (p.2.tokens ++ CteDefinition.listTokens more ++ after) hcommas.1
      rw [advance_append]
      exact ih hnext p.2 hcommas.2 hnames.2

/-- What a query may expect before a `SELECT`. -/
inductive StartsBranch : Mode → Prop
  | clauses (fresh : Bool) : StartsBranch (.clauses fresh)
  | cteNext (clause : Span) : StartsBranch (.cteNext clause)

/-- Where a branch starts, every token but a comma is read as the start of a clause. -/
theorem StartsBranch.step (hmode : StartsBranch mode) (w : Surroundings) (base : Scope)
    (names : Names) (rest : List Token) (ht : ¬ t.isMark ',') :
    ∃ fresh, (Query.top base names mode).step w t rest =
      Query.clauseStep w (.top base names mode) fresh t rest := by
  cases hmode with
  | clauses fresh => exact ⟨fresh, rfl⟩
  | cteNext clause =>
      refine ⟨true, ?_⟩
      change Query.cteNextStep w _ clause t rest = _
      rw [Query.cteNextStep, if_neg ht]

theorem step_select (w : Surroundings) (base : Scope) (names : Names) (rest : List Token)
    (hmode : StartsBranch mode) (ht : t.isKeyword .SELECT) :
    (Query.top base names mode).step w t rest =
      { body := .query (.top base names (.clauses false)) } := by
  obtain ⟨fresh, hstep⟩ := hmode.step w base names rest (not_isMark_of_isKeyword ht ',')
  rw [hstep]
  exact Query.clauseStep_of_isIdle w _ fresh rest (isIdle_of_isKeyword ht (by decide))

/-- A `SELECT` starts the clauses of a query, and nothing is found with it. -/
theorem AtQuery.gather_select (h : s.AtQuery opener below base names mode)
    (hmode : StartsBranch mode) (ht : t.isKeyword .SELECT) (limit : Nat) (after ts : List Token) :
    (s.step limit t (ts ++ after)).AtQuery opener below base names (.clauses false) ∧
      (s.step limit t (ts ++ after)).merging = s.merging ∧
      (s.step limit t (ts ++ after)).comparison = .none ∧
      s.gather limit after (t :: ts) = (s.step limit t (ts ++ after)).gather limit after ts := by
  have hstep (w : Surroundings) := step_select w base names (ts ++ after) hmode ht
  refine ⟨h.step_of_eq (hstep _), ?_, ?_, ?_⟩
  · rw [merging_step, outcome_query h.body, hstep]
    rfl
  · rw [comparison_step]
    simp [Comparison.next, isAnyKeyword, isKeyword, kind_of_isKeyword ht]
  · rw [gather_cons, outcome_query h.body, hstep]
    rfl

/-! ## A branch -/

/-- A query in a branch, with the common table expressions of `base`. -/
def Query.IsBranchOf (base : Scope) (q : Query) : Prop :=
  ∃ names mode, q = .top base names mode ∧ ¬ mode.isDefining

/-- Where nothing is defined, a query keeps its common table expressions. -/
theorem hands_base (base : Scope) :
    Query.Hands (· ≠ []) (Query.IsBranchOf base) (fun _ t => ¬ t.isKeyword .WITH) where
  extend := by
    rintro q ⟨names, mode, rfl, -⟩ purpose longer
    exact ⟨names, _, rfl, Bool.false_ne_true⟩
  turn := by
    rintro w q t rest before o ⟨names, mode, rfl, hmode⟩ ht hturn
    have hfalse {first : Bool} (h : first → (Query.top base names mode).inFirstList) :
        first = false := Bool.eq_false_iff.mpr fun hfirst => Bool.false_ne_true (h hfirst)
    cases hturn with
    | goto first mode' d g hopen hclose hfirst hname hcreate hmerge hdefine =>
        obtain rfl := hfalse hfirst
        exact ⟨_, rfl, ⟨names, mode', rfl, fun h => (hdefine h).elim hmode ht⟩,
          fun b hb => by cases hb⟩
    | branch first d hopen hclose hfirst =>
        obtain rfl := hfalse hfirst
        exact ⟨_, rfl, ⟨[], _, rfl, Bool.false_ne_true⟩, fun b hb => by cases hb⟩
    | defineAlias follow d hname =>
        exact ⟨_, rfl, ⟨_, _, rfl, Bool.false_ne_true⟩, fun b hb => by cases hb⟩
    | defineCte clause d hname hdefine => exact absurd hdefine hmode
    | enter first mode' body d hopen hfirst hwait hbody hdefine =>
        obtain rfl := hfalse hfirst
        refine ⟨_, rfl, ⟨names, mode', rfl, fun h => hmode (hdefine h)⟩, fun b hb => ?_⟩
        rw [← Action.enter.inj hb]
        refine hbody.has Scope.isInherited_ne_nil (List.cons_ne_nil _ _) (fun hopens => ?_) rfl
        cases mode <;> first | exact absurd rfl hmode | cases hopens
    | leave first d hclose hfirst =>
        obtain rfl := hfalse hfirst
        refine ⟨_, rfl, ⟨names, _, rfl, Bool.false_ne_true⟩, fun b hb => ?_⟩
        dsimp only at hb
        split at hb <;> cases hb
  withScope := by
    rintro q scope ⟨names, mode, rfl, hmode⟩ hscope htail
    cases scope with
    | nil => exact absurd rfl hscope
    | cons names' outer =>
        obtain rfl : outer = base := htail
        exact ⟨names', mode, rfl, hmode⟩

/-- Behind a branch the query of the statement has the common table expressions that it had
before. -/
theorem AtQuery.advance_branch (h : s.AtTop base [] (.clauses false)) (limit : Nat)
    (after : List Token) {xs : List Token} (hxs : Balanced xs)
    (hdefines : ∀ t ∈ xs, ¬ t.isKeyword .WITH) :
    ∃ names mode, (s.advance limit after xs).AtTop base names mode ∧ ¬ mode.isDefining := by
  have hcovers : Covers (· ≠ []) (Query.IsBranchOf base) [] s.top s.below := by
    rw [h.below]
    exact .query h.body ⟨[], .clauses false, rfl, Bool.false_ne_true⟩
  have hread := covers_advance Scope.isInherited_ne_nil (hands_base base) limit after h.isNest
    hcovers (fun t ht _ => hdefines t ht) (Or.inl rfl)
  have hnest := isNest_advance limit after xs h.isNest
  have hheight : (s.advance limit after xs).height = 0 := by
    have hzero : s.height = 0 := by
      rw [height, h.below, h.body]
      rfl
    rw [height_advance limit after xs h.isNest, hzero, foldl_nest hxs]
  have hbelow : (s.advance limit after xs).below = [] :=
    List.length_eq_zero_iff.mp (Nat.eq_zero_of_add_eq_zero hheight).1
  rcases hread.cases_top with ⟨-, q, hbody, names, mode, rfl, hmode⟩ | ⟨hlt, -⟩
  · rw [hbelow] at hnest
    exact ⟨names, mode, ⟨hbody, hbelow, hnest.1⟩, hmode⟩
  · rw [hbelow] at hlt
    cases hlt

/-- An operator starts another branch, where no alias is defined. -/
theorem Query.clauseStep_operator (w : Surroundings) (base : Scope) (names : Names) (mode : Mode)
    (fresh : Bool) (rest : List Token) (ht : t.isAnyKeyword setOperators) :
    clauseStep w (.top base names mode) fresh t rest =
      { body := .query (.top base [] (.clauses false)) } := by
  unfold isAnyKeyword at ht
  split at ht
  · next word hkind =>
      have hword : word ∈ [Keyword.UNION, .INTERSECT, .EXCEPT, .MINUS] :=
        List.contains_iff_mem.mp ht
      simp only [List.mem_cons, List.not_mem_nil, or_false] at hword
      rcases hword with rfl | rfl | rfl | rfl <;> simp only [clauseStep, hkind] <;> rfl
  · cases ht

/-- The operator completes the last table of a branch and starts another one. -/
theorem step_operator (w : Surroundings) (base : Scope) (names : Names) (rest : List Token)
    (ht : t.isAnyKeyword setOperators) (hname : ¬ (Query.top base names mode).continues t)
    (hcreating : ¬ mode.isCreating) (hdefining : ¬ mode.isDefining) :
    (Query.top base names mode).step w t rest =
      { body := .query (.top base [] (.clauses false)),
        references := (Query.top base names mode).settle.1 } := by
  obtain ⟨fresh, hstep⟩ := Query.step_of_startsClause w (.top base names mode) rest
    (startsClause_of_isAnyKeyword ht (by decide)) hname rfl hcreating hdefining
  rw [hstep, Query.clauseStep_operator w base names mode fresh rest ht]

end Scan

namespace SetOperation

open Scan

/-- After the clause the statement starts, with the names of the clause in its base scope. -/
theorem advance_clause (o : SetOperation) :
    ∃ base mode, StartsBranch mode ∧
      ∀ limit after, (start.advance limit after o.clauseTokens).AtTop base [] mode := by
  rw [clauseTokens]
  cases hclause : o.clause with
  | none => exact ⟨[[]], _, .clauses true, fun _ _ => atTop_start⟩
  | some w =>
      refine ⟨CteDefinition.defineAll [[]] w.definitions, _, .cteNext w.word.span,
        fun limit after => ?_⟩
      have hnames := o.isNamed w hclause
      obtain ⟨first, hwith⟩ := atTop_start.advance_with limit
        (w.first.tokens ++ (CteDefinition.listTokens w.more ++ after)) w.isWith w.isRecursive
        (looksLikeCte_tokens w.first (hnames _ List.mem_cons_self) _)
      rw [Option.map_some, Option.getD_some, WithClause.tokens, advance_append, List.append_assoc]
      exact hwith.advance_definitions limit after w.first w.more w.commas hnames

theorem balanced_clause (o : SetOperation) : Balanced o.clauseTokens := by
  rw [clauseTokens]
  cases o.clause with
  | none => rfl
  | some w =>
      have hword {word : Keyword} {t : Token} (ht : t.isKeyword word) (ts : List Token) :
          depth? 0 (t :: ts) = depth? 0 ts :=
        depth?_cons_other (not_isMark_of_isKeyword ht '(') (not_isMark_of_isKeyword ht ')') 0 ts
      have hdefinitions := ((idle_tokens w.first).append (idle_listTokens w.commas)).balanced
      rw [Option.map_some, Option.getD_some, WithClause.tokens, List.cons_append, Token.Balanced,
        hword w.isWith]
      cases hrecursive : w.recursive with
      | none => exact hdefinitions
      | some r => exact (hword (w.isRecursive r hrecursive) _).trans hdefinitions

theorem balanced_left (o : SetOperation) : Balanced o.leftTokens := by
  rw [leftTokens, Token.Balanced, o.balanced_clause.depth?_append]
  exact o.balanced

/-- The words of the clause and of a branch neither create nor merge anything. -/
theorem forall_branch {p : Token → Prop} (o : SetOperation) {ts : List Token}
    (hclause : ∀ w ∈ o.clause, ∀ t ∈ w.tokens, p t) (hts : ∀ t ∈ ts, p t) :
    ∀ t ∈ o.clauseTokens ++ ts, p t := by
  intro t ht
  rcases List.mem_append.mp ht with ht | ht
  · rw [clauseTokens] at ht
    cases hw : o.clause with
    | none =>
        rw [hw] at ht
        cases ht
    | some w =>
        rw [hw] at ht
        exact hclause w hw t ht
  · exact hts t ht

/-! ## The left branch -/

variable {limit : Nat} {s s' : Scan} {base : Scope} {mode : Mode}

theorem exists_select {ts : List Token} (h : IsBranch ts) :
    ∃ select xs, ts = select :: xs ∧ select.isKeyword .SELECT := by
  cases ts with
  | nil => cases h.head
  | cons select xs => exact ⟨select, xs, rfl, h.head⟩

/-- Behind the left branch the statement has the names of the clause and those of the
branch. -/
theorem advance_left (o : SetOperation)
    (hmode : StartsBranch mode)
    (hclause : ∀ limit after, (start.advance limit after o.clauseTokens).AtTop base [] mode)
    (limit : Nat) (after : List Token) :
    ∃ names mode', (start.advance limit after o.leftTokens).AtTop base names mode' ∧
      ¬ mode'.isDefining := by
  have hbalanced := o.balanced
  have hdefines := o.isLeft.defines
  obtain ⟨select, xs, hleft, hselect⟩ := exists_select o.isLeft
  rw [hleft, Token.Balanced, depth?_cons_other (not_isMark_of_isKeyword hselect '(')
    (not_isMark_of_isKeyword hselect ')')] at hbalanced
  rw [hleft, List.forall_mem_cons] at hdefines
  rw [leftTokens, hleft, advance_append, advance_cons]
  exact ((hclause limit _).step_of_eq (step_select _ base [] (xs ++ after) hmode
    hselect)).advance_branch limit after hbalanced hdefines.2

/-- The operator is seen from the left branch as the end of the tokens is. -/
theorem moved_left (o : SetOperation) (limit : Nat) (rest : List Token) :
    (start.advance limit [] o.leftTokens).Moved id
        (start.advance limit (o.operator :: rest) o.leftTokens) ∧
      start.gather limit (o.operator :: rest) o.leftTokens =
        start.gather limit [] o.leftTokens :=
  moved_behind limit (endsSight_of_isAnyKeyword o.isOperator (by decide)) rest (start_moved id)
    isNest_start isNest_start Bool.false_ne_true (o.forall_branch o.creates o.isLeft.creates)
    o.balanced_left

/-- The left branch ends with a complete name, if with one. -/
theorem dangling_left (o : SetOperation) (limit : Nat) (after : List Token) {n : DottedName}
    (hn : (start.advance limit after o.leftTokens).pending? = some n) : n.dangling = false := by
  obtain ⟨select, xs, hleft, -⟩ := exists_select o.isLeft
  have hne : o.left ≠ [] := by rw [hleft]; exact List.cons_ne_nil _ _
  obtain ⟨ys, t, hys⟩ := (List.eq_nil_or_concat o.left).resolve_left hne
  rw [List.concat_eq_append] at hys
  have hdot := o.isComplete
  rw [hys, List.getLast?_concat] at hdot
  rw [leftTokens, hys, ← List.append_assoc] at hn
  exact dangling_of_pending? limit after isNest_start (hdot t rfl) hn

/-- The operator completes what the end of the left branch completes, and leaves only the
names of the clause. -/
theorem step_left (o : SetOperation)
    (hmode : StartsBranch mode)
    (hclause : ∀ limit after, (start.advance limit after o.clauseTokens).AtTop base [] mode)
    (limit : Nat) (rest : List Token) :
    (start.advance limit rest (o.leftTokens ++ [o.operator])).AtTop base [] (.clauses false) ∧
      (start.advance limit (o.operator :: rest) o.leftTokens).gather limit rest [o.operator] =
        (start.advance limit [] o.leftTokens).remainder := by
  obtain ⟨names, mode', htop, hdefining⟩ := o.advance_left hmode hclause limit
    (o.operator :: rest)
  have hcreating : ¬ mode'.isCreating := by
    have hbody := not_isCreating_advance limit (o.operator :: rest) isNest_start
      Bool.false_ne_true (o.forall_branch o.creates o.isLeft.creates)
    rw [← leftTokens, htop.body] at hbody
    exact hbody
  have hname : ¬ (Query.top base names mode').continues o.operator :=
    Query.not_continues (fun n hn => o.dangling_left limit _ (htop.pending?.trans hn))
      (not_isMark_of_isAnyKeyword o.isOperator '.')
  have hremainder := remainder_moved (o.moved_left limit rest).1
  rw [Reference.map_id, List.map_id] at hremainder
  rw [advance_append, List.singleton_append, gather_singleton, ← hremainder]
  generalize start.advance limit (o.operator :: rest) o.leftTokens = s at htop
  have hstep := step_operator (s.surroundings limit) base names rest o.isOperator hname hcreating
    hdefining
  refine ⟨htop.step_of_eq hstep, ?_⟩
  rw [outcome_query htop.body, hstep, htop.fated, remainder, htop.body, htop.fated]
  rfl

/-! ## The right branch -/

/-- The word after the operator changes nothing. -/
theorem advance_all (o : SetOperation) (limit : Nat) (after : List Token)
    (h : s.AtTop base [] (.clauses false)) :
    (s.advance limit after o.all.toList).AtTop base [] (.clauses false) ∧
      s.gather limit after o.all.toList = [] := by
  cases hall : o.all with
  | none => exact ⟨h, rfl⟩
  | some t =>
      have hidle := isIdle_of_isKeyword (o.isAll t hall) (by decide)
      refine ⟨h.step_idle limit after hidle, ?_⟩
      rw [Option.toList_some, gather_singleton, outcome_query h.body]
      change ((Query.clauseStep _ _ false t after).references.map _) = []
      rw [Query.references_clauseStep, List.map_nil]

theorem merging_operator (o : SetOperation) (limit : Nat) (after : List Token) :
    (start.advance limit after (o.leftTokens ++ o.operator :: o.all.toList)).merging = false := by
  refine not_merging_advance (fun t ht => ?_) rfl
  rw [leftTokens, List.append_assoc] at ht
  refine o.forall_branch o.merges (fun u hu hk => ?_) t ht
  rw [List.mem_append, List.mem_cons] at hu
  rcases hu with hu | rfl | hu
  · exact o.isLeft.merges u hu hk
  · have hoperator := o.isOperator
    simp [isAnyKeyword, kind_of_isKeyword hk, setOperators] at hoperator
  · have hall := kind_of_isKeyword (o.isAll u (Option.mem_toList.mp hu))
    rw [kind_of_isKeyword hk] at hall
    cases hall

theorem moved_of_atTop {names : Names} {move : Int → Int} (h : s.AtTop base names mode)
    (h' : s'.AtTop base names mode) (hmode : mode.pending? = none)
    (hmerging : s'.merging = s.merging) (hcomparison : s'.comparison = s.comparison) :
    s.Moved move s' := by
  refine ⟨⟨by rw [h.opener, h'.opener], ?_⟩, ?_, hmerging, hcomparison⟩
  · rw [h.body, h'.body]
    exact Body.changed_self hmode
  · rw [h.below, h'.below]
    exact .nil

/-- Behind the operator the right branch is read as it is read behind the clause. -/
theorem moved_right (o : SetOperation) (limit : Nat) (hmode : StartsBranch mode)
    (h : s.AtTop base [] mode) (h' : s'.AtTop base [] (.clauses false))
    (hmerging : s.merging = false) (hmerging' : s'.merging = false) :
    s'.gather limit [] o.right ++ (s'.advance limit [] o.right).remainder =
      (s.gather limit [] o.alone ++ (s.advance limit [] o.alone).remainder).map
        (Reference.map (· + o.shift)) := by
  obtain ⟨select', ys, hright, hselect'⟩ := exists_select o.isRight
  have hdisplaced := o.displaced
  rw [hright] at hdisplaced ⊢
  obtain ⟨select, xs, ht, hxs, halone⟩ := List.forall₂_cons_right_iff.mp hdisplaced
  have hselect : select.isKeyword .SELECT := (ofKind_isKeyword _ _ _ ht.kind).symm.trans hselect'
  obtain ⟨hat, hmerging₁, hcomparison, hgather⟩ := h.gather_select hmode hselect limit [] xs
  obtain ⟨hat', hmerging₁', hcomparison', hgather'⟩ :=
    h'.gather_select (.clauses false) hselect' limit [] ys
  have hstart : Scan.Moved (· + o.shift) _ _ := moved_of_atTop hat hat' rfl
    (by rw [hmerging₁', hmerging₁, hmerging, hmerging']) (hcomparison'.trans hcomparison.symm)
  have htokens : List.Forall₂ (Token.Moved (· + o.shift)) xs ys :=
    hxs.imp fun _ _ ht => ht.moved fun _ _ => rfl
  obtain ⟨hadvance, hfound⟩ := moved_rest limit htokens hstart hat.isNest
  rw [halone, hgather, hgather', hfound, List.map_append, advance_cons, advance_cons,
    List.append_nil, List.append_nil]
  rw [List.append_nil, List.append_nil] at hadvance
  rw [remainder_moved hadvance]

/-- What is found behind the clause. -/
theorem filter_isBehind (o : SetOperation) (limit : Nat) (h : Ordered o.rightTokens)
    (hpending : ∀ after, (start.advance limit after o.clauseTokens).pending? = none) :
    ((find limit o.rightTokens).references.filter fun r => o.isBehind r.span) =
      (start.advance limit o.alone o.clauseTokens).gather limit [] o.alone ++
        ((start.advance limit o.alone o.clauseTokens).advance limit [] o.alone).remainder := by
  rw [rightTokens, ordered_append] at h
  obtain ⟨hclause, halone, hbetween⟩ := h
  have hnest := isNest_advance limit o.alone o.clauseTokens isNest_start
  have hwithin {r : Reference} (hr : r.span.IsOver o.clauseTokens) : ¬ o.isBehind r.span := by
    obtain ⟨⟨t, ht, hstart⟩, -⟩ := hr
    intro hbehind
    have hle := of_decide_eq_true (List.all_eq_true.mp hbehind t ht)
    have hlt := hclause.1 t ht
    omega
  have hbehind {r : Reference} (hr : r.span.IsOver o.alone) : o.isBehind r.span := by
    obtain ⟨⟨t, ht, hstart⟩, -⟩ := hr
    refine List.all_eq_true.mpr fun u hu => decide_eq_true ?_
    have hle := hbetween u hu t ht
    omega
  rw [find_references, rightTokens, gather_append, advance_append, List.append_nil,
    List.filter_append, List.filter_append,
    List.filter_eq_nil_iff.mpr fun r hr => hwithin (isOver_of_mem_gather isNest_start rfl hr),
    List.filter_eq_self.mpr fun r hr =>
      hbehind (isOver_of_mem_gather hnest (hpending o.alone) hr),
    List.filter_eq_self.mpr fun r hr =>
      hbehind (isOver_of_mem_remainder hnest (hpending o.alone) hr),
    List.nil_append]

/-- With any depth limit, the branches are read independently of each other. -/
theorem find_tokens (o : SetOperation) (limit : Nat) (h : Ordered o.rightTokens) :
    (find limit o.tokens).references =
      (find limit o.leftTokens).references ++
        ((find limit o.rightTokens).references.filter fun r => o.isBehind r.span).map
          (Reference.map (· + o.shift)) := by
  obtain ⟨base, mode, hmode, hclause⟩ := o.advance_clause
  have hpending (after : List Token) :
      (start.advance limit after o.clauseTokens).pending? = none := by
    rw [(hclause limit after).pending?]
    cases hmode <;> rfl
  have hmerging : (start.advance limit o.alone o.clauseTokens).merging = false := by
    have hmerges := o.forall_branch o.merges (List.forall_mem_nil _)
    rw [List.append_nil] at hmerges
    exact not_merging_advance hmerges rfl
  have hmerging' := o.merging_operator limit o.right
  have hsplit : o.leftTokens ++ o.operator :: o.all.toList =
      o.leftTokens ++ [o.operator] ++ o.all.toList := by simp
  -- The left branch with the operator, the word after it, and the right branch.
  obtain ⟨hleft, hfound⟩ := o.step_left hmode hclause limit (o.all.toList ++ o.right)
  obtain ⟨hall, hnothing⟩ := o.advance_all limit o.right hleft
  rw [hsplit, advance_append] at hmerging'
  have hright := o.moved_right limit hmode (hclause limit o.alone) hall hmerging hmerging'
  have htokens : o.tokens = o.leftTokens ++ [o.operator] ++ o.all.toList ++ o.right := by
    simp [tokens]
  have hgather : start.gather limit [] o.tokens =
      start.gather limit [] o.leftTokens ++ (start.advance limit [] o.leftTokens).remainder ++
        ((start.advance limit (o.all.toList ++ o.right) (o.leftTokens ++ [o.operator])).advance
          limit o.right o.all.toList).gather limit [] o.right := by
    rw [htokens, gather_append, List.append_nil, gather_append, hnothing, List.append_nil,
      gather_append, List.singleton_append, (o.moved_left limit _).2, hfound,
      advance_append limit o.right]
  rw [o.filter_isBehind limit h hpending, ← hright, find_references, find_references, hgather,
    htokens, advance_append limit [], List.append_nil, advance_append limit o.right,
    List.append_assoc]

/-- The branches of a set operation are independent: with the left branch there, the
statement finds what it finds without the right one, and then what the right branch finds
behind the clause without the left one, at the places where it stands. The tokens of a
script are always in order (`Statement.ordered_tokens`). -/
theorem references_tokens (o : SetOperation) (index : Nat) (h : Ordered o.rightTokens) :
    (Statement.mk index o.tokens).scan.references =
      (Statement.mk index o.leftTokens).scan.references ++
        ((Statement.mk index o.rightTokens).scan.references.filter
          fun r => o.isBehind r.span).map (Reference.map (· + o.shift)) := by
  simp only [Statement.scan, o.find_tokens depthLimit h, List.map_append, List.filter_map,
    List.map_map]
  rfl

/-- `WITH c AS (SELECT * FROM a) SELECT * FROM a x UNION ALL SELECT * FROM x, c`. -/
def aliasedUnion : SetOperation where
  clause := some
    { word := ⟨.keyword .WITH, "WITH", 0⟩
      recursive := none
      first :=
        { name := ⟨.identifier, "c", 5⟩
          columns := none
          word := ⟨.keyword .AS, "AS", 7⟩
          query :=
            { opener := ⟨.punctuation '(', "(", 10⟩
              content := [⟨.keyword .SELECT, "SELECT", 11⟩, ⟨.punctuation '*', "*", 18⟩,
                ⟨.keyword .FROM, "FROM", 20⟩, ⟨.identifier, "a", 25⟩]
              closer := ⟨.punctuation ')', ")", 26⟩
              isOpening := by decide
              isClosing := by decide
              balanced := by decide }
          candidate := by decide
          isAs := by decide }
      more := []
      isWith := by decide
      isRecursive := by simp
      commas := by simp }
  left := [⟨.keyword .SELECT, "SELECT", 28⟩, ⟨.punctuation '*', "*", 35⟩,
    ⟨.keyword .FROM, "FROM", 37⟩, ⟨.identifier, "a", 42⟩, ⟨.identifier, "x", 44⟩]
  operator := ⟨.keyword .UNION, "UNION", 46⟩
  all := some ⟨.keyword .ALL, "ALL", 52⟩
  right := [⟨.keyword .SELECT, "SELECT", 56⟩, ⟨.punctuation '*', "*", 63⟩,
    ⟨.keyword .FROM, "FROM", 65⟩, ⟨.identifier, "x", 70⟩, ⟨.punctuation ',', ",", 71⟩,
    ⟨.identifier, "c", 73⟩]
  alone := [⟨.keyword .SELECT, "SELECT", 28⟩, ⟨.punctuation '*', "*", 35⟩,
    ⟨.keyword .FROM, "FROM", 37⟩, ⟨.identifier, "x", 42⟩, ⟨.punctuation ',', ",", 43⟩,
    ⟨.identifier, "c", 45⟩]
  shift := 28
  isNamed := by decide
  creates := by decide
  merges := by decide
  isLeft := ⟨by decide, by decide, by decide, by decide⟩
  balanced := by decide
  isComplete := by decide
  isOperator := by decide
  isAll := by decide
  isRight := ⟨by decide, by decide, by decide, by decide⟩
  displaced := by
    repeat' constructor

/-- The alias `x` of the left branch hides no table in the right one, and `c` is seen
there. -/
theorem references_tokens_union :
    Ordered aliasedUnion.rightTokens ∧
      (Statement.mk 0 aliasedUnion.tokens).scan.references =
        (Statement.mk 0 aliasedUnion.leftTokens).scan.references ++
          ((Statement.mk 0 aliasedUnion.rightTokens).scan.references.filter
            fun r => aliasedUnion.isBehind r.span).map
              (Reference.map (· + aliasedUnion.shift)) ∧
      (Statement.mk 0 aliasedUnion.tokens).scan.sources.map Reference.name = ["a", "a", "x"] := by
  have hordered : Ordered aliasedUnion.rightTokens := by decide +kernel
  exact ⟨hordered, aliasedUnion.references_tokens 0 hordered, by decide +kernel⟩

end SetOperation

end SqlTables
