import SqlTables.Proofs.Plain.Phrase
import SqlTables.Proofs.Scan.Reads
import SqlTables.Proofs.SetOperation

/-!
# Where phrases are read

The states in which the scan stands between the phrases of a plain statement. `Stands`
and `Rests` say so for a query and for an expression in it.

The scopes are related to the grammar by `Scope.Sees`: a common table expression that is
visible in a phrase is bound where it is read, and a name that nothing in the statement
defines is free everywhere. So a name in a table position is that of a table unless it is
that of a common table expression (`Plain.tableNames_reference`).
-/

namespace SqlTables

namespace Scope

/-- The visible names are bound, and the names that nothing in the statement defines are
free. The names are in lower case. -/
structure Sees (pool visible : List String) (scope : Scope) : Prop where
  bound : ∀ name, Unicode.lower name ∈ visible → scope.Binds name
  free : ∀ name, Unicode.lower name ∉ pool → scope.lookup? name = none

variable {pool visible : List String} {scope : Scope}

theorem Sees.child (h : scope.Sees pool visible) : scope.child.Sees pool visible :=
  ⟨fun name hname => (h.bound name hname).child, fun name hname => by
    rw [lookup?_child, h.free name hname]⟩

theorem Sees.define (h : scope.Sees pool visible) {name : String} {role : Role}
    (hname : Unicode.lower name ∈ pool) (hrole : role.isSource = false) :
    (scope.define name role).Sees pool visible := by
  refine ⟨fun other hother => (h.bound other hother).define name hrole, fun other hother => ?_⟩
  rw [lookup?_define, if_neg fun heq => hother (by rwa [heq]), h.free other hother]

/-- A common table expression is visible once it is defined. -/
theorem Sees.define_cte (h : scope.Sees pool visible) {name : Token}
    (hname : Unicode.lower name.value ∈ pool) :
    (scope.define name.value .cteDefinition).Sees pool (Plain.define name visible) := by
  have hdefine : (scope.define name.value .cteDefinition).Sees pool visible := h.define hname rfl
  refine ⟨fun other hother => ?_, hdefine.free⟩
  rcases List.mem_cons.mp hother with heq | hother
  · exact binds_define_self scope heq rfl
  · exact hdefine.bound other hother

end Scope

namespace Plain

/-- What is mentioned fits the names of a statement: `ctes` are its common table
expressions, and `pool` are these and its aliases. -/
def Mention.Fits (ctes pool : List String) : Mention → Prop
  | .table n => ∀ part ∈ n.read.single?, Unicode.lower part ∈ ctes ∨ Unicode.lower part ∉ pool
  | .aliased name | .cte name => Unicode.lower name.value ∈ pool

/-- The tables of a phrase, as they are written. -/
def texts (ctes : List String) (ms : List Mention) : List String :=
  (sources ctes ms).map (·.read.text)

theorem texts_append (ctes : List String) (ms ns : List Mention) :
    texts ctes (ms ++ ns) = texts ctes ms ++ texts ctes ns := by
  simp only [texts, sources, tables, List.filterMap_append, List.filter_append, List.map_append]

theorem texts_cte (ctes : List String) (name : Token) (ms : List Mention) :
    texts ctes (.cte name :: ms) = texts ctes ms := rfl

theorem texts_aliased (ctes : List String) (ms : List Mention) (name : Token) :
    texts ctes (ms ++ [.aliased name]) = texts ctes ms := by
  rw [texts_append]
  exact List.append_nil _

/-- A name in a table position is that of a table, unless it is that of a common table
expression, which is visible there. -/
theorem tableNames_reference {ctes pool visible : List String} {q : Scan.Query} {n : TableName}
    (hscope : q.scope.Sees pool visible) (hvisible : n.isUse ctes → n.isUse visible)
    (hfits : (Mention.table n).Fits ctes pool) :
    Reference.tableNames [q.reference n.read] = if n.isUse ctes then [] else [n.read.text] := by
  have hrole : (q.reference n.read).role = (n.read.single?.bind q.scope.lookup?).getD .source := by
    rw [Scan.Query.reference, if_neg (by simp [TableName.read])]
  have hname : (q.reference n.read).name = n.read.text := rfl
  have hsource : (q.reference n.read).isSource = !n.isUse ctes := by
    rw [Reference.isSource, hrole]
    cases hsingle : n.read.single? with
    | none => simp [TableName.isUse, hsingle, Role.isSource]
    | some part =>
        have hpart := hfits part hsingle
        simp only [TableName.isUse, hsingle, Option.any_some, List.contains_iff_mem] at hvisible ⊢
        rw [Option.bind_some]
        by_cases huse : Unicode.lower part ∈ ctes
        · obtain ⟨role, hlookup, hnot⟩ := hscope.bound part (hvisible huse)
          rw [hlookup, Option.getD_some, hnot]
          simp [huse]
        · rw [hscope.free part (hpart.resolve_left huse)]
          simp [huse, Role.isSource]
  rw [Reference.tableNames, List.filter_singleton, hsource]
  cases n.isUse ctes <;> simp [hname]

/-! ## States -/

open Scan Token

/-- Where a query is read: the groups around it, and its common table expressions. -/
structure Site where
  opener : Option Span
  below : List Frame
  base : Scope

variable {pool visible : List String} {limit : Nat} {site : Site} {s : Scan} {t : Token}
  {after : List Token} {mode : Mode} {names : Names} {M : Mode → Prop} {follow : Follow}

/-- Nothing in particular is expected. -/
def Idles (mode : Mode) : Prop := ∃ fresh, mode = .clauses fresh

/-- In the query, expecting what `M` says. -/
def Stands (pool visible : List String) (site : Site) (M : Mode → Prop) (s : Scan) : Prop :=
  ∃ names mode, s.AtQuery site.opener site.below site.base names mode ∧ M mode ∧
    Scope.Sees pool visible (names :: site.base)

/-- In an expression. -/
def Rests (pool visible : List String) (site : Site) : Ground → Scan → Prop
  | .clause, s => Stands pool visible site Idles s ∧ s.comparison ≠ .complete
  | .parentheses, s =>
    s.top.opener = site.opener ∧ s.below = site.below ∧
      ∃ scope, s.top.body = .expression scope ∧ scope.Sees pool visible

/-- What may be expected at the end of a clause. -/
inductive Ended : Mode → Prop
  | table {mode : Mode} (follow : Follow) (h : TableEnd follow mode) : Ended mode
  | clauses (fresh : Bool) : Ended (.clauses fresh)

/-- What may be expected before a query. -/
inductive Begins : Mode → Prop
  | branch {mode : Mode} (h : StartsBranch mode) : Begins mode
  | target (n : DottedName) (h : n.dangling = false) : Begins (.name .target n)

/-- At the end of a query. -/
def IsDone (site : Site) (s : Scan) : Prop :=
  ∃ base names mode, s.AtQuery site.opener site.below base names mode ∧ Ended mode

/-- What is being read is complete, if it is the name of a table. -/
structure Settled (mode : Mode) : Prop where
  complete : ∀ n, mode.pending? = some n → n.dangling = false
  creating : ¬ mode.isCreating

theorem settled_of_pending? (h : mode.pending? = none) (hcreating : ¬ mode.isCreating) :
    Settled mode := by
  refine ⟨fun n hn => ?_, hcreating⟩
  rw [h] at hn
  cases hn

theorem settled_name {purpose : Purpose} {n : DottedName} (hn : n.dangling = false)
    (hcreating : ¬ (Mode.name purpose n).isCreating) : Settled (.name purpose n) := by
  refine ⟨fun m hm => ?_, hcreating⟩
  rwa [← Option.some.inj hm]

theorem settled_of_awaitsAlias (h : AwaitsAlias follow mode) : Settled mode := by
  cases h with
  | name n hn => exact settled_name hn Bool.false_ne_true
  | operandEnd => exact settled_of_pending? rfl Bool.false_ne_true

theorem settled_of_tableEnd (h : TableEnd follow mode) : Settled mode := by
  cases h with
  | name n hn => exact settled_name hn Bool.false_ne_true
  | columns => exact settled_of_pending? rfl Bool.false_ne_true

theorem Ended.settled (h : Ended mode) : Settled mode := by
  cases h with
  | table follow h => exact settled_of_tableEnd h
  | clauses fresh => exact settled_of_pending? rfl Bool.false_ne_true

theorem Ended.not_isDefining (h : Ended mode) : ¬ mode.isDefining := by
  cases h with
  | table follow h => cases h <;> exact Bool.false_ne_true
  | clauses fresh => exact Bool.false_ne_true

theorem Begins.settled (h : Begins mode) : Settled mode := by
  cases h with
  | branch h => cases h <;> exact settled_of_pending? rfl Bool.false_ne_true
  | target n hn => exact settled_name hn Bool.false_ne_true

theorem Stands.mono {N : Mode → Prop} (h : Stands pool visible site M s)
    (hMN : ∀ mode, M mode → N mode) : Stands pool visible site N s := by
  obtain ⟨names, mode, hat, hmode, hsees⟩ := h
  exact ⟨names, mode, hat, hMN mode hmode, hsees⟩

theorem Stands.ended (h : Stands pool visible site Idles s) :
    Stands pool visible site Ended s := by
  refine h.mono fun mode hmode => ?_
  obtain ⟨fresh, rfl⟩ := hmode
  exact .clauses fresh

theorem Stands.isDone (h : Stands pool visible site Ended s) : IsDone site s := by
  obtain ⟨names, mode, hat, hmode, -⟩ := h
  exact ⟨site.base, names, mode, hat, hmode⟩

/-! ## Tokens between phrases -/

/-- A token that goes on with no name, in a settled query. -/
theorem reads_settled {base' : Scope} {names' : Names} {mode' : Mode}
    (h : s.AtQuery site.opener site.below site.base names mode) (hmode : Settled mode)
    (hopen : ¬ t.isMark '(') (hdot : ¬ t.isMark '.')
    (h' : (s.step limit t after).AtQuery site.opener site.below base' names' mode')
    (hmode' : mode'.pending? = none) :
    Reads limit after s [t]
      (fun s' => s'.AtQuery site.opener site.below base' names' mode' ∧
        s'.comparison = s.comparison.next t) [] :=
  h.reads_token h' hopen (Query.not_continues hmode.complete hdot) hmode.creating hmode'

/-- A token that starts a clause, where a clause has ended. -/
theorem reads_clauseWord {names' : Names} {mode' : Mode}
    (h : s.AtQuery site.opener site.below site.base names mode) (hmode : Ended mode)
    {words : List Keyword} (ht : t.isAnyKeyword words)
    (hwords : ∀ word ∈ words, word ∉ nonReserved ++ [.AS, .LATERAL, .TABLE, .TABLESAMPLE])
    (hstep : ∀ w fresh, Query.clauseStep w (.top site.base names mode) fresh t after =
      { body := .query (.top site.base names' mode') }) (hmode' : mode'.pending? = none) :
    Reads limit after s [t]
      (fun s' => s'.AtQuery site.opener site.below site.base names' mode' ∧
        s'.comparison = s.comparison.next t) [] := by
  have hdot := not_isMark_of_isAnyKeyword ht '.'
  have hopen := not_isMark_of_isAnyKeyword ht '('
  obtain ⟨fresh, heq⟩ := Query.step_of_startsClause (s.surroundings limit)
    (.top site.base names mode) after (startsClause_of_isAnyKeyword ht hwords)
    (Query.not_continues hmode.settled.complete hdot) rfl hmode.settled.creating
    hmode.not_isDefining
  rw [hstep] at heq
  exact reads_settled h hmode.settled hopen hdot (h.step_of_eq heq) hmode'

/-- Behind any token but `DISTINCT`, no comparison is open. -/
theorem rests_of_stands {before : Comparison} (h : Stands pool visible site Idles s)
    (hcomparison : s.comparison = before.next t) (ht : ¬ t.isKeyword .DISTINCT) :
    Rests pool visible site .clause s := by
  refine ⟨h, ?_⟩
  rw [hcomparison]
  unfold Comparison.next
  split
  · exact Comparison.noConfusion
  · rw [if_neg fun hd => ht hd.2]
    exact Comparison.noConfusion

theorem isIdle_of_admits (h : Ground.clause.admits t) :
    isIdle t ∧ ¬ t.isKeyword .DISTINCT := by
  simp only [Ground.admits, Bool.and_eq_true, Bool.not_eq_true'] at h
  obtain ⟨⟨hopen, hclose⟩, -, hwords⟩ := h
  have hseparators : ¬ t.isAnyKeyword separators := Bool.eq_false_iff.mp hwords
  have hclauses : ¬ t.isAnyKeyword clauseWords :=
    not_isAnyKeyword_of_subset hseparators (by decide)
  refine ⟨by simp [isIdle, hopen, hclose, hclauses], fun hd => hseparators ?_⟩
  exact isAnyKeyword_iff.mpr ⟨_, by decide, hd⟩

/-- Where a query may begin, a token that starts a clause does so. -/
theorem Begins.step (hmode : Begins mode) (w : Surroundings) (base : Scope) (names : Names)
    (rest : List Token) (ht : startsClause t) (hdot : ¬ t.isMark '.') :
    ∃ fresh, (Query.top base names mode).step w t rest =
      { Query.clauseStep w (.top base names mode) fresh t rest with
        references := (Query.top base names mode).settle.1 } := by
  cases hmode with
  | branch h =>
      have hcomma : ¬ t.isMark ',' := fun hk => by simp [startsClause, hk] at ht
      obtain ⟨fresh, hstep⟩ := h.step w base names rest hcomma
      have hnothing : (Query.top base names mode).settle.1 = [] := by cases h <;> rfl
      rw [hstep, hnothing, ← Query.references_clauseStep w (.top base names mode) fresh t rest]
      exact ⟨fresh, rfl⟩
  | target n hn =>
      have hsettled := (Begins.target n hn).settled
      exact Query.step_of_startsClause w _ rest ht (Query.not_continues hsettled.complete hdot) rfl
        hsettled.creating Bool.false_ne_true

end Plain

end SqlTables
