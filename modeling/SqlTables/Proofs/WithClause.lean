import Mathlib.Data.List.TakeWhile
import SqlTables.Proofs.Scan.Binding
import SqlTables.Proofs.Scan.TopLevel
import SqlTables.Proofs.Token.Order

/-!
# The names of a WITH clause

`WithClause` is a clause `WITH [RECURSIVE] name [(columns)] AS (query), …`, where a
name is anything that can name a table. No later reference to such a name should be
a table. But only an identifier can be defined: at the first name that is another
word the scan gives the clause up, and that name and those after it stay unbound,
unless an earlier one is the same. `WithClause.not_leaks_iff` says so.
-/

namespace SqlTables

open Token

/-- A definition `name [(columns)] AS (query)`, whose name can name a table. -/
structure CteDefinition where
  name : Token
  columns : Option TokenGroup
  word : Token
  query : TokenGroup
  candidate : Scan.isCandidate name
  isAs : word.isKeyword .AS

namespace CteDefinition

/-- The tokens after the name. -/
def rest (d : CteDefinition) : List Token :=
  (d.columns.map TokenGroup.tokens).getD [] ++ d.word :: d.query.tokens

def tokens (d : CteDefinition) : List Token := d.name :: d.rest

/-- The tokens of further definitions, each one after a comma. -/
def listTokens (more : List (Token × CteDefinition)) : List Token :=
  more.flatMap fun p => p.1 :: p.2.tokens

theorem listTokens_cons (p : Token × CteDefinition) (more : List (Token × CteDefinition)) :
    listTokens (p :: more) = p.1 :: (p.2.tokens ++ listTokens more) := rfl

end CteDefinition

/-- A clause `WITH [RECURSIVE] definition, …, definition`. -/
structure WithClause where
  word : Token
  recursive : Option Token
  first : CteDefinition
  more : List (Token × CteDefinition)
  isWith : word.isKeyword .WITH
  isRecursive : ∀ t ∈ recursive, t.isKeyword .RECURSIVE
  commas : ∀ p ∈ more, p.1.isMark ','

namespace WithClause

def tokens (w : WithClause) : List Token :=
  w.word :: w.recursive.toList ++ (w.first.tokens ++ CteDefinition.listTokens w.more)

def definitions (w : WithClause) : List CteDefinition := w.first :: w.more.map (·.2)

/-- The definitions before the first name that is not an identifier. -/
def readDefinitions (w : WithClause) : List CteDefinition :=
  w.definitions.takeWhile (·.name.isName)

end WithClause

/-- A reference after the token has its name, is complete, and is a table. -/
def Findings.Leaks (f : Findings) (tokens : List Token) (name : Token) : Prop :=
  ∃ r ∈ f.references, name.offset < r.span.start ∧
    r.parts.map Unicode.lower = [Unicode.lower name.value] ∧
    (∀ t ∈ tokens, t.isMark '.' → r.span.stop ≠ t.stop) ∧ r.isSource

instance (f : Findings) (tokens : List Token) (name : Token) :
    Decidable (f.Leaks tokens name) :=
  inferInstanceAs (Decidable (∃ r ∈ f.references, _))

namespace Scan

variable {s : Scan} {t : Token} {base : Scope} {names : Names} {clause : Span} {fresh first : Bool}
  {opener : Option Span} {below : List Frame}

/-! ## Definitions that are read -/

/-- The start of a definition is recognized by the tokens after its name. -/
theorem looksLikeCte_tokens (d : CteDefinition) (h : d.name.isName) (after : List Token) :
    looksLikeCte (d.tokens ++ after) := by
  have has := d.isAs
  rw [CteDefinition.tokens, CteDefinition.rest]
  cases hcolumns : d.columns with
  | none => simp [looksLikeCte, h, has, TokenGroup.tokens, d.query.isOpening]
  | some g =>
      have hnot : ¬ g.opener.isKeyword .AS := fun hk =>
        not_isMark_of_isKeyword hk '(' g.isOpening
      simp [looksLikeCte, h, TokenGroup.tokens, hnot, g.isOpening, afterClosing?_content, has]

theorem AtQuery.step_with (h : s.AtQuery opener below base names (.clauses fresh)) (limit : Nat)
    (rest : List Token) (ht : t.isKeyword .WITH) (hrest : looksLikeCte rest) :
    (s.step limit t rest).AtQuery opener below base names (.cteName t.span true) := by
  have hkind : t.kind = .keyword .WITH := kind_of_isKeyword ht
  have hstep (w : Surroundings) : (Query.top base names (.clauses fresh)).step w t rest =
      { body := .query (.top base names (.cteName t.span true)) } := by
    change Query.clauseStep _ _ fresh t rest = _
    simp only [Query.clauseStep, hkind]
    rw [if_pos hrest]
    rfl
  exact h.step_of_eq (hstep _)

theorem AtQuery.step_with_other (h : s.AtQuery opener below base names (.clauses fresh))
    (limit : Nat) (rest : List Token) (ht : t.isKeyword .WITH) (hrest : ¬ looksLikeCte rest) :
    (s.step limit t rest).AtQuery opener below base names (.clauses false) := by
  have hkind : t.kind = .keyword .WITH := kind_of_isKeyword ht
  have hstep (w : Surroundings) : (Query.top base names (.clauses fresh)).step w t rest =
      { body := .query (.top base names (.clauses false)) } := by
    change Query.clauseStep _ _ fresh t rest = _
    simp only [Query.clauseStep, hkind]
    rw [if_neg hrest]
    rfl
  exact h.step_of_eq (hstep _)

theorem AtQuery.step_recursive (h : s.AtQuery opener below base names (.cteName clause true))
    (limit : Nat) (rest : List Token) (ht : t.isKeyword .RECURSIVE) :
    (s.step limit t rest).AtQuery opener below base names (.cteName clause false) := by
  have hstep (w : Surroundings) : (Query.top base names (.cteName clause true)).step w t rest =
      { body := .query (.top base names (.cteName clause false)) } := by
    change Query.cteNameStep _ _ clause true t rest = _
    rw [Query.cteNameStep, if_pos ⟨rfl, ht⟩]
    rfl
  exact h.step_of_eq (hstep _)

/-- The words before the first definition. -/
theorem AtQuery.advance_with (h : s.AtQuery opener below base names (.clauses fresh))
    (limit : Nat) (rest : List Token) (ht : t.isKeyword .WITH) {recursive : Option Token}
    (hrecursive : ∀ r ∈ recursive, r.isKeyword .RECURSIVE) (hrest : looksLikeCte rest) :
    ∃ first, (s.advance limit rest (t :: recursive.toList)).AtQuery opener below base names
      (.cteName t.span first) := by
  rw [advance_cons]
  cases recursive with
  | none => exact ⟨true, h.step_with limit rest ht hrest⟩
  | some r =>
      have hr := hrecursive r rfl
      exact ⟨false, (h.step_with limit (r :: rest) ht (by simp [looksLikeCte, hr])).step_recursive
        limit rest hr⟩

/-- The name of a definition is bound at once. -/
theorem AtQuery.step_cteName (h : s.AtQuery opener below base names (.cteName clause first))
    (limit : Nat) (rest : List Token) (ht : t.isName) :
    (s.step limit t rest).AtQuery opener below (base.define t.value .cteDefinition) names
      (.cteColumns clause) := by
  have hnot := not_isKeyword_of_isName ht .RECURSIVE
  have hstep (w : Surroundings) : (Query.top base names (.cteName clause first)).step w t rest =
      { body := .query (.top (base.define t.value .cteDefinition) names (.cteColumns clause)),
        references := [{ parts := [t.value], span := t.span, role := .cteDefinition }] } := by
    change Query.cteNameStep _ _ clause first t rest = _
    rw [Query.cteNameStep, if_neg fun h => hnot h.2, if_pos ht]
    rfl
  exact h.step_of_eq (hstep _)

theorem AtQuery.step_cteAs (h : s.AtQuery opener below base names (.cteAs clause)) (limit : Nat)
    (rest : List Token) (ht : t.isKeyword .AS) :
    (s.step limit t rest).AtQuery opener below base names
      (.cteBody clause [.NOT, .MATERIALIZED]) := by
  have hstep (w : Surroundings) : (Query.top base names (.cteAs clause)).step w t rest =
      { body := .query (.top base names (.cteBody clause [.NOT, .MATERIALIZED])) } := by
    change Query.cteAsStep _ _ clause t rest = _
    rw [Query.cteAsStep, if_pos ht]
    rfl
  exact h.step_of_eq (hstep _)

theorem AtQuery.step_cteColumns (h : s.AtQuery opener below base names (.cteColumns clause))
    (limit : Nat) (rest : List Token) (ht : t.isKeyword .AS) :
    (s.step limit t rest).AtQuery opener below base names
      (.cteBody clause [.NOT, .MATERIALIZED]) := by
  have hstep (w : Surroundings) : (Query.top base names (.cteColumns clause)).step w t rest =
      { body := .query (.top base names (.cteBody clause [.NOT, .MATERIALIZED])) } := by
    change Query.cteColumnsStep _ _ clause t rest = _
    rw [Query.cteColumnsStep, if_neg (not_isMark_of_isKeyword ht '('), Query.cteAsStep,
      if_pos ht]
    rfl
  exact h.step_of_eq (hstep _)

theorem AtQuery.group_cteColumns (h : s.AtTop base names (.cteColumns clause)) (limit : Nat)
    (after : List Token) (g : TokenGroup) :
    (s.advance limit after g.tokens).AtTop base names (.cteAs clause) := by
  have hstep (w : Surroundings) (rest : List Token) :
      (Query.top base names (.cteColumns clause)).step w g.opener rest =
        { body := .query (.top base names (.cteAs clause)),
          action := .enter (w.expression base) } := by
    change Query.cteColumnsStep _ _ clause g.opener rest = _
    rw [Query.cteColumnsStep, if_pos g.isOpening]
    rfl
  refine h.group limit after g.isOpening g.isClosing g.balanced (by rw [hstep]) ?_
  intro body hbody
  rw [hstep, Action.enter.injEq] at hbody
  rw [← hbody]
  exact Surroundings.kind_expression _ _

theorem AtQuery.group_cteBody (h : s.AtTop base names (.cteBody clause [.NOT, .MATERIALIZED]))
    (limit : Nat) (after : List Token) (g : TokenGroup) :
    (s.advance limit after g.tokens).AtTop base names (.cteNext clause) := by
  have hkind := kind_of_isMark g.isOpening
  have hstep (w : Surroundings) (rest : List Token) :
      (Query.top base names (.cteBody clause [.NOT, .MATERIALIZED])).step w g.opener rest =
        { body := .query (.top base names (.cteNext clause)),
          action := .enter (w.subquery base) } := by
    change Query.cteBodyStep _ _ clause _ g.opener rest = _
    simp only [Query.cteBodyStep, keyword?, hkind, Option.filter_none, g.isOpening, if_true]
    rfl
  refine h.group limit after g.isOpening g.isClosing g.balanced (by rw [hstep]) ?_
  intro body hbody
  rw [hstep, Action.enter.injEq] at hbody
  rw [← hbody]
  exact Surroundings.kind_subquery _ _

/-- What stands after the name of a definition is read to its end. -/
theorem AtQuery.advance_rest (h : s.AtTop base names (.cteColumns clause)) (limit : Nat)
    (after : List Token) (d : CteDefinition) :
    (s.advance limit after d.rest).AtTop base names (.cteNext clause) := by
  rw [CteDefinition.rest]
  cases d.columns with
  | none =>
      rw [Option.map_none, Option.getD_none, List.nil_append, advance_cons]
      exact (h.step_cteColumns limit _ d.isAs).group_cteBody limit after d.query
  | some g =>
      rw [Option.map_some, Option.getD_some, advance_append, advance_cons]
      exact ((h.group_cteColumns limit _ g).step_cteAs limit _ d.isAs).group_cteBody limit
        after d.query

theorem AtQuery.step_cteNext (h : s.AtQuery opener below base names (.cteNext clause)) (limit : Nat)
    (rest : List Token) (ht : t.isMark ',') :
    (s.step limit t rest).AtQuery opener below base names (.cteName clause false) := by
  have hstep (w : Surroundings) : (Query.top base names (.cteNext clause)).step w t rest =
      { body := .query (.top base names (.cteName clause false)) } := by
    change Query.cteNextStep _ _ clause t rest = _
    rw [Query.cteNextStep, if_pos ht]
    rfl
  exact h.step_of_eq (hstep _)

/-- A definition with a proper name is read to its end. -/
theorem AtQuery.advance_definition (h : s.AtTop base names (.cteName clause first))
    (limit : Nat) (after : List Token) (d : CteDefinition) (hd : d.name.isName) :
    (s.advance limit after d.tokens).AtTop (base.define d.name.value .cteDefinition) names
      (.cteNext clause) := by
  rw [CteDefinition.tokens, advance_cons]
  exact (h.step_cteName limit _ hd).advance_rest limit after d

/-! ## Definitions that are passed over -/

theorem idle_rest (d : CteDefinition) : Idle d.rest := by
  have hgroup (g : TokenGroup) {ts : List Token} (hts : Idle ts) : Idle (g.tokens ++ ts) :=
    .group g.isOpening g.isClosing g.balanced hts
  have hquery : Idle (d.word :: d.query.tokens) := by
    have h := hgroup d.query .nil
    rw [List.append_nil] at h
    exact .cons (isIdle_of_isKeyword d.isAs (by decide)) h
  rw [CteDefinition.rest]
  cases d.columns with
  | none => exact hquery
  | some g => exact hgroup g hquery

/-- No name stands right after the name of a definition. -/
theorem head_rest (d : CteDefinition) (ts : List Token) :
    ∀ t ∈ (d.rest ++ ts).head?, ¬ t.isName := by
  intro t ht hname
  rw [CteDefinition.rest] at ht
  cases hcolumns : d.columns with
  | none =>
      rw [hcolumns] at ht
      obtain rfl : d.word = t := Option.some.inj ht
      exact not_isKeyword_of_isName hname .AS d.isAs
  | some g =>
      rw [hcolumns] at ht
      obtain rfl : g.opener = t := Option.some.inj ht
      exact not_isMark_of_isName hname '(' g.isOpening

theorem idle_tokens (d : CteDefinition) : Idle d.tokens :=
  .cons (isIdle_of_isCandidate d.candidate) (idle_rest d)

theorem idle_listTokens {more : List (Token × CteDefinition)}
    (hcommas : ∀ p ∈ more, p.1.isMark ',') : Idle (CteDefinition.listTokens more) := by
  induction more with
  | nil => exact .nil
  | cons p more ih =>
      rw [List.forall_mem_cons] at hcommas
      exact (Idle.cons (isIdle_of_isMark hcommas.1 (by decide)) (idle_tokens p.2)).append
        (ih hcommas.2)

/-- Where a name is missing, the clause is given up and its tokens are idle. -/
theorem AtQuery.advance_failed (h : s.AtTop base names (.cteName clause false)) (limit : Nat)
    (after : List Token) {xs : List Token} (hxs : Idle xs) (hne : xs ≠ [])
    (hname : ∀ t ∈ xs.head?, ¬ t.isName) :
    ∃ fresh, (s.advance limit after xs).AtTop base names (.clauses fresh) := by
  have hfails (w : Surroundings) {t : Token} (ht : ¬ t.isName) (rest : List Token) :
      (Query.top base names (.cteName clause false)).step w t rest =
        (Query.clauseStep w (.top base names (.cteName clause false)) true t rest).reported
          (.malformedCte clause) := by
    change Query.cteNameStep _ _ clause false t rest = _
    rw [Query.cteNameStep, if_neg (by simp), if_neg ht]
    rfl
  cases hxs with
  | nil => exact absurd rfl hne
  | @cons t ts ht hts =>
      have hstep : (s.step limit t (ts ++ after)).AtTop base names (.clauses false) :=
        h.step_of_eq ((hfails _ (hname t rfl) _).trans
          (congrArg (Outcome.reported · _) (Query.clauseStep_of_isIdle _ _ _ _ ht)))
      rw [advance_cons]
      exact hstep.advance_idle limit after hts
  | @group o c xs ts ho hc hxs hts =>
      have hkind : o.kind = .punctuation '(' := kind_of_isMark ho
      have ho' : ¬ o.isName := fun h => not_isMark_of_isName h '(' ho
      have hgroup : (s.advance limit (ts ++ after) (o :: xs ++ [c])).AtTop base names
          (.clauses false) := by
        refine h.group limit _ ho hc hxs ?_ fun body hbody => ?_
        · rw [hfails _ ho']
          simp only [Query.clauseStep, hkind, Outcome.reported]
          rfl
        · rw [hfails _ ho'] at hbody
          simp only [Query.clauseStep, hkind, Outcome.reported, Action.enter.injEq] at hbody
          rw [← hbody]
          split
          · exact Surroundings.kind_subquery _ _
          · exact Surroundings.kind_expression _ _
      rw [advance_append]
      exact hgroup.advance_idle limit after hts

theorem AtQuery.advance_failedList (h : s.AtTop base names (.cteName clause false))
    (limit : Nat) (after : List Token) (d : CteDefinition)
    (more : List (Token × CteDefinition)) (hcommas : ∀ p ∈ more, p.1.isMark ',')
    (hd : ¬ d.name.isName) :
    ∃ fresh, (s.advance limit after (d.tokens ++ CteDefinition.listTokens more)).AtTop base
      names (.clauses fresh) := by
  refine h.advance_failed limit after ((idle_tokens d).append (idle_listTokens hcommas))
    (by simp [CteDefinition.tokens]) fun t ht => ?_
  obtain rfl : d.name = t := Option.some.inj ht
  exact hd

/-! ## Lists of definitions -/

/-- Somewhere in the tokens the name is defined, and the scan stands right after it. -/
def Defines (limit : Nat) (s : Scan) (ts : List Token) (name : Token) : Prop :=
  ∃ us vs base clause, ts = us ++ name :: vs ∧
    (s.advance limit vs (us ++ [name])).AtTop base [] (.cteColumns clause) ∧
    base.Binds name.value

theorem Defines.append {limit : Nat} (xs : List Token) {ts : List Token} {name : Token}
    (h : Defines limit (s.advance limit ts xs) ts name) :
    Defines limit s (xs ++ ts) name := by
  obtain ⟨us, vs, base, clause, rfl, htop, hbinds⟩ := h
  refine ⟨xs ++ us, vs, base, clause, (List.append_assoc _ _ _).symm, ?_, hbinds⟩
  rw [List.append_assoc, advance_append]
  simpa using htop

/-- The names before the first that is no identifier are defined one after the
other. -/
theorem AtQuery.defines_names (h : s.AtTop base [] (.cteName clause first)) (limit : Nat)
    (ts : List Token) (d : CteDefinition) (more : List (Token × CteDefinition))
    (hcommas : ∀ p ∈ more, p.1.isMark ',') :
    ∀ e ∈ (d :: more.map (·.2)).takeWhile (·.name.isName),
      Defines limit s (d.tokens ++ (CteDefinition.listTokens more ++ ts)) e.name := by
  induction more generalizing s base first d with
  | nil =>
      intro e he
      rw [List.map_nil, List.takeWhile_cons] at he
      split at he
      · next hd =>
          obtain rfl := List.mem_singleton.mp he
          exact ⟨[], _, _, _, rfl, h.step_cteName limit _ hd,
            Scope.binds_define_self _ rfl rfl⟩
      · cases he
  | cons p more ih =>
      intro e he
      rw [List.map_cons, List.takeWhile_cons] at he
      split at he
      · next hd =>
          rw [List.forall_mem_cons] at hcommas
          rcases List.mem_cons.mp he with rfl | he
          · exact ⟨[], _, _, _, rfl, h.step_cteName limit _ hd,
              Scope.binds_define_self _ rfl rfl⟩
          · have hnext := (h.advance_definition limit
              (p.1 :: (p.2.tokens ++ (CteDefinition.listTokens more ++ ts))) d hd).step_cteNext
              limit (p.2.tokens ++ (CteDefinition.listTokens more ++ ts)) hcommas.1
            have hrest := ih hnext p.2 hcommas.2 e he
            rw [CteDefinition.listTokens_cons, List.cons_append, List.append_assoc]
            exact Defines.append d.tokens (Defines.append [p.1] hrest)
      · cases he

/-- After a name that is no identifier the definitions are passed over, and a name
that was not defined before stays unbound. -/
theorem AtQuery.loses_names (h : s.AtTop base names (.cteName clause first)) (limit : Nat)
    (after : List Token) (d : CteDefinition) (more : List (Token × CteDefinition))
    (hcommas : ∀ p ∈ more, p.1.isMark ',') (hfirst : first → d.name.isName)
    (hfails : ∃ e ∈ d :: more.map (·.2), ¬ e.name.isName) {v : String}
    (hbase : base.lookup? v = none)
    (hread : ∀ e ∈ (d :: more.map (·.2)).takeWhile (·.name.isName),
      Unicode.lower e.name.value ≠ Unicode.lower v) :
    ∃ base' fresh,
      (s.advance limit after (d.tokens ++ CteDefinition.listTokens more)).AtTop base' names
        (.clauses fresh) ∧ base'.lookup? v = none := by
  induction more generalizing s base first d with
  | nil =>
      obtain ⟨e, he, hnot⟩ := hfails
      rw [List.map_nil, List.mem_singleton] at he
      subst he
      obtain rfl : first = false := Bool.eq_false_iff.mpr fun hf => hnot (hfirst hf)
      obtain ⟨fresh, htop⟩ := h.advance_failedList limit after e [] hcommas hnot
      exact ⟨base, fresh, htop, hbase⟩
  | cons p more ih =>
      by_cases hd : d.name.isName
      · rw [List.forall_mem_cons] at hcommas
        rw [List.map_cons, List.takeWhile_cons, if_pos hd, List.forall_mem_cons] at hread
        have hlater : ∃ e ∈ p.2 :: more.map (·.2), ¬ e.name.isName := by
          obtain ⟨e, he, hnot⟩ := hfails
          rw [List.map_cons, List.mem_cons] at he
          rcases he with rfl | he
          · exact absurd hd hnot
          · exact ⟨e, he, hnot⟩
        have hnext := (h.advance_definition limit
          (p.1 :: (p.2.tokens ++ CteDefinition.listTokens more ++ after)) d hd).step_cteNext
          limit (p.2.tokens ++ CteDefinition.listTokens more ++ after) hcommas.1
        have hunbound : (base.define d.name.value .cteDefinition).lookup? v = none := by
          rw [Scope.lookup?_define, if_neg (Ne.symm hread.1)]
          exact hbase
        obtain ⟨base', fresh, htop, hlookup⟩ :=
          ih hnext p.2 hcommas.2 (by simp) hlater hunbound hread.2
        refine ⟨base', fresh, ?_, hlookup⟩
        rw [advance_append]
        exact htop
      · obtain rfl : first = false := Bool.eq_false_iff.mpr fun hf => hd (hfirst hf)
        obtain ⟨fresh, htop⟩ := h.advance_failedList limit after d (p :: more) hcommas hd
        exact ⟨base, fresh, htop, hbase⟩

end Scan

namespace WithClause

open Scan

/-- The proper names at the start of the clause are defined. -/
theorem defines (w : WithClause) (limit : Nat) (q : List Token) :
    ∀ e ∈ w.readDefinitions, Defines limit start (w.tokens ++ q) e.name := by
  intro e he
  have hfirst : w.first.name.isName := by
    rw [readDefinitions, definitions, List.takeWhile_cons] at he
    split at he
    · next h => exact h
    · cases he
  have htokens : w.tokens ++ q = (w.word :: w.recursive.toList) ++
      (w.first.tokens ++ (CteDefinition.listTokens w.more ++ q)) := by
    simp [tokens]
  rw [htokens]
  refine Defines.append _ ?_
  obtain ⟨first, hwith⟩ := atTop_start.advance_with limit _ w.isWith w.isRecursive
    (looksLikeCte_tokens w.first hfirst (CteDefinition.listTokens w.more ++ q))
  exact hwith.defines_names limit q w.first w.more w.commas e he

/-- A name that equals none of those is not bound after the clause. -/
theorem loses (w : WithClause) (limit : Nat) (q : List Token) {d : CteDefinition}
    (hd : d ∈ w.definitions)
    (hread : ∀ e ∈ w.readDefinitions,
      Unicode.lower e.name.value ≠ Unicode.lower d.name.value) :
    ∃ base fresh, (start.advance limit q w.tokens).AtTop base [] (.clauses fresh) ∧
      base.lookup? d.name.value = none := by
  have hfails : ∃ e ∈ w.definitions, ¬ e.name.isName := by
    by_contra hall
    push Not at hall
    rw [readDefinitions, List.takeWhile_eq_self_iff.mpr (by simpa using hall)] at hread
    exact hread d hd rfl
  cases hrecursive : w.recursive with
  | some r =>
      have hr := w.isRecursive r hrecursive
      have hwith := atTop_start.step_with limit (r :: (w.first.tokens ++
        CteDefinition.listTokens w.more ++ q)) w.isWith (by simp [looksLikeCte, hr])
      rw [tokens, hrecursive]
      exact (hwith.step_recursive limit _ hr).loses_names limit q w.first w.more w.commas
        (by simp) hfails rfl hread
  | none =>
      rw [tokens, hrecursive, Option.toList_none, List.singleton_append, advance_cons]
      by_cases hfirst : w.first.name.isName
      · have hlooks := looksLikeCte_tokens w.first hfirst (CteDefinition.listTokens w.more ++ q)
        rw [← List.append_assoc] at hlooks
        exact (atTop_start.step_with limit _ w.isWith hlooks).loses_names limit q w.first
          w.more w.commas (fun _ => hfirst) hfails rfl hread
      · by_cases hlooks : looksLikeCte (w.first.tokens ++ CteDefinition.listTokens w.more ++ q)
        · -- The name is the word `RECURSIVE`, which is taken for the start of the clause.
          have hname : w.first.name.isKeyword .RECURSIVE := by
            simpa [CteDefinition.tokens, looksLikeCte, hfirst] using hlooks
          have hwith := (atTop_start.step_with limit _ w.isWith hlooks).step_recursive limit
            (w.first.rest ++ CteDefinition.listTokens w.more ++ q) hname
          obtain ⟨fresh, htop⟩ := hwith.advance_failed limit q
            ((idle_rest w.first).append (idle_listTokens w.commas))
            (by simp [CteDefinition.rest]) (head_rest w.first _)
          exact ⟨[[]], fresh, htop, rfl⟩
        · obtain ⟨fresh, htop⟩ := (atTop_start.step_with_other limit _ w.isWith
            hlooks).advance_idle limit q
            ((idle_tokens w.first).append (idle_listTokens w.commas))
          exact ⟨[[]], fresh, htop, rfl⟩

/-- A name that has been defined is never a table later on. -/
theorem not_leaks_of_defines {limit : Nat} {ts : List Token} {name : Token} {r : Reference}
    (h : Defines limit start ts name) (horder : Ordered ts) (hr : r ∈ (find limit ts).references)
    (hafter : name.offset < r.span.start) {v : String} (hparts : r.parts = [v])
    (hv : Unicode.lower v = Unicode.lower name.value)
    (hdot : ∀ t ∈ ts, t.isMark '.' → r.span.stop ≠ t.stop) : r.isSource = false := by
  obtain ⟨us, vs, base, clause, rfl, htop, hbinds⟩ := h
  obtain ⟨xs, ys, hxs, r', hr', rfl⟩ := mem_references.mp hr
  rw [fated_isSource]
  rw [fated_parts] at hparts
  rw [fated_span] at hafter hdot
  rcases origin_of_brings isNest_start rfl hr' with
    ⟨n, hrefers, before, w, since, rfl, -, -, hread⟩ | ⟨t, rest, -, -, -, -, hrole⟩
  · have hspan := hrefers.name_eq.2
    have hdangling : n.dangling = false := by
      obtain ⟨u, hu, hstop, hmark⟩ := DottedName.stop_of_extendAll? hread
      by_contra hn
      rw [Bool.not_eq_false] at hn
      refine hdot u ?_ (hmark hn) ?_
      · rw [hxs, List.append_assoc]
        exact List.mem_append_right _ (List.mem_append_left _ hu)
      · rw [hspan, ← hstop]
        rfl
    have hoffset : name.offset < w.offset := by
      have hstart := DottedName.start_of_extendAll? hread
      rw [hspan] at hafter
      simp only [DottedName.span, hstart, DottedName.ofToken] at hafter
      omega
    have hcut : us ++ name :: vs = before ++ w :: (since ++ ys) := by
      rw [hxs, List.append_assoc, List.cons_append]
    obtain ⟨zs, rfl, rfl⟩ := horder.mem_before hcut hoffset
    have hbound : IsBound name.value
        (start.advance limit (zs ++ w :: since ++ ys) (us ++ [name])).top
        (start.advance limit (zs ++ w :: since ++ ys) (us ++ [name])).below := by
      rw [List.append_assoc, List.cons_append, htop.below]
      change Body.Binds _ name.value
      rw [htop.body]
      exact ⟨hbinds, Scope.binds_cons.mpr (Or.inr ⟨rfl, hbinds⟩)⟩
    have hbody := (isBound_advance limit ys (zs ++ w :: since) hbound).binds
    rw [← advance_append] at hbody
    simp only [List.append_assoc, List.cons_append] at hbody hrefers
    exact not_isSource_of_binds hbody.scope hrefers hparts hv hdangling
  · exact hrole

/-- The query `SELECT * FROM name`, which begins at the offset. -/
def useOf (name : Token) (offset : Nat) : List Token :=
  [⟨.keyword .SELECT, "SELECT", offset⟩, ⟨.punctuation '*', "*", offset + 7⟩,
    ⟨.keyword .FROM, "FROM", offset + 9⟩, { name with offset := offset + 14 }]

theorem balanced_useOf {name : Token} (h : isCandidate name) (offset : Nat) :
    Balanced (useOf name offset) := by
  have hopen := not_isMark_of_isCandidate h '('
  have hclose := not_isMark_of_isCandidate h ')'
  simp only [isMark, beq_iff_eq] at hopen hclose
  simp [Token.Balanced, useOf, Token.depth?, isMark, hopen, hclose]

theorem ordered_append_useOf {ts : List Token} {name : Token} {offset : Nat}
    (h : Ordered ts) (hle : ∀ t ∈ ts, t.stop ≤ offset) (hname : name.offset < name.stop) :
    Ordered (ts ++ useOf name offset) := by
  have hlength : 0 < name.text.length := by
    unfold stop at hname
    omega
  refine (ordered_append _ _).mpr ⟨h, ?_, fun t ht u hu => ?_⟩
  · simp only [useOf, ordered_cons, stop, List.forall_mem_cons, List.not_mem_nil, false_imp_iff,
      implies_true]
    have hselect : "SELECT".length = 6 := rfl
    have hstar : "*".length = 1 := rfl
    have hfrom : "FROM".length = 4 := rfl
    refine ⟨by omega, ⟨by omega, by omega, by omega, trivial⟩, by omega,
      ⟨by omega, by omega, trivial⟩, by omega, ⟨by omega, trivial⟩, by omega, trivial,
      ordered_nil⟩
  · have := hle t ht
    simp only [useOf, List.mem_cons, List.not_mem_nil, or_false] at hu
    rcases hu with rfl | rfl | rfl | rfl
    · exact this
    · exact Nat.le_add_right_of_le this
    · exact Nat.le_add_right_of_le this
    · exact Nat.le_add_right_of_le this

/-- A name that is not bound makes the query a table. -/
theorem leaks_of_loses {limit : Nat} {ts : List Token} {base : Scope} {fresh : Bool}
    {name : Token} {offset : Nat} (hname : isCandidate name)
    (h : (start.advance limit (useOf name offset) ts).AtTop base [] (.clauses fresh))
    (hbase : base.lookup? name.value = none) :
    { parts := [name.value], span := ({ name with offset := offset + 14 } : Token).span,
      role := .source } ∈ (find limit (ts ++ useOf name offset)).references := by
  have hselect := h.step_idle (t := ⟨.keyword .SELECT, "SELECT", offset⟩) limit
    (useOf name offset).tail rfl
  have hstar := hselect.step_idle (t := ⟨.punctuation '*', "*", offset + 7⟩) limit
    (useOf name offset).tail.tail rfl
  have hfrom := hstar.step_from (t := ⟨.keyword .FROM, "FROM", offset + 9⟩) limit
    (useOf name offset).tail.tail.tail
    (by rw [comparison_step, comparison_next_of_isMark (c := '*') rfl]; decide) rfl
  have htable := hfrom.step_candidate (t := { name with offset := offset + 14 }) limit [] hname
  have htop : (start.advance limit [] (ts ++ useOf name offset)).AtTop base []
      (.name (.operand .list) (.ofToken { name with offset := offset + 14 })) := by
    rw [advance_append, List.append_nil]
    exact htable
  refine mem_references.mpr ⟨_, [], (List.append_nil _).symm, _, ?_, by rw [htop.fated]; rfl⟩
  rw [brings, htop.body, Body.remainder]
  refine List.mem_singleton.mpr ?_
  have hlookup : Scope.lookup? ([] :: base) name.value = none := by
    rw [Scope.lookup?_cons, hbase]
    rfl
  change _ = Reference.mk _ _ ((Scope.lookup? ([] :: base) name.value).getD .source) 0
  rw [hlookup]
  rfl

theorem exists_stop_le (ts : List Token) : ∃ m, ∀ t ∈ ts, t.stop ≤ m := by
  induction ts with
  | nil => exact ⟨0, by simp⟩
  | cons t ts ih =>
      obtain ⟨m, hm⟩ := ih
      refine ⟨max t.stop m, List.forall_mem_cons.mpr ⟨Nat.le_max_left _ _, fun u hu => ?_⟩⟩
      exact (hm u hu).trans (Nat.le_max_right _ _)

theorem names_sublist (w : WithClause) : (w.definitions.map (·.name)).Sublist w.tokens := by
  have hmore (more : List (Token × CteDefinition)) :
      ((more.map (·.2)).map (·.name)).Sublist (CteDefinition.listTokens more) := by
    induction more with
    | nil => exact List.Sublist.refl []
    | cons p more ih =>
        rw [CteDefinition.listTokens_cons, CteDefinition.tokens, List.cons_append]
        exact ((ih.trans (List.sublist_append_right _ _)).cons_cons p.2.name).cons p.1
  rw [tokens, definitions, List.map_cons, CteDefinition.tokens,
    List.cons_append (a := w.first.name)]
  exact (((hmore w.more).trans (List.sublist_append_right _ _)).cons_cons w.first.name).trans
    (List.sublist_append_right _ _)

/-- The first definition of a name comes first. -/
theorem exists_read_before (w : WithClause) (horder : Ordered w.tokens) {d e : CteDefinition}
    (hd : d ∈ w.definitions) (he : e ∈ w.readDefinitions)
    (hname : Unicode.lower e.name.value = Unicode.lower d.name.value) :
    ∃ e ∈ w.readDefinitions, Unicode.lower e.name.value = Unicode.lower d.name.value ∧
      e.name.offset ≤ d.name.offset := by
  have hnames := horder.sublist w.names_sublist
  rw [← List.takeWhile_append_dropWhile (p := (·.name.isName)) (l := w.definitions),
    List.map_append, ordered_append] at hnames
  rw [← List.takeWhile_append_dropWhile (p := (·.name.isName)) (l := w.definitions),
    List.mem_append] at hd
  rcases hd with hd | hd
  · exact ⟨d, hd, rfl, Nat.le_refl _⟩
  · have hle := hnames.2.2 e.name (List.mem_map_of_mem he) d.name (List.mem_map_of_mem hd)
    have hpos := hnames.1.1 e.name (List.mem_map_of_mem he)
    exact ⟨e, he, hname, by omega⟩

/-- A name of a WITH clause leaks into no query after the clause exactly when it, or
one before it that is the same, stands before the first name that is no
identifier. -/
theorem not_leaks_iff (w : WithClause) (index : Nat) (horder : Ordered w.tokens)
    {d : CteDefinition} (hd : d ∈ w.definitions) :
    (∀ q, Balanced q → Ordered (w.tokens ++ q) →
      ¬ (Statement.scan ⟨index, w.tokens ++ q⟩).Leaks (w.tokens ++ q) d.name) ↔
    ∃ e ∈ w.readDefinitions, Unicode.lower e.name.value = Unicode.lower d.name.value := by
  have hmem : d.name ∈ w.tokens := w.names_sublist.subset (List.mem_map_of_mem hd)
  constructor
  · intro h
    by_contra hread
    push Not at hread
    obtain ⟨m, hm⟩ := exists_stop_le w.tokens
    obtain ⟨base, fresh, htop, hbase⟩ := w.loses depthLimit (useOf d.name m) hd hread
    have hstop : d.name.offset < d.name.stop := horder.1 d.name hmem
    have hordered := ordered_append_useOf horder hm hstop
    refine h _ (balanced_useOf d.candidate m) hordered
      ⟨_, List.mem_map_of_mem (leaks_of_loses d.candidate htop hbase), ?_, rfl, ?_, rfl⟩
    · have := hm d.name hmem
      change (d.name.offset : Int) < (m + 14 : Nat)
      omega
    · -- The reference ends with the last token, which is no dot.
      intro t ht hdot hend
      change ((m + 14 + d.name.text.length : Nat) : Int) = t.stop at hend
      rcases List.mem_append.mp ht with ht | ht
      · have := hm t ht
        omega
      · simp only [useOf, List.mem_cons, List.not_mem_nil, or_false] at ht
        rcases ht with rfl | rfl | rfl | rfl
        · cases hdot
        · cases hdot
        · cases hdot
        · exact not_isMark_of_isCandidate d.candidate '.' hdot
  · rintro ⟨e, he, hname⟩ q - hordered ⟨r, hr, hafter, hparts, hdot, hsource⟩
    obtain ⟨e, he, hname, hle⟩ := w.exists_read_before horder hd he hname
    obtain ⟨r', hr', rfl⟩ := List.mem_map.mp hr
    obtain ⟨v, hv, hlower⟩ := List.map_eq_singleton_iff.mp hparts
    have hlt : (e.name.offset : Int) < r'.span.start := by
      change (d.name.offset : Int) < r'.span.start at hafter
      omega
    have hnot := not_leaks_of_defines (w.defines depthLimit q e he) hordered hr' hlt hv
      (hlower.trans hname.symm) hdot
    rw [show r'.isSource = true from hsource] at hnot
    cases hnot

/-- A name that is an identifier leaks into no query. -/
theorem not_leaks_identifier :
    ∃ (w : WithClause) (d : CteDefinition),
      [w.tokens] = (Statement.ofScript "WITH t AS (SELECT * FROM a)").map Statement.tokens ∧
      Ordered w.tokens ∧ d ∈ w.definitions ∧
      ∀ q, Balanced q → Ordered (w.tokens ++ q) →
        ¬ (Statement.scan ⟨0, w.tokens ++ q⟩).Leaks (w.tokens ++ q) d.name := by
  refine ⟨{
    word := ⟨.keyword .WITH, "WITH", 0⟩
    recursive := none
    first := {
      name := ⟨.identifier, "t", 5⟩
      columns := none
      word := ⟨.keyword .AS, "AS", 7⟩
      query := {
        opener := ⟨.punctuation '(', "(", 10⟩
        content := [⟨.keyword .SELECT, "SELECT", 11⟩, ⟨.punctuation '*', "*", 18⟩,
          ⟨.keyword .FROM, "FROM", 20⟩, ⟨.identifier, "a", 25⟩]
        closer := ⟨.punctuation ')', ")", 26⟩
        isOpening := by decide
        isClosing := by decide
        balanced := by decide }
      candidate := by decide
      isAs := by decide }
    more := []
    isWith := by decide
    isRecursive := by decide
    commas := by decide }, _, by decide +kernel, by decide, List.mem_cons_self, ?_⟩
  exact (not_leaks_iff _ 0 (by decide) List.mem_cons_self).mpr
    ⟨_, List.mem_cons_self, rfl⟩

/-- The word `location` names a table, but not a common table expression. -/
theorem leaks_location :
    ∃ (w : WithClause) (d : CteDefinition) (q : List Token),
      [w.tokens ++ q] = (Statement.ofScript
        "WITH location AS (SELECT * FROM a) SELECT * FROM location").map Statement.tokens ∧
      Balanced q ∧ Ordered (w.tokens ++ q) ∧ d ∈ w.definitions ∧
      (Statement.scan ⟨0, w.tokens ++ q⟩).Leaks (w.tokens ++ q) d.name := by
  refine ⟨{
    word := ⟨.keyword .WITH, "WITH", 0⟩
    recursive := none
    first := {
      name := ⟨.keyword .LOCATION, "location", 5⟩
      columns := none
      word := ⟨.keyword .AS, "AS", 14⟩
      query := {
        opener := ⟨.punctuation '(', "(", 17⟩
        content := [⟨.keyword .SELECT, "SELECT", 18⟩, ⟨.punctuation '*', "*", 25⟩,
          ⟨.keyword .FROM, "FROM", 27⟩, ⟨.identifier, "a", 32⟩]
        closer := ⟨.punctuation ')', ")", 33⟩
        isOpening := by decide
        isClosing := by decide
        balanced := by decide }
      candidate := by decide
      isAs := by decide }
    more := []
    isWith := by decide
    isRecursive := by decide
    commas := by decide }, _, useOf ⟨.keyword .LOCATION, "location", 5⟩ 35,
    by decide +kernel, by decide, by decide, List.mem_cons_self, by decide +kernel⟩

end WithClause

end SqlTables
