import Mathlib.Data.List.Induction
import SqlTables.Proofs.Scan.Stack

/-!
# What leads a group

A group is searched for tables in two cases. Its first word starts a subquery, or the query
around it awaits a group: one that stands for a table, or the body of a common table
expression. `Query.step_leads` says so of every token of a query, and also which tokens make
a query await a group (`leadsGroup`). A group in any other place is passed over.
-/

namespace SqlTables

namespace Scan

open Token

/-- Whether a parenthesis is searched for tables whatever it begins with. -/
def Mode.awaitsGroup : Mode → Bool
  | .operand _ | .cteBody _ _ => true
  | _ => false

def Body.awaitsGroup : Body → Bool
  | .query q => q.mode.awaitsGroup
  | _ => false

/-- The words that may still come before the body of a common table expression. -/
def Body.bodyWords : Body → List Keyword
  | .query q =>
    match q.mode with
    | .cteBody _ optional => optional
    | _ => []
  | _ => []

/-- Whether the words that introduce a table mean anything in the group. -/
def Body.isQuery : Body → Bool
  | .query _ => true
  | _ => false

/-- Whether a group right behind the token may be searched for tables whatever it begins
with. -/
def leadsGroup (t : Token) : Bool :=
  t.isAnyKeyword [.FROM, .JOIN, .USING, .LATERAL, .AS, .NOT, .MATERIALIZED] || t.isMark ',' ||
    t.isMark '('

theorem leadsGroup_of_isKeyword {t : Token} {word : Keyword} (ht : t.isKeyword word)
    (hword : word ∈ [Keyword.FROM, .JOIN, .USING, .LATERAL, .AS, .NOT, .MATERIALIZED]) :
    leadsGroup t := by
  rw [leadsGroup, isAnyKeyword_iff.mpr ⟨word, hword, ht⟩, Bool.true_or, Bool.true_or]

theorem leadsGroup_of_isMark {t : Token} {c : Char} (ht : t.isMark c) (hc : c = ',' ∨ c = '(') :
    leadsGroup t := by
  rcases hc with rfl | rfl
  · rw [leadsGroup, ht, Bool.or_true, Bool.true_or]
  · rw [leadsGroup, ht, Bool.or_true]

/-- What a token does to the groups behind it, in a query that awaits a group or does not. -/
structure Outcome.Leads (awaits : Bool) (t : Token) (rest : List Token) (o : Outcome) :
    Prop where
  opens : ∀ body, o.action = .enter body → body.isQuery →
    rest.head?.any startsSubquery ∨ awaits
  awaits : o.body.awaitsGroup → leadsGroup t ∧ o.body.bodyWords ⊆ [.NOT, .MATERIALIZED]

variable {limit : Nat} {s : Scan} {t : Token} {rest after : List Token} {w : Surroundings}
  {q : Query} {awaits : Bool} {o : Outcome}

theorem Outcome.Leads.found (h : o.Leads awaits t rest) (r : Reference) :
    (o.found r).Leads awaits t rest := ⟨h.opens, h.awaits⟩

theorem Outcome.Leads.reported (h : o.Leads awaits t rest) (d : Diagnostic) :
    (o.reported d).Leads awaits t rest := ⟨h.opens, h.awaits⟩

/-- A token that opens no group. -/
theorem Outcome.Leads.of_stay (haction : o.action = .stay)
    (h : o.body.awaitsGroup → leadsGroup t ∧ o.body.bodyWords ⊆ [.NOT, .MATERIALIZED]) :
    o.Leads awaits t rest := by
  refine ⟨fun body hbody => ?_, h⟩
  rw [haction] at hbody
  cases hbody

/-- A parenthesis that closes the group. -/
theorem Outcome.Leads.of_leave (haction : o.action = .leave) (h : o.body.awaitsGroup = false) :
    o.Leads awaits t rest := by
  refine ⟨fun body hbody => ?_, fun hawaits => ?_⟩
  · rw [haction] at hbody
    cases hbody
  · rw [h] at hawaits
    cases hawaits

/-- A token behind which a table is expected. -/
theorem Outcome.Leads.of_operand {follow : Follow} {merging : Option Bool} (ht : leadsGroup t) :
    Outcome.Leads awaits t rest
      ⟨.query (q.goto (.operand follow)), .stay, [], [], merging⟩ :=
  .of_stay rfl fun _ => ⟨ht, List.nil_subset _⟩

theorem Surroundings.isQuery_expression (w : Surroundings) (scope : Scope) :
    (w.expression scope).isQuery = false := by
  unfold expression
  split
  · rfl
  · rfl

/-- A parenthesis that is passed over. -/
theorem Outcome.Leads.of_expression {scope : Scope}
    (haction : o.action = .enter (w.expression scope))
    (h : o.body.awaitsGroup = false) : o.Leads awaits t rest := by
  refine ⟨fun body hbody hquery => ?_, fun hawaits => ?_⟩
  · rw [haction, Action.enter.injEq] at hbody
    rw [← hbody, Surroundings.isQuery_expression] at hquery
    cases hquery
  · rw [h] at hawaits
    cases hawaits

namespace Query

/-! ## The functions of the modes -/

theorem clauseStep_leads (fresh : Bool) : (clauseStep w q fresh t rest).Leads awaits t rest := by
  unfold clauseStep
  split
  · refine ⟨fun body hbody => ?_, fun h => by cases h⟩
    dsimp only at hbody
    split at hbody <;> cases hbody
  · refine ⟨fun body hbody hquery => ?_, fun h => by cases h⟩
    rw [Action.enter.injEq] at hbody
    by_cases hstarts : rest.head?.any startsSubquery
    · exact Or.inl hstarts
    · rw [if_neg hstarts] at hbody
      rw [← hbody, Surroundings.isQuery_expression] at hquery
      cases hquery
  · next word hkind =>
      have hword (h : word ∈ [Keyword.FROM, .JOIN, .USING, .LATERAL, .AS, .NOT, .MATERIALIZED]) :
          leadsGroup t := leadsGroup_of_isKeyword (by rw [isKeyword, hkind, beq_self_eq_true]) h
      dsimp only
      -- Three of the words lead a table, and none leads the body of a definition.
      cases word with
      | FROM =>
          dsimp only
          split
          · exact .of_stay rfl fun h => by cases h
          · exact .of_operand (hword (by decide))
      | JOIN => exact .of_operand (hword (by decide))
      | USING =>
          dsimp only
          split
          · exact .of_operand (hword (by decide))
          · exact .of_stay rfl fun h => by cases h
      | WITH => dsimp only; split <;> exact .of_stay rfl fun h => by cases h
      | OVERWRITE => dsimp only; split <;> exact .of_stay rfl fun h => by cases h
      | UPDATE => dsimp only; split <;> exact .of_stay rfl fun h => by cases h
      | _ => exact .of_stay rfl fun h => by cases h
  · exact .of_stay rfl fun h => by cases h

theorem listedStep_leads : (listedStep w q t rest).Leads awaits t rest := by
  unfold listedStep
  split
  · next hcomma => exact .of_operand (leadsGroup_of_isMark hcomma (Or.inl rfl))
  · exact clauseStep_leads _

theorem followStep_leads (follow : Follow) :
    (followStep w q follow t rest).Leads awaits t rest := by
  cases follow with
  | list => exact listedStep_leads
  | clause => exact clauseStep_leads false

theorem awaitsGroup_follow (follow : Follow) : follow.mode.awaitsGroup = false := by
  cases follow <;> rfl

theorem columnsStep_leads (follow : Follow) :
    (columnsStep w q follow t rest).Leads awaits t rest := by
  unfold columnsStep
  split
  · exact .of_expression rfl (awaitsGroup_follow follow)
  · exact followStep_leads follow

theorem aliasStep_leads (follow : Follow) :
    (aliasStep w q follow t rest).Leads awaits t rest := by
  unfold aliasStep
  split
  · exact .of_stay rfl fun h => by cases h
  · split
    · exact .of_stay rfl fun h => by cases h
    · exact followStep_leads follow

theorem sampleStep_leads (follow : Follow) :
    (sampleStep w q follow t rest).Leads awaits t rest := by
  unfold sampleStep
  split
  · exact .of_expression rfl rfl
  · exact aliasStep_leads follow

theorem operandEndStep_leads (follow : Follow) :
    (operandEndStep w q follow t rest).Leads awaits t rest := by
  unfold operandEndStep
  split
  · exact .of_stay rfl fun h => by cases h
  · exact aliasStep_leads follow

theorem operandStep_leads (follow : Follow) :
    (operandStep w q follow t rest).Leads true t rest := by
  unfold operandStep
  split
  · next hlateral => exact .of_operand (leadsGroup_of_isKeyword hlateral (by decide))
  · split
    · exact ⟨fun _ _ _ => Or.inr rfl, fun h => by cases h⟩
    · split
      · exact .of_stay rfl fun h => by cases h
      · exact followStep_leads follow

theorem nameStep_leads (purpose : Purpose) (n : DottedName) :
    (nameStep w q purpose n t rest).Leads awaits t rest := by
  unfold nameStep nameEndStep
  split
  · exact .of_stay rfl fun h => by cases h
  · cases purpose with
    | operand follow =>
        dsimp only
        split
        · exact .of_expression rfl rfl
        · exact (operandEndStep_leads follow).found _
    | target => exact (operandEndStep_leads .clause).found _
    | created =>
        dsimp only
        split
        · exact (clauseStep_leads false).found _
        · exact clauseStep_leads false

theorem targetNameStep_leads : (targetNameStep w q t rest).Leads awaits t rest := by
  unfold targetNameStep
  split
  · exact .of_stay rfl fun h => by cases h
  · exact clauseStep_leads false

theorem targetStep_leads : (targetStep w q t rest).Leads awaits t rest := by
  unfold targetStep
  split
  · exact .of_stay rfl fun h => by cases h
  · exact targetNameStep_leads

theorem createStep_leads : (createStep w q t rest).Leads awaits t rest := by
  unfold createStep
  split
  · exact .of_stay rfl fun h => by cases h
  · split
    · exact .of_stay rfl fun h => by cases h
    · exact clauseStep_leads false

theorem createNameStep_leads (optional : List Keyword) :
    (createNameStep w q optional t rest).Leads awaits t rest := by
  unfold createNameStep
  split
  · exact .of_stay rfl fun h => by cases h
  · split
    · exact .of_stay rfl fun h => by cases h
    · exact clauseStep_leads false

theorem cteFailure_leads (clause : Span) :
    (cteFailure w q clause t rest).Leads awaits t rest :=
  (clauseStep_leads true).reported _

theorem cteNameStep_leads (clause : Span) (first : Bool) :
    (cteNameStep w q clause first t rest).Leads awaits t rest := by
  unfold cteNameStep
  split
  · exact .of_stay rfl fun h => by cases h
  · split
    · exact .of_stay rfl fun h => by cases h
    · exact cteFailure_leads clause

theorem cteAsStep_leads (clause : Span) :
    (cteAsStep w q clause t rest).Leads awaits t rest := by
  unfold cteAsStep
  split
  · next has =>
      exact .of_stay rfl fun _ => ⟨leadsGroup_of_isKeyword has (by decide), List.Subset.refl _⟩
  · exact cteFailure_leads clause

theorem cteColumnsStep_leads (clause : Span) :
    (cteColumnsStep w q clause t rest).Leads awaits t rest := by
  unfold cteColumnsStep
  split
  · exact .of_expression rfl rfl
  · exact cteAsStep_leads clause

theorem cteBodyStep_leads (clause : Span) {optional : List Keyword}
    (hoptional : optional ⊆ [.NOT, .MATERIALIZED]) :
    (cteBodyStep w q clause optional t rest).Leads true t rest := by
  unfold cteBodyStep
  split
  · next word hword =>
      obtain ⟨hkeyword, hcontains⟩ := Option.filter_eq_some_iff.mp hword
      have hmem := hoptional (List.contains_iff_mem.mp hcontains)
      refine .of_stay rfl fun _ => ⟨?_, ?_⟩
      · refine leadsGroup_of_isKeyword (isKeyword_of_keyword? hkeyword) ?_
        exact (by decide : [Keyword.NOT, .MATERIALIZED] ⊆ _) hmem
      · -- The words behind the one that has come are some of those that might have.
        have hif : word ≠ .IF := fun h => by
          rw [h] at hmem
          exact absurd hmem (by decide)
        change optionalAfter word optional ⊆ _
        rw [optionalAfter, if_neg hif]
        exact fun k hk => hoptional (List.dropWhile_subset _ (List.mem_of_mem_tail hk))
  · split
    · exact ⟨fun _ _ _ => Or.inr rfl, fun h => by cases h⟩
    · exact cteFailure_leads clause

theorem cteNextStep_leads (clause : Span) :
    (cteNextStep w q clause t rest).Leads awaits t rest := by
  unfold cteNextStep
  split
  · exact .of_stay rfl fun h => by cases h
  · exact clauseStep_leads true

/-- What a token of a query does to the groups behind it. -/
theorem step_leads (w : Surroundings) (q : Query) (t : Token) (rest : List Token)
    (hwords : (Body.query q).bodyWords ⊆ [.NOT, .MATERIALIZED]) :
    (q.step w t rest).Leads q.mode.awaitsGroup t rest := by
  unfold step
  cases hmode : q.mode with
  | clauses fresh => exact clauseStep_leads fresh
  | operand follow => exact operandStep_leads follow
  | listed => exact listedStep_leads
  | target => exact targetStep_leads
  | targetName => exact targetNameStep_leads
  | name purpose n => exact nameStep_leads purpose n
  | operandEnd follow => exact operandEndStep_leads follow
  | sample follow => exact sampleStep_leads follow
  | «alias» follow => exact aliasStep_leads follow
  | columns follow => exact columnsStep_leads follow
  | create => exact createStep_leads
  | createName optional => exact createNameStep_leads optional
  | cteName clause first => exact cteNameStep_leads clause first
  | cteColumns clause => exact cteColumnsStep_leads clause
  | cteAs clause => exact cteAsStep_leads clause
  | cteBody clause optional =>
      rw [Body.bodyWords, hmode] at hwords
      exact cteBodyStep_leads clause hwords
  | cteNext clause => exact cteNextStep_leads clause

end Query

/-! ## Runs -/

/-- The innermost group awaits a group only right behind a token that leads one. -/
structure IsLedBy (s : Scan) (last : Option Token) : Prop where
  leads : s.top.body.awaitsGroup → last.any leadsGroup
  words : s.top.body.bodyWords ⊆ [.NOT, .MATERIALIZED]

theorem bodyWords_of_not_awaitsGroup {body : Body} (h : ¬ body.awaitsGroup) :
    body.bodyWords = [] := by
  unfold Body.bodyWords
  split
  · next q =>
      split
      · next hmode =>
          rw [Body.awaitsGroup, hmode] at h
          exact absurd rfl h
      · rfl
  · rfl

theorem isLedBy_of_awaitsGroup {last : Option Token}
    (h : s.top.body.awaitsGroup → last.any leadsGroup ∧
      s.top.body.bodyWords ⊆ [.NOT, .MATERIALIZED]) : s.IsLedBy last := by
  refine ⟨fun hawaits => (h hawaits).1, ?_⟩
  by_cases hawaits : s.top.body.awaitsGroup
  · exact (h hawaits).2
  · rw [bodyWords_of_not_awaitsGroup hawaits]
    exact List.nil_subset _

/-- What a token does to the groups behind it, in whatever group. -/
theorem outcome_leads (limit : Nat) (t : Token) (rest : List Token)
    (hwords : s.top.body.bodyWords ⊆ [.NOT, .MATERIALIZED]) :
    (s.outcome limit t rest).Leads s.top.body.awaitsGroup t rest := by
  cases hbody : s.top.body with
  | query q =>
      rw [outcome_query hbody]
      rw [hbody] at hwords
      exact q.step_leads _ t rest hwords
  | expression scope =>
      have hturn := outcome_turn limit s t rest
      rw [hbody] at hturn
      generalize s.outcome limit t rest = o at hturn
      cases hturn with
      | enter scope hopen =>
          refine ⟨fun body hbody hquery => ?_, fun h => by cases h⟩
          rw [Action.enter.injEq] at hbody
          by_cases hstarts : rest.head?.any startsSubquery
          · exact Or.inl hstarts
          · rw [if_neg hstarts] at hbody
            rw [← hbody, Surroundings.isQuery_expression] at hquery
            cases hquery
      | leave scope hclose => exact .of_leave rfl rfl
      | pass scope hopen hclose => exact .of_stay rfl fun h => by cases h
  | flat f =>
      have hturn := outcome_turn limit s t rest
      rw [hbody] at hturn
      generalize s.outcome limit t rest = o at hturn
      cases hturn with
      | extendFlat f hread hn => exact .of_stay rfl fun h => by cases h
      | flat hbefore hturn =>
          cases hturn with
          | stay expecting read => exact .of_stay rfl fun h => by cases h
          | leave hclose => exact .of_leave rfl rfl

theorem awaitsGroup_of_isSuspended {body : Body} (h : body.isSuspended) :
    body.awaitsGroup = false := by
  cases body with
  | query q =>
      change q.mode.awaitsGroup = false
      cases hmode : q.mode <;> simp_all [Body.isSuspended, Mode.isWaiting, Mode.awaitsGroup]
  | expression scope => rfl
  | flat f => rfl

theorem Surroundings.bodyWords_expression (w : Surroundings) (scope : Scope) :
    (w.expression scope).bodyWords = [] := by
  unfold expression
  split
  · rfl
  · rfl

theorem Surroundings.bodyWords_subquery (w : Surroundings) (scope : Scope) :
    (w.subquery scope).bodyWords = [] := by
  unfold subquery
  split
  · rfl
  · rfl

/-- No group begins in the middle of a definition. -/
theorem bodyWords_of_enter {body : Body} (h : (s.outcome limit t rest).action = .enter body) :
    body.bodyWords = [] := by
  cases enters_of_enter h with
  | expression scope => exact Surroundings.bodyWords_expression _ scope
  | subquery scope => exact Surroundings.bodyWords_subquery _ scope
  | operand q =>
      rw [Query.operandGroup]
      split
      · rfl
      · split
        · rfl
        · split <;> rfl

/-- Behind a token the innermost group awaits a group only if the token leads one. -/
theorem isLedBy_step (limit : Nat) (t : Token) (rest : List Token) (hs : IsNest s.top s.below)
    {last : Option Token} (h : s.IsLedBy last) : (s.step limit t rest).IsLedBy (some t) := by
  have hleads := outcome_leads limit t rest h.words
  refine isLedBy_of_awaitsGroup fun hawaits => ?_
  cases outcome_shift limit t rest hs with
  | stay haction =>
      rw [step_of_stay haction] at hawaits ⊢
      exact hleads.awaits hawaits
  | enter body haction hopen =>
      rw [step_of_enter haction]
      refine ⟨leadsGroup_of_isMark hopen (Or.inr rfl), ?_⟩
      change body.bodyWords ⊆ _
      rw [bodyWords_of_enter haction]
      exact List.nil_subset _
  | leave haction hclose hinner hbelow =>
      obtain ⟨outer, below, hbelow⟩ := List.exists_cons_of_ne_nil hbelow
      rw [hbelow] at hs
      rw [step_of_leave haction hbelow, awaitsGroup_of_isSuspended
        ((Frame.absorb_mode _ _).2.2.1.trans hs.2.1)] at hawaits
      cases hawaits

theorem isLedBy_advance (limit : Nat) (vs us : List Token) :
    (start.advance limit vs us).IsLedBy us.getLast? := by
  induction us using List.reverseRecOn generalizing vs with
  | nil => exact ⟨Bool.noConfusion, List.nil_subset _⟩
  | append_singleton us t ih =>
      rw [advance_append, List.getLast?_concat]
      exact isLedBy_step limit t vs (isNest_advance limit _ us isNest_start) (ih (t :: vs))

/-- A group that is searched for tables starts a subquery or stands right behind a token
that leads one. -/
theorem leads_of_enter {us vs : List Token} {body : Body}
    (haction : ((start.advance limit (t :: vs) us).outcome limit t vs).action = .enter body)
    (hquery : body.isQuery) : vs.head?.any startsSubquery ∨ us.getLast?.any leadsGroup := by
  have hled := isLedBy_advance limit (t :: vs) us
  exact ((outcome_leads limit t vs hled.words).opens body haction hquery).imp_right hled.leads

end Scan

end SqlTables
