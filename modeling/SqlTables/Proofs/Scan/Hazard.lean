import SqlTables.Proofs.Scan.Weaker

/-!
# What a flat group overlooks

A flat group looks for names after `FROM` and `JOIN` only. `Hazard` lists the ways in
which a scan that goes on to open groups may find more: `Scan.meets` says whether it does,
at a point where as many groups are open as the limit allows.

What a flat group does look for is `Flat.Reads`; where a query begins to read a table is
`Query.Begins`.
-/

namespace SqlTables

namespace Scan

open Token

/-- What a flat group may overlook. -/
inductive Hazard
  /-- A table that no `FROM` or `JOIN` leads: one further down a list, or what is written. -/
  | unled
  /-- The beginning of a `MERGE`, or the word that leads its source. -/
  | merging
  /-- A bound name that ends in a dot, and so is not known to be complete. -/
  | dangling
deriving DecidableEq

/-- Whether what is written comes next. -/
def Mode.expectsTarget : Mode → Bool
  | .target | .targetName | .createName _ => true
  | _ => false

/-- Whether the tokens before a table, the latest first, lead a flat group to it: `FROM` or
`JOIN` and parentheses behind, or parentheses of which the first opens the flat group. A
word behind a dot is read as a part of a name. -/
def isLed (limit depth : Nat) : List Token → Bool
  | [] => false
  | t :: read =>
    if t.isMark '(' then depth ≤ limit || isLed limit (depth - 1) read
    else t.isAnyKeyword [.FROM, .JOIN] && !read.head?.any fun u => u.isMark '.'

/-- Whether the token names a table to which a flat group would not be led. -/
def Query.startsUnled (limit depth : Nat) (read : List Token) (q : Query) (t : Token) : Bool :=
  isCandidate t &&
    (q.mode.expectsTarget || q.mode.expectsTable && !isLed limit depth read)

/-- Whether the tokens complete a bound name that ends in a dot. -/
def Query.completesBound (q : Query) (rest : List Token) : Bool :=
  q.mode.pending?.any fun n =>
    n.dangling && (rest.head?.bind n.extend?).isNone && (n.single?.bind q.scope.lookup?).isSome

/-- Whether the scan meets the hazard with the next token, those of `read` before it, the
latest first. The scan has a limit of its own. -/
def Hazard.isNext (limit unlimited : Nat) (h : Hazard) (read : List Token) (s : Scan)
    (rest : List Token) : Bool :=
  limit ≤ s.below.length &&
    match h, s.top.body, rest with
    | .unled, .query q, t :: _ => q.startsUnled limit s.below.length read t
    | .merging, _, t :: after => (s.outcome unlimited t after).merging.isSome
    | .dangling, .query q, rest => q.completesBound rest
    | _, _, _ => false

/-- Whether the scan meets the hazard at some of the tokens. -/
def meets (limit unlimited : Nat) (h : Hazard) (read : List Token) (s : Scan) :
    List Token → Bool
  | [] => h.isNext limit unlimited read s []
  | t :: rest =>
    h.isNext limit unlimited read s (t :: rest) ||
      meets limit unlimited h (t :: read) (s.step unlimited t rest) rest

variable {limit unlimited : Nat} {s : Scan} {t : Token} {read rest xs ys : List Token}
  {h : Hazard}

theorem not_isNext_of_not_meets (hmeets : ¬ s.meets limit unlimited h read (xs ++ ys)) :
    ¬ h.isNext limit unlimited (xs.reverse ++ read) (s.advance unlimited ys xs) ys := by
  induction xs generalizing s read with
  | nil =>
      cases ys with
      | nil => exact hmeets
      | cons t ys =>
          rw [List.nil_append, meets, Bool.or_eq_true, not_or] at hmeets
          exact hmeets.1
  | cons t xs ih =>
      rw [List.cons_append, meets, Bool.or_eq_true, not_or] at hmeets
      rw [advance_cons, List.reverse_cons, List.append_assoc]
      exact ih hmeets.2

/-! ## Words that lead a flat group -/

theorem isLed_open (ht : t.isMark '(') {depth : Nat} (hdepth : limit < depth) :
    isLed limit depth (t :: read) = isLed limit (depth - 1) read := by
  rw [isLed, if_pos ht, decide_eq_false (Nat.not_le.mpr hdepth), Bool.false_or]

theorem of_isLed (ht : ¬ t.isMark '(') {depth : Nat} (h : isLed limit depth (t :: read)) :
    t.isAnyKeyword [.FROM, .JOIN] ∧ ¬ read.head?.any fun u => u.isMark '.' := by
  rw [isLed, if_neg ht, Bool.and_eq_true, Bool.not_eq_true'] at h
  exact ⟨h.1, by simp [h.2]⟩

/-! ## What a flat group reads -/

/-- What becomes of a flat group with a token that does not close it. -/
structure Flat.Reads (f : Flat) (t : Token) (g : Flat) : Prop where
  scope : g.scope = f.scope
  depth : g.depth = nest f.depth t
  extend : ∀ n longer, f.read = some n → n.extend? t = some longer → g.read = some longer
  candidate : f.expecting → f.read = none → isCandidate t → g.read = some (.ofToken t)
  opened : f.expecting → f.read = none → t.isMark '(' → g.expecting ∧ g.read = none
  led : t.isAnyKeyword [.FROM, .JOIN] → (∀ n, f.read = some n → n.dangling = false) →
    g.expecting ∧ g.read = none

theorem Flat.merging_step (f : Flat) (t : Token) : (f.step t).merging = none := by
  rcases f.step_turn t with ⟨n, longer, -, -, heq⟩ | ⟨before, -, hturn⟩
  · rw [heq]
  · generalize f.step t = o at hturn
    cases hturn <;> rfl

theorem Flat.plainStep_eq (f : Flat) (expecting : Bool) (hclose : t.isMark ')' → 0 < f.depth) :
    ∃ next, f.plainStep expecting t =
        { body := .flat ⟨f.scope, nest f.depth t, next, none⟩ } ∧
      (t.isMark '(' → next = expecting) ∧
      (t.isAnyKeyword [.FROM, .JOIN] → next = true) := by
  unfold plainStep
  by_cases hopen : t.isMark '('
  · rw [if_pos hopen, nest_open hopen]
    exact ⟨expecting, rfl, fun _ => rfl,
      fun hword => absurd hopen (not_isMark_of_isAnyKeyword hword '(')⟩
  · rw [if_neg hopen]
    by_cases hmark : t.isMark ')'
    · obtain ⟨d, hd⟩ := Nat.exists_eq_succ_of_ne_zero (Nat.ne_of_gt (hclose hmark))
      rw [if_pos hmark, nest_close hmark, hd]
      exact ⟨false, rfl, fun h => absurd h hopen,
        fun hword => absurd hmark (not_isMark_of_isAnyKeyword hword ')')⟩
    · rw [if_neg hmark, nest_other hopen hmark]
      exact ⟨_, rfl, fun h => absurd h hopen, id⟩

/-- A token that continues the name. -/
theorem Flat.reads_extend {f : Flat} {n longer : DottedName} (hread : f.read = some n)
    (hn : n.extend? t = some longer) : f.Reads t { f with read := some longer } where
  scope := rfl
  depth := by
    obtain ⟨hopen, hclose⟩ := DottedName.not_isMark_of_extend? hn
    exact (nest_other hopen hclose _).symm
  extend m longer' hm hlonger' := by
    rw [hread, Option.some.injEq] at hm
    rwa [← hm, hn] at hlonger'
  candidate _ hnone _ := by
    rw [hread] at hnone
    cases hnone
  opened _ hnone _ := by
    rw [hread] at hnone
    cases hnone
  led hword hdangling := by
    have hdot : ¬ t.isMark '.' := not_isMark_of_isAnyKeyword hword '.'
    rw [extend?_of_not_dot (hdangling n hread) hdot] at hn
    cases hn

/-- A token that starts a name. -/
theorem Flat.reads_candidate {f : Flat} (hread : f.read = none) (ht : isCandidate t) :
    f.Reads t { f with expecting := false, read := some (.ofToken t) } where
  scope := rfl
  depth :=
    (nest_other (not_isMark_of_isCandidate ht '(') (not_isMark_of_isCandidate ht ')') _).symm
  extend n longer hn := by
    rw [hread] at hn
    cases hn
  candidate _ _ _ := rfl
  opened _ _ hopen := absurd hopen (not_isMark_of_isCandidate ht '(')
  led hword := absurd hword (not_isAnyKeyword_of_isCandidate ht (by decide))

/-- A token that belongs to no name. -/
theorem Flat.reads_plain {f : Flat} {next : Bool}
    (hname : ∀ n, f.read = some n → n.extend? t = none)
    (hcandidate : f.expecting → f.read = none → ¬ isCandidate t)
    (hopened : f.expecting → f.read = none → t.isMark '(' → next)
    (hled : t.isAnyKeyword [.FROM, .JOIN] → next) :
    f.Reads t ⟨f.scope, nest f.depth t, next, none⟩ where
  scope := rfl
  depth := rfl
  extend n longer hread hn := by
    rw [hname n hread] at hn
    cases hn
  candidate hexpecting hnone ht := absurd ht (hcandidate hexpecting hnone)
  opened hexpecting hnone hopen := ⟨hopened hexpecting hnone hopen, rfl⟩
  led hword _ := ⟨hled hword, rfl⟩

theorem Flat.step_reads (f : Flat) (hclose : t.isMark ')' → 0 < f.depth) :
    ∃ g, f.Reads t g ∧ (f.step t).body = .flat g ∧ (f.step t).action = .stay := by
  unfold Flat.step
  cases hread : f.read with
  | some n =>
      dsimp only
      cases hn : n.extend? t with
      | some longer => exact ⟨_, reads_extend hread hn, rfl, rfl⟩
      | none =>
          obtain ⟨next, heq, -, hled⟩ := f.plainStep_eq false hclose
          refine ⟨⟨f.scope, nest f.depth t, next, none⟩, reads_plain ?_ ?_ ?_ hled, ?_⟩
          · intro m hm
            rw [hread, Option.some.injEq] at hm
            rwa [← hm]
          · intro _ hnone
            rw [hread] at hnone
            cases hnone
          · intro _ hnone
            rw [hread] at hnone
            cases hnone
          · dsimp only
            rw [heq]
            split <;> exact ⟨rfl, rfl⟩
  | none =>
      dsimp only
      split
      · next ht => exact ⟨_, reads_candidate hread ht.2, rfl, rfl⟩
      · next ht =>
          obtain ⟨next, heq, hopened, hled⟩ := f.plainStep_eq f.expecting hclose
          rw [heq]
          refine ⟨⟨f.scope, nest f.depth t, next, none⟩, reads_plain ?_ ?_ ?_ hled, rfl, rfl⟩
          · intro m hm
            rw [hread] at hm
            cases hm
          · exact fun hexpecting _ hcandidate => ht ⟨hexpecting, hcandidate⟩
          · exact fun hexpecting _ hopen => (hopened hopen).trans hexpecting

/-! ## Where a query begins to read a table -/

/-- Neither a name is read next nor a group that begins with a table. -/
def Outcome.BeginsNone (o : Outcome) : Prop :=
  o.body.pending? = none ∧ ∀ body, o.action = .enter body → body.expectsTable = false

theorem Outcome.beginsNone_of_stay {o : Outcome} (hpending : o.body.pending? = none)
    (haction : o.action = .stay) : o.BeginsNone :=
  ⟨hpending, fun body henter => by
    rw [haction] at henter
    cases henter⟩

/-- How a token may begin to read a table in a query, or go on with one. -/
inductive Query.Begins (q : Query) (t : Token) : Outcome → Prop
  | none {o : Outcome} (h : o.BeginsNone) : Query.Begins q t o
  | extend {purpose : Purpose} {n longer : DottedName} (hmode : q.mode = .name purpose n)
      (hn : n.extend? t = some longer) :
      Query.Begins q t { body := .query (q.goto (.name purpose longer)) }
  | operand {follow : Follow} (hmode : q.mode = .operand follow) (ht : isCandidate t) :
      Query.Begins q t { body := .query (q.goto (.name (.operand follow) (.ofToken t))) }
  | target {purpose : Purpose} (hmode : q.mode.expectsTarget) (ht : isCandidate t) :
      Query.Begins q t { body := .query (q.goto (.name purpose (.ofToken t))) }
  | group {follow : Follow} {body : Body} (hmode : q.mode.expectsTable) :
      Query.Begins q t { body := .query (q.goto (.operandEnd follow)), action := .enter body }

namespace Query

variable {w : Surroundings} {q : Query}

theorem expectsTable_expression (w : Surroundings) (scope : Scope) :
    (w.expression scope).expectsTable = false := by
  unfold Surroundings.expression
  split
  · rfl
  · rfl

theorem expectsTable_subquery (w : Surroundings) (scope : Scope) :
    (w.subquery scope).expectsTable = false := by
  unfold Surroundings.subquery
  split
  · rfl
  · rfl

theorem beginsNone_stay {mode : Mode} (q : Query) (h : mode.pending? = none) :
    Outcome.BeginsNone { body := .query (q.goto mode) } :=
  Outcome.beginsNone_of_stay h rfl

theorem beginsNone_expression {mode : Mode} (q : Query) (h : mode.pending? = none)
    (scope : Scope) (diagnostics : List Diagnostic) :
    Outcome.BeginsNone
      ⟨.query (q.goto mode), .enter (w.expression scope), [], diagnostics, none⟩ :=
  ⟨h, fun body henter => by
    rw [← Action.enter.inj henter]
    exact expectsTable_expression w scope⟩

theorem clauseStep_beginsNone (fresh : Bool) : (clauseStep w q fresh t rest).BeginsNone := by
  unfold clauseStep
  split
  · refine ⟨rfl, fun body henter => ?_⟩
    dsimp only at henter
    split at henter <;> cases henter
  · refine ⟨rfl, fun body henter => ?_⟩
    rw [← Action.enter.inj henter]
    split
    · exact expectsTable_subquery _ _
    · exact expectsTable_expression _ _
  · dsimp only
    repeat' split
    all_goals exact Outcome.beginsNone_of_stay rfl rfl
  · exact beginsNone_stay q rfl

theorem listedStep_beginsNone : (listedStep w q t rest).BeginsNone := by
  unfold listedStep
  split
  · exact beginsNone_stay q rfl
  · exact clauseStep_beginsNone _

theorem followStep_beginsNone (follow : Follow) :
    (followStep w q follow t rest).BeginsNone := by
  cases follow with
  | list => exact listedStep_beginsNone
  | clause => exact clauseStep_beginsNone _

theorem columnsStep_beginsNone (follow : Follow) :
    (columnsStep w q follow t rest).BeginsNone := by
  unfold columnsStep
  split
  · exact beginsNone_expression q (Mode.pending?_of_isWaiting (by simp)) _ _
  · exact followStep_beginsNone _

theorem aliasStep_beginsNone (follow : Follow) : (aliasStep w q follow t rest).BeginsNone := by
  unfold aliasStep
  split
  · exact Outcome.beginsNone_of_stay rfl rfl
  · split
    · exact beginsNone_stay q rfl
    · exact followStep_beginsNone _

theorem sampleStep_beginsNone (follow : Follow) :
    (sampleStep w q follow t rest).BeginsNone := by
  unfold sampleStep
  split
  · exact beginsNone_expression q rfl _ _
  · exact aliasStep_beginsNone _

theorem operandEndStep_beginsNone (follow : Follow) :
    (operandEndStep w q follow t rest).BeginsNone := by
  unfold operandEndStep
  split
  · exact beginsNone_stay q rfl
  · exact aliasStep_beginsNone _

theorem nameEndStep_beginsNone (purpose : Purpose) (n : DottedName) :
    (nameEndStep w q purpose n t rest).BeginsNone := by
  have hend (follow : Follow) : (operandEndStep w q follow t rest).BeginsNone :=
    operandEndStep_beginsNone follow
  unfold nameEndStep
  cases purpose with
  | operand follow =>
      dsimp only
      split
      · exact beginsNone_expression q rfl _ _
      · exact hend follow
  | target => exact hend .clause
  | created =>
      have hclause : (clauseStep w q false t rest).BeginsNone := clauseStep_beginsNone false
      dsimp only
      split
      · exact hclause
      · exact hclause

theorem createStep_beginsNone : (createStep w q t rest).BeginsNone := by
  unfold createStep
  split
  · exact beginsNone_stay q rfl
  · split
    · exact beginsNone_stay q rfl
    · exact clauseStep_beginsNone _

theorem cteFailure_beginsNone (clause : Span) :
    (cteFailure w q clause t rest).BeginsNone := by
  have hclause : (clauseStep w q true t rest).BeginsNone := clauseStep_beginsNone true
  exact hclause

theorem cteNameStep_beginsNone (clause : Span) (first : Bool) :
    (cteNameStep w q clause first t rest).BeginsNone := by
  unfold cteNameStep
  split
  · exact beginsNone_stay q rfl
  · split
    · exact Outcome.beginsNone_of_stay rfl rfl
    · exact cteFailure_beginsNone _

theorem cteAsStep_beginsNone (clause : Span) : (cteAsStep w q clause t rest).BeginsNone := by
  unfold cteAsStep
  split
  · exact beginsNone_stay q rfl
  · exact cteFailure_beginsNone _

theorem cteColumnsStep_beginsNone (clause : Span) :
    (cteColumnsStep w q clause t rest).BeginsNone := by
  unfold cteColumnsStep
  split
  · exact beginsNone_expression q rfl _ _
  · exact cteAsStep_beginsNone _

theorem cteBodyStep_beginsNone (clause : Span) (optional : List Keyword) :
    (cteBodyStep w q clause optional t rest).BeginsNone := by
  unfold cteBodyStep
  split
  · exact beginsNone_stay q rfl
  · split
    · refine ⟨rfl, fun body henter => ?_⟩
      rw [← Action.enter.inj henter]
      exact expectsTable_subquery _ _
    · exact cteFailure_beginsNone _

theorem cteNextStep_beginsNone (clause : Span) :
    (cteNextStep w q clause t rest).BeginsNone := by
  unfold cteNextStep
  split
  · exact beginsNone_stay q rfl
  · exact clauseStep_beginsNone _

theorem operandStep_begins {follow : Follow} (hmode : q.mode = .operand follow) :
    q.Begins t (operandStep w q follow t rest) := by
  unfold operandStep
  split
  · exact .none (beginsNone_stay q rfl)
  · split
    · exact .group (by rw [hmode]; rfl)
    · split
      · next ht => exact .operand hmode ht
      · exact .none (followStep_beginsNone _)

theorem nameStep_begins {purpose : Purpose} {n : DottedName} (hmode : q.mode = .name purpose n) :
    q.Begins t (nameStep w q purpose n t rest) := by
  unfold nameStep
  split
  · next longer hn => exact .extend hmode hn
  · exact .none (nameEndStep_beginsNone _ _)

theorem targetNameStep_begins (hmode : q.mode.expectsTarget) :
    q.Begins t (targetNameStep w q t rest) := by
  unfold targetNameStep
  split
  · next ht => exact .target hmode ht
  · exact .none (clauseStep_beginsNone _)

theorem targetStep_begins (hmode : q.mode.expectsTarget) :
    q.Begins t (targetStep w q t rest) := by
  unfold targetStep
  split
  · exact .none (beginsNone_stay q rfl)
  · exact targetNameStep_begins hmode

theorem createNameStep_begins (optional : List Keyword) (hmode : q.mode.expectsTarget) :
    q.Begins t (createNameStep w q optional t rest) := by
  unfold createNameStep
  split
  · exact .none (beginsNone_stay q rfl)
  · split
    · next ht => exact .target hmode ht
    · exact .none (clauseStep_beginsNone _)

/-- How a token may begin to read a table, or go on with one, in every mode. -/
theorem step_begins (w : Surroundings) (q : Query) (t : Token) (rest : List Token) :
    q.Begins t (q.step w t rest) := by
  have htarget {mode : Mode} (hmode : q.mode = mode) (h : mode.expectsTarget) :
      q.mode.expectsTarget := by rwa [hmode]
  unfold step
  cases hmode : q.mode with
  | clauses fresh => exact .none (clauseStep_beginsNone fresh)
  | operand follow => exact operandStep_begins hmode
  | listed => exact .none listedStep_beginsNone
  | target => exact targetStep_begins (htarget hmode rfl)
  | targetName => exact targetNameStep_begins (htarget hmode rfl)
  | name purpose n => exact nameStep_begins hmode
  | operandEnd follow => exact .none (operandEndStep_beginsNone follow)
  | sample follow => exact .none (sampleStep_beginsNone follow)
  | «alias» follow => exact .none (aliasStep_beginsNone follow)
  | columns follow => exact .none (columnsStep_beginsNone follow)
  | create => exact .none createStep_beginsNone
  | createName optional => exact createNameStep_begins optional (htarget hmode rfl)
  | cteName clause first => exact .none (cteNameStep_beginsNone clause first)
  | cteColumns clause => exact .none (cteColumnsStep_beginsNone clause)
  | cteAs clause => exact .none (cteAsStep_beginsNone clause)
  | cteBody clause optional => exact .none (cteBodyStep_beginsNone clause optional)
  | cteNext clause => exact .none (cteNextStep_beginsNone clause)

end Query

/-- Outside flat groups, only a query begins to read a table. -/
theorem outcome_begins (limit : Nat) (t : Token) (rest : List Token)
    (hflat : s.top.body.kind ≠ .flat) :
    (s.outcome limit t rest).BeginsNone ∨
      ∃ q, s.top.body = .query q ∧ q.Begins t (s.outcome limit t rest) := by
  cases hbody : s.top.body with
  | query q =>
      refine Or.inr ⟨q, rfl, ?_⟩
      rw [outcome_query hbody]
      exact q.step_begins _ _ _
  | expression scope =>
      refine Or.inl ?_
      unfold outcome
      rw [hbody]
      dsimp only
      split
      · refine ⟨rfl, fun body henter => ?_⟩
        rw [← Action.enter.inj henter]
        split
        · exact Query.expectsTable_subquery _ _
        · exact Query.expectsTable_expression _ _
      · split
        · exact ⟨rfl, fun body henter => by cases henter⟩
        · exact Outcome.beginsNone_of_stay rfl rfl
  | flat f =>
      rw [hbody] at hflat
      exact absurd rfl hflat

/-- A group that begins with a table is opened only where a table is expected. -/
theorem expectsTable_of_enter {body : Body} (hflat : s.top.body.kind ≠ .flat)
    (haction : (s.outcome limit t rest).action = .enter body) (hexpects : body.expectsTable) :
    s.top.body.expectsTable := by
  rcases outcome_begins limit t rest hflat with hnone | ⟨q, hbody, hbegins⟩
  · rw [hnone.2 body haction] at hexpects
    cases hexpects
  · rw [hbody]
    generalize s.outcome limit t rest = o at haction hbegins
    cases hbegins with
    | none hnone =>
        rw [hnone.2 body haction] at hexpects
        cases hexpects
    | group hmode => exact hmode
    | _ => cases haction

end Scan

end SqlTables
