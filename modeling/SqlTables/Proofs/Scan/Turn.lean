import Mathlib.Tactic.Common
import SqlTables.Scan.Query
import SqlTables.Proofs.Token.Parenthesis

/-!
# What a token does to a query

`Query.step` has a function for each mode. `Query.Turn` says once what all of
them may do with a token: go to another mode, start a branch, define an alias or
a common table expression, open a group, or close the one around. Everything
that holds of every step is read off `step_turn`, so no later proof goes through
the modes again.

A name that is being read goes on or is complete, and then its reference stands
before whatever else the token brings.
-/

namespace SqlTables

namespace DottedName

/-- No mark but a dot continues a name. -/
theorem extend?_eq_none_of_isMark {n : DottedName} {t : Token} {c : Char} (h : t.isMark c)
    (hc : c ≠ '.') : n.extend? t = none := by
  simp [extend?, Token.isName, Token.keyword?, Token.isMark, Token.kind_of_isMark h, hc]

end DottedName

namespace Scan

theorem not_isMark_of_isCandidate {t : Token} (h : isCandidate t) (c : Char) : ¬ t.isMark c := by
  rw [isCandidate, Bool.or_eq_true] at h
  rcases h with h | h
  · exact Token.not_isMark_of_isName h c
  · exact Token.not_isMark_of_isAnyKeyword h c

/-- A word that cannot name a table starts none. -/
theorem not_isKeyword_of_isCandidate {t : Token} (h : isCandidate t) {word : Keyword}
    (hword : word ∉ nonReserved) : ¬ t.isKeyword word := by
  intro hk
  simp only [isCandidate, Token.isName, Token.isAnyKeyword, Token.kind_of_isKeyword hk,
    Bool.false_or, List.contains_iff_mem] at h
  exact hword h

theorem not_isAnyKeyword_of_isCandidate {t : Token} (h : isCandidate t) {words : List Keyword}
    (hwords : ∀ word ∈ words, word ∉ nonReserved) : ¬ t.isAnyKeyword words := by
  intro ht
  obtain ⟨word, hword, hkeyword⟩ := Token.isAnyKeyword_iff.mp ht
  exact not_isKeyword_of_isCandidate h (hwords word hword) hkeyword

theorem extend?_of_not_dot {n : DottedName} {t : Token} (hn : n.dangling = false)
    (ht : ¬ t.isMark '.') : n.extend? t = none := by
  simp [DottedName.extend?, hn, ht]

namespace Mode

/-- The name that is being read. -/
def pending? : Mode → Option DottedName
  | .name _ n => some n
  | _ => none

/-- Whether the words after a `CREATE` are being read. -/
def isCreating : Mode → Bool
  | .create | .createName _ | .name .created _ => true
  | _ => false

/-- Whether a `WITH` clause is being read. -/
def isDefining : Mode → Bool
  | .cteName _ _ | .cteColumns _ | .cteAs _ | .cteBody _ _ | .cteNext _ => true
  | _ => false

/-- Whether a parenthesis holds the column names or the body of a common table
expression. -/
def opensDefinition : Mode → Bool
  | .cteColumns _ | .cteBody _ _ => true
  | _ => false

/-- Whether the mode is one that a query has while a group in it is open. -/
def isWaiting : Mode → Bool
  | .clauses fresh => !fresh
  | .operandEnd _ | .listed | .alias _ | .cteAs _ | .cteNext _ => true
  | _ => false

theorem pending?_of_isWaiting {m : Mode} (h : m.isWaiting) : m.pending? = none := by
  cases m <;> simp_all [isWaiting, pending?]

theorem isCreating_of_isWaiting {m : Mode} (h : m.isWaiting) : m.isCreating = false := by
  cases m <;> simp_all [isWaiting, isCreating]

@[simp] theorem isWaiting_follow (follow : Follow) : follow.mode.isWaiting := by
  cases follow <;> rfl

@[simp] theorem isDefining_follow (follow : Follow) : follow.mode.isDefining = false := by
  cases follow <;> rfl

end Mode

/-- The words that start another branch of a query. -/
def setOperators : List Keyword := [.UNION, .INTERSECT, .EXCEPT, .MINUS]

namespace Query

/-- The query with its table list over, unless `first`, in another mode. -/
def turnTo (q : Query) (first : Bool) (mode : Mode) : Query :=
  { q with inFirstList := first, mode }

/-- The groups that a `(` may open in a query. -/
inductive Opens (w : Surroundings) (q : Query) (rest : List Token) : Body → Prop
  | expression (scope : Scope)
      (h : scope = q.scope ∨ scope = q.base ∧ q.mode.opensDefinition) :
      Opens w q rest (w.expression scope)
  | subquery (scope : Scope)
      (h : scope = q.scope ∨ scope = q.base ∧ q.mode.opensDefinition) :
      Opens w q rest (w.subquery scope)
  | operand : Opens w q rest (operandGroup w q rest)

/-- The outcomes of a token that continues no name, where `before` are the
references that it completes. -/
inductive Turn (w : Surroundings) (q : Query) (t : Token) (rest : List Token) :
    List Reference → Outcome → Prop
  | goto {before : List Reference} (first : Bool) (mode : Mode)
      (diagnostics : List Diagnostic) (merging : Option Bool)
      (hopen : ¬ t.isMark '(') (hclose : ¬ t.isMark ')')
      (hfirst : first → q.inFirstList)
      (hname : mode.pending? = none ∨
        mode.pending? = some (.ofToken t) ∧ isCandidate t)
      (hcreate : mode.isCreating → q.mode.isCreating ∨ t.isKeyword .CREATE)
      (hmerge : merging.isSome → t.isKeyword .MERGE ∨ t.isKeyword .USING)
      (hdefine : mode.isDefining → q.mode.isDefining ∨ t.isKeyword .WITH)
      (hmerging : merging = some true → t.isKeyword .MERGE) :
      Turn w q t rest before
        ⟨.query (q.turnTo first mode), .stay, before, diagnostics, merging⟩
  | branch {before : List Reference} (first : Bool) (diagnostics : List Diagnostic)
      (hopen : ¬ t.isMark '(') (hclose : ¬ t.isMark ')')
      (hfirst : first → q.inFirstList) (hword : t.isAnyKeyword setOperators) :
      Turn w q t rest before
        ⟨.query (q.turnTo first (.clauses false)).newBranch, .stay, before,
          diagnostics, none⟩
  | defineAlias {before : List Reference} (follow : Follow)
      (diagnostics : List Diagnostic) (hname : t.isName) :
      Turn w q t rest before
        ⟨.query ((q.defineAlias t.value).goto (.columns follow)), .stay,
          before ++ [{ parts := [t.value], span := t.span, role := .aliasDefinition }],
          diagnostics, none⟩
  | defineCte {before : List Reference} (clause : Span)
      (diagnostics : List Diagnostic) (hname : t.isName) (hdefine : q.mode.isDefining) :
      Turn w q t rest before
        ⟨.query ((q.defineCte t.value).goto (.cteColumns clause)), .stay,
          before ++ [{ parts := [t.value], span := t.span, role := .cteDefinition }],
          diagnostics, none⟩
  | enter {before : List Reference} (first : Bool) (mode : Mode) (body : Body)
      (diagnostics : List Diagnostic)
      (hopen : t.isMark '(') (hfirst : first → q.inFirstList)
      (hwait : mode.isWaiting) (hbody : q.Opens w rest body)
      (hdefine : mode.isDefining → q.mode.isDefining) :
      Turn w q t rest before
        ⟨.query (q.turnTo first mode), .enter body, before, diagnostics, none⟩
  | leave {before : List Reference} (first : Bool)
      (diagnostics : List Diagnostic)
      (hclose : t.isMark ')') (hfirst : first → q.inFirstList) :
      Turn w q t rest before
        ⟨.query (q.turnTo first (.clauses false)), if w.nested then .leave else .stay,
          before, diagnostics, none⟩

namespace Turn

variable {w : Surroundings} {q : Query} {t : Token} {rest : List Token}
  {before : List Reference} {o : Outcome}

theorem found (h : Turn w q t rest before o) (r : Reference) :
    Turn w q t rest (r :: before) (o.found r) := by
  cases h with
  | goto first mode d g ho hc hf hn hcr hm hd hmg =>
      exact .goto first mode d g ho hc hf hn hcr hm hd hmg
  | branch first d ho hc hf hw => exact .branch first d ho hc hf hw
  | defineAlias follow d hn => exact .defineAlias follow d hn
  | defineCte clause d hn hd => exact .defineCte clause d hn hd
  | enter first mode body d ho hf hw hb hd => exact .enter first mode body d ho hf hw hb hd
  | leave first d hc hf => exact .leave first d hc hf

theorem reported (h : Turn w q t rest before o) (e : Diagnostic) :
    Turn w q t rest before (o.reported e) := by
  cases h with
  | goto first mode d g ho hc hf hn hcr hm hd hmg =>
      exact .goto first mode (e :: d) g ho hc hf hn hcr hm hd hmg
  | branch first d ho hc hf hw => exact .branch first (e :: d) ho hc hf hw
  | defineAlias follow d hn => exact .defineAlias follow (e :: d) hn
  | defineCte clause d hn hd => exact .defineCte clause (e :: d) hn hd
  | enter first mode body d ho hf hw hb hd =>
      exact .enter first mode body (e :: d) ho hf hw hb hd
  | leave first d hc hf => exact .leave first (e :: d) hc hf

end Turn

open Token

variable {w : Surroundings} {q : Query} {t : Token} {rest : List Token}

/-- A token that is no parenthesis and leads to a mode in which no name is read. -/
theorem Turn.of_goto {mode : Mode} (hmark : ∀ c, c = '(' ∨ c = ')' → ¬ t.isMark c)
    (hname : mode.pending? = none) (hcreate : mode.isCreating → q.mode.isCreating)
    (hdefine : mode.isDefining → q.mode.isDefining) :
    Turn w q t rest [] { body := .query (q.goto mode) } :=
  .goto q.inFirstList mode [] none (hmark '(' (Or.inl rfl)) (hmark ')' (Or.inr rfl))
    id (Or.inl hname) (fun h => Or.inl (hcreate h)) (by simp)
    (fun h => Or.inl (hdefine h)) (by simp)

/-- A token that starts a name. -/
theorem Turn.of_candidate {purpose : Purpose} (ht : isCandidate t)
    (hcreate : purpose = .created → q.mode.isCreating) :
    Turn w q t rest [] { body := .query (q.goto (.name purpose (.ofToken t))) } := by
  refine .goto q.inFirstList _ [] none (not_isMark_of_isCandidate ht '(')
    (not_isMark_of_isCandidate ht ')') id (Or.inr ⟨rfl, ht⟩) ?_ (by simp)
    (by simp [Mode.isDefining]) (by simp)
  intro h
  cases purpose with
  | operand follow => cases h
  | target => cases h
  | created => exact Or.inl (hcreate rfl)

section Words

variable {word : Keyword} {first : Bool} (hk : t.kind = .keyword word)
  (hfirst : first → q.inFirstList)
include hk hfirst

/-- A keyword that leads to another mode. -/
theorem Turn.of_word (mode : Mode) (merging : Option Bool) (hname : mode.pending? = none)
    (hcreate : mode.isCreating → word = .CREATE)
    (hmerge : merging.isSome → word = .MERGE ∨ word = .USING)
    (hdefine : mode.isDefining → word = .WITH) (hmerging : merging = some true → word = .MERGE) :
    Turn w q t rest [] ⟨.query (q.turnTo first mode), .stay, [], [], merging⟩ := by
  have hword {word' : Keyword} (h : word = word') : t.isKeyword word' := by
    simp [isKeyword, hk, h]
  exact .goto first mode [] merging (by simp [isMark, hk]) (by simp [isMark, hk]) hfirst
    (Or.inl hname) (fun h => Or.inr (hword (hcreate h)))
    (fun h => (hmerge h).imp hword hword) (fun h => Or.inr (hword (hdefine h)))
    (fun h => hword (hmerging h))

/-- A keyword that neither creates nor defines nor merges. -/
theorem Turn.of_plainWord (mode : Mode) (hname : mode.pending? = none)
    (hcreate : mode.isCreating = false) (hdefine : mode.isDefining = false) :
    Turn w q t rest [] ⟨.query (q.turnTo first mode), .stay, [], [], none⟩ :=
  .of_word hk hfirst mode none hname (by simp [hcreate]) (by simp) (by simp [hdefine]) (by simp)

theorem Turn.of_setOperator (hword : word ∈ setOperators) :
    Turn w q t rest []
      ⟨.query (q.turnTo first (.clauses false)).newBranch, .stay, [], [], none⟩ :=
  .branch first [] (by simp [isMark, hk]) (by simp [isMark, hk]) hfirst
    (by simpa [isAnyKeyword, hk] using hword)

end Words

theorem clauseStep_turn (fresh first : Bool) (hfirst : first → q.inFirstList) :
    Turn w q t rest []
      (clauseStep w { q with inFirstList := first } fresh t rest) := by
  unfold clauseStep
  split
  · next hk =>
      exact .leave first [] (by simp [isMark, hk]) hfirst
  · next hk =>
      refine .enter first _ _ [] (by simp [isMark, hk]) hfirst rfl ?_ (by simp [Mode.isDefining])
      split
      · exact .subquery _ (Or.inl rfl)
      · exact .expression _ (Or.inl rfl)
  · next word hk =>
      have hidle : Turn w q t rest []
          ⟨.query (q.turnTo first (.clauses false)), .stay, [], [], none⟩ :=
        .of_plainWord hk hfirst _ rfl rfl rfl
      dsimp only
      split
      · exact .of_setOperator hk hfirst (by decide)
      · exact .of_setOperator hk hfirst (by decide)
      · exact .of_setOperator hk hfirst (by decide)
      · exact .of_setOperator hk hfirst (by decide)
      · split
        · exact .of_word hk hfirst _ none rfl (by simp [Mode.isCreating]) (by simp) (fun _ => rfl)
            (by simp)
        · exact hidle
      · split
        · exact hidle
        · exact .of_plainWord hk hfirst _ rfl rfl rfl
      · exact .of_plainWord hk hfirst _ rfl rfl rfl
      · exact .of_plainWord hk hfirst _ rfl rfl rfl
      · split
        · exact .of_plainWord hk hfirst _ rfl rfl rfl
        · exact hidle
      · split
        · exact .of_plainWord hk hfirst _ rfl rfl rfl
        · exact hidle
      · exact .of_word hk hfirst _ (some true) rfl (by simp [Mode.isCreating])
          (fun _ => Or.inl rfl) (by simp [Mode.isDefining]) (fun _ => rfl)
      · split
        · exact .of_word hk hfirst _ (some false) rfl (by simp [Mode.isCreating])
            (fun _ => Or.inr rfl) (by simp [Mode.isDefining]) (by simp)
        · exact hidle
      · exact .of_word hk hfirst _ none rfl (fun _ => rfl) (by simp) (by simp [Mode.isDefining])
          (by simp)
      · exact hidle
  · next hclose hopen _ =>
      refine .goto first (.clauses false) [] none ?_ ?_ hfirst (Or.inl rfl)
        (by simp [Mode.isCreating]) (by simp) (by simp [Mode.isDefining]) (by simp)
      · intro h
        simp only [isMark, beq_iff_eq] at h
        exact hopen h
      · intro h
        simp only [isMark, beq_iff_eq] at h
        exact hclose h

theorem clauseStep_turn_self (fresh : Bool) :
    Turn w q t rest [] (clauseStep w q fresh t rest) :=
  clauseStep_turn fresh q.inFirstList id

theorem listedStep_turn : Turn w q t rest [] (listedStep w q t rest) := by
  unfold listedStep
  split
  · next h =>
      refine .of_goto ?_ rfl (by simp [Mode.isCreating]) (by simp [Mode.isDefining])
      rintro c (rfl | rfl)
      · exact not_isMark_of_isMark h (by decide)
      · exact not_isMark_of_isMark h (by decide)
  · exact clauseStep_turn _ false (by simp)

theorem followStep_turn (follow : Follow) :
    Turn w q t rest [] (followStep w q follow t rest) := by
  cases follow with
  | list => exact listedStep_turn
  | clause => exact clauseStep_turn_self false

theorem columnsStep_turn (follow : Follow) :
    Turn w q t rest [] (columnsStep w q follow t rest) := by
  unfold columnsStep
  split
  · next h =>
      exact .enter q.inFirstList _ _ [] h id (Mode.isWaiting_follow follow)
        (.expression _ (Or.inl rfl)) (by simp)
  · exact followStep_turn follow

theorem aliasStep_turn (follow : Follow) :
    Turn w q t rest [] (aliasStep w q follow t rest) := by
  unfold aliasStep
  split
  · next h => exact .defineAlias follow [] h
  · split
    · next h =>
        exact .of_goto (fun c _ => not_isMark_of_isKeyword h.1 c) rfl
          (by simp [Mode.isCreating]) (by simp [Mode.isDefining])
    · exact followStep_turn follow

theorem sampleStep_turn (follow : Follow) :
    Turn w q t rest [] (sampleStep w q follow t rest) := by
  unfold sampleStep
  split
  · next h =>
      exact .enter q.inFirstList _ _ [] h id rfl (.expression _ (Or.inl rfl))
        (by simp [Mode.isDefining])
  · exact aliasStep_turn follow

theorem operandEndStep_turn (follow : Follow) :
    Turn w q t rest [] (operandEndStep w q follow t rest) := by
  unfold operandEndStep
  split
  · next h =>
      exact .of_goto (fun c _ => not_isMark_of_isKeyword h c) rfl
        (by simp [Mode.isCreating]) (by simp [Mode.isDefining])
  · exact aliasStep_turn follow

theorem operandStep_turn (follow : Follow) :
    Turn w q t rest [] (operandStep w q follow t rest) := by
  unfold operandStep
  split
  · next h =>
      exact .of_goto (fun c _ => not_isMark_of_isKeyword h c) rfl
        (by simp [Mode.isCreating]) (by simp [Mode.isDefining])
  · split
    · next h =>
        exact .enter q.inFirstList _ _ [] h id rfl .operand (by simp [Mode.isDefining])
    · split
      · next h => exact .of_candidate h (by simp)
      · exact followStep_turn follow

theorem targetNameStep_turn : Turn w q t rest [] (targetNameStep w q t rest) := by
  unfold targetNameStep
  split
  · next h => exact .of_candidate h (by simp)
  · exact clauseStep_turn_self false

theorem targetStep_turn : Turn w q t rest [] (targetStep w q t rest) := by
  unfold targetStep
  split
  · next h =>
      exact .of_goto (fun c _ => not_isMark_of_isKeyword h c) rfl
        (by simp [Mode.isCreating]) (by simp [Mode.isDefining])
  · exact targetNameStep_turn

theorem createStep_turn (hq : q.mode.isCreating) :
    Turn w q t rest [] (createStep w q t rest) := by
  unfold createStep
  split
  · next h =>
      exact .of_goto (fun c _ => not_isMark_of_isAnyKeyword h c) rfl (fun _ => hq)
        (by simp [Mode.isDefining])
  · split
    · next h =>
        exact .of_goto (fun c _ => not_isMark_of_isAnyKeyword h c) rfl (fun _ => hq)
          (by simp [Mode.isDefining])
    · exact clauseStep_turn_self false

theorem createNameStep_turn (optional : List Keyword) (hq : q.mode.isCreating) :
    Turn w q t rest [] (createNameStep w q optional t rest) := by
  unfold createNameStep
  split
  · next word h =>
      have hk := (Option.filter_eq_some_iff.mp h).1
      exact .of_goto (fun c _ => not_isMark_of_keyword? hk c) rfl (fun _ => hq)
        (by simp [Mode.isDefining])
  · split
    · next h => exact .of_candidate h (fun _ => hq)
    · exact clauseStep_turn_self false

theorem cteFailure_turn (clause : Span) :
    Turn w q t rest [] (cteFailure w q clause t rest) :=
  (clauseStep_turn_self true).reported _

theorem cteNameStep_turn (clause : Span) (first : Bool) (hq : q.mode.isDefining) :
    Turn w q t rest [] (cteNameStep w q clause first t rest) := by
  unfold cteNameStep
  split
  · next h =>
      exact .of_goto (fun c _ => not_isMark_of_isKeyword h.2 c) rfl
        (by simp [Mode.isCreating]) (fun _ => hq)
  · split
    · next h => exact .defineCte clause [] h hq
    · exact cteFailure_turn clause

theorem cteAsStep_turn (clause : Span) (hq : q.mode.isDefining) :
    Turn w q t rest [] (cteAsStep w q clause t rest) := by
  unfold cteAsStep
  split
  · next h =>
      exact .of_goto (fun c _ => not_isMark_of_isKeyword h c) rfl
        (by simp [Mode.isCreating]) (fun _ => hq)
  · exact cteFailure_turn clause

theorem cteColumnsStep_turn {clause : Span} (hq : q.mode = .cteColumns clause) :
    Turn w q t rest [] (cteColumnsStep w q clause t rest) := by
  have hdefining : q.mode.isDefining := by rw [hq]; rfl
  unfold cteColumnsStep
  split
  · next h =>
      exact .enter q.inFirstList _ _ [] h id rfl (.expression _ (Or.inr ⟨rfl, by rw [hq]; rfl⟩))
        (fun _ => hdefining)
  · exact cteAsStep_turn clause hdefining

theorem cteBodyStep_turn {clause : Span} {optional : List Keyword}
    (hq : q.mode = .cteBody clause optional) :
    Turn w q t rest [] (cteBodyStep w q clause optional t rest) := by
  have hdefining : q.mode.isDefining := by rw [hq]; rfl
  unfold cteBodyStep
  split
  · next word h =>
      have hk := (Option.filter_eq_some_iff.mp h).1
      exact .of_goto (fun c _ => not_isMark_of_keyword? hk c) rfl (by simp [Mode.isCreating])
        (fun _ => hdefining)
  · split
    · next h =>
        exact .enter q.inFirstList _ _ [] h id rfl
          (.subquery _ (Or.inr ⟨rfl, by rw [hq]; rfl⟩)) (fun _ => hdefining)
    · exact cteFailure_turn clause

theorem cteNextStep_turn (clause : Span) (hq : q.mode.isDefining) :
    Turn w q t rest [] (cteNextStep w q clause t rest) := by
  unfold cteNextStep
  split
  · next h =>
      refine .of_goto ?_ rfl (by simp [Mode.isCreating]) (fun _ => hq)
      rintro c (rfl | rfl)
      · exact not_isMark_of_isMark h (by decide)
      · exact not_isMark_of_isMark h (by decide)
  · exact clauseStep_turn_self true

/-- The token after a complete name completes its reference, unless the name is
that of a function or of something created without a query. -/
theorem nameEndStep_turn (w : Surroundings) (q : Query) (t : Token) (rest : List Token)
    (purpose : Purpose) (n : DottedName) :
    ∃ before, (before = [] ∨ before = [q.reference n]) ∧
      Turn w q t rest before (nameEndStep w q purpose n t rest) := by
  unfold nameEndStep
  split
  · split
    · next h =>
        exact ⟨[], Or.inl rfl,
          .enter q.inFirstList _ _ _ h id rfl (.expression _ (Or.inl rfl))
            (by simp [Mode.isDefining])⟩
    · exact ⟨_, Or.inr rfl, (operandEndStep_turn _).found _⟩
  · exact ⟨_, Or.inr rfl, (operandEndStep_turn _).found _⟩
  · dsimp only
    split
    · exact ⟨_, Or.inr rfl, (clauseStep_turn_self false).found _⟩
    · exact ⟨[], Or.inl rfl, clauseStep_turn_self false⟩

/-- The references that a token completes which continues no name. -/
def Completes (q : Query) (t : Token) (before : List Reference) : Prop :=
  before = [] ∨
    ∃ n, q.mode.pending? = some n ∧ n.extend? t = none ∧ before = [q.reference n]

/-- What every step of a query does: a token that continues a name does nothing
else. -/
theorem step_turn (w : Surroundings) (q : Query) (t : Token) (rest : List Token) :
    (∃ purpose n longer, q.mode = .name purpose n ∧ n.extend? t = some longer ∧
      q.step w t rest = { body := .query (q.goto (.name purpose longer)) }) ∨
    ∃ before, q.Completes t before ∧ Turn w q t rest before (q.step w t rest) := by
  have hother {o : Outcome} (ho : Turn w q t rest [] o) {p : Prop} :
      p ∨ ∃ before, q.Completes t before ∧ Turn w q t rest before o :=
    Or.inr ⟨[], Or.inl rfl, ho⟩
  unfold step
  split
  · exact hother (clauseStep_turn_self _)
  · exact hother (operandStep_turn _)
  · exact hother listedStep_turn
  · exact hother targetStep_turn
  · exact hother targetNameStep_turn
  · next purpose n hq =>
      rw [nameStep]
      cases hn : n.extend? t with
      | some longer => exact Or.inl ⟨purpose, n, longer, hq, hn, rfl⟩
      | none =>
          obtain ⟨before, hbefore, hturn⟩ :=
            nameEndStep_turn w q t rest purpose n
          refine Or.inr ⟨before, hbefore.imp id ?_, hturn⟩
          intro heq
          exact ⟨n, by rw [hq, Mode.pending?], hn, heq⟩
  · exact hother (operandEndStep_turn _)
  · exact hother (sampleStep_turn _)
  · exact hother (aliasStep_turn _)
  · exact hother (columnsStep_turn _)
  · next hq => exact hother (createStep_turn (by rw [hq, Mode.isCreating]))
  · next hq => exact hother (createNameStep_turn _ (by rw [hq, Mode.isCreating]))
  · next hq => exact hother (cteNameStep_turn _ _ (by rw [hq, Mode.isDefining]))
  · next hq => exact hother (cteColumnsStep_turn hq)
  · next hq => exact hother (cteAsStep_turn _ (by rw [hq, Mode.isDefining]))
  · next hq => exact hother (cteBodyStep_turn hq)
  · next hq => exact hother (cteNextStep_turn _ (by rw [hq, Mode.isDefining]))

/-- The token goes on with the name that is being read in the query. -/
def continues (q : Query) (t : Token) : Bool :=
  (q.mode.pending?.bind (·.extend? t)).isSome

/-- A token that goes on with a name does nothing else. -/
theorem step_of_continues (h : q.continues t) :
    ∃ purpose longer, q.step w t rest = { body := .query (q.goto (.name purpose longer)) } := by
  rw [continues, Option.isSome_iff_exists] at h
  obtain ⟨longer, h⟩ := h
  obtain ⟨n, hn, hlonger⟩ := Option.bind_eq_some_iff.mp h
  cases hmode : q.mode with
  | name purpose m =>
      rw [hmode, Mode.pending?, Option.some.injEq] at hn
      rw [← hn] at hlonger
      exact ⟨purpose, longer, by simp only [step, hmode, nameStep, hlonger]⟩
  | _ =>
      rw [hmode] at hn
      cases hn

/-- Only a dot goes on with a name that ends in none. -/
theorem not_continues (h : ∀ n, q.mode.pending? = some n → n.dangling = false)
    (ht : ¬ t.isMark '.') : ¬ q.continues t := by
  rw [continues, Bool.not_eq_true, Option.isSome_eq_false_iff, Option.isNone_iff_eq_none,
    Option.bind_eq_none_iff]
  exact fun n hn => extend?_of_not_dot (h n hn) ht

theorem not_continues_of_isMark (q : Query) {c : Char} (h : t.isMark c) (hc : c ≠ '.') :
    ¬ q.continues t := by
  rw [continues, Bool.not_eq_true, Option.isSome_eq_false_iff, Option.isNone_iff_eq_none,
    Option.bind_eq_none_iff]
  exact fun n _ => DottedName.extend?_eq_none_of_isMark h hc

/-- Beyond what it completes, a token only brings definitions, and a name at that. -/
theorem Turn.references_eq {before : List Reference} {o : Outcome}
    (h : Turn w q t rest before o) :
    ∃ defs, o.references = before ++ defs ∧ (∀ r ∈ defs, r.isSource = false) ∧
      (¬ t.isName → defs = []) := by
  cases h with
  | defineAlias follow d hname => exact ⟨_, rfl, by simp [Reference.isSource, Role.isSource],
      fun hnot => absurd hname hnot⟩
  | defineCte clause d hname => exact ⟨_, rfl, by simp [Reference.isSource, Role.isSource],
      fun hnot => absurd hname hnot⟩
  | _ => exact ⟨[], (List.append_nil _).symm, by simp, fun _ => rfl⟩

/-- A token completes what the end of the tokens completes, unless it goes on with a name
or makes a function of it. -/
theorem references_step (w : Surroundings) (q : Query) (rest : List Token)
    (hopen : ¬ t.isMark '(') (hname : ¬ q.continues t) (hcreating : ¬ q.mode.isCreating) :
    ∃ defs, (q.step w t rest).references = q.settle.1 ++ defs ∧
      (∀ r ∈ defs, r.isSource = false) ∧ (¬ t.isName → defs = []) := by
  cases hmode : q.mode with
  | name purpose n =>
      have hextend : n.extend? t = none := by simpa [continues, hmode, Mode.pending?] using hname
      have hfound (follow : Follow) :=
        (show Turn w q t rest [q.reference n]
          ((operandEndStep w q follow t rest).found (q.reference n)) from
          (operandEndStep_turn follow).found _).references_eq
      simp only [step, settle, hmode, nameStep, hextend]
      cases purpose with
      | operand follow =>
          simp only [nameEndStep, if_neg hopen]
          exact hfound follow
      | target => exact hfound .clause
      | created => simp [hmode, Mode.isCreating] at hcreating
  | _ =>
      rcases q.step_turn w t rest with ⟨purpose, n, longer, hread, -⟩ | ⟨before, hbefore, hturn⟩
      · rw [hmode] at hread
        cases hread
      · rcases hbefore with rfl | ⟨n, hread, -⟩
        · rw [settle, hmode]
          exact hturn.references_eq
        · rw [hmode] at hread
          cases hread

end Query

end Scan

end SqlTables
