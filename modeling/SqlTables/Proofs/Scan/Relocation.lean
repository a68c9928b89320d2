import SqlTables.Proofs.Scan.Sight
import SqlTables.Proofs.Scan.Stack

/-!
# The same tokens at other places

The places of tokens steer nothing: a scan only writes them into its references and
reports. And of the names in tokens it only looks at their lower case. A `Change` moves
places and renames what has a name without touching its lower case.
`Token.Changed δ t u` says that `u` is the token `t` changed, but for what a string or a
number holds, and every step of a group keeps to that: in groups that differ by a change,
tokens that differ by it have outcomes that do (`Query.step_changed`, `Flat.step_changed`),
and the references in them are changed. The reports are left out, so that the places in
them are free. A change of places alone is a move.
-/

namespace SqlTables

/-- The span with both bounds moved. -/
def Span.map (move : Int → Int) (s : Span) : Span := ⟨move s.start, move s.stop⟩

def Reference.map (move : Int → Int) (r : Reference) : Reference :=
  { r with span := r.span.map move }

theorem Reference.map_id : Reference.map id = id := rfl

/-- Other places, and other names with the same lower case. Where tokens start and where they
stop is moved apart, since one token may start where another one stops. -/
structure Change where
  start : Int → Int
  stop : Int → Int
  rename : String → String
  lower_rename : ∀ name, Unicode.lower (rename name) = Unicode.lower name

namespace Change

/-- The change of places alone. -/
abbrev ofPlaces (start stop : Int → Int) : Change := ⟨start, stop, id, fun _ => rfl⟩

/-- All places moved alike. -/
abbrev ofMove (move : Int → Int) : Change := ofPlaces move move

/-- The span at its other place. -/
def place (δ : Change) (s : Span) : Span := ⟨δ.start s.start, δ.stop s.stop⟩

end Change

variable {δ : Change}

theorem Names.define_rename (names : Names) (name : String) (role : Role) :
    names.define (δ.rename name) role = names.define name role := by
  rw [define, define, δ.lower_rename]

theorem Scope.define_rename (scope : Scope) (name : String) (role : Role) :
    scope.define (δ.rename name) role = scope.define name role := by
  cases scope with
  | nil => simp only [define, Names.define_rename]
  | cons names outer => simp only [define, Names.define_rename]

theorem Scope.lookup?_rename (scope : Scope) (name : String) :
    scope.lookup? (δ.rename name) = scope.lookup? name := by
  simp only [lookup?, Names.lookup?, δ.lower_rename]

def Reference.change (δ : Change) (r : Reference) : Reference :=
  { r with parts := r.parts.map δ.rename, span := δ.place r.span }

theorem Reference.change_ofMove (move : Int → Int) :
    Reference.change (.ofMove move) = Reference.map move := by
  funext r
  rw [change, List.map_id]
  rfl

/-- Whether the token is a string or a number. -/
def Token.isLiteral (t : Token) : Bool :=
  match t.kind with
  | .string | .number => true
  | _ => false

/-- The same token changed; a literal may hold something else. -/
structure Token.Changed (δ : Change) (t u : Token) : Prop where
  kind : u.kind = t.kind
  value : ¬ t.isLiteral → u.value = δ.rename t.value
  span : u.span = δ.place t.span

/-- The same token at its place moved; a literal may hold something else. -/
abbrev Token.Moved (move : Int → Int) : Token → Token → Prop := Token.Changed (.ofMove move)

structure DottedName.Changed (δ : Change) (n m : DottedName) : Prop where
  parts : m.parts = n.parts.map δ.rename
  dangling : m.dangling = n.dangling
  span : m.span = δ.place n.span

/-- What a name of one part is bound to does not change. -/
theorem DottedName.Changed.bind_lookup? {n m : DottedName} (h : n.Changed δ m)
    (scope : Scope) : m.single?.bind scope.lookup? = n.single?.bind scope.lookup? := by
  rw [single?, single?, h.parts]
  rcases n.parts with _ | ⟨part, _ | ⟨part', parts⟩⟩
  · rfl
  · exact scope.lookup?_rename part
  · rfl

theorem Token.moved_id (t : Token) : t.Moved id t := ⟨rfl, fun _ => rfl, rfl⟩

namespace Token

variable {t : Token}

/-- A literal is no part of a name. -/
theorem not_isLiteral_of_isPart (h : t.isName || t.keyword?.isSome) : ¬ t.isLiteral := by
  intro hliteral
  unfold isLiteral at hliteral
  unfold isName keyword? at h
  split at hliteral
  · next hkind =>
      rw [hkind] at h
      cases h
  · next hkind =>
      rw [hkind] at h
      cases h
  · cases hliteral

theorem not_isLiteral_of_isName (h : t.isName) : ¬ t.isLiteral :=
  not_isLiteral_of_isPart (by rw [h, Bool.true_or])

theorem not_isLiteral_of_isCandidate (h : Scan.isCandidate t) : ¬ t.isLiteral := by
  rw [Scan.isCandidate, Bool.or_eq_true] at h
  rcases h with h | h
  · exact not_isLiteral_of_isName h
  · obtain ⟨word, -, hword⟩ := isAnyKeyword_iff.mp h
    refine not_isLiteral_of_isPart ?_
    rw [keyword?, kind_of_isKeyword hword, Option.isSome_some, Bool.or_true]

end Token

namespace Token.Changed

variable {δ : Change} {t u : Token}

theorem isName (h : t.Changed δ u) : u.isName = t.isName := ofKind_isName t u h.kind

theorem isMark (h : t.Changed δ u) (c : Char) : u.isMark c = t.isMark c :=
  ofKind_isMark c t u h.kind

theorem isKeyword (h : t.Changed δ u) (word : Keyword) : u.isKeyword word = t.isKeyword word :=
  ofKind_isKeyword word t u h.kind

theorem isAnyKeyword (h : t.Changed δ u) (words : List Keyword) :
    u.isAnyKeyword words = t.isAnyKeyword words :=
  ofKind_isAnyKeyword words t u h.kind

theorem keyword? (h : t.Changed δ u) : u.keyword? = t.keyword? := by
  simp only [Token.keyword?, h.kind]

theorem isCandidate (h : t.Changed δ u) : Scan.isCandidate u = Scan.isCandidate t :=
  Scan.ofKind_isCandidate t u h.kind

theorem value_of_isName (h : t.Changed δ u) (hname : t.isName) : u.value = δ.rename t.value :=
  h.value (not_isLiteral_of_isName hname)

theorem value_of_isCandidate (h : t.Changed δ u) (hcandidate : Scan.isCandidate t) :
    u.value = δ.rename t.value :=
  h.value (not_isLiteral_of_isCandidate hcandidate)

end Token.Changed

theorem DottedName.changed_ofToken {δ : Change} {t u : Token} (h : t.Changed δ u)
    (hcandidate : Scan.isCandidate t) : (ofToken t).Changed δ (ofToken u) :=
  ⟨by rw [ofToken, ofToken, h.value_of_isCandidate hcandidate, List.map_singleton], rfl, h.span⟩

/-- A token goes on with a changed name as with the name itself. -/
theorem DottedName.Changed.extend? {δ : Change} {t u : Token} {n m : DottedName}
    (h : n.Changed δ m) (ht : t.Changed δ u) :
    Option.Rel (DottedName.Changed δ) (n.extend? t) (m.extend? u) := by
  have hstart : (m.start : Int) = δ.start n.start := congrArg Span.start h.span
  have hstop : (u.stop : Int) = δ.stop t.stop := congrArg Span.stop ht.span
  have hspan : (⟨m.start, u.stop⟩ : Span) = ⟨δ.start n.start, δ.stop t.stop⟩ := by
    rw [hstart, hstop]
  simp only [DottedName.extend?, h.dangling, ht.isName, ht.keyword?, ht.isMark]
  split
  · split
    · next hpart =>
        have hvalue : u.value = δ.rename t.value := ht.value (Token.not_isLiteral_of_isPart hpart)
        exact .some ⟨by rw [h.parts, hvalue, List.map_append, List.map_singleton], rfl, hspan⟩
    · exact .none
  · split
    · exact .some ⟨h.parts, rfl, hspan⟩
    · exact .none

namespace Scan

open Token

/-! ## Groups -/

/-- The same mode with the name in it changed. The places of clauses only serve
reports. -/
inductive Mode.Changed (δ : Change) : Mode → Mode → Prop
  | same {mode : Mode} (h : mode.pending? = none) : Changed δ mode mode
  | name (purpose : Purpose) {n m : DottedName} (h : n.Changed δ m) :
      Changed δ (.name purpose n) (.name purpose m)
  | cteName (c c' : Span) (first : Bool) : Changed δ (.cteName c first) (.cteName c' first)
  | cteColumns (c c' : Span) : Changed δ (.cteColumns c) (.cteColumns c')
  | cteAs (c c' : Span) : Changed δ (.cteAs c) (.cteAs c')
  | cteBody (c c' : Span) (optional : List Keyword) :
      Changed δ (.cteBody c optional) (.cteBody c' optional)
  | cteNext (c c' : Span) : Changed δ (.cteNext c) (.cteNext c')

inductive Body.Changed (δ : Change) : Body → Body → Prop
  | query (q : Query) {mode : Mode} (h : q.mode.Changed δ mode) :
      Changed δ (.query q) (.query (q.goto mode))
  | expression (scope : Scope) : Changed δ (.expression scope) (.expression scope)
  | flat (f : Flat) {read : Option DottedName}
      (h : Option.Rel (DottedName.Changed δ) f.read read) :
      Changed δ (.flat f) (.flat { f with read })

/-- The same outcome with the references changed, whatever is reported. -/
structure Outcome.Changed (δ : Change) (o o' : Outcome) : Prop where
  body : o.body.Changed δ o'.body
  action : o'.action = o.action
  references : o'.references = o.references.map (Reference.change δ)
  merging : o'.merging = o.merging

variable {δ : Change}

theorem Body.changed_self {body : Body} (h : body.pending? = none) : body.Changed δ body := by
  cases body with
  | query q => exact .query q (.same h)
  | expression scope => exact .expression scope
  | flat f =>
      have hread : f.read = none := h
      have hmoved : Option.Rel (DottedName.Changed δ) f.read f.read := by
        rw [hread]
        exact .none
      exact .flat f hmoved

namespace Outcome

theorem changed_goto {mode mode' : Mode} (q : Query) (h : mode.Changed δ mode')
    (action : Action) (diagnostics : List Diagnostic) (diagnostics' : List Diagnostic)
    (merging : Option Bool) :
    (Outcome.mk (.query (q.goto mode)) action [] diagnostics merging).Changed δ
      (Outcome.mk (.query (q.goto mode')) action [] diagnostics' merging) :=
  ⟨.query (q.goto mode) h, rfl, rfl, rfl⟩

/-- A step that leads to the same mode. -/
theorem changed_self {mode : Mode} (q : Query) (h : mode.pending? = none) (action : Action)
    (merging : Option Bool) :
    (Outcome.mk (.query (q.goto mode)) action [] [] merging).Changed δ
      (Outcome.mk (.query (q.goto mode)) action [] [] merging) :=
  changed_goto q (.same h) action [] [] merging

theorem Changed.found {o o' : Outcome} (h : o.Changed δ o') (r : Reference) :
    (o.found r).Changed δ (o'.found (r.change δ)) :=
  ⟨h.body, h.action, congrArg (r.change δ :: ·) h.references, h.merging⟩

theorem Changed.reported {o o' : Outcome} (h : o.Changed δ o') (d d' : Diagnostic) :
    (o.reported d).Changed δ (o'.reported d') :=
  ⟨h.body, h.action, h.references, h.merging⟩

end Outcome

/-! ## Steps of a query -/

namespace Query

variable {w : Surroundings} {q : Query} {t u : Token} {ts us : List Token}

theorem defineAlias_rename (q : Query) (name : String) :
    q.defineAlias (δ.rename name) = q.defineAlias name := by
  unfold defineAlias
  rw [Scope.define_rename]
  split
  · rw [Names.define_rename]
  · rfl

theorem defineCte_rename (q : Query) (name : String) :
    q.defineCte (δ.rename name) = q.defineCte name := by
  rw [defineCte, defineCte, Scope.define_rename]

theorem reference_change {n m : DottedName} (h : n.Changed δ m) :
    q.reference m = (q.reference n).change δ := by
  simp only [reference, h.bind_lookup?, h.parts, h.dangling, h.span, Reference.change]

theorem clauseStep_changed (ht : t.Changed δ u) (hs : SameSight ts us) (fresh : Bool) :
    (clauseStep w q fresh t ts).Changed δ (clauseStep w q fresh u us) := by
  unfold clauseStep
  rw [ht.kind, hs.subquery, hs.table, hs.cte]
  split
  · exact Outcome.changed_self q rfl _ _
  · exact Outcome.changed_self q rfl _ _
  · dsimp only
    split
    · exact Outcome.changed_self q.newBranch rfl _ _
    · exact Outcome.changed_self q.newBranch rfl _ _
    · exact Outcome.changed_self q.newBranch rfl _ _
    · exact Outcome.changed_self q.newBranch rfl _ _
    · -- The place of the clause is that of its `WITH`.
      split
      · exact Outcome.changed_goto q (.cteName t.span u.span true) _ _ _ _
      · exact Outcome.changed_self q rfl _ _
    · split
      · exact Outcome.changed_self q rfl _ _
      · exact Outcome.changed_self q rfl _ _
    · exact Outcome.changed_self q rfl _ _
    · exact Outcome.changed_self q rfl _ _
    · split
      · exact Outcome.changed_self q rfl _ _
      · exact Outcome.changed_self q rfl _ _
    · split
      · exact Outcome.changed_self q rfl _ _
      · exact Outcome.changed_self q rfl _ _
    · exact Outcome.changed_self q rfl _ _
    · split
      · exact Outcome.changed_self q rfl _ _
      · exact Outcome.changed_self q rfl _ _
    · exact Outcome.changed_self q rfl _ _
    · exact Outcome.changed_self q rfl _ _
  · exact Outcome.changed_self q rfl _ _

theorem followStep_changed (ht : t.Changed δ u) (hs : SameSight ts us) (follow : Follow) :
    (followStep w q follow t ts).Changed δ (followStep w q follow u us) := by
  cases follow with
  | list =>
      simp only [followStep, listedStep, ht.isMark]
      split
      · exact Outcome.changed_self q rfl _ _
      · exact clauseStep_changed ht hs _
  | clause => exact clauseStep_changed ht hs false

theorem columnsStep_changed (ht : t.Changed δ u) (hs : SameSight ts us) (follow : Follow) :
    (columnsStep w q follow t ts).Changed δ (columnsStep w q follow u us) := by
  simp only [columnsStep, ht.isMark]
  split
  · exact Outcome.changed_self q (Mode.pending?_of_isWaiting (Mode.isWaiting_follow follow)) _ _
  · exact followStep_changed ht hs follow

theorem aliasStep_changed (ht : t.Changed δ u) (hs : SameSight ts us) (follow : Follow) :
    (aliasStep w q follow t ts).Changed δ (aliasStep w q follow u us) := by
  simp only [aliasStep, ht.isName, ht.isKeyword, ht.span, hs.name]
  split
  · next hname =>
      rw [ht.value_of_isName hname, defineAlias_rename]
      exact ⟨Body.changed_self rfl, rfl, rfl, rfl⟩
  · split
    · exact Outcome.changed_self q rfl _ _
    · exact followStep_changed ht hs follow

theorem sampleStep_changed (ht : t.Changed δ u) (hs : SameSight ts us) (follow : Follow) :
    (sampleStep w q follow t ts).Changed δ (sampleStep w q follow u us) := by
  simp only [sampleStep, ht.isMark]
  split
  · exact Outcome.changed_self q rfl _ _
  · exact aliasStep_changed ht hs follow

theorem operandEndStep_changed (ht : t.Changed δ u) (hs : SameSight ts us) (follow : Follow) :
    (operandEndStep w q follow t ts).Changed δ (operandEndStep w q follow u us) := by
  simp only [operandEndStep, ht.isKeyword]
  split
  · exact Outcome.changed_self q rfl _ _
  · exact aliasStep_changed ht hs follow

/-- A candidate starts a name at its place. -/
theorem candidate_changed (ht : t.Changed δ u) (hcandidate : isCandidate t)
    (purpose : Purpose) :
    (Outcome.mk (.query (q.goto (.name purpose (.ofToken t)))) .stay [] [] none).Changed δ
      (Outcome.mk (.query (q.goto (.name purpose (.ofToken u)))) .stay [] [] none) :=
  Outcome.changed_goto q (.name purpose (DottedName.changed_ofToken ht hcandidate)) _ _ _ _

theorem operandStep_changed (ht : t.Changed δ u) (hs : SameSight ts us) (follow : Follow) :
    (operandStep w q follow t ts).Changed δ (operandStep w q follow u us) := by
  simp only [operandStep, operandGroup, ht.isKeyword, ht.isMark, ht.isCandidate, hs.subquery,
    hs.operand]
  split
  · exact Outcome.changed_self q rfl _ _
  · split
    · exact Outcome.changed_self q rfl _ _
    · split
      · next hcandidate => exact candidate_changed ht hcandidate _
      · exact followStep_changed ht hs follow

theorem targetNameStep_changed (ht : t.Changed δ u) (hs : SameSight ts us) :
    (targetNameStep w q t ts).Changed δ (targetNameStep w q u us) := by
  simp only [targetNameStep, ht.isCandidate]
  split
  · next hcandidate => exact candidate_changed ht hcandidate _
  · exact clauseStep_changed ht hs false

theorem targetStep_changed (ht : t.Changed δ u) (hs : SameSight ts us) :
    (targetStep w q t ts).Changed δ (targetStep w q u us) := by
  simp only [targetStep, ht.isKeyword]
  split
  · exact Outcome.changed_self q rfl _ _
  · exact targetNameStep_changed ht hs

theorem createStep_changed (ht : t.Changed δ u) (hs : SameSight ts us) :
    (createStep w q t ts).Changed δ (createStep w q u us) := by
  simp only [createStep, ht.isAnyKeyword]
  split
  · exact Outcome.changed_self q rfl _ _
  · split
    · exact Outcome.changed_self q rfl _ _
    · exact clauseStep_changed ht hs false

theorem createNameStep_changed (ht : t.Changed δ u) (hs : SameSight ts us)
    (optional : List Keyword) :
    (createNameStep w q optional t ts).Changed δ (createNameStep w q optional u us) := by
  simp only [createNameStep, ht.keyword?, ht.isCandidate]
  split
  · exact Outcome.changed_self q rfl _ _
  · split
    · next hcandidate => exact candidate_changed ht hcandidate _
    · exact clauseStep_changed ht hs false

theorem cteFailure_changed (ht : t.Changed δ u) (hs : SameSight ts us) (c c' : Span) :
    (cteFailure w q c t ts).Changed δ (cteFailure w q c' u us) :=
  (clauseStep_changed ht hs true).reported _ _

theorem cteNameStep_changed (ht : t.Changed δ u) (hs : SameSight ts us) (c c' : Span)
    (first : Bool) : (cteNameStep w q c first t ts).Changed δ (cteNameStep w q c' first u us) := by
  simp only [cteNameStep, ht.isKeyword, ht.isName, ht.span]
  split
  · exact Outcome.changed_goto q (.cteName c c' false) _ _ _ _
  · split
    · next hname =>
        rw [ht.value_of_isName hname, defineCte_rename]
        exact ⟨.query _ (.cteColumns c c'), rfl, rfl, rfl⟩
    · exact cteFailure_changed ht hs c c'

theorem cteAsStep_changed (ht : t.Changed δ u) (hs : SameSight ts us) (c c' : Span) :
    (cteAsStep w q c t ts).Changed δ (cteAsStep w q c' u us) := by
  simp only [cteAsStep, ht.isKeyword]
  split
  · exact Outcome.changed_goto q (.cteBody c c' _) _ _ _ _
  · exact cteFailure_changed ht hs c c'

theorem cteColumnsStep_changed (ht : t.Changed δ u) (hs : SameSight ts us) (c c' : Span) :
    (cteColumnsStep w q c t ts).Changed δ (cteColumnsStep w q c' u us) := by
  simp only [cteColumnsStep, ht.isMark]
  split
  · exact Outcome.changed_goto q (.cteAs c c') _ _ _ _
  · exact cteAsStep_changed ht hs c c'

theorem cteBodyStep_changed (ht : t.Changed δ u) (hs : SameSight ts us) (c c' : Span)
    (optional : List Keyword) :
    (cteBodyStep w q c optional t ts).Changed δ (cteBodyStep w q c' optional u us) := by
  simp only [cteBodyStep, ht.keyword?, ht.isMark]
  split
  · exact Outcome.changed_goto q (.cteBody c c' _) _ _ _ _
  · split
    · exact Outcome.changed_goto q (.cteNext c c') _ _ _ _
    · exact cteFailure_changed ht hs c c'

theorem cteNextStep_changed (ht : t.Changed δ u) (hs : SameSight ts us) (c c' : Span) :
    (cteNextStep w q c t ts).Changed δ (cteNextStep w q c' u us) := by
  simp only [cteNextStep, ht.isMark]
  split
  · exact Outcome.changed_goto q (.cteName c c' false) _ _ _ _
  · exact clauseStep_changed ht hs true

theorem nameEndStep_changed (ht : t.Changed δ u) (hs : SameSight ts us) (purpose : Purpose)
    {n m : DottedName} (hn : n.Changed δ m)
    (hbody : purpose = .created → hasQueryBody 0 (u :: us) = hasQueryBody 0 (t :: ts)) :
    (nameEndStep w q purpose n t ts).Changed δ (nameEndStep w q purpose m u us) := by
  cases purpose with
  | operand follow =>
      simp only [nameEndStep, ht.isMark, reference_change hn]
      split
      · exact Outcome.changed_goto q (.same rfl) _ _ _ _
      · exact (operandEndStep_changed ht hs follow).found _
  | target =>
      simp only [nameEndStep, reference_change hn]
      exact (operandEndStep_changed ht hs .clause).found _
  | created =>
      simp only [nameEndStep, hbody rfl, reference_change hn]
      split
      · exact (clauseStep_changed ht hs false).found _
      · exact clauseStep_changed ht hs false

theorem nameStep_changed (ht : t.Changed δ u) (hs : SameSight ts us) (purpose : Purpose)
    {n m : DottedName} (hn : n.Changed δ m)
    (hbody : purpose = .created → hasQueryBody 0 (u :: us) = hasQueryBody 0 (t :: ts)) :
    (nameStep w q purpose n t ts).Changed δ (nameStep w q purpose m u us) := by
  have hextend := hn.extend? ht
  unfold nameStep
  generalize n.extend? t = longer at hextend ⊢
  generalize m.extend? u = longer' at hextend ⊢
  cases hextend with
  | none => exact nameEndStep_changed ht hs purpose hn hbody
  | some hlonger => exact Outcome.changed_goto q (.name purpose hlonger) _ _ _ _

/-- What a token means after a name depends on the purpose of the name, and on the
mode of the query no further. -/
theorem nameStep_goto (w : Surroundings) (q : Query) (mode : Mode) (purpose : Purpose)
    (n : DottedName) (t : Token) (ts : List Token) :
    nameStep w (q.goto mode) purpose n t ts = nameStep w q purpose n t ts := by
  obtain ⟨base, branch, isJoinTree, inFirstList, before⟩ := q
  cases branch with
  | none => rfl
  | some names => rfl

/-- A token that continues no name, in a query that stays in its place. -/
theorem step_changed_self (ht : t.Changed δ u) (hs : SameSight ts us)
    (hpending : q.mode.pending? = none) : (q.step w t ts).Changed δ (q.step w u us) := by
  unfold step
  cases hmode : q.mode with
  | clauses fresh => exact clauseStep_changed ht hs fresh
  | operand follow => exact operandStep_changed ht hs follow
  | listed => exact followStep_changed ht hs .list
  | target => exact targetStep_changed ht hs
  | targetName => exact targetNameStep_changed ht hs
  | name purpose n =>
      rw [hmode] at hpending
      cases hpending
  | operandEnd follow => exact operandEndStep_changed ht hs follow
  | sample follow => exact sampleStep_changed ht hs follow
  | «alias» follow => exact aliasStep_changed ht hs follow
  | columns follow => exact columnsStep_changed ht hs follow
  | create => exact createStep_changed ht hs
  | createName optional => exact createNameStep_changed ht hs optional
  | cteName clause first => exact cteNameStep_changed ht hs clause clause first
  | cteColumns clause => exact cteColumnsStep_changed ht hs clause clause
  | cteAs clause => exact cteAsStep_changed ht hs clause clause
  | cteBody clause optional => exact cteBodyStep_changed ht hs clause clause optional
  | cteNext clause => exact cteNextStep_changed ht hs clause clause

/-- A step of a query only carries the places of tokens along. -/
theorem step_changed {mode : Mode} (hq : q.mode.Changed δ mode) (ht : t.Changed δ u)
    (hs : SameSight ts us)
    (hbody : q.mode.isCreating → hasQueryBody 0 (u :: us) = hasQueryBody 0 (t :: ts)) :
    (q.step w t ts).Changed δ ((q.goto mode).step w u us) := by
  generalize hmode : q.mode = before at hq hbody
  cases hq with
  | same hpending =>
      have hgoto : q.goto mode = q := by
        rw [← hmode]
        rfl
      rw [hgoto]
      exact step_changed_self ht hs (by rw [hmode, hpending])
  | name purpose hn =>
      change Outcome.Changed δ _ (nameStep w (q.goto _) purpose _ u us)
      rw [step, hmode, nameStep_goto]
      refine nameStep_changed ht hs purpose hn fun hpurpose => hbody ?_
      rw [hpurpose, Mode.isCreating]
  | cteName c c' first =>
      rw [step, hmode]
      exact cteNameStep_changed (q := q) ht hs c c' first
  | cteColumns c c' =>
      rw [step, hmode]
      exact cteColumnsStep_changed (q := q) ht hs c c'
  | cteAs c c' =>
      rw [step, hmode]
      exact cteAsStep_changed (q := q) ht hs c c'
  | cteBody c c' optional =>
      rw [step, hmode]
      exact cteBodyStep_changed (q := q) ht hs c c' optional
  | cteNext c c' =>
      rw [step, hmode]
      exact cteNextStep_changed (q := q) ht hs c c'

theorem settle_changed (q : Query) {mode mode' : Mode} (h : mode.Changed δ mode') :
    (q.goto mode').settle.1 = (q.goto mode).settle.1.map (Reference.change δ) := by
  cases h with
  | same hpending =>
      have hnil : (q.goto mode).settle.1 = [] := by
        cases mode with
        | name purpose n => cases hpending
        | _ => rfl
      rw [hnil, List.map_nil]
  | name purpose hn =>
      cases purpose with
      | operand follow => exact congrArg ([·]) (reference_change hn)
      | target => exact congrArg ([·]) (reference_change hn)
      | created => rfl
  | _ => rfl

end Query

/-! ## Steps of a flat group -/

namespace Flat

variable {f : Flat} {t u : Token}

theorem reference?_change {n m : DottedName} (h : n.Changed δ m) (isCall : Bool) :
    f.reference? m isCall = (f.reference? n isCall).map (Reference.change δ) := by
  unfold reference?
  rw [h.bind_lookup?, h.parts, h.span, apply_ite (Option.map (Reference.change δ))]
  rfl

theorem plainStep_changed (ht : t.Changed δ u) (expecting : Bool) :
    (f.plainStep expecting t).Changed δ (f.plainStep expecting u) := by
  have hflat (g : Flat) (hg : g.read = none) (action : Action) :
      (Outcome.mk (.flat g) action [] [] none).Changed δ
        (Outcome.mk (.flat g) action [] [] none) :=
    ⟨Body.changed_self hg, rfl, rfl, rfl⟩
  simp only [plainStep, ht.isMark, ht.isAnyKeyword]
  split
  · exact hflat _ rfl _
  · split
    · split
      · exact hflat _ rfl _
      · exact hflat _ rfl _
    · exact hflat _ rfl _

theorem step_changed {read : Option DottedName}
    (hread : Option.Rel (DottedName.Changed δ) f.read read) (ht : t.Changed δ u) :
    (f.step t).Changed δ (Flat.step { f with read } u) := by
  unfold step
  generalize f.read = before at hread ⊢
  cases hread with
  | none =>
      dsimp only
      rw [ht.isCandidate]
      split
      · next hcandidate =>
          have hname := DottedName.changed_ofToken ht hcandidate.2
          exact ⟨.flat ⟨_, _, _, _⟩ (.some hname), rfl, rfl, rfl⟩
      · exact plainStep_changed (f := f) ht _
  | @some n m hn =>
      have hextend := hn.extend? ht
      dsimp only
      generalize n.extend? t = longer at hextend ⊢
      generalize m.extend? u = longer' at hextend ⊢
      cases hextend with
      | some hlonger => exact ⟨.flat ⟨_, _, _, _⟩ (.some hlonger), rfl, rfl, rfl⟩
      | none =>
          have hreference : Flat.reference? { f with read := some m } m (u.isMark '(') =
              (f.reference? n (t.isMark '(')).map (Reference.change δ) := by
            rw [ht.isMark]
            exact reference?_change hn _
          dsimp only
          rw [hreference]
          cases f.reference? n (t.isMark '(') with
          | none => exact plainStep_changed (f := f) ht false
          | some r => exact (plainStep_changed (f := f) ht false).found r

theorem settle_changed (f : Flat) {read read' : Option DottedName}
    (h : Option.Rel (DottedName.Changed δ) read read') :
    Flat.settle { f with read := read' } =
      (Flat.settle { f with read }).map (Reference.change δ) := by
  cases h with
  | none => rfl
  | @some n m hn =>
      change (f.reference? m false).toList = (f.reference? n false).toList.map _
      rw [reference?_change hn]
      cases f.reference? n false <;> rfl

end Flat

end Scan

end SqlTables
