import SqlTables.Scan
import SqlTables.Proofs.Scan.Turn

/-!
# The stack of groups

`Scan.outcome_turn` says once what a token may do in the innermost group, whatever
group that is, and what holds of every step is read off it. To the stack a token
does nothing, opens a group on it, or closes the innermost one
(`Scan.outcome_shift`), and it changes the number of open parentheses
(`Scan.height`) as it says, those inside a flat group included. The groups below the
innermost one form a nest: each was opened by a parenthesis, except for the
statement itself, and waits for the one above it.

`Scan.advance limit after s xs` is the scan after the tokens `xs` with `after`
still to come, so that a run can be cut in two (`Scan.advance_append`).
-/

namespace SqlTables

namespace Scan

inductive GroupKind
  | query
  | joinTree
  | expression
  | flat
deriving DecidableEq

def Body.kind : Body → GroupKind
  | .query q => if q.isJoinTree then .joinTree else .query
  | .expression _ => .expression
  | .flat _ => .flat

/-- The parentheses that are open inside the group itself. -/
def Body.inner : Body → Nat
  | .flat f => f.depth
  | _ => 0

/-- The name that is being read in the group. -/
def Body.pending? : Body → Option DottedName
  | .query q => q.mode.pending?
  | .flat f => f.read
  | .expression _ => none

/-- Whether the group can wait for one inside it. -/
def Body.isSuspended : Body → Bool
  | .query q => q.mode.isWaiting
  | .expression _ => true
  | .flat _ => false

/-- Whether the words after a `CREATE` are being read in the group. -/
def Body.isCreating : Body → Bool
  | .query q => q.mode.isCreating
  | _ => false

/-- Whether the group is a join tree in its first table list. -/
def Body.inFirstList : Body → Bool
  | .query q => q.inFirstList
  | _ => false

/-- The groups of a stack, the innermost first: the outermost one is the
statement, the others are in parentheses, and those around the innermost one
wait. -/
def IsNest : Frame → List Frame → Prop
  | f, [] => f.opener = none ∧ f.body.kind = .query
  | f, g :: gs => f.opener.isSome ∧ g.body.isSuspended ∧ IsNest g gs

/-- The number of parentheses that are open. -/
def height (s : Scan) : Nat := s.below.length + s.top.body.inner

def pending? (s : Scan) : Option DottedName := s.top.body.pending?

/-- The scan after the tokens, with those of `after` still to come. -/
def advance (limit : Nat) (after : List Token) (s : Scan) : List Token → Scan
  | [] => s
  | t :: ts => advance limit after (s.step limit t (ts ++ after)) ts

variable {limit : Nat} {s : Scan} {t : Token} {rest : List Token}

@[simp] theorem advance_nil (limit : Nat) (after : List Token) (s : Scan) :
    s.advance limit after [] = s := rfl

theorem advance_cons (limit : Nat) (after : List Token) (s : Scan) (t : Token)
    (ts : List Token) :
    s.advance limit after (t :: ts) =
      (s.step limit t (ts ++ after)).advance limit after ts := rfl

theorem advance_append (limit : Nat) (after : List Token) (s : Scan)
    (xs ys : List Token) :
    s.advance limit after (xs ++ ys) =
      (s.advance limit (ys ++ after) xs).advance limit after ys := by
  induction xs generalizing s with
  | nil => rfl
  | cons t xs ih =>
      rw [List.cons_append, advance_cons, advance_cons, List.append_assoc, ih]

theorem run_eq_advance (limit : Nat) (s : Scan) (ts : List Token) :
    s.run limit ts = s.advance limit [] ts := by
  induction ts generalizing s with
  | nil => rfl
  | cons t ts ih => rw [run_cons, advance_cons, List.append_nil, ih]

/-! ## Outcomes of a token in any group -/

/-- The parentheses that are open after the token, when `depth` are open before. -/
def nest (depth : Nat) (t : Token) : Nat :=
  if t.isMark '(' then depth + 1 else if t.isMark ')' then depth - 1 else depth

theorem nest_open (h : t.isMark '(') (d : Nat) : nest d t = d + 1 := by
  simp [nest, h]

theorem nest_close (h : t.isMark ')') (d : Nat) : nest d t = d - 1 := by
  have hopen := Token.not_isMark_of_isMark h (d := '(') (by decide)
  simp [nest, h, hopen]

theorem nest_other (hopen : ¬ t.isMark '(') (hclose : ¬ t.isMark ')') (d : Nat) :
    nest d t = d := by
  simp [nest, hopen, hclose]

/-- The depth of a token sequence is the one it is read at. -/
theorem nest_of_depth? {xs : List Token} {d e: Nat}
    (h : Token.depth? d (t :: xs) = some e) :
    (t.isMark ')' → 0 < d) ∧ Token.depth? (nest d t) xs = some e := by
  by_cases hopen : t.isMark '('
  · rw [Token.depth?_cons_open hopen] at h
    rw [nest_open hopen]
    exact ⟨fun hc => absurd hc (Token.not_isMark_of_isMark hopen (by decide)), h⟩
  · by_cases hclose : t.isMark ')'
    · cases d with
      | zero =>
          rw [Token.depth?_cons_close_zero hclose] at h
          cases h
      | succ d =>
          rw [Token.depth?_cons_close_succ hclose] at h
          rw [nest_close hclose]
          exact ⟨fun _ => Nat.succ_pos d, h⟩
    · rw [Token.depth?_cons_other hopen hclose] at h
      rw [nest_other hopen hclose]
      exact ⟨fun hc => absurd hc hclose, h⟩

theorem foldl_nest {xs : List Token} {d e : Nat} (h : Token.depth? d xs = some e) :
    xs.foldl nest d = e := by
  induction xs generalizing d with
  | nil => exact Option.some.inj h
  | cons t xs ih => exact ih (nest_of_depth? h).2

theorem outcome_query {q : Query} (h : s.top.body = .query q) :
    s.outcome limit t rest = q.step (s.surroundings limit) t rest := by
  simp only [outcome, h]

theorem outcome_flat {f : Flat} (h : s.top.body = .flat f) :
    s.outcome limit t rest = f.step t := by
  simp only [outcome, h]

/-- What a token does to the stack: nothing, which keeps count of the parentheses
inside a flat group; a group is opened; the innermost one is closed. -/
inductive Shift (s : Scan) (t : Token) : Outcome → Prop
  | stay {o : Outcome} (haction : o.action = .stay)
      (hinner : o.body.inner = nest s.top.body.inner t)
      (hopen : t.isMark '(' → s.top.body.kind = .flat)
      (hclose : t.isMark ')' → 0 < s.top.body.inner ∨ s.below = []) : Shift s t o
  | enter {o : Outcome} (body : Body) (haction : o.action = .enter body)
      (hopen : t.isMark '(') (hkind : s.top.body.kind ≠ .flat)
      (hsuspended : o.body.isSuspended) (hinner : body.inner = 0)
      (hpending : body.pending? = none) (hcreating : body.isCreating = false) : Shift s t o
  | leave {o : Outcome} (haction : o.action = .leave) (hclose : t.isMark ')')
      (hinner : s.top.body.inner = 0) (hbelow : s.below ≠ []) : Shift s t o

theorem Query.Opens.inner_eq {w : Surroundings} {q : Query} {b : Body}
    (h : q.Opens w rest b) : b.inner = 0 ∧ b.pending? = none ∧ b.isCreating = false := by
  cases h with
  | expression scope =>
      rw [Surroundings.expression]
      split <;> exact ⟨rfl, rfl, rfl⟩
  | subquery scope =>
      rw [Surroundings.subquery]
      split <;> exact ⟨rfl, rfl, rfl⟩
  | operand =>
      rw [Query.operandGroup]
      split
      · exact ⟨rfl, rfl, rfl⟩
      · split
        · exact ⟨rfl, rfl, rfl⟩
        · split <;> exact ⟨rfl, rfl, rfl⟩

theorem Surroundings.kind_subquery (w : Surroundings) (scope : Scope) :
    (w.subquery scope).kind ≠ .joinTree := by
  unfold subquery
  split
  · exact GroupKind.noConfusion
  · exact GroupKind.noConfusion

theorem Surroundings.kind_expression (w : Surroundings) (scope : Scope) :
    (w.expression scope).kind ≠ .joinTree := by
  unfold expression
  split
  · exact GroupKind.noConfusion
  · exact GroupKind.noConfusion

/-! ## The outcome in each kind of group -/

/-- The outcomes in a flat group of a token that continues no name, where `before`
are the references that it completes. -/
inductive Flat.Turn (f : Flat) (t : Token) : List Reference → Outcome → Prop
  | stay {before : List Reference} (expecting : Bool) (read : Option DottedName)
      (hread : read = none ∨ read = some (.ofToken t) ∧ isCandidate t)
      (hclose : t.isMark ')' → 0 < f.depth ∧ expecting = false ∧ read = none) :
      Flat.Turn f t before
        ⟨.flat ⟨f.scope, nest f.depth t, expecting, read⟩, .stay, before, [], none⟩
  | leave {before : List Reference} (hclose : t.isMark ')') (hdepth : f.depth = 0) :
      Flat.Turn f t before ⟨.flat ⟨f.scope, 0, false, none⟩, .leave, before, [], none⟩

theorem Flat.Turn.found {f : Flat} {before : List Reference} {o : Outcome}
    (h : f.Turn t before o) (r : Reference) : f.Turn t (r :: before) (o.found r) := by
  cases h with
  | stay expecting read hread hclose => exact .stay expecting read hread hclose
  | leave hclose hdepth => exact .leave hclose hdepth

theorem Flat.plainStep_turn (f : Flat) (expecting : Bool) (t : Token) :
    f.Turn t [] (f.plainStep expecting t) := by
  unfold Flat.plainStep
  dsimp only
  split
  · next hopen =>
      rw [← nest_open hopen]
      exact .stay expecting none (Or.inl rfl) fun hclose =>
        absurd hclose (Token.not_isMark_of_isMark hopen (by decide))
  · next hopen =>
      split
      · next hclose =>
          split
          · next hdepth => exact .leave hclose hdepth
          · next d hdepth =>
              have hnest : nest f.depth t = d := by
                rw [nest_close hclose, hdepth]
                rfl
              rw [← hnest]
              exact .stay false none (Or.inl rfl) fun _ => ⟨by omega, rfl, rfl⟩
      · next hclose =>
          have hstay : f.Turn t [] _ := .stay (t.isAnyKeyword [.FROM, .JOIN]) none
            (Or.inl rfl) fun h => absurd h hclose
          rwa [nest_other hopen hclose] at hstay

/-- What a flat group found when a name in it is complete. -/
def Flat.Completes (f : Flat) (t : Token) (before : List Reference) : Prop :=
  before = [] ∨ ∃ n r isCall, f.read = some n ∧ n.extend? t = none ∧
    f.reference? n isCall = some r ∧ before = [r]

/-- What every step of a flat group does: a token that continues a name does
nothing else. -/
theorem Flat.step_turn (f : Flat) (t : Token) :
    (∃ n longer, f.read = some n ∧ n.extend? t = some longer ∧
      f.step t = { body := .flat { f with read := some longer } }) ∨
    ∃ before, f.Completes t before ∧ f.Turn t before (f.step t) := by
  unfold Flat.step
  split
  · next n hread =>
      cases hn : n.extend? t with
      | some longer => exact Or.inl ⟨n, longer, hread, hn, rfl⟩
      | none =>
          dsimp only
          split
          · next r hr =>
              exact Or.inr ⟨[r], Or.inr ⟨n, r, _, hread, hn, hr, rfl⟩,
                (f.plainStep_turn false t).found r⟩
          · exact Or.inr ⟨[], Or.inl rfl, f.plainStep_turn false t⟩
  · split
    · next hcandidate =>
        have hopen := not_isMark_of_isCandidate hcandidate.2 '('
        have hclose := not_isMark_of_isCandidate hcandidate.2 ')'
        have hstay : f.Turn t [] _ := .stay false (some (.ofToken t))
          (Or.inr ⟨rfl, hcandidate.2⟩) fun h => absurd h hclose
        rw [nest_other hopen hclose] at hstay
        exact Or.inr ⟨[], Or.inl rfl, hstay⟩
    · exact Or.inr ⟨[], Or.inl rfl, f.plainStep_turn _ t⟩

/-- What a token does in a group: it goes on with a name, or else the name is over and
the token does what it does in a group of that kind. -/
inductive Body.Turn (w : Surroundings) (t : Token) (rest : List Token) : Body → Outcome → Prop
  | extend (q : Query) (purpose : Purpose) {n longer : DottedName}
      (hmode : q.mode = .name purpose n) (hn : n.extend? t = some longer) :
      Body.Turn w t rest (.query q) { body := .query (q.goto (.name purpose longer)) }
  | query {q : Query} {before : List Reference} {o : Outcome}
      (hbefore : q.Completes t before) (hturn : q.Turn w t rest before o) :
      Body.Turn w t rest (.query q) o
  | enter (scope : Scope) (hopen : t.isMark '(') :
      Body.Turn w t rest (.expression scope)
        { body := .expression scope,
          action := .enter
            (if rest.head?.any startsSubquery then w.subquery scope else w.expression scope) }
  | leave (scope : Scope) (hclose : t.isMark ')') :
      Body.Turn w t rest (.expression scope) { body := .expression scope, action := .leave }
  | pass (scope : Scope) (hopen : ¬ t.isMark '(') (hclose : ¬ t.isMark ')') :
      Body.Turn w t rest (.expression scope) { body := .expression scope }
  | extendFlat (f : Flat) {n longer : DottedName} (hread : f.read = some n)
      (hn : n.extend? t = some longer) :
      Body.Turn w t rest (.flat f) { body := .flat { f with read := some longer } }
  | flat {f : Flat} {before : List Reference} {o : Outcome}
      (hbefore : f.Completes t before) (hturn : f.Turn t before o) :
      Body.Turn w t rest (.flat f) o

/-- Everything that a token may do in the innermost group. -/
theorem outcome_turn (limit : Nat) (s : Scan) (t : Token) (rest : List Token) :
    s.top.body.Turn (s.surroundings limit) t rest (s.outcome limit t rest) := by
  unfold outcome
  cases s.top.body with
  | query q =>
      rcases q.step_turn (s.surroundings limit) t rest with
        ⟨purpose, n, longer, hmode, hn, heq⟩ | ⟨before, hbefore, hturn⟩
      · dsimp only
        rw [heq]
        exact .extend q purpose hmode hn
      · exact .query hbefore hturn
  | expression scope =>
      dsimp only
      split
      · next hopen => exact .enter scope hopen
      · next hopen =>
          split
          · next hclose => exact .leave scope hclose
          · next hclose => exact .pass scope hopen hclose
  | flat f =>
      rcases f.step_turn t with ⟨n, longer, hread, hn, heq⟩ | ⟨before, hbefore, hturn⟩
      · dsimp only
        rw [heq]
        exact .extendFlat f hread hn
      · exact .flat hbefore hturn

/-- The groups that a parenthesis may enter. -/
inductive Surroundings.Enters (w : Surroundings) (rest : List Token) : Body → Prop
  | expression (scope : Scope) : Enters w rest (w.expression scope)
  | subquery (scope : Scope) : Enters w rest (w.subquery scope)
  | operand (q : Query) : Enters w rest (Query.operandGroup w q rest)

theorem enters_of_enter {body : Body} (h : (s.outcome limit t rest).action = .enter body) :
    (s.surroundings limit).Enters rest body := by
  have hturn := outcome_turn limit s t rest
  generalize s.outcome limit t rest = o at h hturn
  generalize s.top.body = around at hturn
  cases hturn with
  | query hbefore hturn =>
      cases hturn with
      | enter first mode opened d hopen hfirst hwait hopens =>
          rw [← Action.enter.inj h]
          cases hopens with
          | expression scope => exact .expression scope
          | subquery scope => exact .subquery scope
          | operand => exact .operand _
      | leave first d hclose =>
          dsimp only at h
          split at h <;> cases h
      | _ => cases h
  | enter scope hopen =>
      rw [← Action.enter.inj h]
      split
      · exact .subquery scope
      · exact .expression scope
  | flat hbefore hturn => cases hturn <;> cases h
  | _ => cases h

/-! ## Every token shifts the stack -/

theorem Query.isJoinTree_defineAlias (q : Query) (name : String) :
    (q.defineAlias name).isJoinTree = q.isJoinTree := by
  unfold Query.defineAlias
  split <;> rfl

theorem isNested_iff (hs : IsNest s.top s.below) :
    (s.surroundings limit).nested ↔ s.below ≠ [] := by
  simp only [surroundings]
  cases hbelow : s.below with
  | nil =>
      rw [hbelow, IsNest] at hs
      simp [hs.1]
  | cons g gs =>
      rw [hbelow, IsNest] at hs
      simp [hs.1]

theorem isNest_ne_nil (hs : IsNest s.top s.below) (h : s.top.body.kind ≠ .query) :
    s.below ≠ [] := by
  intro hbelow
  rw [hbelow, IsNest] at hs
  exact h hs.2

theorem Shift.of_extend {o : Outcome} {n longer : DottedName}
    (hn : n.extend? t = some longer) (haction : o.action = .stay)
    (hinner : o.body.inner = s.top.body.inner) : Shift s t o := by
  have hmark (c : Char) (hc : c ≠ '.') : ¬ t.isMark c := fun h => by
    rw [DottedName.extend?_eq_none_of_isMark h hc] at hn
    cases hn
  have hopen := hmark '(' (by decide)
  have hclose := hmark ')' (by decide)
  exact .stay haction (by rw [hinner, nest_other hopen hclose])
    (fun h => absurd h hopen) (fun h => absurd h hclose)

theorem Query.Turn.shift {q : Query} {before : List Reference} {o : Outcome}
    (hs : IsNest s.top s.below) (hbody : s.top.body = .query q)
    (h : q.Turn (s.surroundings limit) t rest before o) : Shift s t o := by
  have hinner : s.top.body.inner = 0 := by rw [hbody]; rfl
  have hstay {o : Outcome} (haction : o.action = .stay) (hq : o.body.inner = 0)
      (hopen : ¬ t.isMark '(') (hclose : ¬ t.isMark ')') : Shift s t o :=
    .stay haction (by rw [hinner, nest_other hopen hclose, hq])
      (fun h => absurd h hopen) (fun h => absurd h hclose)
  cases h with
  | goto first mode d g ho hc => exact hstay rfl rfl ho hc
  | branch first d ho hc => exact hstay rfl rfl ho hc
  | defineAlias follow d hn =>
      exact hstay rfl rfl (Token.not_isMark_of_isName hn _)
        (Token.not_isMark_of_isName hn _)
  | defineCte clause d hn =>
      exact hstay rfl rfl (Token.not_isMark_of_isName hn _)
        (Token.not_isMark_of_isName hn _)
  | enter first mode body d ho hf hw hb =>
      refine .enter body rfl ho ?_ hw hb.inner_eq.1 hb.inner_eq.2.1 hb.inner_eq.2.2
      rw [hbody, Body.kind]
      split <;> simp
  | leave first d hc =>
      by_cases hnested : (s.surroundings limit).nested
      · exact .leave (by simp [hnested]) hc hinner ((isNested_iff hs).mp hnested)
      · have hbelow : s.below = [] := by
          by_contra hne
          exact hnested ((isNested_iff hs).mpr hne)
        have hopen := Token.not_isMark_of_isMark hc (d := '(') (by decide)
        exact .stay (by simp [hnested]) (by rw [hinner, nest_close hc]; rfl)
          (fun h => absurd h hopen) (fun _ => Or.inr hbelow)

theorem Flat.Turn.shift {f : Flat} {before : List Reference} {o : Outcome}
    (hs : IsNest s.top s.below) (hbody : s.top.body = .flat f)
    (h : f.Turn t before o) : Shift s t o := by
  have hkind : s.top.body.kind = .flat := by rw [hbody]; rfl
  have hinner : s.top.body.inner = f.depth := by rw [hbody]; rfl
  cases h with
  | stay expecting read hread hclose =>
      exact .stay rfl (by rw [hinner]; rfl) (fun _ => hkind)
        fun h => Or.inl (by rw [hinner]; exact (hclose h).1)
  | leave hclose hdepth =>
      exact .leave rfl hclose (by rw [hinner, hdepth])
        (isNest_ne_nil hs (by rw [hkind]; exact GroupKind.noConfusion))

/-- Every token shifts the stack. -/
theorem outcome_shift (limit : Nat) (t : Token) (rest : List Token)
    (hs : IsNest s.top s.below) : Shift s t (s.outcome limit t rest) := by
  have h := outcome_turn limit s t rest
  generalize hbody : s.top.body = body at h
  generalize s.outcome limit t rest = o at h ⊢
  cases h with
  | extend q purpose hmode hn => exact .of_extend hn rfl (by rw [hbody]; rfl)
  | query hbefore hturn => exact hturn.shift hs hbody
  | enter scope hopen =>
      refine .enter _ rfl hopen (by rw [hbody]; exact GroupKind.noConfusion) rfl ?_ ?_ ?_ <;>
        (simp only [Surroundings.subquery, Surroundings.expression]
         split <;> split <;> rfl)
  | leave scope hclose =>
      exact .leave rfl hclose (by rw [hbody]; rfl)
        (isNest_ne_nil hs (by rw [hbody]; exact GroupKind.noConfusion))
  | pass scope hopen hclose =>
      exact .stay rfl (by rw [hbody, nest_other hopen hclose])
        (fun h => absurd h hopen) (fun h => absurd h hclose)
  | extendFlat f hread hn => exact .of_extend hn rfl (by rw [hbody]; rfl)
  | flat hbefore hturn => exact hturn.shift hs hbody

/-! ## Steps of the scan -/

@[simp] theorem Frame.take_opener (f : Frame) (o : Outcome) :
    (f.take o).opener = f.opener := rfl

@[simp] theorem Frame.take_body (f : Frame) (o : Outcome) :
    (f.take o).body = o.body := rfl

@[simp] theorem Frame.absorb_opener (f inner : Frame) :
    (f.absorb inner).opener = f.opener := rfl

/-- A group takes over a scope at most from one inside it. -/
theorem Frame.absorb_body (f inner : Frame) :
    (f.absorb inner).body = f.body ∨
      ∃ q tree, f.body = .query q ∧ inner.body = .query tree ∧ tree.isJoinTree ∧
        (f.absorb inner).body = .query (q.withScope tree.base) := by
  unfold Frame.absorb
  split
  · next q tree hq htree =>
      by_cases hjoin : tree.isJoinTree
      · exact Or.inr ⟨q, tree, hq, htree, hjoin, by simp [hjoin]⟩
      · left
        simp [hjoin, hq]
  · exact Or.inl rfl

/-- A group that is no join tree hands no scope back. -/
theorem Frame.absorb_of_kind (f : Frame) {inner : Frame} (h : inner.body.kind ≠ .joinTree) :
    (f.absorb inner).body = f.body := by
  rcases f.absorb_body inner with heq | ⟨q, tree, -, htree, hjoin, -⟩
  · exact heq
  · rw [htree, Body.kind, if_pos hjoin] at h
    exact absurd rfl h

theorem Query.withScope_eq (q : Query) (scope : Scope) :
    ∃ base branch, q.withScope scope = { q with base, branch } := by
  unfold Query.withScope
  split
  · exact ⟨_, _, rfl⟩
  · exact ⟨_, _, rfl⟩

theorem Frame.absorb_mode (f inner : Frame) :
    (f.absorb inner).body.kind = f.body.kind ∧
      (f.absorb inner).body.inner = f.body.inner ∧
      (f.absorb inner).body.isSuspended = f.body.isSuspended ∧
      (f.absorb inner).body.inFirstList = f.body.inFirstList ∧
      (f.absorb inner).body.pending? = f.body.pending? := by
  rcases f.absorb_body inner with h | ⟨q, tree, hq, -, -, h⟩
  · rw [h]
    exact ⟨rfl, rfl, rfl, rfl, rfl⟩
  · obtain ⟨base, branch, heq⟩ := q.withScope_eq tree.base
    rw [h, heq, hq]
    exact ⟨rfl, rfl, rfl, rfl, rfl⟩

theorem step_of_stay (h : (s.outcome limit t rest).action = .stay) :
    s.step limit t rest =
      ⟨s.top.take (s.outcome limit t rest), s.below,
        (s.outcome limit t rest).merging.getD s.merging, s.comparison.next t⟩ := by
  simp only [step, h, act]

theorem step_of_enter {body : Body} (h : (s.outcome limit t rest).action = .enter body) :
    s.step limit t rest =
      ⟨{ opener := some t.span, body }, s.top.take (s.outcome limit t rest) :: s.below,
        (s.outcome limit t rest).merging.getD s.merging, s.comparison.next t⟩ := by
  simp only [step, h, act]

theorem step_of_leave {outer : Frame} {below : List Frame}
    (h : (s.outcome limit t rest).action = .leave) (hbelow : s.below = outer :: below) :
    s.step limit t rest =
      ⟨outer.absorb (s.top.take (s.outcome limit t rest)), below,
        (s.outcome limit t rest).merging.getD s.merging, s.comparison.next t⟩ := by
  simp only [step, h, act, hbelow]

/-- A token keeps the kind of the group that it is read in. -/
theorem kind_outcome (limit : Nat) (s : Scan) (t : Token) (rest : List Token) :
    (s.outcome limit t rest).body.kind = s.top.body.kind := by
  have h := outcome_turn limit s t rest
  generalize s.outcome limit t rest = o at h ⊢
  generalize s.top.body = body at h ⊢
  cases h with
  | query hbefore hturn =>
      cases hturn with
      | defineAlias follow => simp only [Body.kind, Query.goto, Query.isJoinTree_defineAlias]
      | _ => rfl
  | flat hbefore hturn => cases hturn <;> rfl
  | _ => rfl

theorem isNest_congr {f g : Frame} (hopener : g.opener = f.opener)
    (hkind : g.body.kind = f.body.kind) (fs : List Frame) : IsNest f fs → IsNest g fs := by
  cases fs with
  | nil => exact fun h => ⟨hopener.trans h.1, hkind.trans h.2⟩
  | cons h hs => exact fun hf => ⟨hopener ▸ hf.1, hf.2.1, hf.2.2⟩

theorem isNest_step (limit : Nat) (t : Token) (rest : List Token)
    (hs : IsNest s.top s.below) :
    IsNest (s.step limit t rest).top (s.step limit t rest).below := by
  have htake : IsNest (s.top.take (s.outcome limit t rest)) s.below :=
    isNest_congr (Frame.take_opener _ _) (kind_outcome limit s t rest) _ hs
  cases outcome_shift limit t rest hs with
  | stay haction =>
      rw [step_of_stay haction]
      exact htake
  | enter body haction hopen hkind hsuspended =>
      rw [step_of_enter haction]
      exact ⟨rfl, hsuspended, htake⟩
  | leave haction hclose hinner hbelow =>
      obtain ⟨outer, below, hbelow⟩ := List.exists_cons_of_ne_nil hbelow
      rw [step_of_leave haction hbelow]
      rw [hbelow] at hs
      exact isNest_congr (Frame.absorb_opener _ _) (Frame.absorb_mode _ _).1 _ hs.2.2

theorem isNest_start : IsNest start.top start.below := ⟨rfl, rfl⟩

theorem isNest_advance (limit : Nat) (after ts : List Token)
    (hs : IsNest s.top s.below) :
    IsNest (s.advance limit after ts).top (s.advance limit after ts).below := by
  induction ts generalizing s with
  | nil => exact hs
  | cons t ts ih => exact ih (isNest_step limit t _ hs)

theorem inner_of_isSuspended {body : Body} (h : body.isSuspended) : body.inner = 0 := by
  cases body with
  | query q => rfl
  | expression scope => rfl
  | flat f => cases h

theorem inner_of_not_flat {body : Body} (h : body.kind ≠ .flat) : body.inner = 0 := by
  cases body with
  | query q => rfl
  | expression scope => rfl
  | flat f => exact absurd rfl h

/-- A token changes the number of open parentheses as it says. -/
theorem height_step (limit : Nat) (t : Token) (rest : List Token)
    (hs : IsNest s.top s.below) :
    (s.step limit t rest).height = nest s.height t := by
  cases outcome_shift limit t rest hs with
  | stay haction hinner hopen hclose =>
      rw [step_of_stay haction]
      change s.below.length + (s.outcome limit t rest).body.inner =
        nest (s.below.length + s.top.body.inner) t
      rw [hinner]
      unfold nest
      split
      · omega
      · split
        · next hc =>
            rcases hclose hc with h | h
            · omega
            · rw [h, List.length_nil, Nat.zero_add, Nat.zero_add]
        · rfl
  | enter body haction hopen hkind hsuspended hinner =>
      have hzero : s.top.body.inner = 0 := inner_of_not_flat hkind
      rw [step_of_enter haction, nest_open hopen, height, height, hinner, hzero,
        List.length_cons]
  | leave haction hclose hinner hbelow =>
      obtain ⟨outer, below, hbelow⟩ := List.exists_cons_of_ne_nil hbelow
      rw [hbelow] at hs
      rw [step_of_leave haction hbelow, nest_close hclose, height, height, hinner, hbelow,
        (Frame.absorb_mode _ _).2.1, inner_of_isSuspended hs.2.1, List.length_cons,
        Nat.add_zero, Nat.add_zero, Nat.add_sub_cancel]

theorem height_advance (limit : Nat) (after ts : List Token)
    (hs : IsNest s.top s.below) :
    (s.advance limit after ts).height = ts.foldl nest s.height := by
  induction ts generalizing s with
  | nil => rfl
  | cons t ts ih =>
      rw [advance_cons, ih (isNest_step limit t _ hs), height_step limit t _ hs,
        List.foldl_cons]

/-- All groups of a stack are in parentheses but the statement, which is the last. -/
theorem isSome_opener_iff {f : Frame} {fs : List Frame} (h : IsNest f fs) {k : Nat}
    {g : Frame} (hg : (f :: fs)[k]? = some g) : g.opener.isSome ↔ k < fs.length := by
  induction fs generalizing f k with
  | nil =>
      have hk : k < 1 := (List.getElem?_eq_some_iff.mp hg).1
      obtain rfl : k = 0 := by omega
      rw [← Option.some.inj hg, h.1]
      simp
  | cons f' fs ih =>
      cases k with
      | zero =>
          rw [← Option.some.inj hg, List.length_cons]
          exact iff_of_true h.1 (Nat.succ_pos _)
      | succ k =>
          rw [List.length_cons, Nat.succ_lt_succ_iff]
          exact ih h.2.2 hg

end Scan

end SqlTables
