import SqlTables.Proofs.Scan.Covers
import SqlTables.Proofs.Token.Order

/-!
# The range of a bound name

A name that a query defines is not read as that of a table as long as the query goes on:
a common table expression up to the end of the query, an alias up to its next set
operator, and both at any depth (`LaterReference.isHidden`).

One place is left out. The definitions of a `WITH` clause are read in the scope of the
query, not in that of its current branch, so an alias is not known in them. This holds of
their bodies and of their column names alike, where a subquery hardly stands, but may
(`LaterReference.not_hidesAlias_columns`).
-/

namespace SqlTables

namespace Scan

/-- The token is read as a set operator of the innermost group. -/
def startsBranch (s : Scan) (t : Token) : Bool :=
  match s.top.body with
  | .query q => t.isAnyKeyword setOperators && !q.continues t
  | _ => false

/-- The token opens a group in the innermost one, which is a query in such a mode. -/
def opensIn (opens : Mode → Bool) (s : Scan) (t : Token) : Bool :=
  match s.top.body with
  | .query q => t.isMark '(' && opens q.mode
  | _ => false

/-- Whether a parenthesis holds the body of a common table expression. -/
def Mode.opensBody : Mode → Bool
  | .cteBody _ _ => true
  | _ => false

end Scan

/-- A token of a statement that may define its name, and a later reference in the same
query to a complete name of one part that equals it. -/
structure LaterReference where
  index : Nat
  before : List Token
  /-- The token that may define its name. -/
  name : Token
  between : List Token
  /-- The first token of the reference. -/
  first : Token
  after : List Token
  reference : Reference
  ordered : Token.Ordered (before ++ name :: (between ++ first :: after))
  isFound : reference ∈
    (Statement.mk index (before ++ name :: (between ++ first :: after))).scan.references
  begins : reference.span.start = first.offset
  parts : reference.parts.map Unicode.lower = [Unicode.lower name.value]
  isComplete : ∀ t ∈ before ++ name :: (between ++ first :: after), t.isMark '.' →
    reference.span.stop ≠ t.stop
  /-- The query is the whole statement, or its parenthesis is not closed in between. -/
  isOpen : before.foldl Scan.nest 0 = 0 ∨ (Token.depth? 0 between).isSome

namespace LaterReference

open Scan

/-- The tokens after the name. -/
def rest (u : LaterReference) : List Token := u.between ++ u.first :: u.after

def tokens (u : LaterReference) : List Token := u.before ++ u.name :: u.rest

/-- The scan right before the name. -/
def reached (u : LaterReference) : Scan :=
  Scan.start.advance depthLimit (u.name :: u.rest) u.before

/-- The scan right before a token in between. -/
def reachedAt (u : LaterReference) (i : Nat) : Scan :=
  Scan.start.advance depthLimit (u.between.drop i ++ u.first :: u.after)
    (u.before ++ u.name :: u.between.take i)

/-- The name stands directly in a query and is defined there in the role. -/
def Records (u : LaterReference) (role : Role) : Prop :=
  u.reached.top.body.kind = .query ∧
    ∃ r ∈ (u.reached.outcome depthLimit u.name u.rest).references,
      r.span = u.name.span ∧ r.role = role

/-- The token in between stands directly in the query. -/
def IsDirect (u : LaterReference) (i : Nat) : Prop := (u.between.take i).foldl nest 0 = 0

/-- No set operator stands directly in the query before the reference. -/
def IsInBranch (u : LaterReference) : Prop :=
  ∀ i, ∀ h : i < u.between.length, u.IsDirect i → ¬ (u.reachedAt i).startsBranch u.between[i]

/-- A group that is opened directly in the query in such a mode is closed before the
reference. -/
def IsOutside (u : LaterReference) (opens : Mode → Bool) : Prop :=
  ∀ i, ∀ h : i < u.between.length, u.IsDirect i → (u.reachedAt i).opensIn opens u.between[i] →
    (afterClosing? 0 (u.between.drop (i + 1))).isSome

/-- The reference is no table if the name is a common table expression of the query. -/
def HidesCte (u : LaterReference) : Prop :=
  u.Records .cteDefinition → u.reference.isSource = false

/-- The reference is no table if the name is an alias of the branch, outside of the groups
that are opened in such a mode. -/
def HidesAlias (u : LaterReference) (opens : Mode → Bool) : Prop :=
  u.Records .aliasDefinition → u.IsInBranch → u.IsOutside opens → u.reference.isSource = false

instance (u : LaterReference) (role : Role) : Decidable (u.Records role) :=
  inferInstanceAs (Decidable (_ ∧ _))

instance (u : LaterReference) (i : Nat) : Decidable (u.IsDirect i) :=
  inferInstanceAs (Decidable (_ = _))

instance (u : LaterReference) : Decidable u.IsInBranch :=
  inferInstanceAs (Decidable (∀ i, ∀ _ : i < u.between.length, _))

instance (u : LaterReference) (opens : Mode → Bool) : Decidable (u.IsOutside opens) :=
  inferInstanceAs (Decidable (∀ i, ∀ _ : i < u.between.length, _))

end LaterReference

namespace Scan

open Token

variable {limit : Nat} {s : Scan} {t : Token} {rest after : List Token} {q : Query}
  {base : List Frame}

/-- What a query finds with a token, apart from the name that the token completes, is what
the token defines. -/
theorem Query.Turn.cases_defines {w : Surroundings} {before : List Reference} {o : Outcome}
    {r : Reference} (h : q.Turn w t rest before o) (hr : r ∈ o.references)
    (hbefore : r ∉ before) :
    o.action = .stay ∧
      ((r.role = .aliasDefinition ∧
          ∃ follow, o.body = .query ((q.defineAlias t.value).goto (.columns follow))) ∨
        (r.role = .cteDefinition ∧
          ∃ clause, o.body = .query ((q.defineCte t.value).goto (.cteColumns clause)))) := by
  cases h with
  | defineAlias follow d hname =>
      rcases List.mem_append.mp hr with hr | hr
      · exact absurd hr hbefore
      · rw [List.mem_singleton.mp hr]
        exact ⟨rfl, Or.inl ⟨rfl, follow, rfl⟩⟩
  | defineCte clause d hname =>
      rcases List.mem_append.mp hr with hr | hr
      · exact absurd hr hbefore
      · rw [List.mem_singleton.mp hr]
        exact ⟨rfl, Or.inr ⟨rfl, clause, rfl⟩⟩
  | _ => exact absurd hr hbefore

/-- The query binds the name once it is defined. -/
theorem Query.binds_defineCte (h : q.Has Scope.IsTidy) (name : String) :
    (q.defineCte name).Has fun scope => scope.Binds name := by
  have hbase : (q.base.define name .cteDefinition).Binds name :=
    Scope.binds_define_self q.base rfl rfl
  have hscope := h.scope
  obtain ⟨base, branch, isJoinTree, inFirstList, mode⟩ := q
  cases branch with
  | none => exact ⟨hbase, hbase⟩
  | some names => exact ⟨hbase, hscope.binds_define_outer name rfl⟩

theorem Query.binds_defineAlias (q : Query) (name : String) :
    (q.defineAlias name).scope.Binds name := by
  have hdefine : (q.scope.define name .aliasDefinition).Binds name :=
    Scope.binds_define_self q.scope rfl rfl
  obtain ⟨base, branch, isJoinTree, inFirstList, mode⟩ := q
  cases branch with
  | none => exact hdefine
  | some names => exact hdefine

/-! ## Over a branch -/

/-- A definition of a common table expression opens no join tree. -/
theorem Query.step_of_opensDefinition (w : Surroundings) (rest : List Token)
    (h : q.mode.opensDefinition) (ht : t.isMark '(') :
    ∃ mode body, q.step w t rest = { body := .query (q.goto mode), action := .enter body } ∧
      body.kind ≠ .joinTree := by
  cases hmode : q.mode with
  | cteColumns clause =>
      refine ⟨.cteAs clause, w.expression q.base, ?_, w.kind_expression q.base⟩
      simp only [step, hmode, cteColumnsStep]
      rw [if_pos ht]
  | cteBody clause optional =>
      refine ⟨.cteNext clause, w.subquery q.base, ?_, w.kind_subquery q.base⟩
      simp only [step, hmode, cteBodyStep, keyword?, kind_of_isMark ht, Option.filter_none]
      rw [if_pos ht]
  | _ =>
      rw [hmode] at h
      cases h

/-- What the tokens of a branch need for its scope to reach them: none is a set operator
of the query, and the definitions of common table expressions are closed. -/
structure StaysInBranch (limit : Nat) (after : List Token) (base : List Frame) (s : Scan)
    (xs : List Token) : Prop where
  branch : ∀ us t vs, xs = us ++ t :: vs →
    (s.advance limit (t :: (vs ++ after)) us).below = base →
    ¬ (s.advance limit (t :: (vs ++ after)) us).startsBranch t
  definition : ∀ us t vs, xs = us ++ t :: vs →
    (s.advance limit (t :: (vs ++ after)) us).below = base →
    (s.advance limit (t :: (vs ++ after)) us).opensIn Mode.opensDefinition t →
    (afterClosing? 0 vs).isSome

theorem StaysInBranch.of_append {xs ys : List Token}
    (h : s.StaysInBranch limit after base (xs ++ ys)) :
    (s.advance limit (ys ++ after) xs).StaysInBranch limit after base ys := by
  have hsplit {t : Token} {us vs : List Token} (hys : ys = us ++ t :: vs) :
      xs ++ ys = (xs ++ us) ++ t :: vs ∧
        (s.advance limit (ys ++ after) xs).advance limit (t :: (vs ++ after)) us =
          s.advance limit (t :: (vs ++ after)) (xs ++ us) := by
    refine ⟨by rw [hys, List.append_assoc], ?_⟩
    rw [advance_append, hys, List.append_assoc, List.cons_append]
  constructor
  · intro us t vs hys
    rw [(hsplit hys).2]
    exact h.branch _ t vs (hsplit hys).1
  · intro us t vs hys
    rw [(hsplit hys).2]
    exact h.definition _ t vs (hsplit hys).1

/-- A definition that is passed over leaves the query in its branch. -/
theorem covers_definition {P : Scope → Prop} (limit : Nat) (after : List Token) {c : Token}
    {xs : List Token} (hs : IsNest s.top s.below)
    (h : Covers P (fun q => P q.scope) base s.top s.below) (hbelow : s.below = base)
    (ht : s.opensIn Mode.opensDefinition t) (hc : c.isMark ')') (hxs : Balanced xs) :
    Covers P (fun q => P q.scope) base (s.advance limit after (t :: xs ++ [c])).top
      (s.advance limit after (t :: xs ++ [c])).below := by
  rcases h.cases_top with ⟨-, q, hbody, hq⟩ | ⟨hlt, -⟩
  · rw [opensIn, hbody, Bool.and_eq_true] at ht
    obtain ⟨mode, body, hstep, hkind⟩ :=
      q.step_of_opensDefinition (s.surroundings limit) (xs ++ c :: after) ht.2 ht.1
    have houtcome : s.outcome limit t (xs ++ c :: after) = _ := outcome_query hbody
    rw [hstep] at houtcome
    obtain ⟨hbelow', -, hbody'⟩ := advance_group limit after hs ht.1 hc hxs
      (by rw [hbody, Body.kind]; split <;> exact GroupKind.noConfusion)
      (fun opened hopened => by
        rw [houtcome, Action.enter.injEq] at hopened
        exact hopened ▸ hkind)
    rw [houtcome] at hbody'
    rw [hbelow', hbelow]
    exact .query hbody' hq
  · rw [hbelow] at hlt
    exact absurd hlt (Nat.lt_irrefl _)

theorem covers_branch {P : Scope → Prop} (hP : Scope.IsInherited P)
    (limit : Nat) (after : List Token) {xs : List Token} (hs : IsNest s.top s.below)
    (h : Covers P (fun q => P q.scope) base s.top s.below) (hopen : s.StaysOpen base xs)
    (hstays : s.StaysInBranch limit after base xs) :
    Covers P (fun q => P q.scope) base (s.advance limit after xs).top
      (s.advance limit after xs).below := by
  -- The definitions are passed over as a whole, so the induction is on the length.
  induction hn : xs.length using Nat.strongRecOn generalizing s xs with
  | ind n ih =>
      subst hn
      cases xs with
      | nil => exact h
      | cons t xs =>
          by_cases hdefinition : s.below = base ∧ s.opensIn Mode.opensDefinition t
          · obtain ⟨hbelow, hopens⟩ := hdefinition
            obtain ⟨zs, hzs⟩ := Option.isSome_iff_exists.mp
              (hstays.definition [] t xs rfl hbelow hopens)
            obtain ⟨ys, c, rfl, hys, hc⟩ := exists_of_afterClosing? hzs
            have hgroup : t :: (ys ++ c :: zs) = t :: ys ++ [c] ++ zs := by simp
            rw [hgroup] at hopen hstays ⊢
            rw [advance_append]
            exact ih zs.length (by simp; omega) (isNest_advance limit _ _ hs)
              (covers_definition limit _ hs h hbelow hopens hc hys)
              (hopen.advance limit _ hs) hstays.of_append rfl
          · have hrest : (s.advance limit (xs ++ after) [t]).StaysInBranch limit after base xs :=
              StaysInBranch.of_append hstays
            rw [advance_cons]
            refine ih xs.length (by simp) (isNest_step limit t _ hs) ?_ (hopen.step limit _ hs)
              hrest rfl
            refine covers_step hP (Query.hands_scope hP) limit _ hs h ?_ hopen.head
            intro q hbelow hbody hname
            have hbranch := hstays.branch [] t xs rfl hbelow
            rw [advance_nil, startsBranch, hbody] at hbranch
            refine ⟨fun hword => hbranch (by simp [hword, hname]), fun hmark hopens => ?_⟩
            refine hdefinition ⟨hbelow, ?_⟩
            rw [opensIn, hbody]
            simp [hmark, hopens]

end Scan

namespace LaterReference

open Scan Token

variable (u : LaterReference)

/-- The scan right after the name. -/
def passed : Scan := u.reached.step depthLimit u.name u.rest

theorem isNest_reached : IsNest u.reached.top u.reached.below :=
  isNest_advance depthLimit _ _ isNest_start

theorem isNest_passed : IsNest u.passed.top u.passed.below :=
  isNest_step depthLimit _ _ u.isNest_reached

/-- A run from the start of the statement goes on behind the name. -/
theorem advance_passed (xs ys : List Token) (h : u.rest = xs ++ ys) :
    start.advance depthLimit ys (u.before ++ u.name :: xs) =
      u.passed.advance depthLimit ys xs := by
  rw [advance_append, advance_cons, List.cons_append, ← h]
  rfl

variable {u}

/-- A definition that is recorded with the name is the one that the query makes. -/
theorem Records.cases {role : Role} (h : u.Records role) :
    ∃ q q', u.reached.top.body = .query q ∧ u.passed.top.body = .query q' ∧
      u.passed.below = u.reached.below ∧
      ((role = .aliasDefinition ∧
          ∃ follow, q' = (q.defineAlias u.name.value).goto (.columns follow)) ∨
        (role = .cteDefinition ∧
          ∃ clause, q' = (q.defineCte u.name.value).goto (.cteColumns clause))) := by
  obtain ⟨hkind, r, hr, hspan, rfl⟩ := h
  have hturn := outcome_turn depthLimit u.reached u.name u.rest
  have hpassed (haction : (u.reached.outcome depthLimit u.name u.rest).action = .stay) :=
    step_of_stay haction
  generalize hbody : u.reached.top.body = body at hturn hkind
  generalize ho : u.reached.outcome depthLimit u.name u.rest = o at hr hturn hpassed
  cases hturn with
  | @query q before o hbefore hturn =>
      have hnot : r ∉ before := by
        -- A name that is complete ends before the token does.
        intro hr
        obtain ⟨n, hread, -, rfl⟩ := Query.mem_completes hbefore hr
        have hpending : u.reached.pending? = some n := by
          rw [Scan.pending?, hbody]
          exact hread
        have hover := (hasRead_advance isNest_start rfl hpending).isOver
        obtain ⟨-, v, hv, hstop⟩ := hover
        have horder := u.ordered
        rw [ordered_append, ordered_cons] at horder
        have hle := horder.2.2 v hv u.name List.mem_cons_self
        have hlt := horder.2.1.1
        have heq : n.span.stop = u.name.stop := congrArg Span.stop hspan
        omega
      obtain ⟨haction, hcases⟩ := hturn.cases_defines hr hnot
      rw [passed, hpassed haction]
      rcases hcases with ⟨hrole, follow, hafter⟩ | ⟨hrole, clause, hafter⟩
      · exact ⟨q, _, rfl, hafter, rfl, Or.inl ⟨hrole, follow, rfl⟩⟩
      · exact ⟨q, _, rfl, hafter, rfl, Or.inr ⟨hrole, clause, rfl⟩⟩
  | flat => cases hkind
  | _ => cases hr

/-- The groups below the query around the name are those of the statement or still open. -/
theorem Records.below_eq_nil_or {role : Role} (h : u.Records role) :
    u.passed.height = u.reached.below.length ∧
      (u.reached.below = [] ∨ (depth? 0 u.between).isSome) := by
  obtain ⟨q, q', -, hbody, hbelow, -⟩ := h.cases
  refine ⟨by rw [Scan.height, hbody, hbelow]; rfl, u.isOpen.imp_left fun hwhole => ?_⟩
  have hheight : u.reached.height = u.before.foldl nest 0 :=
    height_advance depthLimit _ _ isNest_start
  rw [hwhole, Scan.height] at hheight
  exact List.length_eq_zero_iff.mp (by omega)

/-- The query around the name goes on up to the reference. -/
theorem Records.staysOpen {role : Role} (h : u.Records role) :
    u.passed.StaysOpen u.reached.below u.between :=
  h.below_eq_nil_or.2.imp_right fun hopen => ⟨0, h.below_eq_nil_or.1, hopen⟩

/-- A token at which the scan is back in the query stands directly in it. -/
theorem Records.isDirect {role : Role} (h : u.Records role) {us vs : List Token} {t : Token}
    (hsplit : u.between = us ++ t :: vs) (after : List Token)
    (hheight : (u.passed.advance depthLimit after us).height = u.reached.below.length) :
    u.IsDirect us.length := by
  obtain ⟨hpassed, hbelow⟩ := h.below_eq_nil_or
  rw [height_advance depthLimit _ _ u.isNest_passed, hpassed] at hheight
  rw [IsDirect, hsplit, List.take_left]
  rcases hbelow with hnil | hopen
  · rwa [hnil] at hheight
  · rw [hsplit, depth?_append] at hopen
    obtain ⟨e, he⟩ : ∃ e, depth? 0 us = some e := by
      cases hus : depth? 0 us with
      | none =>
          rw [hus] at hopen
          cases hopen
      | some e => exact ⟨e, rfl⟩
    have hadd := foldl_nest (depth?_add he u.reached.below.length)
    rw [Nat.zero_add, hheight] at hadd
    rw [foldl_nest he]
    omega

theorem reachedAt_length {us vs : List Token} {t : Token} (hsplit : u.between = us ++ t :: vs) :
    u.reachedAt us.length =
      u.passed.advance depthLimit (t :: (vs ++ u.first :: u.after)) us := by
  rw [reachedAt, hsplit, List.take_left, List.drop_left, List.cons_append]
  exact u.advance_passed _ _ (by rw [rest, hsplit, List.append_assoc, List.cons_append])

/-- The scan meets what is said of the tokens in between. -/
theorem Records.staysInBranch {role : Role} (h : u.Records role) (hbranch : u.IsInBranch)
    (houtside : u.IsOutside Mode.opensDefinition) :
    u.passed.StaysInBranch depthLimit (u.first :: u.after) u.reached.below u.between := by
  have hquery {s : Scan} {q : Query} (hbody : s.top.body = .query q)
      (hbelow : s.below = u.reached.below) : s.height = u.reached.below.length := by
    rw [Scan.height, hbody, hbelow]
    rfl
  have hlength {us vs : List Token} {t : Token} (hsplit : u.between = us ++ t :: vs) :
      us.length < u.between.length := by
    rw [hsplit, List.length_append, List.length_cons]
    omega
  have hget {us vs : List Token} {t : Token} (hsplit : u.between = us ++ t :: vs)
      (hlt : us.length < u.between.length) : u.between[us.length] = t := by
    simp only [hsplit, List.getElem_append_right (Nat.le_refl _), Nat.sub_self,
      List.getElem_cons_zero]
  constructor
  · intro us t vs hsplit hbelow hstarts
    have hat := hbranch us.length (hlength hsplit)
    rw [u.reachedAt_length hsplit, hget hsplit] at hat
    refine hat (h.isDirect hsplit (t :: (vs ++ u.first :: u.after)) ?_) hstarts
    unfold startsBranch at hstarts
    split at hstarts
    · next q hbody => exact hquery hbody hbelow
    · cases hstarts
  · intro us t vs hsplit hbelow hopens
    have hat := houtside us.length (hlength hsplit)
    rw [u.reachedAt_length hsplit, hget hsplit] at hat
    have hdrop : u.between.drop (us.length + 1) = vs := by
      rw [hsplit, ← List.drop_drop, List.drop_left, List.drop_one, List.tail_cons]
    rw [hdrop] at hat
    refine hat (h.isDirect hsplit (t :: (vs ++ u.first :: u.after)) ?_) hopens
    unfold opensIn at hopens
    split at hopens
    · next q hbody => exact hquery hbody hbelow
    · cases hopens

/-- The name of the reference was read from its first token on. -/
theorem eq_of_extendAll? {xs since vs : List Token} {w : Token} {n : DottedName}
    (hread : (DottedName.ofToken w).extendAll? since = some n) (hspan : u.reference.span = n.span)
    (hsplit : u.before ++ u.name :: (u.between ++ u.first :: u.after) = xs ++ w :: since ++ vs) :
    u.before ++ u.name :: u.between = xs ∧ u.first = w ∧ u.after = since ++ vs := by
  have hstart : u.first.offset = w.offset := by
    have hbegins : (n.start : Int) = u.first.offset := by
      rw [← u.begins, hspan]
      rfl
    rw [DottedName.start_of_extendAll? hread] at hbegins
    exact (Int.ofNat_inj.mp hbegins).symm
  have hcut : u.before ++ u.name :: (u.between ++ u.first :: u.after) =
      u.before ++ u.name :: u.between ++ u.first :: u.after := by simp
  have hsame : xs ++ w :: since ++ vs = xs ++ w :: (since ++ vs) := by simp
  have horder := u.ordered
  rw [hcut] at horder hsplit
  rw [hsame] at hsplit
  exact horder.eq_of_offset_eq hsplit hstart

/-- The name of the reference does not end in a dot. -/
theorem dangling_of_extendAll? {since : List Token} {w : Token} {n : DottedName}
    (hread : (DottedName.ofToken w).extendAll? since = some n) (hspan : u.reference.span = n.span)
    (hmem : ∀ v ∈ w :: since, v ∈ u.before ++ u.name :: (u.between ++ u.first :: u.after)) :
    n.dangling = false := by
  obtain ⟨v, hv, hstop, hdot⟩ := DottedName.stop_of_extendAll? hread
  refine Bool.eq_false_iff.mpr fun hdangling => u.isComplete v (hmem v hv) (hdot hdangling) ?_
  rw [hspan, DottedName.span, hstop]

/-- The reference is no table if its name is bound where its first token has been read. -/
theorem isSource_of_binds
    (h : isCandidate u.first →
      (u.passed.advance depthLimit u.after (u.between ++ [u.first])).top.body.scope.Binds
        u.name.value) :
    u.reference.isSource = false := by
  obtain ⟨r, hr, hreference⟩ := List.mem_map.mp u.isFound
  have hsource : u.reference.isSource = r.isSource := by rw [← hreference]; rfl
  have hspan : u.reference.span = r.span := by rw [← hreference]
  have hparts : u.reference.parts = r.parts := by rw [← hreference]
  obtain ⟨us, vs, hsplit, r', hr', rfl⟩ := mem_references.mp hr
  rw [fated_span] at hspan
  rw [fated_parts] at hparts
  rw [hsource, fated_isSource]
  rcases origin_of_brings isNest_start rfl hr' with
    ⟨n, hrefers, before, w, since, rfl, hcandidate, hpending, hread⟩ |
      ⟨t, rest, -, -, -, -, hdefined⟩
  · obtain ⟨hname, hplace⟩ := hrefers.name_eq
    rw [hplace] at hspan
    have hmem (v : Token) (hv : v ∈ w :: since) :
        v ∈ u.before ++ u.name :: (u.between ++ u.first :: u.after) := by
      rw [show u.before ++ u.name :: (u.between ++ u.first :: u.after) = _ from hsplit]
      exact List.mem_append_left vs (List.mem_append_right before hv)
    have hdangling := dangling_of_extendAll? hread hspan hmem
    obtain ⟨rfl, rfl, hafter⟩ := eq_of_extendAll? hread hspan hsplit
    obtain ⟨v, hv, hlower⟩ : ∃ v, r'.parts = [v] ∧
        Unicode.lower v = Unicode.lower u.name.value :=
      List.map_eq_singleton_iff.mp (hparts ▸ u.parts)
    obtain rfl := DottedName.eq_nil_of_extendAll? hread (by rw [← hname, hv]; rfl) hdangling
    rw [List.nil_append] at hafter
    rw [← hafter, List.append_assoc, List.cons_append,
      u.advance_passed _ _ (by simp [rest])] at hrefers
    exact not_isSource_of_binds (h hcandidate) hrefers hv hlower hdangling
  · exact hdefined

variable (u)

/-- The first token of the reference is read in the range of the query as well. -/
theorem covers_first {P : Scope → Prop} {B : Query → Prop} {meets : Query → Token → Prop}
    {base : List Frame} (hP : Scope.IsInherited P) (hB : Query.Hands P B meets)
    (hcandidate : isCandidate u.first) (hmeets : ∀ q, meets q u.first)
    (h : Covers P B base (u.passed.advance depthLimit (u.first :: u.after) u.between).top
      (u.passed.advance depthLimit (u.first :: u.after) u.between).below) :
    Covers P B base (u.passed.advance depthLimit u.after (u.between ++ [u.first])).top
      (u.passed.advance depthLimit u.after (u.between ++ [u.first])).below := by
  rw [advance_append]
  exact covers_step hP hB depthLimit _ (isNest_advance depthLimit _ _ u.isNest_passed) h
    (fun q _ _ _ => hmeets q)
    fun hclose => absurd hclose (not_isMark_of_isCandidate hcandidate ')')

/-- A common table expression is known up to the end of its query, and an alias up to the
next set operator, but not in the definitions of a `WITH` clause of the query. The tokens
of a script are always in order (`Statement.ordered_tokens`). -/
theorem isHidden : u.HidesCte ∧ u.HidesAlias Mode.opensDefinition := by
  have hinherited := Scope.isInherited_binds u.name.value
  constructor
  · intro hrecords
    refine isSource_of_binds fun hcandidate => ?_
    have hopen := hrecords.staysOpen
    obtain ⟨q, q', hbefore, hafter, hbelow, ⟨hrole, -⟩ | ⟨-, clause, rfl⟩⟩ := hrecords.cases
    · cases hrole
    have htidy : q.Has Scope.IsTidy := by
      have hhas : u.reached.top.body.Has Scope.IsTidy :=
        (isThroughout_advance Scope.isInherited_isTidy depthLimit _ _ isTidy_start).has
      rwa [hbefore] at hhas
    have hbinds := Query.binds_defineCte htidy u.name.value
    have hstart : Covers (fun scope => scope.Binds u.name.value)
        (Query.Has fun scope => scope.Binds u.name.value) u.reached.below u.passed.top
        u.passed.below := by
      rw [hbelow]
      exact .query hafter ⟨hbinds.base, hbinds.scope⟩
    have hhands := Query.hands_has hinherited
    have hcovers := u.covers_first hinherited hhands hcandidate (fun _ => trivial)
      (covers_advance hinherited hhands depthLimit _ u.isNest_passed hstart
        (fun _ _ _ => trivial) hopen)
    rcases hcovers.cases_top with ⟨-, q, hbody, hq⟩ | ⟨-, hhas⟩
    · rw [hbody]
      exact hq.scope
    · exact hhas.scope
  · intro hrecords hbranch houtside
    refine isSource_of_binds fun hcandidate => ?_
    have hopen := hrecords.staysOpen
    have hstays := hrecords.staysInBranch hbranch houtside
    obtain ⟨q, q', hbefore, hafter, hbelow, ⟨-, follow, rfl⟩ | ⟨hrole, -⟩⟩ := hrecords.cases
    · have hstart : Covers (fun scope => scope.Binds u.name.value)
          (fun q => q.scope.Binds u.name.value) u.reached.below u.passed.top
          u.passed.below := by
        rw [hbelow]
        exact .query hafter (q.binds_defineAlias u.name.value)
      have hword : ¬ u.first.isAnyKeyword setOperators :=
        not_isAnyKeyword_of_isCandidate hcandidate (by decide)
      have hcovers := u.covers_first hinherited (Query.hands_scope hinherited) hcandidate
        (fun q => ⟨hword, fun hmark =>
          absurd hmark (not_isMark_of_isCandidate hcandidate '(')⟩)
        (covers_branch hinherited depthLimit _ u.isNest_passed hstart hopen hstays)
      rcases hcovers.cases_top with ⟨-, q, hbody, hq⟩ | ⟨-, hhas⟩
      · rw [hbody]
        exact hq
      · exact hhas.scope
    · cases hrole

/-- In `WITH c AS (SELECT 1) SELECT 1 UNION SELECT * FROM (SELECT * FROM C) y`, the table
expression in a subquery of another branch. -/
def cteUse : LaterReference where
  index := 0
  before := [⟨.keyword .WITH, "WITH", 0⟩]
  name := ⟨.identifier, "c", 5⟩
  between := [⟨.keyword .AS, "AS", 7⟩, ⟨.punctuation '(', "(", 10⟩,
    ⟨.keyword .SELECT, "SELECT", 11⟩, ⟨.number, "1", 18⟩, ⟨.punctuation ')', ")", 19⟩,
    ⟨.keyword .SELECT, "SELECT", 21⟩, ⟨.number, "1", 28⟩, ⟨.keyword .UNION, "UNION", 30⟩,
    ⟨.keyword .SELECT, "SELECT", 36⟩, ⟨.punctuation '*', "*", 43⟩, ⟨.keyword .FROM, "FROM", 45⟩,
    ⟨.punctuation '(', "(", 50⟩, ⟨.keyword .SELECT, "SELECT", 51⟩, ⟨.punctuation '*', "*", 58⟩,
    ⟨.keyword .FROM, "FROM", 60⟩]
  first := ⟨.identifier, "C", 65⟩
  after := [⟨.punctuation ')', ")", 66⟩, ⟨.identifier, "y", 68⟩]
  reference := ⟨["C"], ⟨65, 66⟩, .cteDefinition, 0⟩
  ordered := by decide +kernel
  isFound := by decide +kernel
  begins := rfl
  parts := by decide +kernel
  isComplete := by decide +kernel
  isOpen := by decide +kernel

/-- In `SELECT * FROM a x WHERE EXISTS (SELECT * FROM X)`, the alias in a subquery of its
branch. -/
def aliasUse : LaterReference where
  index := 0
  before := [⟨.keyword .SELECT, "SELECT", 0⟩, ⟨.punctuation '*', "*", 7⟩,
    ⟨.keyword .FROM, "FROM", 9⟩, ⟨.identifier, "a", 14⟩]
  name := ⟨.identifier, "x", 16⟩
  between := [⟨.keyword .WHERE, "WHERE", 18⟩, ⟨.keyword .EXISTS, "EXISTS", 24⟩,
    ⟨.punctuation '(', "(", 31⟩, ⟨.keyword .SELECT, "SELECT", 32⟩, ⟨.punctuation '*', "*", 39⟩,
    ⟨.keyword .FROM, "FROM", 41⟩]
  first := ⟨.identifier, "X", 46⟩
  after := [⟨.punctuation ')', ")", 47⟩]
  reference := ⟨["X"], ⟨46, 47⟩, .aliasDefinition, 0⟩
  ordered := by decide +kernel
  isFound := by decide +kernel
  begins := rfl
  parts := by decide +kernel
  isComplete := by decide +kernel
  isOpen := by decide +kernel

/-- Both are known at any depth, in capitals as well. -/
theorem isHidden_subquery :
    cteUse.Records .cteDefinition ∧ cteUse.reference.isSource = false ∧
      aliasUse.Records .aliasDefinition ∧ aliasUse.IsInBranch ∧
      aliasUse.IsOutside Mode.opensDefinition ∧ aliasUse.reference.isSource = false := by
  have hcte : cteUse.Records .cteDefinition := by decide +kernel
  have halias : aliasUse.Records .aliasDefinition := by decide +kernel
  have hbranch : aliasUse.IsInBranch := by decide +kernel
  have houtside : aliasUse.IsOutside Mode.opensDefinition := by decide +kernel
  exact ⟨hcte, cteUse.isHidden.1 hcte, halias, hbranch, houtside,
    aliasUse.isHidden.2 halias hbranch houtside⟩

/-- In `SELECT * FROM a x WITH c ((SELECT * FROM x)) AS (SELECT 1) SELECT 1`, the alias among
the column names of a common table expression. -/
def columnsUse : LaterReference where
  index := 0
  before := [⟨.keyword .SELECT, "SELECT", 0⟩, ⟨.punctuation '*', "*", 7⟩,
    ⟨.keyword .FROM, "FROM", 9⟩, ⟨.identifier, "a", 14⟩]
  name := ⟨.identifier, "x", 16⟩
  between := [⟨.keyword .WITH, "WITH", 18⟩, ⟨.identifier, "c", 23⟩, ⟨.punctuation '(', "(", 25⟩,
    ⟨.punctuation '(', "(", 26⟩, ⟨.keyword .SELECT, "SELECT", 27⟩, ⟨.punctuation '*', "*", 34⟩,
    ⟨.keyword .FROM, "FROM", 36⟩]
  first := ⟨.identifier, "x", 41⟩
  after := [⟨.punctuation ')', ")", 42⟩, ⟨.punctuation ')', ")", 43⟩, ⟨.keyword .AS, "AS", 45⟩,
    ⟨.punctuation '(', "(", 48⟩, ⟨.keyword .SELECT, "SELECT", 49⟩, ⟨.number, "1", 56⟩,
    ⟨.punctuation ')', ")", 57⟩, ⟨.keyword .SELECT, "SELECT", 59⟩, ⟨.number, "1", 66⟩]
  reference := ⟨["x"], ⟨41, 42⟩, .source, 0⟩
  ordered := by decide +kernel
  isFound := by decide +kernel
  begins := rfl
  parts := by decide +kernel
  isComplete := by decide +kernel
  isOpen := by decide +kernel

/-- The column names of a common table expression do not know the aliases of the query. -/
theorem not_hidesAlias_columns : ¬ columnsUse.HidesAlias Mode.opensBody := by
  have halias : columnsUse.Records .aliasDefinition := by decide +kernel
  have hbranch : columnsUse.IsInBranch := by decide +kernel
  have houtside : columnsUse.IsOutside Mode.opensBody := by decide +kernel
  have hsource : columnsUse.reference.isSource := by decide
  intro hhides
  rw [hhides halias hbranch houtside] at hsource
  cases hsource

end LaterReference

end SqlTables
