import SqlTables.Proofs.Scan.Naming

/-!
# What scopes hand on

Scopes are handed inwards when a group is opened, and a join tree hands its scope
back, where it differs at most in the innermost list (`Body.IsExtended`). So a
property of scopes that later definitions do not end and that a scope takes over
from the one around it (`Scope.IsInherited`) holds throughout a stack of groups
once it does (`isThroughout_step`).

One such property is that no name in the scope is that of a table (`Scope.IsTidy`).
Another is that a name is bound as an alias or a common table expression. Where it is,
no complete name of one part that equals it is a table (`not_isSource_of_binds`).
-/

namespace SqlTables

namespace Scope

/-- The scope knows the name, and not as a table. -/
def Binds (scope : Scope) (name : String) : Prop :=
  ∃ role, scope.lookup? name = some role ∧ role.isSource = false

variable {scope outer : Scope} {names : Names} {name other : String} {role : Role}

theorem Binds.define (h : scope.Binds name) (other : String) (hrole : role.isSource = false) :
    (scope.define other role).Binds name := by
  obtain ⟨old, hold, hsource⟩ := h
  rw [Binds, lookup?_define]
  split
  · exact ⟨role, rfl, hrole⟩
  · exact ⟨old, hold, hsource⟩

theorem binds_define_self (scope : Scope) (h : Unicode.lower name = Unicode.lower other)
    (hrole : role.isSource = false) : (scope.define other role).Binds name := by
  rw [Binds, lookup?_define, if_pos h]
  exact ⟨role, rfl, hrole⟩

theorem Binds.child (h : scope.Binds name) : scope.child.Binds name := by
  rwa [Binds, lookup?_child]

/-- The inner list decides when it has the name, and else the lists around it. -/
theorem binds_cons :
    Binds (names :: outer) name ↔
      (∃ role, names.lookup? name = some role ∧ role.isSource = false) ∨
        names.lookup? name = none ∧ outer.Binds name := by
  rw [Binds, lookup?_cons]
  cases names.lookup? name with
  | none => simp [Binds]
  | some role => simp

theorem Binds.define_outer (h : Binds (names :: outer) name) (other : String)
    (hrole : role.isSource = false) : Binds (names :: outer.define other role) name := by
  rw [binds_cons] at h ⊢
  exact h.imp_right fun h => ⟨h.1, h.2.define other hrole⟩

theorem Binds.congr_lower (h : scope.Binds name)
    (heq : Unicode.lower other = Unicode.lower name) : scope.Binds other := by
  unfold Binds lookup? Names.lookup? at *
  rwa [heq]

theorem tail_define (scope : Scope) (other : String) (role : Role) :
    (scope.define other role).tail = scope.tail := by
  cases scope <;> rfl

/-- The property outlives definitions of aliases and common table expressions, and
passes from a scope to those inside it. -/
structure IsInherited (P : Scope → Prop) : Prop where
  not_nil : ¬ P []
  define {scope : Scope} (h : P scope) (name : String) {role : Role}
    (hrole : role.isSource = false) : P (scope.define name role)
  child {scope : Scope} (h : P scope) : P scope.child
  define_outer {names : Names} {outer : Scope} (h : P (names :: outer)) (name : String)
    {role : Role} (hrole : role.isSource = false) : P (names :: outer.define name role)

theorem isInherited_binds (name : String) : IsInherited fun scope => scope.Binds name where
  not_nil := fun ⟨role, hlookup, _⟩ => by cases hlookup
  define h other _ hrole := h.define other hrole
  child h := h.child
  define_outer h other _ hrole := h.define_outer other hrole

/-- Some list is in force. -/
theorem isInherited_ne_nil : IsInherited fun scope => scope ≠ [] where
  not_nil h := h rfl
  define {scope} _ name _ _ := by cases scope <;> exact List.cons_ne_nil _ _
  child _ := List.cons_ne_nil _ _
  define_outer _ _ _ _ := List.cons_ne_nil _ _

/-- Some list is in force, and no name in it is that of a table. -/
def IsTidy (scope : Scope) : Prop :=
  scope ≠ [] ∧ ∀ name role, scope.lookup? name = some role → role.isSource = false

theorem lookup?_define_cases {scope : Scope} {name other : String} {role role' : Role}
    (h : (scope.define other role).lookup? name = some role') :
    role' = role ∨ scope.lookup? name = some role' := by
  rw [lookup?_define] at h
  split at h
  · exact Or.inl (Option.some.inj h).symm
  · exact Or.inr h

theorem lookup?_cons_of_none {names : Names} {name : String} (h : names.lookup? name = none)
    (outer : Scope) : lookup? (names :: outer) name = outer.lookup? name := by
  rw [lookup?_cons, h, Option.none_or]

theorem lookup?_cons_of_some {names : Names} {name : String} {role : Role}
    (h : names.lookup? name = some role) (outer : Scope) :
    lookup? (names :: outer) name = some role := by
  rw [lookup?_cons, h, Option.some_or]

theorem isInherited_isTidy : IsInherited IsTidy where
  not_nil h := h.1 rfl
  define {scope} h other role hrole := by
    refine ⟨isInherited_ne_nil.define h.1 other hrole, fun name role' hlookup => ?_⟩
    rcases lookup?_define_cases hlookup with rfl | hlookup
    · exact hrole
    · exact h.2 name role' hlookup
  child {scope} h :=
    ⟨isInherited_ne_nil.child h.1, fun name role hlookup => h.2 name role (by
      rwa [lookup?_child] at hlookup)⟩
  define_outer {names outer} h other role hrole := by
    refine ⟨List.cons_ne_nil _ _, fun name role' hlookup => ?_⟩
    cases hnames : names.lookup? name with
    | some found =>
        rw [lookup?_cons_of_some hnames] at hlookup
        exact h.2 name role' ((lookup?_cons_of_some hnames outer).trans hlookup)
    | none =>
        rw [lookup?_cons_of_none hnames] at hlookup
        rcases lookup?_define_cases hlookup with rfl | hlookup
        · exact hrole
        · exact h.2 name role' ((lookup?_cons_of_none hnames outer).trans hlookup)

/-- A name that is defined in an outer list is bound in a tidy scope. -/
theorem IsTidy.binds_define_outer {names : Names} {outer : Scope} {role : Role}
    (h : IsTidy (names :: outer)) (name : String) (hrole : role.isSource = false) :
    Binds (names :: outer.define name role) name := by
  rw [binds_cons]
  cases hnames : names.lookup? name with
  | some found =>
      exact Or.inl ⟨found, rfl, h.2 name found (lookup?_cons_of_some hnames outer)⟩
  | none => exact Or.inr ⟨rfl, binds_define_self outer rfl hrole⟩

end Scope

namespace Scan

variable {P : Scope → Prop}

/-- The property holds of both scopes of the query. -/
structure Query.Has (P : Scope → Prop) (q : Query) : Prop where
  base : P q.base
  scope : P q.scope

/-- The property holds of every scope in which the group is read. -/
def Body.Has (P : Scope → Prop) (body : Body) : Prop :=
  match body with
  | .query q => q.Has P
  | .expression scope => P scope
  | .flat f => P f.scope

theorem Body.Has.imp {Q : Scope → Prop} {body : Body} (h : body.Has P)
    (himp : ∀ scope, P scope → Q scope) : body.Has Q := by
  cases body with
  | query q => exact ⟨himp _ (Query.Has.base h), himp _ (Query.Has.scope h)⟩
  | expression scope => exact himp _ h
  | flat f => exact himp _ h

/-- If the inner group is a join tree, its scope is that of the query around it but
for the innermost list. -/
def Body.IsExtended (inner outer : Body) : Prop :=
  ∀ tree q, inner = .query tree → tree.isJoinTree → outer = .query q →
    tree.base.tail = q.scope.tail

/-- The property holds of the scopes of every group of the stack, the innermost
first. -/
def IsThroughout (P : Scope → Prop) : Frame → List Frame → Prop
  | f, [] => f.body.Has P
  | f, g :: gs => f.body.Has P ∧ f.body.IsExtended g.body ∧ IsThroughout P g gs

variable {limit : Nat} {s : Scan} {t : Token} {rest after : List Token} {q q' : Query}

theorem IsThroughout.has {f : Frame} {fs : List Frame} (h : IsThroughout P f fs) :
    f.body.Has P := by
  cases fs with
  | nil => exact h
  | cons g gs => exact h.1

/-! ## Changes of a query -/

/-- A query with the same lists around the innermost ones of its scopes. -/
structure Query.IsUpdate (q q' : Query) : Prop where
  base : q'.base.tail = q.base.tail
  isJoinTree : q'.isJoinTree = q.isJoinTree

section Queries

variable (hP : Scope.IsInherited P)

include hP

theorem Query.has_defineAlias (h : q.Has P) (other : String) :
    (q.defineAlias other).Has P ∧ q.IsUpdate (q.defineAlias other) := by
  have hrole : Role.isSource .aliasDefinition = false := rfl
  obtain ⟨base, branch, isJoinTree, inFirstList, mode⟩ := q
  cases branch with
  | none =>
      have hbase := hP.define h.base other hrole
      exact ⟨⟨hbase, hbase⟩, Scope.tail_define _ _ _, rfl⟩
  | some names => exact ⟨⟨h.base, hP.define h.scope other hrole⟩, rfl, rfl⟩

theorem Query.has_defineCte (h : q.Has P) (other : String) :
    (q.defineCte other).Has P ∧ q.IsUpdate (q.defineCte other) := by
  have hrole : Role.isSource .cteDefinition = false := rfl
  have hbase := hP.define h.base other hrole
  obtain ⟨base, branch, isJoinTree, inFirstList, mode⟩ := q
  cases branch with
  | none => exact ⟨⟨hbase, hbase⟩, Scope.tail_define _ _ _, rfl⟩
  | some names => exact ⟨⟨hbase, hP.define_outer h.scope other hrole⟩, Scope.tail_define _ _ _, rfl⟩

theorem Query.has_newBranch (h : q.Has P) :
    q.newBranch.Has P ∧ q.IsUpdate q.newBranch :=
  ⟨⟨h.base, hP.child h.base⟩, rfl, rfl⟩

/-- A join tree that closes hands back a scope with the same lists around. -/
theorem Query.has_withScope {scope : Scope} (h : q.Has P) (hscope : P scope)
    (htail : scope.tail = q.scope.tail) :
    (q.withScope scope).Has P ∧ q.IsUpdate (q.withScope scope) := by
  obtain ⟨base, branch, isJoinTree, inFirstList, mode⟩ := q
  cases branch with
  | none => exact ⟨⟨hscope, hscope⟩, htail, rfl⟩
  | some names =>
      cases scope with
      | nil => exact absurd hscope hP.not_nil
      | cons names' outer =>
          obtain rfl : outer = base := htail
          exact ⟨⟨h.base, hscope⟩, rfl, rfl⟩

theorem Query.has_inside {scope : Scope} (h : P scope) : (Query.inside scope).Has P :=
  ⟨hP.child h, hP.child (hP.child h)⟩

omit hP in
theorem Surroundings.has_expression (w : Surroundings) {scope : Scope} (h : P scope) :
    (w.expression scope).Has P := by
  unfold expression
  split
  · exact h
  · exact h

theorem Surroundings.has_subquery (w : Surroundings) {scope : Scope} (h : P scope) :
    (w.subquery scope).Has P := by
  unfold subquery
  split
  · exact h
  · exact Query.has_inside hP h

omit hP in
theorem Surroundings.isExtended_expression (w : Surroundings) (scope : Scope) (outer : Body) :
    (w.expression scope).IsExtended outer := by
  unfold expression
  intro tree q htree
  split at htree <;> cases htree

omit hP in
theorem Surroundings.isExtended_subquery (w : Surroundings) (scope : Scope) (outer : Body) :
    (w.subquery scope).IsExtended outer := by
  unfold subquery
  intro tree q htree hjoin
  split at htree
  · cases htree
  · rw [← Body.query.inj htree] at hjoin
    cases hjoin

theorem Query.Opens.has {w : Surroundings} {b : Body} (h : q.Opens w rest b)
    (hq : P q.scope) (hbase : q.mode.opensDefinition → P q.base)
    (hscope : q'.scope = q.scope) :
    b.Has P ∧ b.IsExtended (.query q') := by
  have hopened {scope : Scope} (h : scope = q.scope ∨ scope = q.base ∧ q.mode.opensDefinition) :
      P scope := by
    rcases h with rfl | ⟨rfl, hopens⟩
    · exact hq
    · exact hbase hopens
  cases h with
  | expression scope heq =>
      exact ⟨w.has_expression (hopened heq), w.isExtended_expression _ _⟩
  | subquery scope heq =>
      exact ⟨w.has_subquery hP (hopened heq), w.isExtended_subquery _ _⟩
  | operand =>
      unfold operandGroup
      split
      · exact ⟨hq, fun tree q htree => by cases htree⟩
      · split
        · refine ⟨Query.has_inside hP hq, ?_⟩
          intro tree q htree hjoin
          rw [← Body.query.inj htree] at hjoin
          cases hjoin
        · split
          · refine ⟨⟨hq, hq⟩, ?_⟩
            intro tree q htree hjoin houter
            rw [← Body.query.inj htree, ← Body.query.inj houter, hscope]
            rfl
          · exact ⟨hq, fun tree q htree => by cases htree⟩

end Queries

/-! ## Tokens -/

/-- What a group becomes: the property still holds of it, and it extends the groups
around as before. -/
structure Body.IsUpdate (P : Scope → Prop) (before after : Body) : Prop where
  has : after.Has P
  isExtended : ∀ outer, before.IsExtended outer → after.IsExtended outer

theorem Body.isUpdate_query (hhas : q'.Has P) (h : q.IsUpdate q') :
    Body.IsUpdate P (.query q) (.query q') := by
  refine ⟨hhas, fun outer hextended tree outerQuery htree hjoin houter => ?_⟩
  rw [← Body.query.inj htree] at hjoin ⊢
  rw [h.isJoinTree] at hjoin
  rw [h.base]
  exact hextended q outerQuery rfl hjoin houter

section Steps

variable (hP : Scope.IsInherited P)

include hP

theorem Query.Turn.isUpdate {w : Surroundings} {before : List Reference} {o : Outcome}
    (h : q.Turn w t rest before o) (hq : q.Has P) :
    Body.IsUpdate P (.query q) o.body ∧
      ∀ b, o.action = .enter b → b.Has P ∧ b.IsExtended o.body := by
  have hturn (first : Bool) (mode : Mode) : (q.turnTo first mode).Has P :=
    ⟨hq.base, hq.scope⟩
  cases h with
  | goto first mode d g =>
      exact ⟨Body.isUpdate_query (hturn first mode) ⟨rfl, rfl⟩, fun b hb => by cases hb⟩
  | branch first d =>
      obtain ⟨hhas, hupdate⟩ := Query.has_newBranch hP (hturn first (.clauses false))
      exact ⟨Body.isUpdate_query hhas ⟨hupdate.base, hupdate.isJoinTree⟩,
        fun b hb => by cases hb⟩
  | defineAlias follow d hname =>
      obtain ⟨hhas, hupdate⟩ := Query.has_defineAlias hP hq t.value
      exact ⟨Body.isUpdate_query ⟨hhas.base, hhas.scope⟩
        ⟨hupdate.base, hupdate.isJoinTree⟩, fun b hb => by cases hb⟩
  | defineCte clause d hname =>
      obtain ⟨hhas, hupdate⟩ := Query.has_defineCte hP hq t.value
      exact ⟨Body.isUpdate_query ⟨hhas.base, hhas.scope⟩
        ⟨hupdate.base, hupdate.isJoinTree⟩, fun b hb => by cases hb⟩
  | enter first mode body d hopen hfirst hwait hbody =>
      refine ⟨Body.isUpdate_query (hturn first mode) ⟨rfl, rfl⟩, fun b hb => ?_⟩
      rw [← Action.enter.inj hb]
      exact hbody.has hP hq.scope (fun _ => hq.base) rfl
  | leave first d hclose =>
      refine ⟨Body.isUpdate_query (hturn first _) ⟨rfl, rfl⟩, fun b hb => ?_⟩
      dsimp only at hb
      split at hb <;> cases hb

omit hP in
theorem Flat.Turn.scope_eq {f : Flat} {before : List Reference} {o : Outcome}
    (h : f.Turn t before o) :
    ∃ g, o.body = .flat g ∧ g.scope = f.scope ∧ ∀ b, o.action ≠ .enter b := by
  cases h with
  | stay expecting read => exact ⟨_, rfl, rfl, fun b hb => by cases hb⟩
  | leave => exact ⟨_, rfl, rfl, fun b hb => by cases hb⟩

theorem isUpdate_outcome (limit : Nat) (t : Token) (rest : List Token)
    (h : s.top.body.Has P) :
    Body.IsUpdate P s.top.body (s.outcome limit t rest).body ∧
      ∀ b, (s.outcome limit t rest).action = .enter b →
        b.Has P ∧ b.IsExtended (s.outcome limit t rest).body := by
  have hturn := outcome_turn limit s t rest
  generalize s.outcome limit t rest = o at hturn ⊢
  generalize s.top.body = body at h hturn ⊢
  have hsame (scope : Scope) (h : (Body.expression scope).Has P) :
      Body.IsUpdate P (.expression scope) (.expression scope) := ⟨h, fun _ => id⟩
  cases hturn with
  | extend q purpose hmode hn =>
      exact ⟨Body.isUpdate_query ⟨h.base, h.scope⟩ ⟨rfl, rfl⟩, fun b hb => by cases hb⟩
  | query hbefore hturn => exact hturn.isUpdate hP h
  | enter scope hopen =>
      refine ⟨hsame scope h, fun b hb => ?_⟩
      rw [← Action.enter.inj hb]
      split
      · exact ⟨Surroundings.has_subquery hP _ h, Surroundings.isExtended_subquery _ _ _⟩
      · exact ⟨Surroundings.has_expression _ h, Surroundings.isExtended_expression _ _ _⟩
  | leave scope hclose => exact ⟨hsame scope h, fun b hb => by cases hb⟩
  | pass scope hopen hclose => exact ⟨hsame scope h, fun b hb => by cases hb⟩
  | extendFlat f hread hn =>
      exact ⟨⟨h, fun _ _ tree q htree => by cases htree⟩, fun b hb => by cases hb⟩
  | flat hbefore hturn =>
      obtain ⟨g, hg, hscope, henter⟩ := hturn.scope_eq
      rw [hg]
      refine ⟨⟨?_, fun _ _ tree q htree => by cases htree⟩, fun b hb => absurd hb (henter b)⟩
      change P g.scope
      rw [hscope]
      exact h

/-! ## Steps -/

omit hP in
theorem IsThroughout.update {f g : Frame} {fs : List Frame} (h : IsThroughout P f fs)
    (hupdate : Body.IsUpdate P f.body g.body) : IsThroughout P g fs := by
  cases fs with
  | nil => exact hupdate.has
  | cons f' fs => exact ⟨hupdate.has, hupdate.isExtended _ h.2.1, h.2.2⟩

/-- A group that takes over the scope of a join tree keeps the property. -/
theorem isUpdate_absorb {outer inner : Frame} (h : outer.body.Has P)
    (hinner : inner.body.Has P) (hextended : inner.body.IsExtended outer.body) :
    Body.IsUpdate P outer.body (outer.absorb inner).body := by
  rcases outer.absorb_body inner with heq | ⟨q, tree, hq, htree, hjoin, heq⟩
  · rw [heq]
    exact ⟨h, fun _ => id⟩
  · rw [hq] at h
    rw [htree] at hinner
    obtain ⟨hhas, hupdate⟩ := Query.has_withScope hP h hinner.base
      (hextended tree q htree hjoin hq)
    rw [heq, hq]
    exact Body.isUpdate_query hhas hupdate

theorem isThroughout_step (limit : Nat) (t : Token) (rest : List Token)
    (h : IsThroughout P s.top s.below) :
    IsThroughout P (s.step limit t rest).top (s.step limit t rest).below := by
  obtain ⟨hupdate, henter⟩ := isUpdate_outcome hP limit t rest h.has
  have htake : IsThroughout P (s.top.take (s.outcome limit t rest)) s.below := h.update hupdate
  cases haction : (s.outcome limit t rest).action with
  | stay =>
      rw [step_of_stay haction]
      exact htake
  | enter body =>
      rw [step_of_enter haction]
      exact ⟨(henter body haction).1, (henter body haction).2, htake⟩
  | leave =>
      cases hbelow : s.below with
      | nil =>
          simp only [step, haction, act, hbelow]
          rwa [hbelow] at htake
      | cons outer below =>
          rw [step_of_leave haction hbelow]
          rw [hbelow] at htake
          exact htake.2.2.update (isUpdate_absorb hP htake.2.2.has htake.1 htake.2.1)

theorem isThroughout_advance (limit : Nat) (after xs : List Token)
    (h : IsThroughout P s.top s.below) :
    IsThroughout P (s.advance limit after xs).top (s.advance limit after xs).below := by
  induction xs generalizing s with
  | nil => exact h
  | cons t xs ih => exact ih (isThroughout_step hP limit t _ h)

end Steps

theorem isTidy_start : IsThroughout Scope.IsTidy start.top start.below := by
  have htidy (scope : Scope) (hne : scope ≠ []) (h : ∀ name, scope.lookup? name = none) :
      scope.IsTidy :=
    ⟨hne, fun name role hlookup => by rw [h] at hlookup; cases hlookup⟩
  exact ⟨htidy [[]] (by simp) fun _ => rfl, htidy [[], []] (by simp) fun _ => rfl⟩

/-! ## Bound names -/

variable {name : String}

/-- The scope in which a name that is read in the group is looked up. -/
def Body.scope : Body → Scope
  | .query q => q.scope
  | .expression scope => scope
  | .flat f => f.scope

theorem Body.Has.scope {body : Body} (h : body.Has P) : P body.scope := by
  cases body with
  | query q => exact Query.Has.scope h
  | expression scope => exact h
  | flat f => exact h

/-- Everything that is read in the group finds the name bound. -/
def Body.Binds (body : Body) (name : String) : Prop := body.Has fun scope => scope.Binds name

/-- Every group of the stack, the innermost first, binds the name. -/
def IsBound (name : String) : Frame → List Frame → Prop :=
  IsThroughout fun scope => scope.Binds name

theorem IsBound.binds {f : Frame} {fs : List Frame} (h : IsBound name f fs) :
    f.body.Binds name := h.has

theorem isBound_advance (limit : Nat) (after xs : List Token)
    (h : IsBound name s.top s.below) :
    IsBound name (s.advance limit after xs).top (s.advance limit after xs).below :=
  isThroughout_advance (Scope.isInherited_binds name) limit after xs h

/-- A complete name that is bound is no table, unless it is dangling. -/
theorem not_isSource_of_binds {body : Body} {n : DottedName} {r : Reference} {v : String}
    (h : body.scope.Binds name) (hr : body.Refers n r) (hparts : r.parts = [v])
    (hv : Unicode.lower v = Unicode.lower name) (hdangling : n.dangling = false) :
    r.isSource = false := by
  have hsingle : n.single? = some v := by
    rw [DottedName.single?, ← hr.name_eq.1, hparts]
  obtain ⟨role, hlookup, hrole⟩ := h.congr_lower hv
  cases body with
  | query q =>
      rw [Body.scope] at hlookup
      rw [show r = q.reference n from hr]
      simp [Reference.isSource, Query.reference, hdangling, hsingle, hlookup, hrole]
  | expression scope => exact hr.elim
  | flat f =>
      rw [Body.scope] at hlookup
      obtain ⟨isCall, hr⟩ := hr
      simp [Flat.reference?, hsingle, hlookup] at hr

end Scan

end SqlTables
