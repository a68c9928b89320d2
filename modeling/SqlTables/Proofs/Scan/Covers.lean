import SqlTables.Proofs.Scan.Binding
import SqlTables.Proofs.Scan.Group

/-!
# The range of a query

What a query defines reaches every group that is opened in it, at any depth, until the
query itself is closed. `Covers P B base` says so of a stack: above the groups `base`
stands a query with the property `B`, and every group above that one is read in scopes
with the property `P`. `Query.Hands` lists what the two properties need for this to last:
whatever a token does to the query, it keeps `B` and hands `P` to the groups that it
opens, and it keeps `B` when a join tree hands its scope back.
-/

namespace SqlTables

namespace Scan

open Token

/-- Above the groups `base` stands a query with the property `B`, and the groups above
that query extend each other and have the property `P`. -/
inductive Covers (P : Scope → Prop) (B : Query → Prop) (base : List Frame) :
    Frame → List Frame → Prop
  | query {f : Frame} {q : Query} (hbody : f.body = .query q) (h : B q) : Covers P B base f base
  | inside {f g : Frame} {gs : List Frame} (h : f.body.Has P)
      (hextended : f.body.IsExtended g.body) (hg : Covers P B base g gs) :
      Covers P B base f (g :: gs)

/-- A query with the property `B` keeps it over every token that it may meet, and hands
`P` to the groups inside it. -/
structure Query.Hands (P : Scope → Prop) (B : Query → Prop) (meets : Query → Token → Prop) :
    Prop where
  extend {q : Query} (h : B q) (purpose : Purpose) (longer : DottedName) :
    B (q.goto (.name purpose longer))
  turn {w : Surroundings} {q : Query} {t : Token} {rest : List Token}
    {before : List Reference} {o : Outcome} (h : B q) (ht : meets q t)
    (hturn : q.Turn w t rest before o) :
    ∃ q', o.body = .query q' ∧ B q' ∧
      ∀ b, o.action = .enter b → b.Has P ∧ b.IsExtended o.body
  withScope {q : Query} {scope : Scope} (h : B q) (hscope : P scope)
    (htail : scope.tail = q.scope.tail) : B (q.withScope scope)

variable {P : Scope → Prop} {B : Query → Prop} {meets : Query → Token → Prop}
  {base : List Frame} {limit : Nat} {s : Scan} {t : Token} {rest after : List Token}

theorem Covers.length_le {f : Frame} {fs : List Frame} (h : Covers P B base f fs) :
    base.length ≤ fs.length := by
  induction h with
  | query => exact Nat.le_refl _
  | inside _ _ _ ih => exact Nat.le_succ_of_le ih

/-- The innermost group is the query, or stands inside it. -/
theorem Covers.cases_top {f : Frame} {fs : List Frame} (h : Covers P B base f fs) :
    (fs = base ∧ ∃ q, f.body = .query q ∧ B q) ∨ (base.length < fs.length ∧ f.body.Has P) := by
  cases h with
  | query hbody h => exact Or.inl ⟨rfl, _, hbody, h⟩
  | inside h hextended hg => exact Or.inr ⟨Nat.lt_succ_of_le hg.length_le, h⟩

/-- What a token does in the query that covers the stack. -/
theorem Query.Hands.outcome (hB : Query.Hands P B meets) (limit : Nat) (rest : List Token)
    {q : Query} (hbody : s.top.body = .query q) (h : B q) (ht : ¬ q.continues t → meets q t) :
    ∃ q', (s.outcome limit t rest).body = .query q' ∧ B q' ∧
      ∀ b, (s.outcome limit t rest).action = .enter b →
        b.Has P ∧ b.IsExtended (s.outcome limit t rest).body := by
  rw [outcome_query hbody]
  by_cases hname : q.continues t
  · obtain ⟨purpose, longer, heq⟩ := q.step_of_continues hname
    rw [heq]
    exact ⟨_, rfl, hB.extend h purpose longer, fun b hb => by cases hb⟩
  · rcases q.step_turn (s.surroundings limit) t rest with
      ⟨purpose, n, longer, hmode, hn, -⟩ | ⟨before, -, hturn⟩
    · refine absurd ?_ hname
      simp [continues, hmode, Mode.pending?, hn]
    · exact hB.turn h (ht hname) hturn

/-- A group inside the query that closes hands it back a scope at most. -/
theorem Covers.absorb (hP : Scope.IsInherited P) (hB : Query.Hands P B meets) {f g : Frame}
    {gs : List Frame} (h : Covers P B base g gs) (hhas : f.body.Has P)
    (hextended : f.body.IsExtended g.body) : Covers P B base (g.absorb f) gs := by
  cases h with
  | @query _ q hbody hq =>
      rcases g.absorb_body f with heq | ⟨q', tree, hq', htree, hjoin, heq⟩
      · exact .query (heq.trans hbody) hq
      · obtain rfl : q' = q := Body.query.inj (hq'.symm.trans hbody)
        rw [htree] at hhas
        exact .query heq (hB.withScope hq hhas.base (hextended tree _ htree hjoin hbody))
  | inside hg hgroup hgs =>
      have hupdate : Body.IsUpdate P g.body (g.absorb f).body :=
        isUpdate_absorb hP hg hhas hextended
      exact .inside hupdate.has (hupdate.isExtended _ hgroup) hgs

theorem covers_step (hP : Scope.IsInherited P) (hB : Query.Hands P B meets) (limit : Nat)
    (rest : List Token) (hs : IsNest s.top s.below) (h : Covers P B base s.top s.below)
    (hmeets : ∀ q, s.below = base → s.top.body = .query q → ¬ q.continues t → meets q t)
    (hclose : t.isMark ')' → base = [] ∨ base.length < s.height) :
    Covers P B base (s.step limit t rest).top (s.step limit t rest).below := by
  generalize hf : s.top = f at h
  generalize hfs : s.below = fs at h
  cases h with
  | @query _ q hbody h =>
      rw [← hf] at hbody
      obtain ⟨q', hbody', h', henter⟩ := hB.outcome limit rest hbody h (hmeets q hfs hbody)
      have htake : Covers P B base (s.top.take (s.outcome limit t rest)) base :=
        .query hbody' h'
      cases outcome_shift limit t rest hs with
      | stay haction =>
          rw [step_of_stay haction, hfs]
          exact htake
      | enter body haction =>
          rw [step_of_enter haction, hfs]
          exact .inside (henter body haction).1 (henter body haction).2 htake
      | leave haction hmark hinner hbelow =>
          rw [hfs] at hbelow
          rw [height, hfs, hinner] at hclose
          exact absurd (hclose hmark) (not_or_intro hbelow (Nat.lt_irrefl _))
  | @inside _ g gs h hextended hg =>
      rw [← hf] at h hextended
      obtain ⟨hupdate, henter⟩ := isUpdate_outcome hP limit t rest h
      have hextended' := hupdate.isExtended _ hextended
      cases outcome_shift limit t rest hs with
      | stay haction =>
          rw [step_of_stay haction, hfs]
          exact .inside hupdate.has hextended' hg
      | enter body haction =>
          rw [step_of_enter haction, hfs]
          exact .inside (henter body haction).1 (henter body haction).2
            (.inside hupdate.has hextended' hg)
      | leave haction =>
          rw [step_of_leave haction hfs]
          exact hg.absorb hP hB hupdate.has hextended'

/-- The query above the groups `base` is the whole statement, or the tokens do not close
it. -/
def StaysOpen (base : List Frame) (s : Scan) (ts : List Token) : Prop :=
  base = [] ∨ ∃ d, s.height = base.length + d ∧ (depth? d ts).isSome

theorem StaysOpen.head {ts : List Token} (h : s.StaysOpen base (t :: ts)) (ht : t.isMark ')') :
    base = [] ∨ base.length < s.height := by
  refine h.imp_right fun ⟨d, hd, hts⟩ => ?_
  obtain ⟨e, he⟩ := Option.isSome_iff_exists.mp hts
  have hpos := (nest_of_depth? he).1 ht
  omega

theorem StaysOpen.step {ts : List Token} (h : s.StaysOpen base (t :: ts)) (limit : Nat)
    (rest : List Token) (hs : IsNest s.top s.below) : (s.step limit t rest).StaysOpen base ts := by
  refine h.imp_right fun ⟨d, hd, hts⟩ => ?_
  obtain ⟨e, he⟩ := Option.isSome_iff_exists.mp hts
  obtain ⟨hpos, he⟩ := nest_of_depth? he
  refine ⟨nest d t, ?_, by rw [he]; rfl⟩
  rw [height_step limit t rest hs, hd]
  unfold nest
  split
  · omega
  · split
    · next hmark =>
        have := hpos hmark
        omega
    · rfl

theorem StaysOpen.advance {xs ts : List Token} (h : s.StaysOpen base (xs ++ ts)) (limit : Nat)
    (after : List Token) (hs : IsNest s.top s.below) :
    (s.advance limit after xs).StaysOpen base ts := by
  induction xs generalizing s with
  | nil => exact h
  | cons t xs ih => exact ih (h.step limit _ hs) (isNest_step limit t _ hs)

theorem covers_advance (hP : Scope.IsInherited P) (hB : Query.Hands P B meets) (limit : Nat)
    (after : List Token) {xs : List Token} (hs : IsNest s.top s.below)
    (h : Covers P B base s.top s.below) (hmeets : ∀ t ∈ xs, ∀ q, meets q t)
    (hopen : s.StaysOpen base xs) :
    Covers P B base (s.advance limit after xs).top (s.advance limit after xs).below := by
  induction xs generalizing s with
  | nil => exact h
  | cons t xs ih =>
      rw [List.forall_mem_cons] at hmeets
      rw [advance_cons]
      exact ih (isNest_step limit t _ hs)
        (covers_step hP hB limit _ hs h (fun q _ _ _ => hmeets.1 q) hopen.head) hmeets.2
        (hopen.step limit _ hs)

/-! ## What a query hands on -/

theorem Query.Turn.exists_query {w : Surroundings} {q : Query} {before : List Reference}
    {o : Outcome} (h : q.Turn w t rest before o) : ∃ q', o.body = .query q' := by
  cases h <;> exact ⟨_, rfl⟩

/-- What holds of both scopes of a query is handed to every group inside it. -/
theorem Query.hands_has (hP : Scope.IsInherited P) :
    Query.Hands P (Query.Has P) fun _ _ => True where
  extend h _ _ := ⟨h.base, h.scope⟩
  turn h _ hturn := by
    obtain ⟨q', hbody⟩ := hturn.exists_query
    obtain ⟨hupdate, henter⟩ := hturn.isUpdate hP h
    have hhas := hupdate.has
    rw [hbody] at hhas
    exact ⟨q', hbody, hhas, henter⟩
  withScope h hscope htail := (Query.has_withScope hP h hscope htail).1

theorem Query.scope_withScope (q : Query) {scope : Scope} (h : scope ≠ []) :
    (q.withScope scope).scope = scope := by
  obtain ⟨base, branch, isJoinTree, inFirstList, mode⟩ := q
  cases branch with
  | none => rfl
  | some names =>
      cases scope with
      | nil => exact absurd rfl h
      | cons names' outer => rfl

/-- The token starts no branch and opens no definition of a common table expression. -/
def Query.KeepsBranch (q : Query) (t : Token) : Prop :=
  ¬ t.isAnyKeyword setOperators ∧ (t.isMark '(' → ¬ q.mode.opensDefinition)

/-- What holds of the scope of a branch is handed to every group in the branch, the
definitions of common table expressions apart. -/
theorem Query.hands_scope (hP : Scope.IsInherited P) :
    Query.Hands P (fun q => P q.scope) Query.KeepsBranch where
  extend h _ _ := h
  turn {w q t rest before o} h ht hturn := by
    cases hturn with
    | goto first mode => exact ⟨_, rfl, h, fun b hb => by cases hb⟩
    | branch first d hopen hclose hfirst hword => exact absurd hword ht.1
    | defineAlias follow d hname =>
        refine ⟨_, rfl, ?_, fun b hb => by cases hb⟩
        have hdefine : P (q.scope.define t.value .aliasDefinition) := hP.define h t.value rfl
        obtain ⟨base, branch, isJoinTree, inFirstList, mode⟩ := q
        cases branch with
        | none => exact hdefine
        | some names => exact hdefine
    | defineCte clause d hname =>
        refine ⟨_, rfl, ?_, fun b hb => by cases hb⟩
        obtain ⟨base, branch, isJoinTree, inFirstList, mode⟩ := q
        cases branch with
        | none => exact hP.define h t.value rfl
        | some names => exact hP.define_outer h t.value rfl
    | enter first mode body d hopen hfirst hwait hbody =>
        refine ⟨_, rfl, h, fun b hb => ?_⟩
        rw [← Action.enter.inj hb]
        exact hbody.has hP h (fun hopens => absurd hopens (ht.2 hopen)) rfl
    | leave first d hclose =>
        refine ⟨_, rfl, h, fun b hb => ?_⟩
        dsimp only at hb
        split at hb <;> cases hb
  withScope {q scope} h hscope htail := by
    have hne : scope ≠ [] := fun hnil => hP.not_nil (hnil ▸ hscope)
    rwa [q.scope_withScope hne]

end Scan

end SqlTables
