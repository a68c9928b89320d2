import Mathlib.Data.List.Forall2
import SqlTables.Proofs.Scan.Creation
import SqlTables.Proofs.Scan.Relocation

/-!
# Scans that differ by a change

`Scan.Changed` compares two scans whose groups differ by a change of the names in them,
and lets what they have found so far be. Over tokens that are changed alike they go on
to differ by the change (`changed_advance`), and so does what they gather
(`gather_changed`). The tokens to come need only be alike: the contents of closed
groups among them are free. Scans that differ by a move are a case of it.
-/

namespace SqlTables

namespace Scan

open Token

variable {limit : Nat} {s s' : Scan} {t u : Token} {ts us : List Token} {δ : Change}

structure Frame.Changed (δ : Change) (f g : Frame) : Prop where
  opener : g.opener.isSome = f.opener.isSome
  body : f.body.Changed δ g.body

/-- The same stack with the names in it changed, whatever has been found so far. -/
structure Changed (δ : Change) (s s' : Scan) : Prop where
  top : s.top.Changed δ s'.top
  below : List.Forall₂ (Frame.Changed δ) s.below s'.below
  merging : s'.merging = s.merging
  comparison : s'.comparison = s.comparison

/-- The same stack with the names in it moved, whatever has been found so far. -/
abbrev Moved (move : Int → Int) : Scan → Scan → Prop := Changed (.ofMove move)

theorem Outcome.Changed.references_moved {move : Int → Int} {o o' : Outcome}
    (h : o.Changed (.ofMove move) o') : o'.references = o.references.map (Reference.map move) := by
  rw [h.references, Reference.change_ofMove]

theorem Body.Changed.inFirstList {b b' : Body} (h : b.Changed δ b') :
    b'.inFirstList = b.inFirstList := by
  cases h <;> rfl

theorem Body.Changed.inner {b b' : Body} (h : b.Changed δ b') : b'.inner = b.inner := by
  cases h <;> rfl

theorem Query.withScope_goto (q : Query) (scope : Scope) (mode : Mode) :
    (q.goto mode).withScope scope = (q.withScope scope).goto mode := by
  obtain ⟨base, branch, isJoinTree, inFirstList, before⟩ := q
  cases branch with
  | none => rfl
  | some names => cases scope <;> rfl

theorem Frame.Changed.absorb {f g inner inner' : Frame} (h : f.Changed δ g)
    (hinner : inner.Changed δ inner') : (f.absorb inner).Changed δ (g.absorb inner') := by
  refine ⟨h.opener, ?_⟩
  have hbody := h.body
  have hbody' := hinner.body
  unfold Frame.absorb
  dsimp only
  generalize f.body = b at hbody ⊢
  generalize g.body = b' at hbody ⊢
  generalize inner.body = i at hbody' ⊢
  generalize inner'.body = i' at hbody' ⊢
  cases hbody with
  | query q hq =>
      cases hbody' with
      | query tree htree =>
          have hmode (scope : Scope) : (q.withScope scope).mode = q.mode := by
            obtain ⟨base, branch, heq⟩ := q.withScope_eq scope
            rw [heq]
          dsimp only [Query.goto]
          split
          · rw [← Query.goto, Query.withScope_goto]
            exact .query _ (by rw [hmode]; exact hq)
          · exact .query q hq
      | expression scope => exact .query q hq
      | flat => exact .query q hq
  | expression scope => exact .expression scope
  | flat f hread => exact .flat f hread


theorem Changed.surroundings (h : s.Changed δ s') (limit : Nat) :
    s'.surroundings limit = s.surroundings limit := by
  simp only [Scan.surroundings, h.top.opener, h.below.length_eq, h.merging, h.comparison]

theorem outcome_changed (limit : Nat) (h : s.Changed δ s') (ht : t.Changed δ u)
    (hs : SameSight ts us)
    (hbody : s.top.body.isCreating → hasQueryBody 0 (u :: us) = hasQueryBody 0 (t :: ts)) :
    (s.outcome limit t ts).Changed δ (s'.outcome limit u us) := by
  have htop := h.top.body
  unfold outcome
  rw [h.surroundings limit]
  generalize s.top.body = b at htop hbody ⊢
  generalize s'.top.body = b' at htop ⊢
  cases htop with
  | query q hq => exact Query.step_changed hq ht hs hbody
  | expression scope =>
      dsimp only
      rw [ht.isMark, ht.isMark, hs.subquery]
      split
      · exact ⟨.expression scope, rfl, rfl, rfl⟩
      · split
        · exact ⟨.expression scope, rfl, rfl, rfl⟩
        · exact ⟨.expression scope, rfl, rfl, rfl⟩
  | flat f hread => exact Flat.step_changed hread ht

theorem pending?_of_enter (hs : IsNest s.top s.below) {body : Body}
    (h : (s.outcome limit t ts).action = .enter body) : body.pending? = none := by
  cases outcome_shift limit t ts hs with
  | stay haction =>
      rw [h] at haction
      cases haction
  | enter body' haction hopen hkind hsuspended hinner hpending =>
      rw [h, Action.enter.injEq] at haction
      rw [haction, hpending]
  | leave haction =>
      rw [h] at haction
      cases haction

/-- A scan reads the same tokens at other places as it reads them at theirs. -/
theorem changed_step (limit : Nat) (h : s.Changed δ s') (ht : t.Changed δ u)
    (hs : SameSight ts us) (hnest : IsNest s.top s.below)
    (hbody : s.top.body.isCreating → hasQueryBody 0 (u :: us) = hasQueryBody 0 (t :: ts)) :
    (s.step limit t ts).Changed δ (s'.step limit u us) := by
  have ho := outcome_changed limit h ht hs hbody
  have htaken : (s.top.take (s.outcome limit t ts)).Changed δ
      (s'.top.take (s'.outcome limit u us)) := ⟨h.top.opener, ho.body⟩
  have hmerging : (s'.outcome limit u us).merging.getD s'.merging =
      (s.outcome limit t ts).merging.getD s.merging := by
    rw [ho.merging, h.merging]
  have hcomparison : s'.comparison.next u = s.comparison.next t := by
    simp only [h.comparison, Comparison.next, ht.isAnyKeyword, ht.isKeyword]
  cases haction : (s.outcome limit t ts).action with
  | stay =>
      rw [step_of_stay haction, step_of_stay (ho.action.trans haction)]
      exact ⟨htaken, h.below, hmerging, hcomparison⟩
  | enter body =>
      rw [step_of_enter haction, step_of_enter (ho.action.trans haction)]
      exact ⟨⟨rfl, Body.changed_self (pending?_of_enter hnest haction)⟩, .cons htaken h.below,
        hmerging, hcomparison⟩
  | leave =>
      have hbelow := h.below
      cases hb : s.below with
      | nil =>
          rw [hb, List.forall₂_nil_left_iff] at hbelow
          simp only [step, haction, ho.action, act, hb, hbelow]
          exact ⟨htaken, .nil, hmerging, hcomparison⟩
      | cons outer below =>
          rw [hb, List.forall₂_cons_left_iff] at hbelow
          obtain ⟨outer', below', houter, hrest, hb'⟩ := hbelow
          rw [step_of_leave haction hb, step_of_leave (ho.action.trans haction) hb']
          exact ⟨houter.absorb htaken, hrest, hmerging, hcomparison⟩

theorem step_changed (limit : Nat) (h : s.Changed δ s') (ht : t.Changed δ u)
    (hs : SameSight ts us) (halike : Alike (t :: ts) (u :: us)) (hd : s.Orderly (t :: ts)) :
    (s.step limit t ts).Changed δ (s'.step limit u us) :=
  changed_step limit h ht hs hd.nest (hd.hasQueryBody halike)

/-! ## Fates -/

@[simp] theorem demote_change (r : Reference) : (r.change δ).demote = r.demote.change δ := by
  unfold Reference.demote
  rw [apply_ite (Reference.change δ)]
  rfl

theorem isDoomed_congr_tokens {ts us : List Token}
    (h : ∀ d, (afterClosing? d us).isNone = (afterClosing? d ts).isNone)
    (fs : List Frame) (d : Nat) : isDoomed d fs us = isDoomed d fs ts := by
  induction fs generalizing d with
  | nil => rfl
  | cons f fs ih => rw [isDoomed, isDoomed, h, ih]

/-- A group is closed or not, wherever its tokens stand. -/
theorem fated_changed (h : s.Changed δ s') (halike : Alike ts us) (r : Reference) :
    s'.fated us (r.change δ) = (s.fated ts r).change δ := by
  have hspared : (s'.top :: s'.below).map (fun f => (f.opener.isSome, f.body.inFirstList)) =
      (s.top :: s.below).map (fun f => (f.opener.isSome, f.body.inFirstList)) := by
    have hframes : List.Forall₂ (Frame.Changed δ) (s.top :: s.below) (s'.top :: s'.below) :=
      .cons h.top h.below
    generalize s.top :: s.below = fs at hframes ⊢
    generalize s'.top :: s'.below = gs at hframes ⊢
    induction hframes with
    | nil => rfl
    | cons hf _ ih => rw [List.map_cons, List.map_cons, ih, hf.opener, hf.body.inFirstList]
  rw [fated, fated, fate, fate, h.top.body.inner, isDoomed_congr hspared,
    isDoomed_congr_tokens halike.isNone_afterClosing?]
  split
  · exact demote_change r
  · rfl

theorem changed_found (limit : Nat) (h : s.Changed δ s') (ht : t.Changed δ u)
    (hs : SameSight ts us) (halike : Alike (t :: ts) (u :: us))
    (hbody : s.top.body.isCreating → hasQueryBody 0 (u :: us) = hasQueryBody 0 (t :: ts)) :
    (s'.outcome limit u us).references.map (s'.fated (u :: us)) =
      ((s.outcome limit t ts).references.map (s.fated (t :: ts))).map (Reference.change δ) := by
  rw [(outcome_changed limit h ht hs hbody).references, List.map_map, List.map_map]
  exact List.map_congr_left fun r _ => fated_changed h halike r

theorem found_changed (limit : Nat) (h : s.Changed δ s') (ht : t.Changed δ u)
    (hs : SameSight ts us) (halike : Alike (t :: ts) (u :: us)) (hd : s.Orderly (t :: ts)) :
    (s'.outcome limit u us).references.map (s'.fated (u :: us)) =
      ((s.outcome limit t ts).references.map (s.fated (t :: ts))).map (Reference.change δ) :=
  changed_found limit h ht hs halike (hd.hasQueryBody halike)

theorem remainder_changed (h : s.Changed δ s') :
    s'.remainder = s.remainder.map (Reference.change δ) := by
  have htop := h.top.body
  have hremainder : s'.top.body.remainder = s.top.body.remainder.map (Reference.change δ) := by
    generalize s.top.body = b at htop ⊢
    generalize s'.top.body = b' at htop ⊢
    cases htop with
    | query q hq => exact q.settle_changed hq
    | expression scope => rfl
    | flat f hread => exact f.settle_changed hread
  rw [remainder, remainder, hremainder, List.map_map, List.map_map]
  exact List.map_congr_left fun r _ => fated_changed h .nil r

/-! ## Runs -/

theorem changed_advance (limit : Nat) {xs ys : List Token}
    (hxs : List.Forall₂ (Token.Changed δ) xs ys) (halike : Alike ts us) (h : s.Changed δ s')
    (hd : s.Orderly (xs ++ ts)) :
    (s.advance limit ts xs).Changed δ (s'.advance limit us ys) := by
  induction hxs generalizing s s' with
  | nil => exact h
  | @cons t u xs ys ht hxs ih =>
      have hrest : Alike (xs ++ ts) (ys ++ us) :=
        .of_forall₂ (hxs.imp fun _ _ ht => ht.kind) halike
      rw [advance_cons, advance_cons]
      exact ih (step_changed limit h ht hrest.sameSight (.cons ht.kind hrest) hd)
        (orderly_step limit hd)

theorem gather_changed (limit : Nat) {xs ys : List Token}
    (hxs : List.Forall₂ (Token.Changed δ) xs ys) (halike : Alike ts us) (h : s.Changed δ s')
    (hd : s.Orderly (xs ++ ts)) :
    s'.gather limit us ys = (s.gather limit ts xs).map (Reference.change δ) := by
  induction hxs generalizing s s' with
  | nil => rfl
  | @cons t u xs ys ht hxs ih =>
      have hrest : Alike (xs ++ ts) (ys ++ us) :=
        .of_forall₂ (hxs.imp fun _ _ ht => ht.kind) halike
      have hsight := hrest.sameSight
      have hstep := step_changed limit h ht hsight (.cons ht.kind hrest) hd
      rw [gather_cons, gather_cons, List.map_append,
        found_changed limit h ht hsight (.cons ht.kind hrest) hd,
        ih hstep (orderly_step limit hd)]

/-! ## Whole statements -/

theorem hasQueryBody_of_forall₂ (h : List.Forall₂ (fun t u : Token => u.kind = t.kind) ts us)
    (d : Int) : hasQueryBody d us = hasQueryBody d ts := by
  induction h generalizing d with
  | nil => rfl
  | @cons t u ts us ht hts ih =>
      have hmark (c : Char) : u.isMark c = t.isMark c := ofKind_isMark c t u ht
      have halike := Alike.of_forall₂ hts .nil
      rw [List.append_nil, List.append_nil] at halike
      have has : u.isKeyword .AS = t.isKeyword .AS := ofKind_isKeyword .AS t u ht
      rw [hasQueryBody, hasQueryBody, hmark, hmark, has, halike.head?_any ofKind_startsBody, ih,
        ih, ih]

/-- Changed tokens up to the end of a statement, whatever stands in parentheses. -/
theorem changed_rest (limit : Nat) (hts : List.Forall₂ (Token.Changed δ) ts us)
    (h : s.Changed δ s') (hs : IsNest s.top s.below) :
    (s.advance limit [] ts).Changed δ (s'.advance limit [] us) ∧
      s'.gather limit [] us = (s.gather limit [] ts).map (Reference.change δ) := by
  induction hts generalizing s s' with
  | nil => exact ⟨h, rfl⟩
  | @cons t u ts us ht hts ih =>
      have hkinds : List.Forall₂ (fun t u : Token => u.kind = t.kind) ts us :=
        hts.imp fun _ _ ht => ht.kind
      have hrest : Alike (ts ++ []) (us ++ []) := .of_forall₂ hkinds .nil
      have hbody (_ : s.top.body.isCreating) :
          hasQueryBody 0 (u :: (us ++ [])) = hasQueryBody 0 (t :: (ts ++ [])) := by
        rw [List.append_nil, List.append_nil]
        exact hasQueryBody_of_forall₂ (.cons ht.kind hkinds) 0
      obtain ⟨hadvance, hgather⟩ := ih (changed_step limit h ht hrest.sameSight hs hbody)
        (isNest_step limit t _ hs)
      refine ⟨hadvance, ?_⟩
      rw [gather_cons, gather_cons, List.map_append,
        changed_found limit h ht hrest.sameSight (.cons ht.kind hrest) hbody, hgather]

theorem Changed.height (h : s.Changed δ s') : s'.height = s.height := by
  rw [Scan.height, Scan.height, h.below.length_eq, h.top.body.inner]

theorem start_changed (δ : Change) : start.Changed δ start :=
  ⟨⟨rfl, Body.changed_self rfl⟩, .nil, rfl, rfl⟩

/-- Changed tokens make the same references, changed. -/
theorem find_changed (limit : Nat) (h : List.Forall₂ (Token.Changed δ) ts us) :
    (find limit us).references = (find limit ts).references.map (Reference.change δ) := by
  obtain ⟨hadvance, hgather⟩ := changed_rest limit h (start_changed δ) isNest_start
  rw [find_references, find_references, hgather, remainder_changed hadvance, List.map_append]

/-! ## Moves -/

variable {move : Int → Int}

theorem start_moved (move : Int → Int) : start.Moved move start := start_changed (.ofMove move)

theorem remainder_moved (h : s.Moved move s') :
    s'.remainder = s.remainder.map (Reference.map move) := by
  rw [remainder_changed h, Reference.change_ofMove]

theorem found_moved (limit : Nat) (h : s.Moved move s') (ht : t.Moved move u)
    (hs : SameSight ts us) (halike : Alike (t :: ts) (u :: us)) (hd : s.Orderly (t :: ts)) :
    (s'.outcome limit u us).references.map (s'.fated (u :: us)) =
      ((s.outcome limit t ts).references.map (s.fated (t :: ts))).map (Reference.map move) := by
  rw [found_changed limit h ht hs halike hd, Reference.change_ofMove]

theorem gather_moved (limit : Nat) {xs ys : List Token}
    (hxs : List.Forall₂ (Token.Moved move) xs ys) (halike : Alike ts us) (h : s.Moved move s')
    (hd : s.Orderly (xs ++ ts)) :
    s'.gather limit us ys = (s.gather limit ts xs).map (Reference.map move) := by
  rw [gather_changed limit hxs halike h hd, Reference.change_ofMove]

theorem moved_rest (limit : Nat) (hts : List.Forall₂ (Token.Moved move) ts us)
    (h : s.Moved move s') (hs : IsNest s.top s.below) :
    (s.advance limit [] ts).Moved move (s'.advance limit [] us) ∧
      s'.gather limit [] us = (s.gather limit [] ts).map (Reference.map move) := by
  obtain ⟨hadvance, hgather⟩ := changed_rest limit hts h hs
  rw [Reference.change_ofMove] at hgather
  exact ⟨hadvance, hgather⟩

/-- Tokens that close what is open are read alike with nothing behind them and with a token
that a look ahead makes nothing of, if nothing is created. -/
theorem moved_behind (limit : Nat) {c : Token} (hc : endsSight c) (us : List Token)
    {xs : List Token} (h : s.Moved id s') (hs : IsNest s.top s.below)
    (hs' : IsNest s'.top s'.below) (hcreating : ¬ s.top.body.isCreating)
    (hcreates : ∀ t ∈ xs, ¬ t.isKeyword .CREATE) (hxs : depth? s.height xs = some 0) :
    (s.advance limit [] xs).Moved id (s'.advance limit (c :: us) xs) ∧
      s'.gather limit (c :: us) xs = s.gather limit [] xs := by
  induction xs generalizing s s' with
  | nil => exact ⟨h, rfl⟩
  | cons t xs ih =>
      rw [List.forall_mem_cons] at hcreates
      have hdepth := nest_of_depth? hxs
      have hheight := height_step limit t xs hs
      have hsight := sameSight_append_cons hc hdepth.2 us
      have hnot (hbefore : s.top.body.isCreating) :
          hasQueryBody 0 (t :: (xs ++ c :: us)) = hasQueryBody 0 (t :: xs) :=
        absurd hbefore hcreating
      have hstep := changed_step limit h t.moved_id hsight hs hnot
      have hfound := (outcome_changed limit h t.moved_id hsight hnot).references_moved
      have hxs' : depth? s'.height (t :: xs) = some 0 := by rwa [h.height]
      have hfate := fated_of_depth? hs hxs []
      have hfate' := fated_of_depth? hs' hxs' (c :: us)
      have hcreating' : ¬ (s.step limit t xs).top.body.isCreating := fun hafter =>
        (isCreating_step hs hafter).2.elim hcreating hcreates.1
      rw [List.append_nil] at hfate
      obtain ⟨hadvance, hgather⟩ := ih hstep (isNest_step limit t _ hs)
        (isNest_step limit t _ hs') hcreating' hcreates.2 (by rw [hheight]; exact hdepth.2)
      rw [advance_cons, advance_cons, gather_cons, gather_cons, List.append_nil, hgather, hfound,
        hfate]
      refine ⟨hadvance, ?_⟩
      rw [← List.cons_append, hfate', List.map_id, List.map_id, Reference.map_id, List.map_id]

/-- Moved tokens make the same references, moved. -/
theorem find_moved (limit : Nat) (h : List.Forall₂ (Token.Moved move) ts us) :
    (find limit us).references = (find limit ts).references.map (Reference.map move) := by
  rw [find_changed limit h, Reference.change_ofMove]

end Scan

end SqlTables
