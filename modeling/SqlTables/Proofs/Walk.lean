import SqlTables.Proofs.Matching
import SqlTables.Proofs.Scan.Within

/-!
# The walk over a statement

A scan walks the groups of a statement one inside the other, and a group is walked until its
parenthesis is closed or the tokens end. `Walk` follows this point by point, with a cursor
that counts the tokens read and a counter that each group raises when its walk begins and
lowers when it ends. A flat group leaves the counter alone, as no group is walked inside it.

The counter says at every point how many groups are walked, which is never more than the depth
limit, and at the end it is back at zero (`Statement.isBounded_walk`). As long as fewer
parentheses are open at once than the limit allows, no group is flat and a higher limit
changes nothing (`Scan.find_limit`).
-/

namespace SqlTables

namespace Scan

open Token

/-- The group is not flat, so groups inside it are walked in turn. -/
def Body.isWalked (b : Body) : Bool := b.kind != .flat

def Frame.isWalked (f : Frame) : Bool := f.body.isWalked

/-- What a walk is at: it reads tokens, it closes the groups that are open where the tokens end,
or it is over. -/
inductive Phase
  | reading (s : Scan)
  | closing (f : Frame) (below : List Frame)
  | ended (statement : Frame)

/-- The groups that are open, the innermost first. -/
def Phase.groups : Phase → List Frame
  | reading s => s.top :: s.below
  | closing f below => f :: below
  | ended _ => []

/-- What has been found when the walk is over. -/
def Phase.findings? : Phase → Option Findings
  | ended statement =>
    some
      { references := statement.found.toList
        diagnostics := statement.diagnostics.toList
          ++ (statement.found.toList.filter (·.role = .unresolved)).map .unresolvedReference }
  | _ => none

end Scan

open Scan

/-- A point of the walk over a statement. -/
structure Walk where
  phase : Phase
  /-- How many tokens have been read. -/
  cursor : Nat
  /-- The walks that have begun less those that have ended. -/
  depth : Int

namespace Walk

/-- What a walk adds to the counter while it lasts. -/
def share (b : Body) : Int := if b.isWalked then 1 else 0

/-- The counter after a token. -/
def recount (s : Scan) (depth : Int) : Action → Int
  | .stay => depth
  | .enter body => depth + share body
  | .leave => depth - share s.top.body

/-- The next point of the walk. -/
def next? (limit : Nat) (tokens : List Token) (w : Walk) : Option Walk :=
  match w.phase with
  | .reading s =>
    match tokens.drop w.cursor with
    | [] => some { w with phase := .closing s.top s.below }
    | t :: rest =>
      some ⟨.reading (s.step limit t rest), w.cursor + 1,
        recount s w.depth (s.outcome limit t rest).action⟩
  | .closing f [] => some ⟨.ended f.settle.giveUp, w.cursor, w.depth - share f.body⟩
  | .closing f (outer :: below) =>
    some ⟨.closing (outer.absorb f.settle.giveUp) below, w.cursor, w.depth - share f.body⟩
  | .ended _ => none

/-- The point after `k` steps, where the walk over the statement itself has begun. -/
def at? (limit : Nat) (tokens : List Token) : Nat → Option Walk
  | 0 => some ⟨.reading start, 0, 1⟩
  | k + 1 => (at? limit tokens k).bind (next? limit tokens)

def groups (w : Walk) : List Frame := w.phase.groups

/-- The cursor is in the statement, and the counter is the number of groups that are walked: at
most `limit`, and all but the innermost one. -/
structure IsBounded (limit : Nat) (tokens : List Token) (w : Walk) : Prop where
  cursor : w.cursor ≤ tokens.length
  counts : w.depth = (w.groups.countP Frame.isWalked : Nat)
  depth : w.depth ≤ limit
  walked : ∀ g ∈ w.groups.tail, g.isWalked

/-- From one point to the next at most one group begins or ends. One that begins is walked, or
it is flat because the counter has reached the limit; one that ends takes its share back. -/
inductive Turns (limit : Nat) (w w' : Walk) : Prop
  | stays (hlength : w'.groups.length = w.groups.length) (hdepth : w'.depth = w.depth)
  | begins (g : Frame) (hg : w'.groups.head? = some g)
      (hlength : w'.groups.length = w.groups.length + 1)
      (hdepth : w'.depth = w.depth + share g.body) (hflat : ¬ g.isWalked → w.depth = limit)
  | ends (g : Frame) (hg : w.groups.head? = some g)
      (hlength : w.groups.length = w'.groups.length + 1)
      (hdepth : w'.depth = w.depth - share g.body)

end Walk

namespace Scan

open Token

variable {limit limit' : Nat} {s : Scan} {t : Token} {rest : List Token} {f : Frame}
  {below : List Frame}

/-! ## What is walked -/

theorem isWalked_of_isSuspended {b : Body} (h : b.isSuspended) : b.isWalked := by
  cases b with
  | query q =>
      rw [Body.isWalked, Body.kind, bne_iff_ne]
      split <;> exact GroupKind.noConfusion
  | expression scope => rfl
  | flat g => cases h

theorem isWalked_of_isNest (h : IsNest f below) : ∀ g ∈ below, g.isWalked := by
  induction below generalizing f with
  | nil => simp
  | cons g gs ih =>
      exact List.forall_mem_cons.mpr ⟨isWalked_of_isSuspended h.2.1, ih h.2.2⟩

/-- The groups are a nest, in which as many are walked as the limit allows and the innermost one
is flat only if no further one is. -/
structure IsHeld (limit : Nat) (f : Frame) (below : List Frame) : Prop where
  nest : IsNest f below
  walked : f.isWalked → below.length < limit
  flat : ¬ f.isWalked → below.length = limit

theorem IsHeld.countP (h : IsHeld limit f below) :
    (f :: below).countP Frame.isWalked = below.length + if f.isWalked then 1 else 0 := by
  rw [List.countP_cons, List.countP_eq_length.mpr (isWalked_of_isNest h.nest)]

theorem IsHeld.countP_le (h : IsHeld limit f below) :
    (f :: below).countP Frame.isWalked ≤ limit := by
  rw [h.countP]
  split
  · next hf => exact h.walked hf
  · next hf => exact Nat.le_of_eq (h.flat hf)

theorem isWalked_take (limit : Nat) (s : Scan) (t : Token) (rest : List Token) :
    (s.top.take (s.outcome limit t rest)).isWalked = s.top.isWalked := by
  rw [Frame.isWalked, Frame.isWalked, Body.isWalked, Body.isWalked, Frame.take_body,
    kind_outcome limit s t rest]

theorem isWalked_absorb (f inner : Frame) : (f.absorb inner).isWalked = f.isWalked := by
  rw [Frame.isWalked, Frame.isWalked, Body.isWalked, Body.isWalked, (Frame.absorb_mode f inner).1]

/-- When a group ends, the one around it is the innermost. -/
theorem IsHeld.leave {outer : Frame} (h : IsHeld limit f (outer :: below)) (inner : Frame) :
    IsHeld limit (outer.absorb inner) below := by
  have houter := isWalked_of_isSuspended h.nest.2.1
  have hlength : below.length < limit := by
    by_cases hf : f.isWalked
    · exact Nat.lt_of_succ_lt (h.walked hf)
    · exact Nat.lt_of_succ_le (Nat.le_of_eq (h.flat hf))
  refine ⟨?_, fun _ => hlength, fun hflat => absurd houter ?_⟩
  · have hkind := (Frame.absorb_mode outer inner).1
    exact isNest_congr (Frame.absorb_opener outer inner) hkind _ h.nest.2.2
  · rwa [isWalked_absorb] at hflat

/-! ## A token -/

/-- The groups stay as they are, and so does what is walked. -/
theorem IsHeld.step_stay (h : IsHeld limit s.top s.below)
    (haction : (s.outcome limit t rest).action = .stay) :
    IsHeld limit (s.step limit t rest).top (s.step limit t rest).below ∧
      (s.step limit t rest).below = s.below ∧
      (s.step limit t rest).top.isWalked = s.top.isWalked := by
  have hnest := isNest_step limit t rest h.nest
  have htake := isWalked_take limit s t rest
  rw [step_of_stay haction] at hnest ⊢
  refine ⟨⟨hnest, fun hw => h.walked ?_, fun hflat => h.flat ?_⟩, rfl, htake⟩
  · rwa [htake] at hw
  · rwa [htake] at hflat

/-- A group begins: it is walked if the limit is not reached, and flat otherwise. -/
theorem IsHeld.step_enter {body : Body} (h : IsHeld limit s.top s.below)
    (haction : (s.outcome limit t rest).action = .enter body) :
    IsHeld limit (s.step limit t rest).top (s.step limit t rest).below ∧
      (s.step limit t rest).below.length = s.below.length + 1 ∧
      (s.step limit t rest).top.isWalked = body.isWalked ∧ s.top.isWalked := by
  have hnest := isNest_step limit t rest h.nest
  have hwalked : s.top.isWalked := by
    cases outcome_shift limit t rest h.nest with
    | stay hstay =>
        rw [haction] at hstay
        cases hstay
    | enter body haction hopen hkind => exact bne_iff_ne.mpr hkind
    | leave hleave =>
        rw [haction] at hleave
        cases hleave
  have hlength := h.walked hwalked
  rw [step_of_enter haction] at hnest ⊢
  refine ⟨⟨hnest, fun hw => ?_, fun hflat => ?_⟩, rfl, rfl, hwalked⟩
  · by_contra hfull
    have hkind := (flat_iff_full haction).mpr (by
      simp only [surroundings, decide_eq_true_eq]
      rw [List.length_cons] at hfull
      omega)
    exact bne_iff_ne.mp hw hkind
  · have hkind : body.kind = .flat := by
      by_contra hne
      exact hflat (bne_iff_ne.mpr hne)
    have hfull := (flat_iff_full haction).mp hkind
    simp only [surroundings, decide_eq_true_eq] at hfull
    rw [List.length_cons]
    omega

/-- A group ends, and the one around it is walked. -/
theorem IsHeld.step_leave (h : IsHeld limit s.top s.below)
    (haction : (s.outcome limit t rest).action = .leave) :
    IsHeld limit (s.step limit t rest).top (s.step limit t rest).below ∧
      s.below.length = (s.step limit t rest).below.length + 1 ∧
      (s.step limit t rest).top.isWalked := by
  have hne : s.below ≠ [] := by
    cases outcome_shift limit t rest h.nest with
    | stay hstay =>
        rw [haction] at hstay
        cases hstay
    | enter body henter =>
        rw [haction] at henter
        cases henter
    | leave _ hclose hinner hne => exact hne
  obtain ⟨outer, below, hbelow⟩ := List.exists_cons_of_ne_nil hne
  rw [step_of_leave haction hbelow, hbelow]
  rw [hbelow] at h
  refine ⟨h.leave _, rfl, ?_⟩
  rw [isWalked_absorb]
  exact isWalked_of_isSuspended h.nest.2.1

end Scan

namespace Walk

open Token

variable {limit : Nat} {tokens : List Token} {w w' : Walk}

/-! ## Points of a walk -/

/-- The groups that are walked, the statement among them. -/
def count (f : Frame) (below : List Frame) : Nat := (f :: below).countP Frame.isWalked

theorem count_eq {f : Frame} {below : List Frame} (h : IsHeld limit f below) :
    (count f below : Int) = below.length + share f.body := by
  rw [count, h.countP, share, Frame.isWalked]
  split <;> simp

theorem share_congr {f : Frame} {b : Body} (h : f.isWalked = b.isWalked) :
    share f.body = share b := by
  rw [share, share, ← h]
  rfl

/-- The scan of the first `c` tokens. -/
def scanned (limit : Nat) (tokens : List Token) (c : Nat) : Scan :=
  start.advance limit (tokens.drop c) (tokens.take c)

theorem scanned_succ {c : Nat} {t : Token} {rest : List Token}
    (h : tokens.drop c = t :: rest) :
    scanned limit tokens (c + 1) = (scanned limit tokens c).step limit t rest := by
  have hdrop : tokens.drop (c + 1) = rest := by rw [← List.tail_drop, h, List.tail_cons]
  have htake : tokens.take (c + 1) = tokens.take c ++ [t] := by
    rw [List.take_add_one, ← List.head?_drop, h]
    rfl
  rw [scanned, hdrop, htake, advance_append, scanned, h]
  rfl

theorem length_scanned_le (limit : Nat) (tokens : List Token) (c : Nat) :
    (scanned limit tokens c).below.length ≤ peak 0 tokens := by
  have hpeak := foldl_nest_le_peak (tokens.take c) (tokens.drop c) 0
  rw [List.take_append_drop, ← height_of_start limit (tokens.drop c)] at hpeak
  exact Nat.le_trans (Nat.le_add_right _ _) hpeak

/-- What holds at every point. -/
inductive IsSound (limit : Nat) (tokens : List Token) : Walk → Prop
  | reading {s : Scan} {c : Nat} (hcursor : c ≤ tokens.length)
      (hs : s = scanned limit tokens c) (h : IsHeld limit s.top s.below) :
      IsSound limit tokens ⟨.reading s, c, count s.top s.below⟩
  | closing {f : Frame} {below : List Frame} (hpeak : below.length ≤ peak 0 tokens)
      (h : IsHeld limit f below) :
      IsSound limit tokens ⟨.closing f below, tokens.length, count f below⟩
  | ended {f : Frame} : IsSound limit tokens ⟨.ended f, tokens.length, 0⟩

theorem isSound_start (hlimit : 0 < limit) (tokens : List Token) :
    IsSound limit tokens ⟨.reading start, 0, 1⟩ :=
  .reading (Nat.zero_le _) rfl ⟨isNest_start, fun _ => hlimit, fun h => absurd rfl h⟩

theorem IsSound.isBounded (h : w.IsSound limit tokens) : w.IsBounded limit tokens := by
  cases h with
  | reading hcursor hs h =>
      exact ⟨hcursor, rfl, Int.ofNat_le.mpr h.countP_le, isWalked_of_isNest h.nest⟩
  | closing hpeak h =>
      exact ⟨Nat.le_refl _, rfl, Int.ofNat_le.mpr h.countP_le, isWalked_of_isNest h.nest⟩
  | ended => exact ⟨Nat.le_refl _, rfl, Int.natCast_nonneg limit, by simp [groups, Phase.groups]⟩

/-- No group is flat where fewer parentheses are open than the limit allows. -/
theorem IsSound.isWalked (h : w.IsSound limit tokens) (hpeak : peak 0 tokens < limit) :
    ∀ g ∈ w.groups, g.isWalked := by
  have hall {f : Frame} {below : List Frame} (h : IsHeld limit f below)
      (hlength : below.length ≤ peak 0 tokens) : ∀ g ∈ f :: below, g.isWalked := by
    refine List.forall_mem_cons.mpr ⟨?_, isWalked_of_isNest h.nest⟩
    by_contra hflat
    have := h.flat hflat
    omega
  cases h with
  | @reading s c hcursor hs h =>
      refine hall h ?_
      rw [hs]
      exact length_scanned_le limit tokens c
  | closing hlength h => exact hall h hlength
  | ended => simp [groups, Phase.groups]

/-- The counter stays the number of groups that are walked if it takes what the innermost groups
add to it. -/
theorem IsSound.of_count {s : Scan} {c : Nat} {d : Int} (hcursor : c ≤ tokens.length)
    (hs : s = scanned limit tokens c) (h : IsHeld limit s.top s.below)
    (hd : d = s.below.length + share s.top.body) : IsSound limit tokens ⟨.reading s, c, d⟩ := by
  rw [hd, ← count_eq h]
  exact .reading hcursor hs h

/-- A token that is read. -/
theorem isSound_read {s : Scan} {c : Nat} {t : Token} {rest : List Token}
    (hcursor : c < tokens.length) (hs : s.step limit t rest = scanned limit tokens (c + 1))
    (h : IsHeld limit s.top s.below) :
    let w' : Walk := ⟨.reading (s.step limit t rest), c + 1,
      recount s (count s.top s.below) (s.outcome limit t rest).action⟩
    w'.IsSound limit tokens ∧ Turns limit ⟨.reading s, c, count s.top s.below⟩ w' := by
  have hcount := count_eq h
  cases haction : (s.outcome limit t rest).action with
  | stay =>
      obtain ⟨hheld, hbelow, htop⟩ := h.step_stay haction
      have hshare : share (s.step limit t rest).top.body = share s.top.body :=
        share_congr htop
      refine ⟨.of_count hcursor hs hheld ?_, .stays ?_ rfl⟩
      · rw [hbelow, hshare]
        exact hcount
      · exact congrArg (·.length + 1) hbelow
  | enter body =>
      obtain ⟨hheld, hlength, htop, hwalked⟩ := h.step_enter haction
      have hone : share s.top.body = 1 := if_pos hwalked
      have hshare : share (s.step limit t rest).top.body = share body := share_congr htop
      rw [hone] at hcount
      refine ⟨.of_count hcursor hs hheld ?_, .begins _ rfl (congrArg (· + 1) hlength) ?_ ?_⟩
      · rw [recount, hshare, hlength, hcount]
        rfl
      · rw [hshare]
        rfl
      · intro hflat
        have hfull := hheld.flat hflat
        rw [hlength] at hfull
        rw [← hfull]
        exact hcount
  | leave =>
      obtain ⟨hheld, hlength, htop⟩ := h.step_leave haction
      have hone : share (s.step limit t rest).top.body = 1 := if_pos htop
      refine ⟨.of_count hcursor hs hheld ?_, .ends _ rfl (congrArg (· + 1) hlength) rfl⟩
      rw [recount, hcount, hone, hlength]
      omega

/-- A group that is closed where the tokens end. -/
theorem isSound_close {f outer : Frame} {below : List Frame}
    (hpeak : below.length ≤ peak 0 tokens) (h : IsHeld limit f (outer :: below)) :
    let w' : Walk := ⟨.closing (outer.absorb f.settle.giveUp) below, tokens.length,
      count f (outer :: below) - share f.body⟩
    w'.IsSound limit tokens ∧
      Turns limit ⟨.closing f (outer :: below), tokens.length, count f (outer :: below)⟩
        w' := by
  have hheld := h.leave f.settle.giveUp
  have hone : share (outer.absorb f.settle.giveUp).body = 1 := by
    refine if_pos ((isWalked_absorb outer f.settle.giveUp).trans ?_)
    exact isWalked_of_isSuspended h.nest.2.1
  have hcount : (count f (outer :: below) : Int) - share f.body =
      count (outer.absorb f.settle.giveUp) below := by
    rw [count_eq h, count_eq hheld, hone, List.length_cons]
    omega
  refine ⟨?_, .ends f rfl rfl rfl⟩
  rw [hcount]
  exact .closing hpeak hheld

/-- The statement itself, which is the last group to end. -/
theorem isSound_finish {f : Frame} (tokens : List Token) (h : IsHeld limit f []) :
    let w' : Walk := ⟨.ended f.settle.giveUp, tokens.length, count f [] - share f.body⟩
    w'.IsSound limit tokens ∧ Turns limit ⟨.closing f [], tokens.length, count f []⟩ w' := by
  have hcount : (count f [] : Int) - share f.body = 0 := by
    rw [count_eq h, List.length_nil]
    omega
  refine ⟨?_, .ends f rfl rfl rfl⟩
  rw [hcount]
  exact .ended

/-- What holds at a point holds at the next one. -/
theorem IsSound.next (h : w.IsSound limit tokens) (hnext : w.next? limit tokens = some w') :
    w'.IsSound limit tokens ∧ w.cursor ≤ w'.cursor ∧ w.Turns limit w' := by
  cases h with
  | @reading s c hcursor hs h =>
      rw [next?] at hnext
      cases hdrop : tokens.drop c with
      | nil =>
          simp only [hdrop, Option.some.injEq] at hnext
          have hc : c = tokens.length :=
            Nat.le_antisymm hcursor (List.drop_eq_nil_iff.mp hdrop)
          have hlength := length_scanned_le limit tokens c
          rw [← hs] at hlength
          rw [← hnext, hc]
          exact ⟨.closing hlength h, Nat.le_refl _, .stays rfl rfl⟩
      | cons t rest =>
          simp only [hdrop, Option.some.injEq] at hnext
          have hlt : c < tokens.length := by
            by_contra hge
            rw [List.drop_eq_nil_of_le (Nat.le_of_not_lt hge)] at hdrop
            cases hdrop
          have hstep : s.step limit t rest = scanned limit tokens (c + 1) := by
            rw [scanned_succ hdrop, hs]
          obtain ⟨hsound, hturns⟩ := isSound_read hlt hstep h
          rw [← hnext]
          exact ⟨hsound, Nat.le_succ c, hturns⟩
  | @closing f below hpeak h =>
      cases below with
      | nil =>
          obtain ⟨hsound, hturns⟩ := isSound_finish tokens h
          rw [← Option.some.inj hnext]
          exact ⟨hsound, Nat.le_refl _, hturns⟩
      | cons outer below =>
          obtain ⟨hsound, hturns⟩ := isSound_close (Nat.le_of_succ_le hpeak) h
          rw [← Option.some.inj hnext]
          exact ⟨hsound, Nat.le_refl _, hturns⟩
  | ended => cases hnext

theorem isSound_at (hlimit : 0 < limit) {k : Nat} (h : at? limit tokens k = some w) :
    w.IsSound limit tokens := by
  induction k generalizing w with
  | zero =>
      rw [← Option.some.inj h]
      exact isSound_start hlimit tokens
  | succ k ih =>
      obtain ⟨before, hbefore, hnext⟩ := Option.bind_eq_some_iff.mp h
      exact ((ih hbefore).next hnext).1

/-! ## The end of a walk -/

/-- After as many steps as there are tokens behind it, the walk stands where the scan does. -/
theorem at?_reading (limit : Nat) {c : Nat} (hc : c ≤ tokens.length) :
    ∃ d, at? limit tokens c = some ⟨.reading (scanned limit tokens c), c, d⟩ := by
  induction c with
  | zero => exact ⟨1, rfl⟩
  | succ c ih =>
      obtain ⟨d, hd⟩ := ih (Nat.le_of_succ_le hc)
      obtain ⟨t, rest, hdrop⟩ := List.exists_cons_of_ne_nil (mt List.drop_eq_nil_iff.mp
        (Nat.not_le_of_lt hc))
      refine ⟨recount (scanned limit tokens c) d
        ((scanned limit tokens c).outcome limit t rest).action, ?_⟩
      rw [at?, hd, Option.bind_some, next?, scanned_succ hdrop]
      simp only [hdrop]

/-- The groups that are open where the tokens end are closed one by one. -/
theorem at?_closing {k c : Nat} {f : Frame} {below : List Frame} {d : Int}
    (h : at? limit tokens k = some ⟨.closing f below, c, d⟩) :
    ∃ d', at? limit tokens (k + below.length + 1) = some ⟨.ended (unwind f below), c, d'⟩ := by
  induction below generalizing k f d with
  | nil =>
      refine ⟨d - share f.body, ?_⟩
      rw [List.length_nil, Nat.add_zero, at?, h]
      rfl
  | cons outer below ih =>
      have hnext : at? limit tokens (k + 1) =
          some ⟨.closing (outer.absorb f.settle.giveUp) below, c, d - share f.body⟩ := by
        rw [at?, h]
        rfl
      obtain ⟨d', hd'⟩ := ih hnext
      refine ⟨d', ?_⟩
      rw [List.length_cons, ← Nat.add_assoc, Nat.add_right_comm k]
      exact hd'

/-- The walk ends, with what the scan finds. -/
theorem exists_end (hlimit : 0 < limit) (tokens : List Token) :
    ∃ k ≤ tokens.length + limit + 2, ∃ w, at? limit tokens k = some w ∧
      w.next? limit tokens = none ∧ w.cursor = tokens.length ∧ w.depth = 0 ∧
      w.phase.findings? = some (find limit tokens) := by
  obtain ⟨d, hd⟩ := at?_reading limit (Nat.le_refl tokens.length)
  have hend : scanned limit tokens tokens.length = start.advance limit [] tokens := by
    rw [scanned, List.drop_length, List.take_length]
  generalize hs : scanned limit tokens tokens.length = s at hd hend
  have hheld : IsHeld limit s.top s.below := by
    cases isSound_at hlimit hd with
    | reading hcursor hs h => exact h
  have hbelow : s.below.length ≤ limit := by
    by_cases hw : s.top.isWalked
    · exact Nat.le_of_lt (hheld.walked hw)
    · exact Nat.le_of_eq (hheld.flat hw)
  have hclosing : at? limit tokens (tokens.length + 1) =
      some ⟨.closing s.top s.below, tokens.length, d⟩ := by
    rw [at?, hd, Option.bind_some, next?]
    simp only [List.drop_length]
  obtain ⟨d', hover⟩ := at?_closing hclosing
  have hzero : d' = 0 := by
    cases isSound_at hlimit hover with
    | ended => rfl
  refine ⟨tokens.length + 1 + s.below.length + 1, by omega, _, hover, rfl, rfl, hzero, ?_⟩
  rw [find, run_eq_advance, ← hend]
  rfl

end Walk

namespace Scan

open Token

variable {limit limit' : Nat} {s : Scan} {t : Token} {rest after : List Token}

/-! ## Other limits -/

/-- Only a parenthesis heeds the limit, and not unless the limit is reached. -/
theorem step_limit (hrooted : IsThroughout (· ≠ []) s.top s.below)
    (hroom : t.isMark '(' → s.below.length + 1 < limit ∧ s.below.length + 1 < limit') :
    s.step limit' t rest = s.step limit t rest := by
  have hfull (ht : t.isMark '(') : (s.surroundings limit').full = (s.surroundings limit).full := by
    have hroom := hroom ht
    simp only [surroundings, decide_eq_decide]
    omega
  have hagrees : (s.surroundings limit).Agrees t (s.surroundings limit') :=
    ⟨hfull, fun _ => rfl, rfl, rfl⟩
  have hsight : SameSight rest rest := ⟨rfl, rfl, rfl, rfl, rfl⟩
  have houtcome : s.outcome limit' t rest = s.outcome limit t rest := by
    have hhas := hrooted.has
    unfold outcome
    generalize s.top.body = body at hhas ⊢
    cases body with
    | query q =>
        have hnone (name : String) : Scope.lookup? [] name = none := rfl
        have hstep := Query.step_within hagrees hsight hnone hhas.base fun _ => rfl
        rwa [Query.within_nil, Outcome.within_nil] at hstep
    | expression scope =>
        dsimp only
        split
        · next ht =>
            rw [Surroundings.subquery, Surroundings.expression, hfull ht]
            rfl
        · rfl
    | flat f => rfl
  rw [step, step, houtcome]

/-- Two limits that the open parentheses stay below make no difference. -/
theorem run_limit (hs : IsNest s.top s.below) (hrooted : IsThroughout (· ≠ []) s.top s.below)
    {ts : List Token} (h : peak s.height ts < limit) (h' : peak s.height ts < limit') :
    s.run limit' ts = s.run limit ts := by
  induction ts generalizing s with
  | nil => rfl
  | cons t ts ih =>
      have hpeak := peak_tail_le s.height t ts
      have hroom (ht : t.isMark '(') : s.below.length + 1 ≤ peak s.height (t :: ts) := by
        have hle := foldl_nest_le_peak [t] ts s.height
        rw [List.foldl_cons, List.foldl_nil, nest_open ht, height] at hle
        exact Nat.le_trans (Nat.succ_le_succ (Nat.le_add_right _ _)) hle
      rw [run_cons, run_cons, step_limit hrooted fun ht =>
        ⟨Nat.lt_of_le_of_lt (hroom ht) h, Nat.lt_of_le_of_lt (hroom ht) h'⟩]
      rw [← height_step limit t ts hs] at hpeak
      exact ih (isNest_step limit t ts hs)
        (isThroughout_step Scope.isInherited_ne_nil limit t ts hrooted)
        (Nat.lt_of_le_of_lt hpeak h) (Nat.lt_of_le_of_lt hpeak h')

theorem find_limit {ts : List Token} (h : peak 0 ts < limit) (h' : peak 0 ts < limit') :
    find limit' ts = find limit ts := by
  rw [find, find, run_limit isNest_start ⟨List.cons_ne_nil _ _, List.cons_ne_nil _ _⟩ h h']

end Scan

namespace Statement

/-- The walk over a statement is bounded. It reads the tokens one after the other and ends behind
the last one with the counter back at zero and with what the scan finds; at every point the
counter is the number of groups that are walked, which the depth limit bounds, and a group raises
it while it is walked or is flat. If fewer parentheses are open at once than the limit allows, no
group is flat, whatever higher limit is set, and the same is found. -/
theorem isBounded_walk (s : Statement) :
    (∀ k w, Walk.at? depthLimit s.tokens k = some w → w.IsBounded depthLimit s.tokens ∧
      ∀ w', w.next? depthLimit s.tokens = some w' →
        w.cursor ≤ w'.cursor ∧ w.Turns depthLimit w') ∧
    (∃ k ≤ s.tokens.length + depthLimit + 2, ∃ w, Walk.at? depthLimit s.tokens k = some w ∧
      w.next? depthLimit s.tokens = none ∧ w.cursor = s.tokens.length ∧ w.depth = 0 ∧
      w.phase.findings? = some (find depthLimit s.tokens)) ∧
    (Token.peak 0 s.tokens < depthLimit → ∀ limit ≥ depthLimit,
      find limit s.tokens = find depthLimit s.tokens ∧
      ∀ k w, Walk.at? limit s.tokens k = some w → ∀ g ∈ w.groups, g.isWalked) := by
  have hlimit : 0 < depthLimit := by decide
  refine ⟨fun k w hw => ?_, Walk.exists_end hlimit s.tokens, fun hpeak limit hle => ?_⟩
  · have hsound := Walk.isSound_at hlimit hw
    exact ⟨hsound.isBounded, fun w' hnext => (hsound.next hnext).2⟩
  · have hpeak' := Nat.lt_of_lt_of_le hpeak hle
    refine ⟨find_limit hpeak hpeak', fun k w hw => ?_⟩
    exact (Walk.isSound_at (Nat.lt_of_lt_of_le hlimit hle) hw).isWalked hpeak'

/-- Before its eleventh token, three groups of this statement are walked. -/
theorem isBounded_walk_joinTree :
    let s := (ofScript "SELECT * FROM (a JOIN (SELECT 1 FROM b) c ON 1 = 1)").headD ⟨0, []⟩
    (∃ w w', Walk.at? depthLimit s.tokens 10 = some w ∧
      w.next? depthLimit s.tokens = some w' ∧ w.depth = 3 ∧
      w.IsBounded depthLimit s.tokens ∧ w.Turns depthLimit w') ∧
    Token.peak 0 s.tokens < depthLimit ∧ find 1000 s.tokens = find depthLimit s.tokens := by
  intro s
  have hpeak : Token.peak 0 s.tokens < depthLimit := by decide +kernel
  have hdepth : (Walk.at? depthLimit s.tokens 10).map Walk.depth = some 3 := by decide +kernel
  have hsome : ((Walk.at? depthLimit s.tokens 10).bind
      (Walk.next? depthLimit s.tokens)).isSome := by decide +kernel
  obtain ⟨w, hw, hthree⟩ := Option.map_eq_some_iff.mp hdepth
  rw [hw, Option.bind_some] at hsome
  obtain ⟨w', hw'⟩ := Option.isSome_iff_exists.mp hsome
  obtain ⟨hbounded, hnext⟩ := (isBounded_walk s).1 10 w hw
  refine ⟨⟨w, w', hw, hw', hthree, hbounded, (hnext w' hw').2⟩, hpeak, ?_⟩
  exact ((isBounded_walk s).2.2 hpeak 1000 (by decide)).1

end Statement

end SqlTables
