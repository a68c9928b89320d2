import Mathlib.Data.List.Induction
import SqlTables.Proofs.Scan.Gather

/-!
# Where names are read

A reference names the tokens it was made from. Either it is the alias or the
common table expression that a single token defines, or it was read part by part:
`DottedName.extendAll?` goes on with a name over some tokens, and the name that is
being read after a run began at one of its tokens and consists of those since
(`hasRead_advance`). The spans of what is found follow.

`mem_references` splits a statement at the point where a reference is found.
-/

namespace SqlTables

/-- The span begins and ends with some of the tokens. -/
def Span.IsOver (tokens : List Token) (s : Span) : Prop :=
  (∃ t ∈ tokens, s.start = t.offset) ∧ ∃ t ∈ tokens, s.stop = t.stop

namespace Reference

/-- The names of the references that are reported as tables. -/
def tableNames (rs : List Reference) : List String :=
  (rs.filter isSource).map name

theorem tableNames_append (rs ss : List Reference) :
    tableNames (rs ++ ss) = tableNames rs ++ tableNames ss := by
  rw [tableNames, List.filter_append, List.map_append]
  rfl

/-- A change that leaves names and sources alone does not change the tables. -/
theorem tableNames_map {f : Reference → Reference} (hparts : ∀ r, (f r).parts = r.parts)
    (hsource : ∀ r, (f r).isSource = r.isSource) (rs : List Reference) :
    tableNames (rs.map f) = tableNames rs := by
  have hp : isSource ∘ f = isSource := funext hsource
  have hn : name ∘ f = name := funext fun r => congrArg ".".intercalate (hparts r)
  rw [tableNames, List.filter_map, List.map_map, hp, hn]
  rfl

end Reference

namespace DottedName

/-- The name with all of the tokens, if each one continues it. -/
def extendAll? (n : DottedName) : List Token → Option DottedName
  | [] => some n
  | t :: ts => (n.extend? t).bind fun longer => longer.extendAll? ts

@[simp] theorem extendAll?_nil (n : DottedName) : n.extendAll? [] = some n := rfl

theorem extendAll?_cons {n longer : DottedName} {t : Token} (h : n.extend? t = some longer)
    (ts : List Token) : n.extendAll? (t :: ts) = longer.extendAll? ts := by
  rw [extendAll?, h, Option.bind_some]

theorem extendAll?_append (n : DottedName) (xs ys : List Token) :
    n.extendAll? (xs ++ ys) = (n.extendAll? xs).bind fun longer => longer.extendAll? ys := by
  induction xs generalizing n with
  | nil => rfl
  | cons t xs ih =>
      rw [List.cons_append, extendAll?, extendAll?]
      cases n.extend? t with
      | none => rfl
      | some longer => rw [Option.bind_some, Option.bind_some, ih]

theorem start_of_extend? {n longer : DottedName} {t : Token}
    (h : n.extend? t = some longer) : longer.start = n.start := by
  unfold extend? at h
  split at h
  · split at h
    · rw [← Option.some.inj h]
    · cases h
  · split at h
    · rw [← Option.some.inj h]
    · cases h

/-- A name ends with the last token that continues it, and is dangling just when
that is a dot. -/
theorem stop_of_extend? {n longer : DottedName} {t : Token}
    (h : n.extend? t = some longer) :
    longer.stop = t.stop ∧ (longer.dangling → t.isMark '.') := by
  unfold extend? at h
  split at h
  · split at h
    · rw [← Option.some.inj h]
      exact ⟨rfl, by simp⟩
    · cases h
  · split at h
    · next hdot =>
        rw [← Option.some.inj h]
        exact ⟨rfl, fun _ => hdot⟩
    · cases h

/-- Neither parenthesis continues a name. -/
theorem not_isMark_of_extend? {n longer : DottedName} {t : Token}
    (h : n.extend? t = some longer) : ¬ t.isMark '(' ∧ ¬ t.isMark ')' := by
  constructor
  · intro hmark
    rw [extend?_eq_none_of_isMark hmark (by decide)] at h
    cases h
  · intro hmark
    rw [extend?_eq_none_of_isMark hmark (by decide)] at h
    cases h

theorem start_of_extendAll? {n longer : DottedName} {ts : List Token}
    (h : n.extendAll? ts = some longer) : longer.start = n.start := by
  induction ts generalizing n with
  | nil => rw [← Option.some.inj h]
  | cons t ts ih =>
      obtain ⟨m, hm, hlonger⟩ := Option.bind_eq_some_iff.mp h
      rw [ih hlonger, start_of_extend? hm]

theorem not_isMark_of_extendAll? {n longer : DottedName} {ts : List Token}
    (h : n.extendAll? ts = some longer) : ∀ t ∈ ts, ¬ t.isMark '(' ∧ ¬ t.isMark ')' := by
  induction ts generalizing n with
  | nil => simp
  | cons t ts ih =>
      obtain ⟨m, hm, hlonger⟩ := Option.bind_eq_some_iff.mp h
      rw [List.forall_mem_cons]
      exact ⟨not_isMark_of_extend? hm, ih hlonger⟩

/-- A name that was read over the tokens ends with the last of them. -/
theorem stop_of_extendAll? {w : Token} {n : DottedName} {ts : List Token}
    (h : (ofToken w).extendAll? ts = some n) :
    ∃ u ∈ w :: ts, n.stop = u.stop ∧ (n.dangling → u.isMark '.') := by
  induction ts using List.reverseRecOn generalizing n with
  | nil =>
      rw [extendAll?_nil, Option.some.injEq] at h
      rw [← h]
      exact ⟨w, List.mem_cons_self, rfl, by simp [ofToken]⟩
  | append_singleton ts t =>
      rw [extendAll?_append] at h
      obtain ⟨m, hm, hn⟩ := Option.bind_eq_some_iff.mp h
      obtain ⟨longer, hlonger, hnil⟩ := Option.bind_eq_some_iff.mp hn
      rw [extendAll?_nil, Option.some.injEq] at hnil
      rw [← hnil]
      exact ⟨t, by simp, stop_of_extend? hlonger⟩

theorem length_parts_of_extend? {n longer : DottedName} {t : Token}
    (h : n.extend? t = some longer) :
    n.parts.length ≤ longer.parts.length ∧
      (n.dangling → n.parts.length < longer.parts.length) := by
  unfold extend? at h
  split at h
  · next hdangling =>
      split at h
      · rw [← Option.some.inj h, List.length_append]
        exact ⟨Nat.le_add_right _ _, fun _ => Nat.lt_succ_self _⟩
      · cases h
  · next hdangling =>
      split at h
      · rw [← Option.some.inj h]
        exact ⟨Nat.le_refl _, fun hd => absurd hd hdangling⟩
      · cases h

theorem length_parts_of_extendAll? {n longer : DottedName} {ts : List Token}
    (h : n.extendAll? ts = some longer) : n.parts.length ≤ longer.parts.length := by
  induction ts generalizing n with
  | nil =>
      obtain rfl := Option.some.inj h
      exact Nat.le_refl _
  | cons t ts ih =>
      obtain ⟨m, hm, hlonger⟩ := Option.bind_eq_some_iff.mp h
      exact Nat.le_trans (length_parts_of_extend? hm).1 (ih hlonger)

/-- A name of one part that does not end in a dot is a single token. -/
theorem eq_nil_of_extendAll? {w : Token} {n : DottedName} {ts : List Token}
    (h : (ofToken w).extendAll? ts = some n) (hparts : n.parts.length = 1)
    (hdangling : n.dangling = false) : ts = [] := by
  cases ts with
  | nil => rfl
  | cons t ts =>
      obtain ⟨m, hm, hn⟩ := Option.bind_eq_some_iff.mp h
      have hdot : m.dangling ∧ m.parts.length = 1 := by
        unfold extend? ofToken at hm
        rw [if_neg Bool.false_ne_true] at hm
        split at hm
        · rw [← Option.some.inj hm]
          exact ⟨rfl, rfl⟩
        · cases hm
      cases ts with
      | nil =>
          rw [← Option.some.inj hn, hdot.1] at hdangling
          cases hdangling
      | cons u ts =>
          obtain ⟨k, hk, hn⟩ := Option.bind_eq_some_iff.mp hn
          have hlonger := (length_parts_of_extend? hk).2 hdot.1
          have hle := length_parts_of_extendAll? hn
          omega

end DottedName

namespace Scan

open Token

variable {limit : Nat} {s : Scan} {t : Token} {rest after : List Token}

/-! ## What a token finds -/

/-- The reference that a complete name makes in the group. -/
def Body.Refers : Body → DottedName → Reference → Prop
  | .query q, n, r => r = q.reference n
  | .flat f, n, r => ∃ isCall, f.reference? n isCall = some r
  | .expression _, _, _ => False

/-- The references that a token may bring in a scan: that of the name which was
being read and is over, and that of an alias or of a common table expression which
the token defines. -/
inductive Makes (s : Scan) (t : Token) (r : Reference) : Prop
  | name (n : DottedName) (hread : s.pending? = some n) (hover : n.extend? t = none)
      (hrefers : s.top.body.Refers n r)
  | definition (hname : t.isName) (hparts : r.parts = [t.value]) (hspan : r.span = t.span)
      (hrole : r.isSource = false)

theorem Query.mem_completes {q : Query} {before : List Reference}
    (h : q.Completes t before) {r : Reference} (hr : r ∈ before) :
    ∃ n, q.mode.pending? = some n ∧ n.extend? t = none ∧ r = q.reference n := by
  rcases h with rfl | ⟨n, hread, hover, rfl⟩
  · cases hr
  · exact ⟨n, hread, hover, List.mem_singleton.mp hr⟩

/-- Everything that a token brings in a query. -/
theorem Query.mem_references_of_turn {q : Query} {w : Surroundings}
    {before : List Reference} {o : Outcome} (h : q.Turn w t rest before o) {r : Reference}
    (hr : r ∈ o.references) :
    r ∈ before ∨ t.isName ∧ r.parts = [t.value] ∧ r.span = t.span ∧ r.isSource = false := by
  cases h with
  | goto first mode d g => exact Or.inl hr
  | branch first d => exact Or.inl hr
  | defineAlias follow d hname =>
      rcases List.mem_append.mp hr with hr | hr
      · exact Or.inl hr
      · rw [List.mem_singleton.mp hr]
        exact Or.inr ⟨hname, rfl, rfl, rfl⟩
  | defineCte clause d hname =>
      rcases List.mem_append.mp hr with hr | hr
      · exact Or.inl hr
      · rw [List.mem_singleton.mp hr]
        exact Or.inr ⟨hname, rfl, rfl, rfl⟩
  | enter first mode body d => exact Or.inl hr
  | leave first d => exact Or.inl hr

theorem Flat.eq_of_reference? {f : Flat} {n : DottedName} {isCall : Bool}
    {r : Reference} (h : f.reference? n isCall = some r) :
    r = { parts := n.parts, span := n.span, role := .unresolved } := by
  unfold Flat.reference? at h
  split at h
  · cases h
  · exact (Option.some.inj h).symm

theorem Body.Refers.name_eq {body : Body} {n : DottedName} {r : Reference}
    (h : body.Refers n r) : r.parts = n.parts ∧ r.span = n.span := by
  cases body with
  | query q =>
      rw [show r = q.reference n from h]
      exact ⟨rfl, rfl⟩
  | expression scope => exact h.elim
  | flat f =>
      obtain ⟨isCall, h⟩ := h
      rw [Flat.eq_of_reference? h]
      exact ⟨rfl, rfl⟩

theorem Flat.mem_references_of_turn {f : Flat} {before : List Reference} {o : Outcome}
    (h : f.Turn t before o) : o.references = before := by
  cases h <;> rfl

theorem Flat.mem_completes {f : Flat} {before : List Reference} (h : f.Completes t before)
    {r : Reference} (hr : r ∈ before) :
    ∃ n isCall, f.read = some n ∧ n.extend? t = none ∧ f.reference? n isCall = some r := by
  rcases h with rfl | ⟨n, r', isCall, hread, hover, hrefers, rfl⟩
  · cases hr
  · rw [List.mem_singleton.mp hr]
    exact ⟨n, isCall, hread, hover, hrefers⟩

theorem makes_of_mem_outcome {r : Reference}
    (hr : r ∈ (s.outcome limit t rest).references) : s.Makes t r := by
  have h := outcome_turn limit s t rest
  generalize s.outcome limit t rest = o at h hr
  generalize hbody : s.top.body = body at h
  cases h with
  | query hbefore hturn =>
      rcases Query.mem_references_of_turn hturn hr with hr | ⟨hname, hparts, hspan, hrole⟩
      · obtain ⟨n, hread, hover, rfl⟩ := Query.mem_completes hbefore hr
        exact .name n (by rw [pending?, hbody, Body.pending?, hread]) hover
          (by rw [hbody, Body.Refers])
      · exact .definition hname hparts hspan hrole
  | flat hbefore hturn =>
      rw [Flat.mem_references_of_turn hturn] at hr
      obtain ⟨n, isCall, hread, hover, hrefers⟩ := Flat.mem_completes hbefore hr
      exact .name n (by rw [pending?, hbody, Body.pending?, hread]) hover
        (by rw [hbody]; exact ⟨isCall, hrefers⟩)
  | _ => cases hr

/-! ## The name that is being read -/

theorem pending?_of_isSuspended {body : Body} (h : body.isSuspended) :
    body.pending? = none := by
  cases body with
  | query q => exact Mode.pending?_of_isWaiting h
  | expression scope => rfl
  | flat f => cases h

theorem pending?_outcome {n : DottedName}
    (h : (s.outcome limit t rest).body.pending? = some n) :
    n = .ofToken t ∧ isCandidate t ∨ ∃ m, s.pending? = some m ∧ m.extend? t = some n := by
  have hturn := outcome_turn limit s t rest
  generalize s.outcome limit t rest = o at h hturn
  generalize hbody : s.top.body = body at hturn
  cases hturn with
  | @extend q purpose m longer hmode hm =>
      have hlonger : longer = n := Option.some.inj h
      refine Or.inr ⟨m, ?_, hlonger ▸ hm⟩
      rw [pending?, hbody, Body.pending?, hmode, Mode.pending?]
  | query hbefore hturn =>
      cases hturn with
      | goto first mode d g ho hc hf hn =>
          change mode.pending? = some n at h
          rcases hn with hn | ⟨hn, hcandidate⟩
          · rw [hn] at h
            cases h
          · rw [hn] at h
            exact Or.inl ⟨(Option.some.inj h).symm, hcandidate⟩
      | enter first mode body d ho hf hw =>
          change mode.pending? = some n at h
          rw [Mode.pending?_of_isWaiting hw] at h
          cases h
      | _ => cases h
  | @extendFlat f m longer hread hm =>
      have hlonger : longer = n := Option.some.inj h
      refine Or.inr ⟨m, ?_, hlonger ▸ hm⟩
      rw [pending?, hbody, Body.pending?, hread]
  | flat hbefore hturn =>
      cases hturn with
      | stay expecting read hread =>
          change read = some n at h
          rcases hread with rfl | ⟨rfl, hcandidate⟩
          · cases h
          · exact Or.inl ⟨(Option.some.inj h).symm, hcandidate⟩
      | leave => cases h
  | _ => cases h

/-- A name that is being read after a token starts with it or goes on with it. -/
theorem pending?_step {n : DottedName} (hs : IsNest s.top s.below)
    (h : (s.step limit t rest).pending? = some n) :
    n = .ofToken t ∧ isCandidate t ∨ ∃ m, s.pending? = some m ∧ m.extend? t = some n := by
  cases outcome_shift limit t rest hs with
  | stay haction =>
      rw [step_of_stay haction] at h
      exact pending?_outcome h
  | enter body haction hopen hkind hsuspended hinner hpending =>
      rw [step_of_enter haction, pending?, hpending] at h
      cases h
  | leave haction hclose hinner hbelow =>
      obtain ⟨outer, below, hbelow⟩ := List.exists_cons_of_ne_nil hbelow
      rw [hbelow] at hs
      rw [step_of_leave haction hbelow, pending?, (Frame.absorb_mode _ _).2.2.2.2,
        pending?_of_isSuspended hs.2.1] at h
      cases h

/-- A name that is being read after a token other than a dot is not dangling. -/
theorem dangling_of_pending? {xs : List Token} {n : DottedName} (limit : Nat)
    (after : List Token) (hs : IsNest s.top s.below) (ht : ¬ t.isMark '.')
    (h : (s.advance limit after (xs ++ [t])).pending? = some n) : n.dangling = false := by
  rw [advance_append] at h
  rw [Bool.eq_false_iff]
  intro hn
  rcases pending?_step (isNest_advance limit _ xs hs) h with ⟨rfl, -⟩ | ⟨m, -, hm⟩
  · cases hn
  · exact ht ((DottedName.stop_of_extend? hm).2 hn)

/-- No name is read after a parenthesis. -/
theorem pending?_step_of_isMark {c : Char} (hs : IsNest s.top s.below) (ht : t.isMark c)
    (hc : c ≠ '.') : (s.step limit t rest).pending? = none := by
  rw [Option.eq_none_iff_forall_ne_some]
  intro n hn
  rcases pending?_step hs hn with ⟨-, hcandidate⟩ | ⟨m, -, hm⟩
  · exact not_isMark_of_isCandidate hcandidate c ht
  · rw [DottedName.extend?_eq_none_of_isMark ht hc] at hm
    cases hm

/-- The name was read over the last of the tokens `xs`, the first of which started
it. -/
def HasRead (limit : Nat) (after : List Token) (s : Scan) (xs : List Token)
    (n : DottedName) : Prop :=
  ∃ before w since, xs = before ++ w :: since ∧ isCandidate w ∧
    (s.advance limit (since ++ after) (before ++ [w])).pending? = some (.ofToken w) ∧
    (DottedName.ofToken w).extendAll? since = some n

/-- A name that is being read after a run began at one of its tokens, and consists
of those since. -/
theorem hasRead_advance {xs : List Token} {n : DottedName} (hs : IsNest s.top s.below)
    (hstart : s.pending? = none) (h : (s.advance limit after xs).pending? = some n) :
    s.HasRead limit after xs n := by
  induction xs using List.reverseRecOn generalizing after n with
  | nil =>
      rw [advance_nil, hstart] at h
      cases h
  | append_singleton xs t ih =>
      have hlast := h
      rw [advance_append, advance_cons, advance_nil] at hlast
      rcases pending?_step (isNest_advance limit _ xs hs) hlast with
        ⟨rfl, hcandidate⟩ | ⟨m, hm, hextend⟩
      · exact ⟨xs, t, [], rfl, hcandidate, by rw [List.nil_append]; exact h, rfl⟩
      · obtain ⟨us, w, vs, rfl, hcandidate, hpending, hm⟩ := ih hm
        refine ⟨us, w, vs ++ [t], by simp, hcandidate, ?_, ?_⟩
        · rwa [List.append_assoc]
        · rw [DottedName.extendAll?_append, hm, Option.bind_some,
            DottedName.extendAll?_cons hextend]
          rfl

/-! ## Where references are found -/

@[simp] theorem fated_parts (s : Scan) (ts : List Token) (r : Reference) :
    (s.fated ts r).parts = r.parts := by
  unfold fated fate
  split
  · exact r.demote_parts
  · rfl

@[simp] theorem fated_span (s : Scan) (ts : List Token) (r : Reference) :
    (s.fated ts r).span = r.span := by
  unfold fated fate
  split
  · exact r.demote_span
  · rfl

@[simp] theorem fated_isSource (s : Scan) (ts : List Token) (r : Reference) :
    (s.fated ts r).isSource = r.isSource := by
  unfold fated fate
  split
  · exact r.demote_isSource
  · rfl

/-- What the next token brings, or the end of the tokens. -/
def brings (limit : Nat) (s : Scan) : List Token → List Reference
  | [] => s.top.body.remainder
  | t :: rest => (s.outcome limit t rest).references

/-- What is gathered is found with some token. -/
theorem mem_gather {xs : List Token} {r : Reference} :
    r ∈ s.gather limit after xs ↔
      ∃ us t vs, xs = us ++ t :: vs ∧
        ∃ r' ∈ (s.advance limit (t :: (vs ++ after)) us).brings limit (t :: (vs ++ after)),
          (s.advance limit (t :: (vs ++ after)) us).fated (t :: (vs ++ after)) r' = r := by
  induction xs generalizing s with
  | nil => simp
  | cons t xs ih =>
      rw [gather_cons, List.mem_append, ih, List.mem_map]
      constructor
      · rintro (⟨r', hr', heq⟩ | ⟨us, u, vs, rfl, hfound⟩)
        · exact ⟨[], t, xs, rfl, r', hr', heq⟩
        · refine ⟨t :: us, u, vs, rfl, ?_⟩
          rwa [advance_cons, ← List.cons_append, ← List.append_assoc]
      · rintro ⟨us, u, vs, hxs, r', hr', heq⟩
        cases us with
        | nil =>
            rw [List.nil_append, List.cons.injEq] at hxs
            obtain ⟨rfl, rfl⟩ := hxs
            exact Or.inl ⟨r', hr', heq⟩
        | cons u' us =>
            rw [List.cons_append, List.cons.injEq] at hxs
            obtain ⟨rfl, rfl⟩ := hxs
            refine Or.inr ⟨us, u, vs, rfl, r', ?_, ?_⟩
            · rwa [advance_cons, ← List.cons_append, ← List.append_assoc] at hr'
            · rwa [advance_cons, ← List.cons_append, ← List.append_assoc] at heq

/-- The references of a statement are those that are found at some point of it. -/
theorem mem_references {ts : List Token} {r : Reference} :
    r ∈ (find limit ts).references ↔
      ∃ us vs, ts = us ++ vs ∧ ∃ r' ∈ (start.advance limit vs us).brings limit vs,
        (start.advance limit vs us).fated vs r' = r := by
  rw [find_references, List.mem_append, mem_gather, remainder, List.mem_map]
  constructor
  · rintro (⟨us, t, vs, rfl, r', hr', heq⟩ | ⟨r', hr', heq⟩)
    · rw [List.append_nil] at hr' heq
      exact ⟨us, t :: vs, rfl, r', hr', heq⟩
    · exact ⟨ts, [], (List.append_nil ts).symm, r', hr', heq⟩
  · rintro ⟨us, vs, rfl, r', hr', heq⟩
    cases vs with
    | nil =>
        rw [List.append_nil]
        exact Or.inr ⟨r', hr', heq⟩
    | cons t vs =>
        refine Or.inl ⟨us, t, vs, rfl, r', ?_, ?_⟩
        · rwa [List.append_nil]
        · rwa [List.append_nil]

/-- What the end of the tokens brings is the reference of the name being read. -/
theorem mem_remainder {r : Reference} (hr : r ∈ s.top.body.remainder) :
    ∃ n, s.pending? = some n ∧ s.top.body.Refers n r := by
  cases hbody : s.top.body with
  | query q =>
      have hpending : s.pending? = q.mode.pending? := by rw [pending?, hbody, Body.pending?]
      rw [hbody, Body.remainder, Query.settle] at hr
      rw [hpending]
      cases hmode : q.mode with
      | name purpose n =>
          rw [hmode] at hr
          cases purpose with
          | operand follow =>
              exact ⟨n, rfl, List.mem_singleton.mp hr⟩
          | target =>
              exact ⟨n, rfl, List.mem_singleton.mp hr⟩
          | created => cases hr
      | _ =>
          rw [hmode] at hr
          cases hr
  | expression scope =>
      rw [hbody] at hr
      cases hr
  | flat f =>
      rw [hbody, Body.remainder, Flat.settle] at hr
      rw [pending?, hbody, Body.pending?]
      cases hread : f.read with
      | none =>
          rw [hread] at hr
          cases hr
      | some n =>
          rw [hread] at hr
          exact ⟨n, rfl, _, Option.mem_toList.mp hr⟩

/-- What is found at a point after the tokens `us` was read there, or the next
token defines it. -/
theorem origin_of_brings {us vs : List Token} {r : Reference} (hs : IsNest s.top s.below)
    (hstart : s.pending? = none) (hr : r ∈ (s.advance limit vs us).brings limit vs) :
    (∃ n, (s.advance limit vs us).top.body.Refers n r ∧ s.HasRead limit vs us n) ∨
    ∃ t rest, vs = t :: rest ∧ t.isName ∧ r.parts = [t.value] ∧ r.span = t.span ∧
      r.isSource = false := by
  cases vs with
  | nil =>
      obtain ⟨n, hread, hrefers⟩ := mem_remainder hr
      exact Or.inl ⟨n, hrefers, hasRead_advance hs hstart hread⟩
  | cons t rest =>
      cases makes_of_mem_outcome hr with
      | name n hread hover hrefers =>
          exact Or.inl ⟨n, hrefers, hasRead_advance hs hstart hread⟩
      | definition ht hparts hspan hrole =>
          exact Or.inr ⟨t, rest, rfl, ht, hparts, hspan, hrole⟩

theorem HasRead.isOver {xs : List Token} {n : DottedName} (h : s.HasRead limit after xs n) :
    n.span.IsOver xs := by
  obtain ⟨before, w, since, rfl, -, -, hread⟩ := h
  obtain ⟨u, hu, hstop, -⟩ := DottedName.stop_of_extendAll? hread
  refine ⟨⟨w, by simp, ?_⟩, ⟨u, List.mem_append_right before hu, ?_⟩⟩
  · simp only [DottedName.span, DottedName.start_of_extendAll? hread, DottedName.ofToken]
  · simp only [DottedName.span, hstop]

/-- What is gathered over some tokens spans some of them. -/
theorem isOver_of_mem_gather {xs : List Token} {r : Reference} (hs : IsNest s.top s.below)
    (hstart : s.pending? = none) (hr : r ∈ s.gather limit after xs) : r.span.IsOver xs := by
  obtain ⟨us, t, vs, rfl, r', hr', rfl⟩ := mem_gather.mp hr
  rw [fated_span]
  rcases origin_of_brings hs hstart hr' with
    ⟨n, hrefers, hread⟩ | ⟨u, rest, heq, -, -, hspan, -⟩
  · obtain ⟨⟨w, hw, hbegin⟩, u, hu, hend⟩ := hread.isOver
    rw [hrefers.name_eq.2]
    exact ⟨⟨w, List.mem_append_left _ hw, hbegin⟩, u, List.mem_append_left _ hu, hend⟩
  · rw [List.cons.injEq] at heq
    rw [hspan, ← heq.1]
    exact ⟨⟨t, by simp, rfl⟩, ⟨t, by simp, rfl⟩⟩

theorem isOver_of_mem_remainder {xs : List Token} {r : Reference} (hs : IsNest s.top s.below)
    (hstart : s.pending? = none) (hr : r ∈ (s.advance limit [] xs).remainder) :
    r.span.IsOver xs := by
  obtain ⟨r', hr', rfl⟩ := List.mem_map.mp hr
  obtain ⟨n, hread, hrefers⟩ := mem_remainder hr'
  rw [fated_span, hrefers.name_eq.2]
  exact (hasRead_advance hs hstart hread).isOver

/-! ## Tables -/

theorem tableNames_map_fated (s : Scan) (ts : List Token) (rs : List Reference) :
    Reference.tableNames (rs.map (s.fated ts)) = Reference.tableNames rs :=
  Reference.tableNames_map (s.fated_parts ts) (s.fated_isSource ts) rs

/-- Without a name that is being read, a token brings no table. -/
theorem tableNames_outcome (hs : s.pending? = none) (limit : Nat) (t : Token)
    (rest : List Token) : Reference.tableNames (s.outcome limit t rest).references = [] := by
  have hsource : ∀ r ∈ (s.outcome limit t rest).references, r.isSource ≠ true := by
    intro r hr
    cases makes_of_mem_outcome hr with
    | name n hread =>
        rw [hs] at hread
        cases hread
    | definition hname hparts hspan hrole => simp [hrole]
  rw [Reference.tableNames, List.filter_eq_nil_iff.mpr hsource, List.map_nil]

theorem tableNames_gather_cons (hs : s.pending? = none) (limit : Nat) (after : List Token)
    (t : Token) (ts : List Token) :
    Reference.tableNames (s.gather limit after (t :: ts)) =
      Reference.tableNames ((s.step limit t (ts ++ after)).gather limit after ts) := by
  rw [gather_cons, Reference.tableNames_append, tableNames_map_fated,
    tableNames_outcome hs, List.nil_append]

theorem remainder_of_pending?_eq_none (hs : s.pending? = none) : s.remainder = [] := by
  refine List.eq_nil_iff_forall_not_mem.mpr fun r hr => ?_
  obtain ⟨r', hr', -⟩ := List.mem_map.mp hr
  obtain ⟨n, hread, -⟩ := mem_remainder hr'
  rw [hs] at hread
  cases hread

end Scan

namespace Statement

/-- The names of the tables of the statement, in order. -/
def tableNames (s : Statement) : List String := s.scan.sources.map Reference.name

theorem tableNames_eq (s : Statement) :
    s.tableNames = Reference.tableNames (Scan.find Scan.depthLimit s.tokens).references :=
  Reference.tableNames_map (f := fun r => { r with statement := s.index }) (fun _ => rfl)
    (fun _ => rfl) _

end Statement

end SqlTables
