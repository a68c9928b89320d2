import SqlTables.Proofs.Scan.Naming
import SqlTables.Proofs.Token.Order

/-!
# Spelling

Every reference is spelled out by tokens of its own: words with dots between them, which are
its parts (`Token.Spells`). A scan that reads a name has its tokens behind everything that
was found so far, and the next token goes on with the name or hands it over
(`Scan.TakesUp`). So the references that a scan finds lie in the tokens one after the other
(`Scan.tiles_find`).
-/

namespace SqlTables

namespace Token

/-- Whether the token may be a part of a name. -/
def isPart (t : Token) : Bool := t.isName || t.keyword?.isSome

/-- Words with dots between them, and what the words stand for. A dot behind the last one is
`trailing`. -/
inductive Spells : List Token → List String → Bool → Prop
  | word (t : Token) (ht : t.isPart) : Spells [t] [t.value] false
  | dot {ts : List Token} {parts : List String} (h : Spells ts parts false) (t : Token)
      (ht : t.isMark '.') : Spells (ts ++ [t]) parts true
  | part {ts : List Token} {parts : List String} (h : Spells ts parts true) (t : Token)
      (ht : t.isPart) : Spells (ts ++ [t]) (parts ++ [t.value]) false

variable {ts : List Token} {parts : List String} {trailing : Bool}

theorem isPart_of_isCandidate {t : Token} (ht : Scan.isCandidate t) : t.isPart := by
  rw [Scan.isCandidate, Bool.or_eq_true] at ht
  rw [isPart, Bool.or_eq_true]
  refine ht.imp id fun hword => ?_
  obtain ⟨word, -, hword⟩ := isAnyKeyword_iff.mp hword
  rw [keyword?, kind_of_isKeyword hword]
  rfl

theorem not_isMark_of_isPart {t : Token} (ht : t.isPart) (c : Char) : ¬ t.isMark c := by
  rw [isPart, Bool.or_eq_true] at ht
  rcases ht with hname | hword
  · exact not_isMark_of_isName hname c
  · obtain ⟨word, hword⟩ := Option.isSome_iff_exists.mp hword
    exact not_isMark_of_keyword? hword c

theorem Spells.ne_nil (h : Spells ts parts trailing) : ts ≠ [] := by
  cases h <;> simp

/-- The last token is a word or a dot. -/
theorem Spells.getLast? (h : Spells ts parts trailing) :
    ∃ t, ts.getLast? = some t ∧ (t.isPart ∨ t.isMark '.') := by
  cases h with
  | word t ht => exact ⟨t, rfl, Or.inl ht⟩
  | dot h t ht => exact ⟨t, List.getLast?_concat, Or.inr ht⟩
  | part h t ht => exact ⟨t, List.getLast?_concat, Or.inl ht⟩

end Token

/-- The reference has the parts that the tokens spell, and covers the tokens. With a dot at
its end it is not known to be complete. -/
structure Reference.IsSpelledBy (tokens : List Token) (r : Reference) : Prop where
  spells : ∃ trailing, Token.Spells tokens r.parts trailing ∧
    (trailing → r.role = .unresolved)
  covers : ∃ first ∈ tokens.head?, ∃ last ∈ tokens.getLast?,
    r.span = ⟨first.offset, last.stop⟩

/-- Tokens in which the references are spelled out one after the other. -/
inductive Tiles : List Token → List Reference → Prop
  | nil : Tiles [] []
  | skip (t : Token) {ts : List Token} {rs : List Reference} (h : Tiles ts rs) :
      Tiles (t :: ts) rs
  | piece {run ts : List Token} {r : Reference} {rs : List Reference}
      (hr : r.IsSpelledBy run) (h : Tiles ts rs) : Tiles (run ++ ts) (r :: rs)

namespace Tiles

variable {ts us : List Token} {rs ss : List Reference} {r : Reference}

theorem skips (ts : List Token) : Tiles ts [] := by
  induction ts with
  | nil => exact .nil
  | cons t ts ih => exact .skip t ih

theorem single (h : r.IsSpelledBy ts) : Tiles ts [r] := by
  have hpiece := Tiles.piece h .nil
  rwa [List.append_nil] at hpiece

theorem append (h : Tiles ts rs) (h' : Tiles us ss) : Tiles (ts ++ us) (rs ++ ss) := by
  induction h with
  | nil => exact h'
  | skip t h ih => exact .skip t ih
  | piece hr h ih =>
      rw [List.append_assoc]
      exact .piece hr ih

theorem exists_run (h : Tiles ts rs) (hr : r ∈ rs) :
    ∃ xs run ys, ts = xs ++ (run ++ ys) ∧ r.IsSpelledBy run := by
  induction h with
  | nil => cases hr
  | skip t h ih =>
      obtain ⟨xs, run, ys, rfl, hrun⟩ := ih hr
      exact ⟨t :: xs, run, ys, rfl, hrun⟩
  | @piece run us r' rs hr' h ih =>
      rcases List.mem_cons.mp hr with rfl | hr
      · exact ⟨[], run, us, rfl, hr'⟩
      · obtain ⟨xs, run', ys, rfl, hrun⟩ := ih hr
        exact ⟨run ++ xs, run', ys, by rw [List.append_assoc], hrun⟩

end Tiles

theorem Reference.IsSpelledBy.isOver {ts : List Token} {r : Reference} (h : r.IsSpelledBy ts) :
    r.span.IsOver ts := by
  obtain ⟨first, hfirst, last, hlast, hspan⟩ := h.covers
  rw [hspan]
  exact ⟨⟨first, List.mem_of_head? hfirst, rfl⟩, last, List.mem_of_getLast? hlast, rfl⟩

/-- The span begins and ends with some of the tokens, and is not empty. -/
def Span.Marks (tokens : List Token) (s : Span) : Prop := s.IsOver tokens ∧ s.start < s.stop

theorem Span.Marks.mono {ts us : List Token} {s : Span} (h : s.Marks ts) (hsub : ts ⊆ us) :
    s.Marks us := by
  obtain ⟨⟨⟨first, hfirst, hstart⟩, last, hlast, hstop⟩, hlt⟩ := h
  exact ⟨⟨⟨first, hsub hfirst, hstart⟩, last, hsub hlast, hstop⟩, hlt⟩

theorem Reference.IsSpelledBy.marks {ts : List Token} {r : Reference} (h : r.IsSpelledBy ts)
    (hordered : Token.Ordered ts) : r.span.Marks ts := by
  refine ⟨h.isOver, ?_⟩
  obtain ⟨first, hfirst, last, hlast, hspan⟩ := h.covers
  have hlt := hordered.1 first (List.mem_of_head? hfirst)
  have hle := hordered.le_getLast hlast (List.mem_of_head? hfirst)
  rw [hspan]
  dsimp only
  omega

/-- What marks some tokens of a statement lies in the statement. -/
theorem Span.Marks.within {statement : Statement} {s : Span} (h : s.Marks statement.tokens)
    (hordered : Token.Ordered statement.tokens) :
    statement.span.start ≤ s.start ∧ s.start < s.stop ∧ s.stop ≤ statement.span.stop := by
  obtain ⟨⟨⟨t, ht, hstart⟩, u, hu, hstop⟩, hlt⟩ := h
  have hne := List.ne_nil_of_mem ht
  have hfirst := hordered.head_le (List.head?_eq_some_head hne) ht
  have hlast := hordered.le_getLast (List.getLast?_eq_some_getLast hne) hu
  simp only [Statement.span, List.head?_eq_some_head hne, List.getLast?_eq_some_getLast hne]
  omega

/-- Spelled out one after the other, the references are in order and do not overlap. -/
theorem Tiles.pairwise {ts : List Token} {rs : List Reference} (h : Tiles ts rs)
    (hordered : Token.Ordered ts) : rs.Pairwise fun r r' => r.span.stop ≤ r'.span.start := by
  induction h with
  | nil => exact List.Pairwise.nil
  | skip t h ih => exact ih ((Token.ordered_cons _ _).mp hordered).2.2
  | @piece run ts r rs hr h ih =>
      rw [Token.ordered_append] at hordered
      refine List.pairwise_cons.mpr ⟨fun r' hr' => ?_, ih hordered.2.1⟩
      obtain ⟨xs, run', ys, rfl, hrun'⟩ := h.exists_run hr'
      obtain ⟨-, last, hlast, hstop⟩ := hr.isOver
      obtain ⟨⟨first, hfirst, hstart⟩, -⟩ := hrun'.isOver
      rw [hstop, hstart]
      exact_mod_cast hordered.2.2 last hlast first (by simp [hfirst])

namespace Scan

open Token

variable {limit : Nat} {s : Scan} {t : Token} {rest after xs : List Token}

/-! ## The name that is being read -/

/-- The name was read over the tokens. -/
structure IsReadOver (read : List Token) (n : DottedName) : Prop where
  spells : Spells read n.parts n.dangling
  covers : ∃ first ∈ read.head?, ∃ last ∈ read.getLast?, n.span = ⟨first.offset, last.stop⟩

theorem isReadOver_ofToken (ht : isCandidate t) : IsReadOver [t] (.ofToken t) :=
  ⟨.word t (isPart_of_isCandidate ht), t, rfl, t, rfl, rfl⟩

theorem IsReadOver.extend {read : List Token} {n longer : DottedName} (h : IsReadOver read n)
    (hn : n.extend? t = some longer) : IsReadOver (read ++ [t]) longer := by
  obtain ⟨first, hfirst, last, hlast, hspan⟩ := h.covers
  have hcovers : ∃ first ∈ (read ++ [t]).head?, ∃ last ∈ (read ++ [t]).getLast?,
      longer.span = ⟨first.offset, last.stop⟩ := by
    refine ⟨first, ?_, t, List.getLast?_concat, ?_⟩
    · rw [List.head?_append, Option.mem_def.mp hfirst]
      rfl
    · rw [DottedName.span, DottedName.start_of_extend? hn, (DottedName.stop_of_extend? hn).1]
      rw [DottedName.span, Span.mk.injEq] at hspan
      rw [hspan.1]
  refine ⟨?_, hcovers⟩
  have hspells := h.spells
  unfold DottedName.extend? at hn
  split at hn
  · next hdangling =>
      rw [hdangling] at hspells
      split at hn
      · next ht =>
          rw [← Option.some.inj hn]
          exact .part hspells t ht
      · cases hn
  · next hdangling =>
      rw [Bool.not_eq_true] at hdangling
      rw [hdangling] at hspells
      split at hn
      · next ht =>
          rw [← Option.some.inj hn]
          exact .dot hspells t ht
      · cases hn

theorem Body.Refers.role_eq {body : Body} {n : DottedName} {r : Reference}
    (h : body.Refers n r) (hn : n.dangling) : r.role = .unresolved := by
  cases body with
  | query q =>
      rw [show r = q.reference n from h, Query.reference, hn]
      rfl
  | expression scope => exact h.elim
  | flat f =>
      obtain ⟨isCall, h⟩ := h
      rw [Flat.eq_of_reference? h]

theorem fated_role {r : Reference} (h : r.role = .unresolved) (s : Scan) (ts : List Token) :
    (s.fated ts r).role = .unresolved := by
  unfold fated fate
  split
  · rw [Reference.demote, h]
    exact h
  · exact h

/-- What a complete name makes is spelled by what the name was read over. -/
theorem IsReadOver.isSpelledBy {read : List Token} {n : DottedName} {body : Body} {r : Reference}
    (h : IsReadOver read n) (hr : body.Refers n r) (s : Scan) (ts : List Token) :
    (s.fated ts r).IsSpelledBy read := by
  refine ⟨⟨n.dangling, ?_, fun hn => fated_role (hr.role_eq hn) s ts⟩, ?_⟩
  · rw [fated_parts, hr.name_eq.1]
    exact h.spells
  · rw [fated_span, hr.name_eq.2]
    exact h.covers

/-! ## One token -/

/-- What becomes of the name that is being read when it is over: a reference or nothing. -/
inductive HandsOver (s : Scan) : List Reference → Prop
  | nothing : HandsOver s []
  | name {n : DottedName} {r : Reference} (hread : s.pending? = some n)
      (hrefers : s.top.body.Refers n r) : HandsOver s [r]

/-- What a token brings, and the name that is being read behind it. -/
inductive TakesUp (s : Scan) (t : Token) : List Reference → Option DottedName → Prop
  | extend {n longer : DottedName} (hread : s.pending? = some n)
      (hn : n.extend? t = some longer) : TakesUp s t [] (some longer)
  | start {before : List Reference} (hbefore : s.HandsOver before) (ht : isCandidate t) :
      TakesUp s t before (some (.ofToken t))
  | define {before : List Reference} {r : Reference} (hbefore : s.HandsOver before)
      (ht : t.isName) (hparts : r.parts = [t.value]) (hspan : r.span = t.span) :
      TakesUp s t (before ++ [r]) none
  | pass {before : List Reference} (hbefore : s.HandsOver before) : TakesUp s t before none

/-- A token that changes the group leaves no name behind it. -/
theorem TakesUp.forget {rs : List Reference} {n : Option DottedName} (h : s.TakesUp t rs n) :
    s.TakesUp t rs none := by
  cases h with
  | extend hread hn => exact .pass .nothing
  | start hbefore ht => exact .pass hbefore
  | define hbefore ht hparts hspan => exact .define hbefore ht hparts hspan
  | pass hbefore => exact .pass hbefore

theorem TakesUp.of_read {rs : List Reference} {n : Option DottedName} (hbefore : s.HandsOver rs)
    (hn : n = none ∨ n = some (.ofToken t) ∧ isCandidate t) : s.TakesUp t rs n := by
  rcases hn with rfl | ⟨rfl, ht⟩
  · exact .pass hbefore
  · exact .start hbefore ht

theorem Query.Turn.takesUp {q : Query} {w : Surroundings} {before : List Reference} {o : Outcome}
    (hbefore : s.HandsOver before) (h : q.Turn w t rest before o) :
    s.TakesUp t o.references o.body.pending? := by
  cases h with
  | goto first mode d g ho hc hf hn => exact .of_read hbefore hn
  | branch first d => exact .pass hbefore
  | defineAlias follow d hname =>
      have hpending : (Body.query ((q.defineAlias t.value).goto (.columns follow))).pending? =
        none := rfl
      rw [hpending]
      exact .define hbefore hname rfl rfl
  | defineCte clause d hname => exact .define hbefore hname rfl rfl
  | enter first mode body d ho hf hw =>
      have hpending : (Body.query (q.turnTo first mode)).pending? = none :=
        Mode.pending?_of_isWaiting hw
      rw [hpending]
      exact .pass hbefore
  | leave first d => exact .pass hbefore

theorem outcome_takesUp (limit : Nat) (s : Scan) (t : Token) (rest : List Token) :
    s.TakesUp t (s.outcome limit t rest).references (s.outcome limit t rest).body.pending? := by
  have hturn := outcome_turn limit s t rest
  generalize s.outcome limit t rest = o at hturn ⊢
  generalize hbody : s.top.body = body at hturn
  cases hturn with
  | extend q purpose hmode hn =>
      exact .extend (by rw [pending?, hbody, Body.pending?, hmode, Mode.pending?]) hn
  | query hbefore hturn =>
      refine hturn.takesUp ?_
      rcases hbefore with rfl | ⟨n, hread, -, rfl⟩
      · exact .nothing
      · exact .name (by rw [pending?, hbody, Body.pending?, hread]) (by rw [hbody, Body.Refers])
  | extendFlat f hread hn =>
      exact .extend (by rw [pending?, hbody, Body.pending?, hread]) hn
  | @flat f before o hbefore hturn =>
      have hbefore : s.HandsOver before := by
        rcases hbefore with rfl | ⟨n, r, isCall, hread, -, hrefers, rfl⟩
        · exact .nothing
        · exact .name (by rw [pending?, hbody, Body.pending?, hread])
            (by rw [hbody]; exact ⟨isCall, hrefers⟩)
      cases hturn with
      | stay expecting read hread => exact .of_read hbefore hread
      | leave => exact .pass hbefore
  | _ => exact .pass .nothing

/-- What a token brings, and the name that is being read behind it. -/
theorem step_takesUp (limit : Nat) (t : Token) (rest : List Token) (hs : IsNest s.top s.below) :
    s.TakesUp t (s.outcome limit t rest).references (s.step limit t rest).pending? := by
  have htakes := outcome_takesUp limit s t rest
  cases outcome_shift limit t rest hs with
  | stay haction =>
      rw [step_of_stay haction]
      exact htakes
  | enter body haction hopen hkind hsuspended hinner hpending =>
      rw [step_of_enter haction, pending?, hpending]
      exact htakes.forget
  | leave haction hclose hinner hbelow =>
      obtain ⟨outer, below, hbelow⟩ := List.exists_cons_of_ne_nil hbelow
      rw [hbelow] at hs
      rw [step_of_leave haction hbelow, pending?, (Frame.absorb_mode _ _).2.2.2.2,
        pending?_of_isSuspended hs.2.1]
      exact htakes.forget

/-! ## Runs -/

/-- The last of the tokens are those of the name that is being read. -/
def Reading (read : List Token) : Option DottedName → Prop
  | none => read = []
  | some n => IsReadOver read n

theorem HandsOver.tiles {rs : List Reference} {read : List Token} (h : s.HandsOver rs)
    (hread : Reading read s.pending?) (ts : List Token) :
    Tiles read (rs.map (s.fated ts)) := by
  cases h with
  | nothing => exact .skips read
  | name hname hrefers =>
      rw [hname] at hread
      exact .single (hread.isSpelledBy hrefers s ts)

/-- What a scan gathers is spelled out one after the other, before the name that it reads. -/
theorem tiles_gather (limit : Nat) (after xs : List Token) (hs : IsNest s.top s.below)
    (hstart : s.pending? = none) :
    ∃ ys read, xs = ys ++ read ∧ Tiles ys (s.gather limit after xs) ∧
      Reading read (s.advance limit after xs).pending? := by
  induction xs using List.reverseRecOn generalizing after with
  | nil =>
      refine ⟨[], [], rfl, .nil, ?_⟩
      rw [advance_nil, hstart]
      rfl
  | append_singleton xs t ih =>
      obtain ⟨ys, read, rfl, htiles, hread⟩ := ih ([t] ++ after)
      rw [gather_append, advance_append limit after s _ [t], gather_singleton, advance_cons,
        advance_nil]
      generalize hs' : s.advance limit ([t] ++ after) (ys ++ read) = s' at hread ⊢
      have hnest : IsNest s'.top s'.below := by
        rw [← hs']
        exact isNest_advance limit _ _ hs
      have htakes := step_takesUp limit t after hnest
      rw [List.nil_append]
      generalize (s'.step limit t after).pending? = next at htakes ⊢
      generalize (s'.outcome limit t after).references = rs at htakes ⊢
      cases htakes with
      | extend hname hn =>
          rw [hname] at hread
          refine ⟨ys, read ++ [t], by rw [List.append_assoc], ?_, hread.extend hn⟩
          rw [List.map_nil, List.append_nil]
          exact htiles
      | start hbefore ht =>
          exact ⟨ys ++ read, [t], rfl, htiles.append (hbefore.tiles hread _),
            isReadOver_ofToken ht⟩
      | define hbefore ht hparts hspan =>
          refine ⟨ys ++ read ++ [t], [], (List.append_nil _).symm, ?_, rfl⟩
          rw [List.map_append, ← List.append_assoc]
          refine (htiles.append (hbefore.tiles hread _)).append (.single ?_)
          refine ⟨⟨false, ?_, fun h => by cases h⟩, t, rfl, t, rfl, ?_⟩
          · rw [fated_parts, hparts]
            exact .word t (by rw [isPart, ht, Bool.true_or])
          · rw [fated_span, hspan]
            rfl
      | pass hbefore =>
          refine ⟨ys ++ read ++ [t], [], (List.append_nil _).symm, ?_, rfl⟩
          have htail := (hbefore.tiles hread (t :: after)).append (.skips [t])
          rw [List.append_nil] at htail
          rw [List.append_assoc]
          exact htiles.append htail

/-- The end of the tokens hands over the name that is being read. -/
theorem handsOver_remainder (s : Scan) : s.HandsOver s.top.body.remainder := by
  cases hbody : s.top.body with
  | query q =>
      have hpending : s.pending? = q.mode.pending? := by rw [pending?, hbody, Body.pending?]
      rw [Body.remainder, Query.settle]
      cases hmode : q.mode with
      | name purpose n =>
          rw [hmode] at hpending
          cases purpose with
          | created => exact .nothing
          | _ => exact .name hpending (by rw [hbody, Body.Refers])
      | _ => exact .nothing
  | expression scope => exact .nothing
  | flat f =>
      rw [Body.remainder, Flat.settle]
      cases hread : f.read with
      | none => exact .nothing
      | some n =>
          cases hrefers : f.reference? n false with
          | none =>
              simp only [hrefers]
              exact .nothing
          | some r =>
              simp only [hrefers]
              exact .name (by rw [pending?, hbody, Body.pending?, hread])
                (by rw [hbody]; exact ⟨false, hrefers⟩)

/-- The references of a statement are spelled out in it one after the other. -/
theorem tiles_find (limit : Nat) (ts : List Token) : Tiles ts (find limit ts).references := by
  obtain ⟨ys, read, hts, htiles, hread⟩ := tiles_gather limit [] ts isNest_start rfl
  have htail := (handsOver_remainder (start.advance limit [] ts)).tiles hread []
  have hall := htiles.append htail
  rwa [← hts, ← remainder, ← find_references] at hall

end Scan

end SqlTables
