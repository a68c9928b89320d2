import SqlTables.Proofs.Partition
import SqlTables.Proofs.Run
import SqlTables.Proofs.Scan.Placement
import SqlTables.Proofs.Unterminated

/-!
# Where the diagnostics of a run point

Whoever reads a diagnostic looks it up in the script. `Diagnostic.PointsInto` says that there is one
place to look at, which is not empty and lies in a region. For a run the region is the script, and
for what is said of a statement it is the statement (`Extraction.isLocated_run`). The parser may
answer what it likes, or nothing: it can keep a state, so that equal statements get different
answers, and it can fail. `Statement.Finds` lists what may come of one statement then.
-/

namespace SqlTables

/-- The diagnostic has one span, which is primary, not empty, and in the region. -/
def Diagnostic.PointsInto (region : Span) (d : Diagnostic) : Prop :=
  ∃ span label, d.spans = [⟨span, true, label⟩] ∧
    region.start ≤ span.start ∧ span.start < span.stop ∧ span.stop ≤ region.stop

theorem Diagnostic.PointsInto.mono {inner outer : Span} {d : Diagnostic} (h : d.PointsInto inner)
    (hstart : outer.start ≤ inner.start) (hstop : inner.stop ≤ outer.stop) :
    d.PointsInto outer := by
  obtain ⟨span, label, hspans, hle, hlt, hle'⟩ := h
  exact ⟨span, label, hspans, by omega, hlt, by omega⟩

/-- A script as a region. -/
def Span.whole (script : String) : Span := ⟨0, script.length⟩

namespace Token

variable {t : Token} {script : String} {d : Diagnostic}

theorem spans_of_unterminated? (h : Diagnostic.unterminated? t = some d) :
    d.spans = [⟨⟨t.offset, t.offset + 1⟩, true, some "starts here"⟩] := by
  by_cases ht : t.isUnterminated
  · simp only [Diagnostic.unterminated?, ht, if_true] at h
    split at h
    · cases h
      rfl
    · cases h
      rfl
    · cases h
      rfl
    · cases h
  · rw [unterminated?_of_not ht] at h
    cases h

/-- An unterminated token is reported where it starts. -/
theorem pointsInto_of_unterminated? (ht : t ∈ scan script)
    (h : Diagnostic.unterminated? t = some d) : d.PointsInto (.whole script) := by
  obtain ⟨hlt, hle⟩ := (Lexer.cut_scanFrom 0 script.toList).mem_bounds t ht
  rw [String.length_toList] at hle
  refine ⟨_, _, spans_of_unterminated? h, ?_, ?_, ?_⟩
  · exact Int.natCast_nonneg _
  · dsimp only
    omega
  · simp only [Span.whole]
    omega

end Token

namespace Statement

variable {script : String} {s : Statement} {found : Findings} {d : Diagnostic}

/-- What may be found in a statement, whatever the parser answers. -/
inductive Finds (s : Statement) : Findings → Prop
  | session (h : s.kind = .session) : Finds s ⟨[], [s.sessionDiagnostic]⟩
  | read (h : s.kind ≠ .session) (answer : Parse) : Finds s (s.ofParse answer).2

/-- Diagnostics point into the statement, and those of references are one for each that is not
resolved, at its place and in their order. -/
structure Locates (s : Statement) (found : Findings) : Prop where
  inside : ∀ d ∈ found.diagnostics, d.PointsInto s.span
  unresolved : (found.diagnostics.filter (·.code = .unresolvedReference)).map (·.primarySpan?) =
    (found.references.filter (·.role = .unresolved)).map fun r => some r.span

/-- The statement itself as a place. -/
theorem pointsInto_self (hs : s ∈ ofScript script) {label : Option String}
    (h : d.spans = [⟨s.span, true, label⟩]) : d.PointsInto s.span :=
  ⟨_, _, h, le_refl _, (span_bounds hs).2.1, le_refl _⟩

theorem pointsInto_of_pointsAt (hs : s ∈ ofScript script) (h : d.PointsAt s.tokens) :
    d.PointsInto s.span := by
  obtain ⟨span, label, hspans, hmarks⟩ := h
  exact ⟨span, label, hspans, hmarks.within (ordered_tokens hs)⟩

theorem locates_scan (hs : s ∈ ofScript script) : s.Locates s.scan where
  inside d hd := pointsInto_of_pointsAt hs
    (Scan.pointsAt_of_mem_find Scan.depthLimit (ordered_tokens hs) d hd)
  unresolved := by
    rw [unresolved_scan, List.map_map]
    rfl

theorem locates_session (hs : s ∈ ofScript script) : s.Locates ⟨[], [s.sessionDiagnostic]⟩ where
  inside := by
    refine List.forall_mem_singleton.mpr ?_
    unfold sessionDiagnostic
    split
    · exact pointsInto_self hs rfl
    · exact pointsInto_self hs rfl
  unresolved := by
    unfold sessionDiagnostic
    split <;> rfl

theorem locates_ofParse (hs : s ∈ ofScript script) (answer : Parse) :
    s.Locates (s.ofParse answer).2 := by
  cases answer with
  | tables names =>
      constructor
      · simp [ofParse, parsed]
      · simp [ofParse, parsed]
  | notModelled => exact locates_scan hs
  | failed cause =>
      constructor
      · refine List.forall_mem_cons.mpr ⟨pointsInto_self hs rfl, (locates_scan hs).inside⟩
      · exact (locates_scan hs).unresolved

theorem Finds.locates (hs : s ∈ ofScript script) (h : s.Finds found) : s.Locates found := by
  cases h with
  | session hkind => exact locates_session hs
  | read hkind answer => exact locates_ofParse hs answer

end Statement

namespace Progress

variable {p q r : Progress} {s : Statement} {f g : Findings}

/-- What is found later is added behind what was found before. -/
structure Adds (p : Progress) (found : Findings) (q : Progress) : Prop where
  references : q.references = p.references ++ found.references
  diagnostics : q.diagnostics = p.diagnostics ++ found.diagnostics

theorem Adds.refl (p : Progress) : p.Adds ⟨[], []⟩ p := by
  constructor <;> simp

theorem Adds.trans (h : p.Adds f q) (h' : q.Adds g r) :
    p.Adds ⟨f.references ++ g.references, f.diagnostics ++ g.diagnostics⟩ r where
  references := by rw [h'.references, h.references, List.append_assoc]
  diagnostics := by rw [h'.diagnostics, h.diagnostics, List.append_assoc]

theorem adds_add (p : Progress) (s : Statement) (engine : Engine) (found : Findings) :
    p.Adds found (p.add s engine found) := ⟨rfl, rfl⟩

theorem adds_addSession (p : Progress) (s : Statement) :
    p.Adds ⟨[], [s.sessionDiagnostic]⟩ (p.addSession s) := by
  constructor
  · simp [addSession]
  · rw [addSession, Statement.sessionDiagnostic]
    cases s.usedDatabase? <;> rfl

end Progress

namespace Extraction

variable {ε σ : Type} {engine : Engine} {parser : Parser (ExceptT ε (StateM σ))}
  {dialect : Option String} {script : String} {p q : Progress} {s : Statement}
  {state state' : σ}

/-- What a computation comes to in a state. -/
def outcome {α : Type} (x : ExceptT ε (StateM σ) α) (state : σ) : Except ε α × σ :=
  Id.run (x.run.run state)

theorem outcome_pure {α : Type} {v v' : α}
    (h : outcome (pure v : ExceptT ε (StateM σ) α) state = (.ok v', state')) : v = v' := by
  cases h
  rfl

theorem exists_of_outcome_bind {α β : Type} {x : ExceptT ε (StateM σ) α}
    {f : α → ExceptT ε (StateM σ) β} {v : β} (h : outcome (x >>= f) state = (.ok v, state')) :
    ∃ a mid, outcome x state = (.ok a, mid) ∧ outcome (f a) mid = (.ok v, state') := by
  change Id.run ((ExceptT.bindCont f (outcome x state).1).run (outcome x state).2) = _ at h
  cases hx : outcome x state with
  | mk result mid =>
      rw [hx] at h
      cases result with
      | ok a => exact ⟨a, mid, rfl, h⟩
      | error e => cases h

theorem adds_of_step (h : outcome (step engine parser dialect script p s) state = (.ok q, state')) :
    ∃ found, s.Finds found ∧ p.Adds found q := by
  unfold step at h
  split at h
  next hsession =>
      obtain rfl := outcome_pure h
      exact ⟨_, .session hsession, p.adds_addSession s⟩
  next hread =>
      cases engine with
      | scan =>
          obtain rfl := outcome_pure h
          exact ⟨_, .read hread .notModelled, p.adds_add s .scan s.scan⟩
      | parser =>
          obtain ⟨answer, mid, -, h⟩ := exists_of_outcome_bind h
          obtain rfl := outcome_pure h
          exact ⟨_, .read hread answer, p.adds_add s _ _⟩

theorem adds_of_steps {ss : List Statement}
    (h : outcome (steps engine parser dialect script p ss) state = (.ok q, state')) :
    ∃ found : List Findings, List.Forall₂ Statement.Finds ss found ∧
      p.Adds ⟨found.flatMap Findings.references, found.flatMap Findings.diagnostics⟩ q := by
  induction ss generalizing p state with
  | nil =>
      obtain rfl := outcome_pure h
      exact ⟨[], .nil, .refl p⟩
  | cons s ss ih =>
      obtain ⟨next, mid, hstep, hrest⟩ := exists_of_outcome_bind h
      obtain ⟨first, hfirst, hadds⟩ := adds_of_step hstep
      obtain ⟨found, hfound, hrest⟩ := ih hrest
      exact ⟨first :: found, .cons hfirst hfound, hadds.trans hrest⟩

/-- What is said of the statements of a script points into the script. -/
theorem pointsInto_whole {ss : List Statement} {found : List Findings}
    (h : List.Forall₂ (fun s f => s ∈ Statement.ofScript script ∧ s.Finds f) ss found) :
    ∀ d ∈ found.flatMap Findings.diagnostics, d.PointsInto (.whole script) := by
  induction h with
  | nil => simp
  | @cons s f _ _ hfirst _ ih =>
      obtain ⟨hs, hfinds⟩ := hfirst
      obtain ⟨hstart, -, hstop⟩ := Statement.span_bounds hs
      rw [List.flatMap_cons, List.forall_mem_append]
      exact ⟨fun d hd => ((hfinds.locates hs).inside d hd).mono hstart hstop, ih⟩

/-- All diagnostics have a place in the script: first those of tokens, and then those of the
statements, each in its own. -/
structure IsLocated (script : String) (e : Extraction) : Prop where
  inside : ∀ d ∈ e.diagnostics, d.PointsInto (.whole script)
  statements : ∃ found : List Findings,
    List.Forall₂ (fun s f => s.Finds f ∧ s.Locates f) (Statement.ofScript script) found ∧
    e.references = found.flatMap Findings.references ∧
    e.diagnostics = (Token.scan script).filterMap Diagnostic.unterminated? ++
      found.flatMap Findings.diagnostics

/-- Every diagnostic of a run points into the script, and every diagnostic of a statement into the
statement, whatever the parser answers. Those of the scan are right whether or not it is used. -/
theorem isLocated_run {e : Extraction}
    (h : outcome (run engine parser dialect script) state = (.ok e, state')) :
    e.IsLocated script ∧ ∀ s ∈ Statement.ofScript script, s.Locates s.scan := by
  obtain ⟨p, mid, hsteps, h⟩ := exists_of_outcome_bind h
  obtain rfl := outcome_pure h
  obtain ⟨found, hfound, hadds⟩ := adds_of_steps hsteps
  have hall : List.Forall₂ (fun s f => s ∈ Statement.ofScript script ∧ s.Finds f)
      (Statement.ofScript script) found :=
    (List.forall₂_and_left _ _).mpr ⟨fun s hs => hs, hfound⟩
  refine ⟨⟨?_, found, ?_, hadds.references, hadds.diagnostics⟩, fun s hs =>
    Statement.locates_scan hs⟩
  · have hlexing : ∀ d ∈ (Token.scan script).filterMap Diagnostic.unterminated?,
        d.PointsInto (.whole script) := by
      intro d hd
      obtain ⟨t, ht, hreport⟩ := List.mem_filterMap.mp hd
      exact Token.pointsInto_of_unterminated? ht hreport
    intro d hd
    rw [show (ofProgress script p).diagnostics = p.diagnostics from rfl, hadds.diagnostics] at hd
    exact (List.mem_append.mp hd).elim (hlexing d) (pointsInto_whole hall d)
  · exact hall.imp fun s f hf => ⟨hf.2, hf.2.locates hf.1⟩

/-- The parser that gives the answers of its state one after the other. -/
def replay : Parser (ExceptT Unit (StateM (List Parse))) := fun _ _ => do
  match ← get with
  | [] => pure .notModelled
  | answer :: rest =>
    set rest
    pure answer

/-- The first two statements are equal, but the parser fails for the first one only. -/
theorem isLocated_run_replay :
    let script := "FROM a.; FROM a.; USE d; WITH b AS NOT c; FROM f(x, 'y"
    ∃ e rest, outcome (run .parser replay none script)
        [.failed (.rejected "no"), .tables [["a"]]] = (.ok e, rest) ∧
      e.diagnostics.map (fun d => (d.code, d.primarySpan?)) =
        [(.unterminatedString, some ⟨52, 53⟩), (.parserFallback, some ⟨0, 7⟩),
          (.unresolvedReference, some ⟨5, 7⟩), (.databaseSwitched, some ⟨18, 23⟩),
          (.malformedCte, some ⟨25, 29⟩), (.tableFunctionSkipped, some ⟨47, 48⟩),
          (.unclosedParenthesis, some ⟨48, 49⟩)] ∧
      e.IsLocated script := by
  intro script
  have hcodes : (outcome (run .parser replay none script)
      [.failed (.rejected "no"), .tables [["a"]]]).1.map
        (fun e => e.diagnostics.map fun d => (d.code, d.primarySpan?)) =
      .ok [(.unterminatedString, some ⟨52, 53⟩), (.parserFallback, some ⟨0, 7⟩),
        (.unresolvedReference, some ⟨5, 7⟩), (.databaseSwitched, some ⟨18, 23⟩),
        (.malformedCte, some ⟨25, 29⟩), (.tableFunctionSkipped, some ⟨47, 48⟩),
        (.unclosedParenthesis, some ⟨48, 49⟩)] := by
    decide +kernel
  cases hrun : outcome (run .parser replay none script)
      [.failed (.rejected "no"), .tables [["a"]]] with
  | mk result rest =>
      rw [hrun] at hcodes
      cases result with
      | ok e => exact ⟨e, rest, rfl, Except.ok.inj hcodes, (isLocated_run hrun).1⟩
      | error x => cases hcodes

end Extraction

end SqlTables
