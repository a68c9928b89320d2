import SqlTables.Proofs.Consistency
import SqlTables.Proofs.Unterminated

/-!
# Falling back to the scan

A parser is asked for every statement but the session commands, and its calls are on record
here. It answers, or it raises something that no run takes for an answer. What a run with a
parser reports of a statement is what the scan reports of it unless the parser names tables,
and depends on the answer for that statement only (`Asker.fallsBack`).
-/

namespace SqlTables

/-- The texts and the dialect that a parser was called with. -/
abbrev Calls := List (String × Option String)

variable {ε α β : Type}

/-- The parser with its calls on record. -/
def Parser.recorded (answer : String → Option String → Except ε Parse) :
    Parser (ExceptT ε (StateM Calls)) := fun text dialect =>
  ExceptT.mk fun calls => (answer text dialect, calls ++ [(text, dialect)])

namespace Extraction

/-- The reports of both scripts are the same for statement `k`, but for the diagnostics. -/
structure SameAt (e e' : Extraction) (k : Nat) : Prop where
  summary : e.statements[k]? = e'.statements[k]?
  references : e.references.filter (·.statement == k) = e'.references.filter (·.statement == k)

end Extraction

/-- A parser that gives an answer or raises something else, and the dialect it is called with. -/
structure Asker (ε : Type) where
  answer : String → Option String → Except ε Parse
  dialect : Option String

namespace Asker

variable (a : Asker ε) (script : String)

/-- What comes of a run that asks the parser, and the calls of the parser. -/
def run : Except ε Extraction × Calls :=
  Id.run ((Extraction.run .parser (.recorded a.answer) a.dialect script).run.run [])

/-- What the parser says about a statement. -/
def ask (s : Statement) : Except ε Parse := a.answer (s.text script) a.dialect

/-- The calls for some statements. -/
def calls (ss : List Statement) : Calls :=
  (ss.filter (·.kind ≠ .session)).map fun s => (s.text script, a.dialect)

/-- The parser has an answer for the statement, unless it is not asked. -/
def Answers (s : Statement) : Prop := s.kind ≠ .session → ∃ answer, a.ask script s = .ok answer

/-- The parser is asked for the statement and names tables in it. -/
def Names (s : Statement) (names : List (List String)) : Prop :=
  s.kind ≠ .session ∧ a.ask script s = .ok (.tables names)

/-- The parser is asked for the statement and has one of its two failures. -/
def Fails (s : Statement) (cause : ParseFailure) : Prop :=
  s.kind ≠ .session ∧ a.ask script s = .ok (.failed cause)

/-- What is reported of a statement: what the scan reports if the parser names no tables, and
before it the failure of the parser if there is one. -/
def diagnostics (s : Statement) : List Diagnostic :=
  if s.kind = .session then [s.sessionDiagnostic]
  else
    match a.ask script s with
    | .ok (.tables _) => []
    | .ok (.failed cause) => .parserFallback s cause :: s.scan.diagnostics
    | _ => s.scan.diagnostics

/-- The report is that of the scan but for the statements in which the parser names tables. -/
structure Follows (e : Extraction) : Prop where
  scanned : ∀ s ∈ Statement.ofScript script, (∀ names, ¬ a.Names script s names) →
    e.SameAt (Extraction.scan script) s.index
  named : ∀ s ∈ Statement.ofScript script, ∀ names, a.Names script s names →
    (e.references.filter (·.statement == s.index) =
      names.map fun parts => { parts, span := s.span, role := .source, statement := s.index }) ∧
    e.statements[s.index]?.bind StatementSummary.engine = some .parser
  diagnostics : e.diagnostics = (Token.scan script).filterMap Diagnostic.unterminated? ++
    (Statement.ofScript script).flatMap (a.diagnostics script)
  failures : ∀ d ∈ e.diagnostics, d.code = .parserFallback →
    ∃ s ∈ Statement.ofScript script, ∃ cause, a.Fails script s cause ∧ d = .parserFallback s cause
  noNames : (∀ s ∈ Statement.ofScript script, ∀ names, ¬ a.Names script s names) →
    e.tables = (Extraction.scan script).tables ∧
      e.references = (Extraction.scan script).references

/-- The parser is called once for each statement that is no session command, in order, up to the
first one for which it raises something, and the report follows its answers. -/
structure FallsBack : Prop where
  returns : (∀ s ∈ Statement.ofScript script, a.Answers script s) →
    ∃ e, a.run script = (.ok e, a.calls script (Statement.ofScript script)) ∧ a.Follows script e
  raises : ∀ before s after x, Statement.ofScript script = before ++ s :: after →
    (∀ s' ∈ before, a.Answers script s') → s.kind ≠ .session → a.ask script s = .error x →
      a.run script = (.error x, a.calls script (before ++ [s]))
  /-- What is reported of a statement does not depend on the answers for the others. -/
  independent : ∀ (b : Asker ε) e e' calls calls', a.run script = (.ok e, calls) →
    b.run script = (.ok e', calls') → ∀ s ∈ Statement.ofScript script,
      a.ask script s = b.ask script s → e.SameAt e' s.index

end Asker

/-! ## Runs on record -/

namespace Asker

open Statement

variable {a b : Asker ε} {script : String} {s : Statement} {p : Progress} {calls calls' : Calls}

/-- What a computation comes to behind some calls. -/
def exec (x : ExceptT ε (StateM Calls) α) (calls : Calls) : Except ε α × Calls :=
  Id.run (x.run.run calls)

theorem exec_bind_ok {x : ExceptT ε (StateM Calls) α} {v : α}
    (h : exec x calls = (.ok v, calls')) (f : α → ExceptT ε (StateM Calls) β) :
    exec (x >>= f) calls = exec (f v) calls' := by
  change Id.run ((ExceptT.bindCont f (exec x calls).1).run (exec x calls).2) = _
  rw [h]
  rfl

theorem exec_bind_error {x : ExceptT ε (StateM Calls) α} {e : ε}
    (h : exec x calls = (.error e, calls')) (f : α → ExceptT ε (StateM Calls) β) :
    exec (x >>= f) calls = (.error e, calls') := by
  change Id.run ((ExceptT.bindCont f (exec x calls).1).run (exec x calls).2) = _
  rw [h]
  rfl

/-- The reader whose parser gives the same answers. -/
def reader (a : Asker ε) : Reader :=
  { engine := .parser
    parser := fun text dialect => ((a.answer text dialect).toOption.getD .notModelled : Parse)
    dialect := a.dialect }

theorem calls_append (a : Asker ε) (script : String) (ss ss' : List Statement) :
    a.calls script (ss ++ ss') = a.calls script ss ++ a.calls script ss' := by
  rw [Asker.calls, List.filter_append, List.map_append]
  rfl

theorem calls_session (hkind : s.kind = .session) : a.calls script [s] = [] := by
  rw [Asker.calls, List.filter_singleton]
  simp [hkind]

theorem calls_asked (hkind : s.kind ≠ .session) :
    a.calls script [s] = [(s.text script, a.dialect)] := by
  rw [Asker.calls, List.filter_singleton]
  simp [hkind]

theorem parser_reader {answer : Parse} (h : a.ask script s = .ok answer) :
    Id.run (a.reader.parser (s.text script) a.dialect) = answer := by
  change (a.ask script s).toOption.getD .notModelled = answer
  rw [h]
  rfl

theorem exec_recorded (a : Asker ε) (script : String) (s : Statement) (calls : Calls) :
    exec (Parser.recorded a.answer (s.text script) a.dialect) calls =
      (a.ask script s, calls ++ [(s.text script, a.dialect)]) := rfl

/-- A statement for which there is an answer is read as the answer says. -/
theorem exec_step (h : a.Answers script s) (p : Progress) (calls : Calls) :
    exec (Extraction.step .parser (.recorded a.answer) a.dialect script p s) calls =
      (.ok (Id.run (Extraction.step .parser a.reader.parser a.dialect script p s)),
        calls ++ a.calls script [s]) := by
  by_cases hkind : s.kind = .session
  · rw [Extraction.step, Extraction.step, if_pos hkind, if_pos hkind, calls_session hkind,
      List.append_nil]
    rfl
  · obtain ⟨answer, hanswer⟩ := h hkind
    have hcall := exec_recorded a script s calls
    rw [hanswer] at hcall
    rw [Extraction.step, Extraction.step, if_neg hkind, if_neg hkind, calls_asked hkind]
    dsimp only
    rw [exec_bind_ok hcall, ← parser_reader hanswer]
    rfl

theorem exec_step_raises {x : ε} (hkind : s.kind ≠ .session) (h : a.ask script s = .error x)
    (p : Progress) (calls : Calls) :
    exec (Extraction.step .parser (.recorded a.answer) a.dialect script p s) calls =
      (.error x, calls ++ a.calls script [s]) := by
  have hcall := exec_recorded a script s calls
  rw [h] at hcall
  rw [Extraction.step, if_neg hkind, calls_asked hkind]
  exact exec_bind_error hcall _

/-- Statements for which there are answers are read as the answers say. -/
theorem exec_steps_append {before : List Statement} (h : ∀ s ∈ before, a.Answers script s)
    (rest : List Statement) (p : Progress) (calls : Calls) :
    exec (Extraction.steps .parser (.recorded a.answer) a.dialect script p (before ++ rest)) calls =
      exec (Extraction.steps .parser (.recorded a.answer) a.dialect script
        (Id.run (Extraction.steps .parser a.reader.parser a.dialect script p before)) rest)
        (calls ++ a.calls script before) := by
  induction before generalizing p calls with
  | nil =>
      have hnone : a.calls script [] = [] := rfl
      rw [hnone, List.append_nil]
      rfl
  | cons s before ih =>
      rw [List.forall_mem_cons] at h
      have hcalls := a.calls_append script [s] before
      rw [List.singleton_append] at hcalls
      rw [List.cons_append, Extraction.steps, exec_bind_ok (exec_step h.1 p calls), ih h.2,
        List.append_assoc, ← hcalls]
      rfl

theorem run_of_answers (h : ∀ s ∈ ofScript script, a.Answers script s) :
    a.run script = (.ok (a.reader.run script), a.calls script (ofScript script)) := by
  have hsteps := exec_steps_append h [] (.start (Token.scan script)) []
  rw [List.append_nil, List.nil_append] at hsteps
  exact exec_bind_ok hsteps _

theorem run_of_raises {before after : List Statement} {x : ε}
    (hscript : ofScript script = before ++ s :: after)
    (hbefore : ∀ s ∈ before, a.Answers script s) (hkind : s.kind ≠ .session)
    (h : a.ask script s = .error x) :
    a.run script = (.error x, a.calls script (before ++ [s])) := by
  have hsteps := exec_steps_append hbefore (s :: after) (.start (Token.scan script)) []
  rw [← hscript, List.nil_append, Extraction.steps,
    exec_bind_error (exec_step_raises hkind h _ _), ← calls_append] at hsteps
  exact exec_bind_error hsteps _

/-- There is an answer for each statement, or a first one for which something is raised. -/
theorem answers_or_raises (a : Asker ε) (script : String) (ss : List Statement) :
    (∀ s ∈ ss, a.Answers script s) ∨ ∃ before s after x, ss = before ++ s :: after ∧
      (∀ s ∈ before, a.Answers script s) ∧ s.kind ≠ .session ∧ a.ask script s = .error x := by
  induction ss with
  | nil => exact Or.inl (List.forall_mem_nil _)
  | cons s ss ih =>
      by_cases hs : a.Answers script s
      · rcases ih with ih | ⟨before, s', after, x, rfl, hbefore, hx⟩
        · exact Or.inl (List.forall_mem_cons.mpr ⟨hs, ih⟩)
        · exact Or.inr ⟨s :: before, s', after, x, rfl, List.forall_mem_cons.mpr ⟨hs, hbefore⟩, hx⟩
      · rw [Answers, Classical.not_imp] at hs
        cases hanswer : a.ask script s with
        | ok answer => exact absurd ⟨answer, hanswer⟩ hs.2
        | error x => exact Or.inr ⟨[], s, ss, x, rfl, List.forall_mem_nil _, hs.1, hanswer⟩

/-- A run that returns has an answer for each statement, and reads them as the answers say. -/
theorem answers_of_run {e : Extraction} (h : a.run script = (.ok e, calls)) :
    (∀ s ∈ ofScript script, a.Answers script s) ∧ e = a.reader.run script := by
  rcases a.answers_or_raises script (ofScript script) with
    hanswers | ⟨before, s, after, x, hscript, hbefore, hkind, hx⟩
  · rw [run_of_answers hanswers, Prod.mk.injEq, Except.ok.injEq] at h
    exact ⟨hanswers, h.1.symm⟩
  · rw [run_of_raises hscript hbefore hkind hx] at h
    cases h

end Asker

/-! ## Statement by statement -/

namespace Reader

open Statement

variable {r r' : Reader} {s : Statement} {script : String}

theorem run_scan (script : String) : Reader.scan.run script = Extraction.scan script := rfl

/-- The references that carry the number of a statement are its own. -/
theorem filter_statement (r : Reader) {before after : List Statement}
    (h : ofScript script = before ++ s :: after) :
    (r.run script).references.filter (·.statement == before.length) = r.references script s := by
  have hfilter := filter_references (r := r) h fun _ => true
  rwa [List.filter_true, funext fun _ => Bool.and_true _] at hfilter

/-- Readers that find the same references in a statement with the same engine report the same
of it. -/
theorem sameAt (hs : s ∈ ofScript script) (hfind : s.kind ≠ .session →
    (r.find script s).1 = (r'.find script s).1 ∧
      (r.find script s).2.references = (r'.find script s).2.references) :
    (r.run script).SameAt (r'.run script) s.index := by
  obtain ⟨before, after, hscript⟩ := List.append_of_mem hs
  have hreferences : r.references script s = r'.references script s := by
    rw [references, references]
    split
    · rfl
    · next hkind => exact (hfind hkind).2
  have hsummary (database : Option String) :
      r.summary script database s = r'.summary script database s := by
    rw [summary, summary, names, names, hreferences]
    congr 1
    split
    · rfl
    · next hkind => rw [(hfind hkind).1]
  rw [(index_of_ofScript hscript).1]
  constructor
  · rw [getElem?_statements r hscript, getElem?_statements r' hscript, hsummary]
  · rw [filter_statement r hscript, filter_statement r' hscript, hreferences]

end Reader

namespace Asker

open Statement

variable {a b : Asker ε} {script : String} {s : Statement}

theorem find_eq_ofParse {answer : Parse} (h : a.ask script s = .ok answer) :
    a.reader.find script s = s.ofParse answer := by
  rw [← parser_reader h]
  rfl

/-- A statement in which the parser names nothing is found in as by the scan. -/
theorem find_of_not_names (h : a.Answers script s) (hnone : ∀ names, ¬ a.Names script s names)
    (hkind : s.kind ≠ .session) :
    (a.reader.find script s).1 = (Reader.scan.find script s).1 ∧
      (a.reader.find script s).2.references = (Reader.scan.find script s).2.references := by
  obtain ⟨answer, hanswer⟩ := h hkind
  rw [find_eq_ofParse hanswer]
  cases answer with
  | tables names => exact absurd ⟨hkind, hanswer⟩ (hnone names)
  | notModelled => exact ⟨rfl, rfl⟩
  | failed cause => exact ⟨rfl, rfl⟩

theorem diagnostics_reader (h : a.Answers script s) :
    a.reader.diagnostics script s = a.diagnostics script s := by
  rw [Reader.diagnostics, diagnostics]
  split
  · rfl
  · next hkind =>
      obtain ⟨answer, hanswer⟩ := h hkind
      rw [find_eq_ofParse hanswer, hanswer]
      cases answer with
      | tables names => rfl
      | notModelled => rfl
      | failed cause => rfl

/-- Only the failures of the parser are reported as such. -/
theorem fails_of_mem_diagnostics {d : Diagnostic} (hd : d ∈ a.diagnostics script s)
    (hcode : d.code = .parserFallback) :
    ∃ cause, a.Fails script s cause ∧ d = .parserFallback s cause := by
  have hscan : d ∉ s.scan.diagnostics := fun hd => by
    have hmem := s.code_of_mem_scan d hd
    rw [hcode] at hmem
    exact absurd hmem (by decide)
  unfold diagnostics at hd
  split at hd
  · rw [List.mem_singleton] at hd
    rw [hd, sessionDiagnostic] at hcode
    split at hcode
    · exact absurd hcode (of_decide_eq_false rfl)
    · exact absurd hcode (of_decide_eq_false rfl)
  · next hkind =>
      split at hd
      · cases hd
      · next cause hcause =>
          rcases List.mem_cons.mp hd with rfl | hd
          · exact ⟨cause, ⟨hkind, hcause⟩, rfl⟩
          · exact absurd hd hscan
      · exact absurd hd hscan

theorem code_of_unterminated? {t : Token} {d : Diagnostic}
    (h : Diagnostic.unterminated? t = some d) : d.code ≠ .parserFallback := by
  have hlexing := Token.isLexing_of_unterminated? h
  intro hcode
  rw [hcode] at hlexing
  cases hlexing

theorem diagnostics_run (h : ∀ s ∈ ofScript script, a.Answers script s) :
    (a.reader.run script).diagnostics =
      (Token.scan script).filterMap Diagnostic.unterminated? ++
        (ofScript script).flatMap (a.diagnostics script) := by
  rw [Reader.diagnostics_run]
  congr 1
  exact List.flatMap_congr fun s hs => diagnostics_reader (h s hs)

/-- A statement in which the parser names tables is reported with these. -/
theorem references_of_names (hs : s ∈ ofScript script) {names : List (List String)}
    (hnames : a.Names script s names) :
    ((a.reader.run script).references.filter (·.statement == s.index) =
      names.map fun parts => { parts, span := s.span, role := .source, statement := s.index }) ∧
    (a.reader.run script).statements[s.index]?.bind StatementSummary.engine = some .parser := by
  have hfind := find_eq_ofParse hnames.2
  obtain ⟨before, after, hscript⟩ := List.append_of_mem hs
  rw [(index_of_ofScript hscript).1, Reader.filter_statement _ hscript,
    Reader.getElem?_statements _ hscript, Reader.references, if_neg hnames.1, hfind,
    Option.bind_some, Reader.summary]
  dsimp only
  rw [if_neg hnames.1, hfind, ← (index_of_ofScript hscript).1]
  exact ⟨rfl, rfl⟩

/-- A parser that names no tables leaves the references to the scan. -/
theorem references_of_not_names (h : ∀ s ∈ ofScript script, a.Answers script s)
    (hnone : ∀ s ∈ ofScript script, ∀ names, ¬ a.Names script s names) :
    (a.reader.run script).references = (Reader.scan.run script).references := by
  rw [Reader.references_run, Reader.references_run]
  refine List.flatMap_congr fun s hs => ?_
  rw [Reader.references, Reader.references]
  split
  · rfl
  · next hkind => exact (find_of_not_names (h s hs) (hnone s hs) hkind).2

theorem fails_of_mem_run (h : ∀ s ∈ ofScript script, a.Answers script s) {d : Diagnostic}
    (hd : d ∈ (a.reader.run script).diagnostics) (hcode : d.code = .parserFallback) :
    ∃ s ∈ ofScript script, ∃ cause, a.Fails script s cause ∧ d = .parserFallback s cause := by
  rw [diagnostics_run h, List.mem_append] at hd
  rcases hd with hd | hd
  · obtain ⟨t, -, ht⟩ := List.mem_filterMap.mp hd
    exact absurd hcode (code_of_unterminated? ht)
  · obtain ⟨s, hs, hd⟩ := List.mem_flatMap.mp hd
    obtain ⟨cause, hcause⟩ := fails_of_mem_diagnostics hd hcode
    exact ⟨s, hs, cause, hcause⟩

theorem follows_run (h : ∀ s ∈ ofScript script, a.Answers script s) :
    a.Follows script (a.reader.run script) where
  scanned s hs hnone := by
    rw [← Reader.run_scan]
    exact Reader.sameAt hs fun hkind => find_of_not_names (h s hs) hnone hkind
  named _ hs _ hnames := references_of_names hs hnames
  diagnostics := diagnostics_run h
  failures _ hd hcode := fails_of_mem_run h hd hcode
  noNames hnone := by
    rw [← Reader.run_scan]
    have hreferences := references_of_not_names h hnone
    exact ⟨Reader.tables_congr hreferences, hreferences⟩

/-- Whatever the parser says, a run with it falls back to the scan statement by statement. -/
theorem fallsBack (a : Asker ε) (script : String) : a.FallsBack script where
  returns h := ⟨_, run_of_answers h, follows_run h⟩
  raises _ _ _ _ hscript hbefore hkind hx := run_of_raises hscript hbefore hkind hx
  independent b e e' calls calls' he he' s hs hsame := by
    obtain ⟨ha, rfl⟩ := answers_of_run he
    obtain ⟨hb, rfl⟩ := answers_of_run he'
    refine Reader.sameAt hs fun hkind => ?_
    obtain ⟨answer, hanswer⟩ := ha s hs hkind
    rw [find_eq_ofParse hanswer, find_eq_ofParse (hsame ▸ hanswer)]
    exact ⟨rfl, rfl⟩

/-- The third statement is not asked for, since the parser raises something for the second. -/
example :
    let a : Asker Unit := ⟨fun text _ => if text = "a" then .ok .notModelled else .error (), none⟩
    (a.run "USE d; a; b; c").1.toBool = false ∧
      (a.run "USE d; a; b; c").2 = [("a", none), ("b", none)] := by
  decide +kernel

end Asker

end SqlTables
