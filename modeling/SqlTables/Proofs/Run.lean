import SqlTables.Proofs.Tables
import Mathlib.Data.List.Forall2

/-!
# What a run reports

A run reads the statements one after the other, and what it carries from one to the next is
the database in force. So its report is said statement by statement: `Statement.collect` goes
through the statements with the database in force before each, and `Reader.statements_run`,
`references_run`, `tables_run` and `diagnostics_run` say what a run comes to.
-/

namespace SqlTables

namespace Reference

/-- The names under which the sources are reported. -/
def qualifiedNames (database : Option String) (rs : List Reference) : List String :=
  (rs.filter isSource).map fun r => r.qualifiedName database

end Reference

namespace TableSet

theorem insertSources_eq (T : TableSet) (database : Option String) (rs : List Reference) :
    T.insertSources database rs = (Reference.qualifiedNames database rs).foldl insert T := by
  rw [insertSources, Reference.qualifiedNames, List.foldl_map]

end TableSet

namespace Statement

variable {α β : Type}

/-- The database that the statement switches to. -/
def switched? (s : Statement) : Option String :=
  if s.kind = .session then s.usedDatabase? else none

/-- What is reported of a session command. -/
def sessionDiagnostic (s : Statement) : Diagnostic :=
  match s.usedDatabase? with
  | some d => .databaseSwitched s d
  | none => .statementSkipped s

/-- The database in force behind the statements. -/
def inForce (database : Option String) (ss : List Statement) : Option String :=
  ss.foldl (fun database s => s.switched?.or database) database

/-- What `f` makes of the statements, each with the database in force before it. -/
def collect (f : Option String → Statement → List α) (database : Option String) :
    List Statement → List α
  | [] => []
  | s :: rest => f database s ++ collect f (s.switched?.or database) rest

theorem inForce_cons (database : Option String) (s : Statement) (ss : List Statement) :
    inForce database (s :: ss) = inForce (s.switched?.or database) ss := rfl

theorem inForce_append_singleton (database : Option String) (ss : List Statement)
    (s : Statement) : inForce database (ss ++ [s]) = s.switched?.or (inForce database ss) := by
  rw [inForce, List.foldl_append]
  rfl

theorem collect_append (f : Option String → Statement → List α) (database : Option String)
    (ss ss' : List Statement) :
    collect f database (ss ++ ss') =
      collect f database ss ++ collect f (inForce database ss) ss' := by
  induction ss generalizing database with
  | nil => rfl
  | cons s ss ih => rw [List.cons_append, collect, collect, ih, inForce_cons, List.append_assoc]

theorem collect_const (f : Statement → List α) (database : Option String)
    (ss : List Statement) : collect (fun _ => f) database ss = ss.flatMap f := by
  induction ss generalizing database with
  | nil => rfl
  | cons s ss ih => rw [collect, ih, List.flatMap_cons]

theorem collect_eq_nil {f : Option String → Statement → List α} {ss : List Statement}
    (hf : ∀ s ∈ ss, ∀ database, f database s = []) (database : Option String) :
    collect f database ss = [] := by
  induction ss generalizing database with
  | nil => rfl
  | cons s ss ih =>
      rw [List.forall_mem_cons] at hf
      rw [collect, hf.1, ih hf.2, List.nil_append]

theorem length_collect (f : Option String → Statement → α) (database : Option String)
    (ss : List Statement) :
    (collect (fun database s => [f database s]) database ss).length = ss.length := by
  induction ss generalizing database with
  | nil => rfl
  | cons s ss ih => rw [collect, List.length_append, ih, List.length_cons, Nat.add_comm]; rfl

/-- The same is made of related statements, if the databases before them stay related. -/
theorem collect_congr {R : Statement → Statement → Prop}
    {D : Option String → Option String → Prop} {f f' : Option String → Statement → List α}
    {ss ss' : List Statement} (hss : List.Forall₂ R ss ss')
    (hf : ∀ s s', R s s' → ∀ d d', D d d' → f' d' s' = f d s)
    (hD : ∀ s s', R s s' → ∀ d d', D d d' → D (s.switched?.or d) (s'.switched?.or d'))
    {d d' : Option String} (hd : D d d') : collect f' d' ss' = collect f d ss := by
  induction hss generalizing d d' with
  | nil => rfl
  | cons hs _ ih => rw [collect, collect, hf _ _ hs _ _ hd, ih (hD _ _ hs _ _ hd)]

theorem map_collect (f : Option String → Statement → List α) (h : α → β)
    (database : Option String) (ss : List Statement) :
    (collect f database ss).map h = collect (fun d s => (f d s).map h) database ss := by
  induction ss generalizing database with
  | nil => rfl
  | cons s ss ih => rw [collect, collect, List.map_append, ih]

/-- What is made of changed statements, with the databases renamed. -/
theorem collect_rename {f : Option String → Statement → List α}
    {f' : Option String → Statement → List β} {g : Statement → Statement} {h : α → β}
    {rename : String → String} {ss : List Statement}
    (hf : ∀ s ∈ ss, ∀ database, f' (database.map rename) (g s) = (f database s).map h)
    (hg : ∀ s ∈ ss, (g s).switched? = s.switched?.map rename) (database : Option String) :
    collect f' (database.map rename) (ss.map g) = (collect f database ss).map h := by
  have hss : List.Forall₂ (fun s s' => s ∈ ss ∧ s' = g s) ss (ss.map g) := by
    rw [List.forall₂_map_right_iff, List.forall₂_same]
    exact fun s hs => ⟨hs, rfl⟩
  rw [map_collect]
  refine collect_congr (D := fun d d' => d' = d.map rename) hss ?_ ?_ rfl
  · rintro s _ ⟨hs, rfl⟩ d _ rfl
    exact hf s hs d
  · rintro s _ ⟨hs, rfl⟩ d _ rfl
    rw [hg s hs, Option.map_or]

/-- What is made of changed statements, if no change concerns the database. -/
theorem collect_map {f : Option String → Statement → List α}
    {f' : Option String → Statement → List β} {g : Statement → Statement} {h : α → β}
    {ss : List Statement} (hf : ∀ s ∈ ss, ∀ database, f' database (g s) = (f database s).map h)
    (hg : ∀ s ∈ ss, (g s).switched? = s.switched?) (database : Option String) :
    collect f' database (ss.map g) = (collect f database ss).map h := by
  have hf_id : ∀ s ∈ ss, ∀ database : Option String,
      f' (database.map id) (g s) = (f database s).map h := fun s hs database => by
    rw [Option.map_id_fun, id, hf s hs]
  have hg_id : ∀ s ∈ ss, (g s).switched? = s.switched?.map id := fun s hs => by
    rw [Option.map_id_fun, id, hg s hs]
  have hrename := collect_rename hf_id hg_id database
  rwa [Option.map_id_fun, id] at hrename

end Statement

/-- What a script is read with. -/
structure Reader where
  engine : Engine
  parser : Parser Id
  dialect : Option String

namespace Reader

open Statement

/-- The reader that asks no parser. -/
def scan : Reader := ⟨.scan, Extraction.noParser, none⟩

variable (r : Reader) (script : String)

/-- The extraction from a script. -/
def run : Extraction := Id.run (Extraction.run r.engine r.parser r.dialect script)

/-- What is found in a statement, and by which engine. -/
def find (s : Statement) : Engine × Findings :=
  match r.engine with
  | .scan => (.scan, s.scan)
  | .parser => s.ofParse (Id.run (r.parser (s.text script) r.dialect))

/-- The references that a statement adds. -/
def references (s : Statement) : List Reference :=
  if s.kind = .session then [] else (r.find script s).2.references

/-- The diagnostics that a statement adds. -/
def diagnostics (s : Statement) : List Diagnostic :=
  if s.kind = .session then [s.sessionDiagnostic] else (r.find script s).2.diagnostics

/-- The names that a statement adds. -/
def names (database : Option String) (s : Statement) : List String :=
  Reference.qualifiedNames database (r.references script s)

/-- The summary of a statement. -/
def summary (database : Option String) (s : Statement) : StatementSummary :=
  { index := s.index
    kind := s.kind
    span := s.span
    engine := if s.kind = .session then none else some (r.find script s).1
    tables := TableSet.listing (r.names script database s) }

/-- The references of a statement are those that the scan finds, or those that a parser names. -/
theorem references_cases (s : Statement) :
    r.references script s = [] ∨ r.references script s = s.scan.references ∨
      ∃ names, r.references script s = (s.parsed names).references := by
  unfold references find
  split
  · exact Or.inl rfl
  · refine Or.inr ?_
    cases r.engine with
    | scan => exact Or.inl rfl
    | parser =>
        cases Id.run (r.parser (s.text script) r.dialect) with
        | tables names => exact Or.inr ⟨names, rfl⟩
        | notModelled => exact Or.inl rfl
        | failed cause => exact Or.inl rfl

/-- A statement is reported with the database in force before it. -/
theorem step_eq (p : Progress) (s : Statement) :
    Id.run (Extraction.step r.engine r.parser r.dialect script p s) =
      { database := s.switched?.or p.database
        tables := (r.names script p.database s).foldl .insert p.tables
        statements := p.statements ++ [r.summary script p.database s]
        references := p.references ++ r.references script s
        diagnostics := p.diagnostics ++ r.diagnostics script s } := by
  unfold Extraction.step names summary names references diagnostics switched?
  by_cases hkind : s.kind = .session
  · have hnone : Reference.qualifiedNames p.database [] = [] := rfl
    simp only [if_pos hkind, List.append_nil, hnone, TableSet.listing_nil, Progress.addSession,
      sessionDiagnostic]
    cases s.usedDatabase? with
    | none => rfl
    | some d => rfl
  · simp only [if_neg hkind, TableSet.listing]
    rw [← TableSet.insertSources_eq, ← TableSet.insertSources_eq, find]
    cases r.engine with
    | scan => rfl
    | parser => rfl

/-- What a run over some statements adds to a report. -/
theorem steps_eq (p : Progress) (ss : List Statement) :
    Id.run (Extraction.steps r.engine r.parser r.dialect script p ss) =
      { database := inForce p.database ss
        tables := (collect (r.names script) p.database ss).foldl .insert p.tables
        statements := p.statements ++
          collect (fun database s => [r.summary script database s]) p.database ss
        references := p.references ++ ss.flatMap (r.references script)
        diagnostics := p.diagnostics ++ ss.flatMap (r.diagnostics script) } := by
  induction ss generalizing p with
  | nil => simp [Extraction.steps, inForce, collect]
  | cons s ss ih =>
      change Id.run (Extraction.steps r.engine r.parser r.dialect script
        (Id.run (Extraction.step r.engine r.parser r.dialect script p s)) ss) = _
      rw [step_eq, ih]
      simp only [inForce_cons, collect, List.foldl_append, List.append_assoc, List.flatMap_cons]

theorem run_eq :
    r.run script =
      { script
        tables := TableSet.listing (collect (r.names script) none (ofScript script))
        statements :=
          collect (fun database s => [r.summary script database s]) none (ofScript script)
        references := (ofScript script).flatMap (r.references script)
        diagnostics := (Token.scan script).filterMap Diagnostic.unterminated? ++
          (ofScript script).flatMap (r.diagnostics script) } :=
  congrArg (Extraction.ofProgress script)
    (steps_eq r script (.start (Token.scan script)) (ofScript script))

theorem script_run : (r.run script).script = script :=
  congrArg Extraction.script (run_eq r script)

theorem statements_run :
    (r.run script).statements =
      collect (fun database s => [r.summary script database s]) none (ofScript script) :=
  congrArg Extraction.statements (run_eq r script)

theorem length_statements :
    (r.run script).statements.length = (ofScript script).length := by
  rw [statements_run]
  exact length_collect _ _ _

theorem references_run :
    (r.run script).references = (ofScript script).flatMap (r.references script) :=
  congrArg Extraction.references (run_eq r script)

theorem tables_run :
    (r.run script).tables =
      TableSet.listing (collect (r.names script) none (ofScript script)) :=
  congrArg Extraction.tables (run_eq r script)

theorem diagnostics_run :
    (r.run script).diagnostics = (Token.scan script).filterMap Diagnostic.unterminated? ++
      (ofScript script).flatMap (r.diagnostics script) :=
  congrArg Extraction.diagnostics (run_eq r script)

end Reader

end SqlTables
