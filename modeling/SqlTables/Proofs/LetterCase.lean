import SqlTables.Proofs.Join
import SqlTables.Proofs.Run
import SqlTables.Proofs.Token.LetterCase

/-!
# Scripts in another case

What the scan reports of a script in lower case is what it reports of the script, with the
names in lower case (`Reader.statements_toLower`, `references_toLower` and `tables_toLower`).
So two scripts that differ in the case of letters from `A` to `Z` only have reports that
differ in the case of names only (`Extraction.sameButCase_run`).
-/

namespace SqlTables

open Unicode

/-- The statement in lower case. -/
def Statement.toLower (s : Statement) : Statement :=
  { s with tokens := s.tokens.map Token.toLower }

/-- The summary with the tables in lower case. -/
def StatementSummary.toLower (s : StatementSummary) : StatementSummary :=
  { s with tables := s.tables.map String.toLower }

/-- The summary with its tables folded. -/
def StatementSummary.fold (s : StatementSummary) : StatementSummary :=
  { s with tables := s.tables.map Unicode.fold }

/-- The reference with its name folded. -/
def Reference.fold (r : Reference) : Reference := { r with parts := r.parts.map Unicode.fold }

/-- The reports differ in the case of names only. -/
structure Extraction.SameButCase (e e' : Extraction) : Prop where
  statements : e'.statements.map StatementSummary.fold = e.statements.map StatementSummary.fold
  references : e'.references.map Reference.fold = e.references.map Reference.fold
  tables : e'.tables.map Unicode.fold = e.tables.map Unicode.fold

/-! ## Statements -/

theorem StatementSummary.fold_toLower (s : StatementSummary) : s.toLower.fold = s.fold := by
  rw [fold, fold, toLower, List.map_map]
  simp only [Function.comp_def, Unicode.fold_toLower]

namespace Statement

variable {s : Statement} {script : String}

theorem ofScript_toLower (script : String) :
    ofScript script.toLower = (ofScript script).map toLower := by
  have hmark (t : Token) : t.toLower.isMark ';' = t.isMark ';' := rfl
  have hempty : (fun g : List Token => !g.isEmpty) ∘ List.map Token.toLower =
      fun g => !g.isEmpty := by
    funext g
    cases g <;> rfl
  have hsignificant := Token.scanSignificant_toLower script
  rw [Token.scanSignificant] at hsignificant
  rw [ofScript, ofTokens, hsignificant, groups_map hmark, List.filter_map, hempty]
  exact number_map Token.toLower 0 0 _

theorem recased_toLower (hs : s ∈ ofScript script) : s.Recased .toLower s.toLower := by
  refine ⟨rfl, ?_⟩
  rw [toLower, List.forall₂_map_right_iff, List.forall₂_same]
  exact fun t ht => Token.recased_toLower ((sublist_scan hs).subset ht)

theorem span_toLower (s : Statement) : s.toLower.span = s.span := by
  simp only [span, toLower, List.head?_map, List.getLast?_map]
  cases s.tokens.head? with
  | none => rfl
  | some first =>
      cases s.tokens.getLast? with
      | none => rfl
      | some last =>
          simp only [Option.map_some, Token.stop_toLower]
          rfl

theorem switched?_toLower (hs : s ∈ ofScript script) :
    s.toLower.switched? = s.switched?.map String.toLower := by
  have hrecased := recased_toLower hs
  rw [switched?, switched?, kind_recased hrecased, usedDatabase?_recased hrecased]
  split
  · rfl
  · rfl

end Statement

/-! ## Names -/

namespace Reference

theorem name_change (r : Reference) : (r.change .toLower).name = r.name.toLower := by
  have hdot : ".".toLower = "." := toLower_eq_self (by decide)
  rw [name, name, toLower_intercalate, hdot]
  rfl

theorem qualifiedName_change (r : Reference) (database : Option String) :
    (r.change .toLower).qualifiedName (database.map String.toLower) =
      (r.qualifiedName database).toLower := by
  have hqualified : (r.change .toLower).isQualified = r.isQualified := by
    rw [isQualified, isQualified, change, List.length_map]
  have hdot : r.name.toLower.toList.contains '.' = r.name.toList.contains '.' := by
    rw [toList_toLower, Bool.eq_iff_iff, List.contains_iff_mem, List.contains_iff_mem]
    exact Lexer.mem_toLower (by decide) _
  have hseparator : ".".toLower = "." := toLower_eq_self (by decide)
  cases database with
  | none => exact r.name_change
  | some d =>
      simp only [qualifiedName, Option.map_some, name_change, hqualified, hdot, ne_eq,
        toLower_eq_empty_iff]
      split
      · rw [toLower_append, toLower_append, hseparator]
      · rfl

theorem qualifiedNames_change (rs : List Reference) (database : Option String) :
    qualifiedNames (database.map String.toLower) (rs.map (Reference.change .toLower)) =
      (qualifiedNames database rs).map String.toLower := by
  rw [qualifiedNames, qualifiedNames, List.filter_map, List.map_map, List.map_map]
  exact List.map_congr_left fun r _ => r.qualifiedName_change database

theorem fold_change (r : Reference) : (r.change .toLower).fold = r.fold := by
  rw [fold, fold, change, List.map_map]
  simp only [Function.comp_def, Change.toLower, fold_toLower]
  rfl

end Reference

/-! ## Reports -/

namespace Reader

open Statement

variable {r : Reader} {s : Statement} {script : String}

theorem find_toLower (hr : r.engine = .scan) (hs : s ∈ ofScript script) :
    (r.find script.toLower s.toLower).1 = (r.find script s).1 ∧
      (r.find script.toLower s.toLower).2.references =
        (r.find script s).2.references.map (Reference.change .toLower) := by
  simp only [find, hr]
  exact ⟨trivial, scan_recased (recased_toLower hs)⟩

theorem references_statement_toLower (hr : r.engine = .scan) (hs : s ∈ ofScript script) :
    r.references script.toLower s.toLower =
      (r.references script s).map (Reference.change .toLower) := by
  rw [references, references, kind_recased (recased_toLower hs)]
  split
  · rfl
  · exact (find_toLower hr hs).2

theorem names_toLower (hr : r.engine = .scan) (hs : s ∈ ofScript script)
    (database : Option String) :
    r.names script.toLower (database.map String.toLower) s.toLower =
      (r.names script database s).map String.toLower := by
  rw [names, names, references_statement_toLower hr hs, Reference.qualifiedNames_change]

theorem summary_toLower (hr : r.engine = .scan) (hs : s ∈ ofScript script)
    (database : Option String) :
    r.summary script.toLower (database.map String.toLower) s.toLower =
      (r.summary script database s).toLower := by
  simp only [summary, StatementSummary.toLower, names_toLower hr hs,
    TableSet.listing_map fold_toLower, kind_recased (recased_toLower hs), span_toLower,
    (find_toLower hr hs).1]
  rfl

theorem statements_toLower (hr : r.engine = .scan) (script : String) :
    (r.run script.toLower).statements =
      (r.run script).statements.map StatementSummary.toLower := by
  have hsummary : ∀ s ∈ ofScript script, ∀ database : Option String,
      [r.summary script.toLower (database.map String.toLower) s.toLower] =
        [r.summary script database s].map StatementSummary.toLower := fun s hs database => by
    rw [summary_toLower hr hs, List.map_singleton]
  rw [statements_run, statements_run, ofScript_toLower]
  exact collect_rename hsummary (fun s hs => switched?_toLower hs) none

theorem references_toLower (hr : r.engine = .scan) (script : String) :
    (r.run script.toLower).references =
      (r.run script).references.map (Reference.change .toLower) := by
  rw [references_run, references_run, ofScript_toLower, List.flatMap_map, List.map_flatMap]
  exact List.flatMap_congr fun s hs => references_statement_toLower hr hs

theorem tables_toLower (hr : r.engine = .scan) (script : String) :
    (r.run script.toLower).tables = (r.run script).tables.map String.toLower := by
  have hnames : collect (r.names script.toLower) none ((ofScript script).map toLower) =
      (collect (r.names script) none (ofScript script)).map String.toLower :=
    collect_rename (fun s hs database => names_toLower hr hs database)
      (fun s hs => switched?_toLower hs) none
  rw [tables_run, tables_run, ofScript_toLower, ← TableSet.listing_map fold_toLower, hnames]

end Reader

namespace Extraction

/-- A script and the same script in lower case have reports that differ in the case of names
only. -/
theorem sameButCase_toLower (parser : Parser Id) (dialect : Option String) (script : String) :
    SameButCase ((Reader.mk .scan parser dialect).run script)
      ((Reader.mk .scan parser dialect).run script.toLower) where
  statements := by
    rw [Reader.statements_toLower rfl, List.map_map]
    exact List.map_congr_left fun s _ => s.fold_toLower
  references := by
    rw [Reader.references_toLower rfl, List.map_map]
    exact List.map_congr_left fun r _ => r.fold_change
  tables := by
    rw [Reader.tables_toLower rfl, List.map_map]
    exact List.map_congr_left fun name _ => fold_toLower name

/-- Scripts that differ in the case of letters from `A` to `Z` only have reports that differ in
the case of names only. -/
theorem sameButCase_run (parser : Parser Id) (dialect : Option String) {a b : String}
    (h : a.toLower = b.toLower) :
    SameButCase ((Reader.mk .scan parser dialect).run a)
      ((Reader.mk .scan parser dialect).run b) := by
  have ha := sameButCase_toLower parser dialect a
  have hb := sameButCase_toLower parser dialect b
  rw [h] at ha
  exact ⟨hb.statements.symm.trans ha.statements, hb.references.symm.trans ha.references,
    hb.tables.symm.trans ha.tables⟩

/-- The alias is an alias in either case, and the table is listed in its own. -/
theorem sameButCase_run_alias :
    let a := "SELECT * FROM \"Db\".Orders o JOIN O"
    let b := "select * from \"dB\".orders O join o"
    a.toLower = b.toLower ∧ (Reader.scan.run a).tables = ["Db.Orders"] ∧
      SameButCase (Reader.scan.run a) (Reader.scan.run b) := by
  intro a b
  have h : a.toLower = b.toLower := by
    rw [← String.toList_inj, toList_toLower, toList_toLower]
    decide
  exact ⟨h, by decide +kernel, sameButCase_run noParser none h⟩

end Extraction

end SqlTables
