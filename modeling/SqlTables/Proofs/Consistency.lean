import Mathlib.Data.Prod.Lex
import SqlTables.Proofs.CurrentDatabase
import SqlTables.Proofs.Quotation

/-!
# The parts of a report agree

The tables of a script are put together from its references while the database changes from one
statement to the next, and the tables of each statement once more from its own. Either way they
are the names of the sources, each in the database in force before its statement, and each
table is spelled as its first source (`Reader.isConsistent_run`).
-/

namespace SqlTables

namespace Extraction

/-- The names of the sources, each in the database in force before its statement. -/
def sourceNames (e : Extraction) : List String :=
  (e.references.filter Reference.isSource).map fun x =>
    x.qualifiedName (Statement.inForce none ((Statement.ofScript e.script).take x.statement))

/-- The tables of the script, those of its statements and the references are about the same
names. -/
structure IsConsistent (e : Extraction) : Prop where
  inOrder : e.references.Pairwise fun x y => x.span.start ≤ y.span.start
  increasing : e.tables.Pairwise fun a b => toLex (Unicode.fold a, a) < toLex (Unicode.fold b, b)
  distinct : e.tables.Pairwise fun a b => Unicode.fold a ≠ Unicode.fold b
  statements : ∀ key, key ∈ e.tables.map Unicode.fold ↔
    ∃ s ∈ e.statements, key ∈ s.tables.map Unicode.fold
  sources : ∀ key, key ∈ e.tables.map Unicode.fold ↔ key ∈ e.sourceNames.map Unicode.fold
  /-- Of the names of a table in all its spellings the first one is listed. -/
  spelling : ∀ name ∈ e.tables,
    e.sourceNames.find? (fun n => Unicode.fold n == Unicode.fold name) = some name

end Extraction

namespace Statement

variable {α : Type} {script : String}

/-- What is made of a statement is made with the database in force before it. -/
theorem mem_collect_iff {f : Option String → Statement → List α} {x : α}
    {database : Option String} {ss : List Statement} :
    x ∈ collect f database ss ↔
      ∃ before s after, ss = before ++ s :: after ∧ x ∈ f (inForce database before) s := by
  induction ss generalizing database with
  | nil => simp [collect]
  | cons s ss ih =>
      rw [collect, List.mem_append, ih]
      constructor
      · rintro (hx | ⟨before, s', after, rfl, hx⟩)
        · exact ⟨[], s, ss, rfl, hx⟩
        · exact ⟨s :: before, s', after, rfl, hx⟩
      · rintro ⟨_ | ⟨s', before⟩, s'', after, heq, hx⟩
        · obtain ⟨rfl, rfl⟩ := List.cons.inj heq
          exact Or.inl hx
        · obtain ⟨rfl, rfl⟩ := List.cons.inj heq
          exact Or.inr ⟨before, s'', after, rfl, hx⟩

/-- The statements before one of those that are numbered behind others are as many as its number
says. -/
theorem collect_number (f : Option String → Statement → List α) (database : Option String)
    (gs : List (List Token)) (before : List Statement) :
    collect f (inForce database before) (number before.length gs) =
      (number before.length gs).flatMap fun s =>
        f (inForce database ((before ++ number before.length gs).take s.index)) s := by
  induction gs generalizing before with
  | nil => rfl
  | cons g gs ih =>
      have hnext := ih (before ++ [⟨before.length, g⟩])
      rw [inForce_append_singleton, List.length_append, List.length_singleton,
        List.append_assoc, List.singleton_append] at hnext
      rw [number, collect, hnext, List.flatMap_cons, List.take_left]

theorem collect_ofScript (f : Option String → Statement → List α) (script : String) :
    collect f none (ofScript script) = (ofScript script).flatMap fun s =>
      f (inForce none ((ofScript script).take s.index)) s :=
  collect_number f none _ []

/-- The tokens of the statements are tokens of the script, in their order. -/
theorem flatMap_tokens_sublist (script : String) :
    ((ofScript script).flatMap tokens).Sublist (Token.scan script) := by
  rw [flatMap_tokens_ofScript]
  exact List.filter_sublist

end Statement

namespace Reader

open Statement

variable {r : Reader} {s : Statement} {script : String}

theorem sourceNames_run (r : Reader) (script : String) :
    (r.run script).sourceNames = collect (r.names script) none (ofScript script) := by
  rw [Extraction.sourceNames, script_run, references_run, List.filter_flatMap, List.map_flatMap,
    collect_ofScript]
  refine List.flatMap_congr fun s _ => List.map_congr_left fun x hx => ?_
  rw [statement_of_mem_references (List.mem_filter.mp hx).1]

/-- The tables depend on the references only. -/
theorem tables_congr {r r' : Reader}
    (h : (r.run script).references = (r'.run script).references) :
    (r.run script).tables = (r'.run script).tables := by
  have hnames : (r.run script).sourceNames = (r'.run script).sourceNames := by
    rw [Extraction.sourceNames, Extraction.sourceNames, script_run, script_run, h]
  rw [tables_run, tables_run, ← sourceNames_run, ← sourceNames_run, hnames]

/-- A reference begins with a token of its statement. -/
theorem exists_start_of_mem_references (hs : s ∈ ofScript script) {x : Reference}
    (hx : x ∈ r.references script s) : ∃ t ∈ s.tokens, x.span.start = t.offset := by
  rcases references_cases r script s with hnone | hscan | ⟨names, hparsed⟩
  · rw [hnone] at hx
    cases hx
  · rw [hscan] at hx
    obtain ⟨x', hx', rfl⟩ := List.mem_map.mp hx
    obtain ⟨xs, run, ys, htokens, hspelled⟩ :=
      (Scan.tiles_find Scan.depthLimit s.tokens).exists_run hx'
    obtain ⟨⟨t, ht, hstart⟩, -⟩ := hspelled.isOver
    refine ⟨t, ?_, hstart⟩
    rw [htokens]
    simp [ht]
  · rw [hparsed] at hx
    obtain ⟨parts, -, rfl⟩ := List.mem_map.mp hx
    obtain ⟨t, ts, htokens⟩ := List.exists_cons_of_ne_nil (tokens_ne_nil hs)
    refine ⟨t, by rw [htokens]; exact List.mem_cons_self, ?_⟩
    simp only [span, htokens, List.head?_cons, List.getLast?_cons]

theorem pairwise_references (hs : s ∈ ofScript script) :
    (r.references script s).Pairwise fun x y => x.span.start ≤ y.span.start := by
  rcases references_cases r script s with hnone | hscan | ⟨names, hparsed⟩
  · rw [hnone]
    exact List.Pairwise.nil
  · obtain ⟨hpairwise, hinside⟩ := references_quote hs
    rw [hscan]
    refine hpairwise.imp_of_mem fun hx _ hle => ?_
    exact (hinside _ hx).2.1.le.trans hle
  · rw [hparsed]
    exact List.pairwise_map.mpr (List.pairwise_of_forall fun _ _ => le_refl _)

theorem pairwise_references_run (r : Reader) (script : String) :
    (r.run script).references.Pairwise fun x y => x.span.start ≤ y.span.start := by
  have hordered := (Lexer.ordered_scanFrom script.toList 0 0).sublist
    (flatMap_tokens_sublist script)
  have htokens := (List.pairwise_flatMap.mp hordered.2).2
  rw [references_run, List.pairwise_flatMap]
  refine ⟨fun s hs => pairwise_references hs, htokens.imp_of_mem ?_⟩
  intro s s' hs hs' hle x hx y hy
  obtain ⟨t, ht, hxstart⟩ := exists_start_of_mem_references hs hx
  obtain ⟨u, hu, hystart⟩ := exists_start_of_mem_references hs' hy
  have hlt := hordered.1 t (List.mem_flatMap.mpr ⟨s, hs, ht⟩)
  have hstop := hle t ht u hu
  rw [hxstart, hystart]
  omega

/-- Of whatever is read by whatever engine, the parts of the report agree. -/
theorem isConsistent_run (r : Reader) (script : String) : (r.run script).IsConsistent := by
  have hnames := sourceNames_run r script
  have htables := tables_run r script
  constructor
  · exact pairwise_references_run r script
  · rw [htables]
    exact (TableSet.pairwise_listing _).imp fun h => Prod.Lex.toLex_lt_toLex.mpr (Or.inl h)
  · rw [htables]
    exact (TableSet.pairwise_listing _).imp fun h => h.ne
  · intro key
    rw [htables, TableSet.mem_fold_listing_iff, statements_run, List.mem_map]
    simp only [mem_collect_iff, List.mem_singleton]
    constructor
    · rintro ⟨name, ⟨before, s, after, hss, hname⟩, rfl⟩
      refine ⟨_, ⟨before, s, after, hss, rfl⟩, ?_⟩
      exact TableSet.mem_fold_listing_iff.mpr (List.mem_map_of_mem hname)
    · rintro ⟨_, ⟨before, s, after, hss, rfl⟩, hkey⟩
      obtain ⟨name, hname, rfl⟩ := List.mem_map.mp (TableSet.mem_fold_listing_iff.mp hkey)
      exact ⟨name, ⟨before, s, after, hss, hname⟩, rfl⟩
  · intro key
    rw [htables, hnames, TableSet.mem_fold_listing_iff]
  · intro name hname
    rw [htables] at hname
    rw [hnames]
    exact TableSet.mem_listing_iff.mp hname

/-- The second spelling of the table is not listed. -/
example :
    let e := Reader.scan.run "USE a; SELECT * FROM T, A.t"
    e.sourceNames = ["a.T", "A.t"] ∧ e.tables = ["a.T"] := by
  decide +kernel

end Reader

end SqlTables
