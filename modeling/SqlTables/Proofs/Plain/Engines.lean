import SqlTables.Grammar
import SqlTables.Proofs.Found
import SqlTables.Proofs.Plain.Reading

/-!
# Plain statements and the parser

For a plain statement the scan and the parser give the same tables, up to case
(`PlainStatement.engines_agree`), provided that the tree of the parser lists the names
that the statement has in table positions and knows its common table expressions
(`PlainStatement.IsListed`). What the parser itself adds is the removal of the common
table expressions: it drops their names wherever they stand, while the scan drops them
where they are bound, and in a plain statement this is the same.
-/

namespace SqlTables

namespace Grammar

namespace Tree

/-- The tables that the queries of a statement see, and those that it writes to. -/
def listed (t : Tree) : List TableName :=
  ((t.mentions (.whole .apart)).filterMap fun
    | .table n => some n
    | _ => none) ++ t.targets

/-- The common table expressions of the queries of a statement, in lower case. -/
def cteNames (t : Tree) : List String :=
  (t.mentions (.whole .apart)).filterMap fun
    | .cte name => some (Unicode.lower name)
    | _ => none

theorem mem_names {t : Tree} (h : .query ∈ t.mentions (.whole .apart)) {parts : List String} :
    parts ∈ t.names ↔ ∃ n ∈ t.listed, n.isCte t.cteNames = false ∧ n.parts = parts := by
  have hnames : t.names = TableName.sorted t.cteNames t.listed := by
    rw [names, if_pos (List.contains_iff_mem.mpr h)]
    rfl
  rw [hnames, TableName.sorted, List.mem_mergeSort, List.mem_eraseDups]
  simp only [List.mem_map, List.mem_filter, Bool.not_eq_true', and_assoc]

end Tree

end Grammar

namespace TableName

/-- The name as the parser gives it. -/
def parsed (n : TableName) : Grammar.TableName :=
  match n.read.parts with
  | [table] => { table := table }
  | [database, table] => { database := database, table := table }
  | [catalog, database, table] => { catalog := catalog, database := database, table := table }
  | _ => {}

variable {n : TableName}

/-- Of a name with up to three parts, all of them non-empty, the parser keeps all parts, and
takes it for a common table expression if it is one. -/
theorem IsWritten.parsed_eq (h : n.IsWritten) (ctes : List String) :
    n.parsed.parts = n.read.parts ∧ n.parsed.isCte ctes = n.isUse ctes := by
  obtain ⟨hlength, hparts⟩ := h
  rcases hn : n.parts with _ | ⟨p, _ | ⟨q, _ | ⟨r, more⟩⟩⟩
  · simp_all [TableName.parsed, TableName.read, Grammar.TableName.parts, Grammar.TableName.isCte,
      isUse, DottedName.single?]
  · simp_all [TableName.parsed, TableName.read, Grammar.TableName.parts, Grammar.TableName.isCte,
      isUse, DottedName.single?]
  · simp_all [TableName.parsed, TableName.read, Grammar.TableName.parts, Grammar.TableName.isCte,
      isUse, DottedName.single?]
  · rw [hn] at hlength
    simp at hlength

end TableName

namespace TableSet

variable {T : TableSet} {name x : String}

theorem mem_map_fold_insert :
    x ∈ (T.insert name).toList.map Unicode.fold ↔
      x ∈ T.toList.map Unicode.fold ∨ x = Unicode.fold name := by
  rw [toList_insert]
  split
  · next h =>
      obtain ⟨other, hother, hfold⟩ := List.any_eq_true.mp h
      refine ⟨Or.inl, fun hx => hx.elim id ?_⟩
      rintro rfl
      exact List.mem_map.mpr ⟨other, hother, eq_of_beq hfold⟩
  · rw [List.map_append, List.mem_append, List.map_singleton, List.mem_singleton]

/-- Without a database in force, the tables are the names of the sources, up to case. -/
theorem mem_map_fold_insertSources (T : TableSet) (references : List Reference) :
    x ∈ (T.insertSources none references).toList.map Unicode.fold ↔
      x ∈ T.toList.map Unicode.fold ∨
        x ∈ (Reference.tableNames references).map Unicode.fold := by
  rw [insertSources, Reference.tableNames]
  induction references.filter Reference.isSource generalizing T with
  | nil => simp
  | cons r rs ih =>
      rw [List.foldl_cons, ih, mem_map_fold_insert, List.map_cons, List.map_cons, List.mem_cons,
        or_assoc]
      rfl

end TableSet

namespace Statement

theorem tableNames_parsed (s : Statement) (names : List (List String)) :
    Reference.tableNames (s.parsed names).references = names.map ".".intercalate := by
  rw [parsed, Reference.tableNames, List.filter_eq_self.mpr (by simp [Reference.isSource,
    Role.isSource]), List.map_map]
  rfl

end Statement

open Plain in
theorem Plain.Phrase.isWritten {ctes : List String} {depth : Nat} {part : Part}
    {visible : List String} {xs : List Token} {ms : List Mention}
    (h : Phrase ctes depth part visible xs ms) : ∀ n ∈ tables ms, n.IsWritten := by
  have happend {ms ns : List Mention} (h : ∀ n ∈ tables ms, n.IsWritten)
      (h' : ∀ n ∈ tables ns, n.IsWritten) : ∀ n ∈ tables (ms ++ ns), n.IsWritten := by
    rw [tables, List.filterMap_append, List.forall_mem_append]
    exact ⟨h, h'⟩
  have hnone {ms : List Mention} (h : tables ms = []) : ∀ n ∈ tables ms, n.IsWritten := by
    rw [h]
    exact List.forall_mem_nil _
  induction h with
  | empty | unjoined | unfiltered | bare | done => exact hnone rfl
  | operand _ _ ih | distinct _ _ _ _ ih | one _ ih | source _ ih | filter _ _ ih
  | branch _ _ _ ih | plain _ ih | «with» _ _ _ ih => exact ih
  | parens _ _ _ _ _ ih ih' | subquery _ _ _ _ ih ih' | more _ _ _ ih ih'
  | comma _ _ _ ih ih' => exact happend ih ih'
  | join _ _ _ _ _ ih ih' ih'' | clauses _ _ _ _ ih ih' ih''
  | select _ _ _ _ ih ih' ih'' => exact happend (happend ih ih') ih''
  | definition _ _ _ _ _ _ _ ih ih' | lastDefinition _ _ _ _ _ _ ih ih' =>
      exact happend ih ih'
  | derived _ _ _ a ih => exact happend ih (hnone rfl)
  | table r hwritten hvisible =>
      have halias : tables (aliasMention r) = [] := by
        rw [aliasMention]
        cases r.alias <;> rfl
      exact List.forall_mem_cons.mpr ⟨hwritten, hnone halias⟩

namespace PlainStatement

/-- The tree of the parser lists the names that the statement has in table positions: all
tables, and possibly uses of common table expressions, which it knows. -/
structure IsListed (p : PlainStatement) (t : Grammar.Tree) : Prop where
  query : .query ∈ t.mentions (.whole .apart)
  listed : ∀ n ∈ t.listed, n ∈ p.tables.map TableName.parsed
  lists : ∀ n ∈ p.sources, n.parsed ∈ t.listed
  ctes : ∀ name, name ∈ t.cteNames ↔ name ∈ p.ctes

variable {p : PlainStatement} {t : Grammar.Tree}

theorem isWritten_tables (p : PlainStatement) : ∀ n ∈ p.tables, n.IsWritten := by
  rw [tables, List.forall_mem_append]
  exact ⟨fun n hn => p.isWritten n (Option.mem_toList.mp hn), p.isQuery.isWritten⟩

theorem mem_sources {n : TableName} :
    n ∈ p.sources ↔ n ∈ p.tables ∧ n.isUse p.ctes = false := by
  rw [sources, tables, Plain.sources, List.mem_append, List.mem_append, List.mem_filter,
    Bool.not_eq_true']
  constructor
  · rintro (h | h)
    · exact ⟨Or.inl h, Bool.eq_false_iff.mpr (p.isTarget n (Option.mem_toList.mp h))⟩
    · exact ⟨Or.inr h.1, h.2⟩
  · rintro ⟨h | h, hnot⟩
    · exact Or.inl h
    · exact Or.inr ⟨h, hnot⟩

/-- The parser gives the tables of the statement. -/
theorem IsListed.mem_names (h : p.IsListed t) {parts : List String} :
    parts ∈ t.names ↔ ∃ n ∈ p.sources, n.read.parts = parts := by
  have hctes (n : TableName) : n.isUse t.cteNames = n.isUse p.ctes := by
    have hcontains (name : String) : t.cteNames.contains name = p.ctes.contains name := by
      rw [Bool.eq_iff_iff, List.contains_iff_mem, List.contains_iff_mem]
      exact h.ctes name
    simp only [TableName.isUse, hcontains]
  rw [Grammar.Tree.mem_names h.query]
  constructor
  · rintro ⟨n, hn, hcte, rfl⟩
    obtain ⟨m, hm, rfl⟩ := List.mem_map.mp (h.listed n hn)
    obtain ⟨hparts, huse⟩ := (p.isWritten_tables m hm).parsed_eq t.cteNames
    rw [huse, hctes] at hcte
    exact ⟨m, mem_sources.mpr ⟨hm, hcte⟩, hparts.symm⟩
  · rintro ⟨m, hm, rfl⟩
    obtain ⟨hmem, hnot⟩ := mem_sources.mp hm
    obtain ⟨hparts, huse⟩ := (p.isWritten_tables m hmem).parsed_eq t.cteNames
    exact ⟨m.parsed, h.lists m hm, by rw [huse, hctes, hnot], hparts⟩

end PlainStatement

namespace Extraction

variable {m : Type → Type} [Monad m] [LawfulMonad m]

/-- The extraction from a script of one statement. -/
theorem run_singleton {script : String} {s : Statement} (hs : Statement.ofScript script = [s])
    (engine : Engine) (parser : Parser m) (dialect : Option String) :
    run engine parser dialect script =
      ofProgress script <$> step engine parser dialect script (.start (Token.scan script)) s := by
  rw [Statement.ofScript] at hs
  simp only [run, hs, steps, bind_pure, bind_pure_comp]

theorem mem_map_fold_tables {tokens : List Token} {s : Statement} {engine : Engine}
    {found : Findings} {script name : String} :
    name ∈ (ofProgress script ((Progress.start tokens).add s engine found)).tables.map
        Unicode.fold ↔
      name ∈ (Reference.tableNames found.references).map Unicode.fold := by
  have hmem := TableSet.mem_map_fold_insertSources (x := name) .empty found.references
  simp only [TableSet.toList_empty, List.map_nil, List.not_mem_nil, false_or] at hmem
  rw [← hmem, ofProgress, TableSet.sorted, List.mem_map, List.mem_map]
  simp only [List.mem_mergeSort]
  rfl

end Extraction

namespace PlainStatement

open Extraction

variable {p : PlainStatement} {t : Grammar.Tree}

/-- For a plain statement that is parsed, the two engines give the same tables, up to case. -/
theorem engines_agree {m : Type → Type} [Monad m] [LawfulMonad m] (parser : Parser m)
    (dialect : Option String) (script : String) {s : Statement}
    (hscript : Statement.ofScript script = [s]) (htokens : s.tokens = p.tokens)
    (hparse : parser (s.text script) dialect = pure (.tables t.names)) (hlisted : p.IsListed t) :
    ∃ scanned parsed : Extraction,
      run .scan parser dialect script = pure scanned ∧
        run .parser parser dialect script = pure parsed ∧
        ∀ name, name ∈ scanned.tables.map Unicode.fold ↔
          name ∈ parsed.tables.map Unicode.fold := by
  rw [run_singleton hscript, run_singleton hscript]
  unfold step
  by_cases hkind : s.kind = .session
  · rw [if_pos hkind, if_pos hkind, map_pure]
    exact ⟨_, _, rfl, rfl, fun _ => Iff.rfl⟩
  · rw [if_neg hkind, if_neg hkind]
    simp only [hparse, pure_bind, map_pure, Statement.ofParse]
    refine ⟨_, _, rfl, rfl, fun name => ?_⟩
    have hscan : Reference.tableNames s.scan.references = p.sources.map (·.read.text) := by
      rw [← p.tableNames_tokens, ← htokens]
      exact s.tableNames_eq
    rw [mem_map_fold_tables, mem_map_fold_tables, hscan, Statement.tableNames_parsed]
    simp only [List.mem_map, hlisted.mem_names, exists_exists_and_eq_and]
    exact Iff.rfl

/-- `WITH c AS (SELECT * FROM a) SELECT * FROM c x, b`. -/
def withAlias : PlainStatement where
  heading := []
  target := none
  query :=
    [⟨.keyword .WITH, "WITH", 0⟩, ⟨.identifier, "c", 5⟩, ⟨.keyword .AS, "AS", 7⟩,
      ⟨.punctuation '(', "(", 10⟩, ⟨.keyword .SELECT, "SELECT", 11⟩, ⟨.punctuation '*', "*", 18⟩,
      ⟨.keyword .FROM, "FROM", 20⟩, ⟨.identifier, "a", 25⟩, ⟨.punctuation ')', ")", 26⟩,
      ⟨.keyword .SELECT, "SELECT", 28⟩, ⟨.punctuation '*', "*", 35⟩, ⟨.keyword .FROM, "FROM", 37⟩,
      ⟨.identifier, "c", 42⟩, ⟨.identifier, "x", 44⟩, ⟨.punctuation ',', ",", 45⟩,
      ⟨.identifier, "b", 47⟩]
  mentions :=
    [.cte ⟨.identifier, "c", 5⟩, .table (AliasedTable.bare ⟨.identifier, "a", 25⟩ rfl).name,
      .table (AliasedTable.bare ⟨.identifier, "c", 42⟩ rfl).name,
      .aliased ⟨.identifier, "x", 44⟩,
      .table (AliasedTable.bare ⟨.identifier, "b", 47⟩ rfl).name]
  isHeading := .none
  isQuery := by
    have hword (word : Keyword) (text : String) (offset : Nat) :
        Token.isKeyword ⟨.keyword word, text, offset⟩ word := beq_self_eq_true _
    have hmark (c : Char) (text : String) (offset : Nat) :
        Token.isMark ⟨.punctuation c, text, offset⟩ c := beq_self_eq_true _
    have hrecursive : ∀ t ∈ (none : Option Token), t.isKeyword .RECURSIVE := by simp
    have hlist (visible : List String) (depth offset : Nat) :
        Plain.Phrase [Unicode.lower "c"] depth .list visible [⟨.punctuation '*', "*", offset⟩] [] :=
      .one (.operand rfl .empty)
    have hbody := Plain.Phrase.select (hword .SELECT "SELECT" 11)
      (hlist (Plain.define ⟨.identifier, "c", 5⟩ []) 97 18)
      (.clauses (hword .FROM "FROM" 20)
        (.source (.table (.bare ⟨.identifier, "a", 25⟩ rfl) (by decide) (by decide +kernel)))
        .unjoined .unfiltered) .done
    have hmain := Plain.Phrase.select (hword .SELECT "SELECT" 28)
      (hlist (Plain.define ⟨.identifier, "c", 5⟩ []) 98 35)
      (.clauses (hword .FROM "FROM" 37)
        (.comma
          (.table ⟨(AliasedTable.bare ⟨.identifier, "c", 42⟩ rfl).name,
            some ⟨none, ⟨.identifier, "x", 44⟩, by simp, rfl⟩⟩ (by decide) (by decide +kernel))
          (hmark ',' "," 45)
          (.source (.table (.bare ⟨.identifier, "b", 47⟩ rfl) (by decide) (by decide +kernel))))
        .unjoined .unfiltered) .done
    exact .with (hword .WITH "WITH" 0) hrecursive (.lastDefinition rfl (hword .AS "AS" 7)
      (hmark '(' "(" 10) (hmark ')' ")" 26) (.plain hbody) hmain)
  aliases := by decide +kernel
  isWritten := by simp
  isTarget := by simp

/-- The tree of `WITH c AS (SELECT * FROM a) SELECT * FROM c x, b`. -/
def withAliasTree : Grammar.Tree :=
  let selected (name : String) : List Grammar.Tree :=
    [.node .expression [], .node .source [.node (.table { table := name }) []]]
  .node .select (selected "c" ++
    [.node .join [.node (.table { table := "b" }) []],
      .node .ctes [.node (.cte "c") [.node .select (selected "a")]]])

/-- The common table expression `c` is dropped by the scan, since it is bound, and by the
parser, since it has its name. -/
theorem engines_agree_with :
    Statement.ofScript "WITH c AS (SELECT * FROM a) SELECT * FROM c x, b" =
        [⟨0, withAlias.tokens⟩] ∧
      withAlias.IsListed withAliasTree ∧
      (∃ scanned parsed : Extraction,
        run .scan (m := Id) (fun _ _ => .tables withAliasTree.names) none
            "WITH c AS (SELECT * FROM a) SELECT * FROM c x, b" = pure scanned ∧
          run .parser (m := Id) (fun _ _ => .tables withAliasTree.names) none
            "WITH c AS (SELECT * FROM a) SELECT * FROM c x, b" = pure parsed ∧
          ∀ name, name ∈ scanned.tables.map Unicode.fold ↔
            name ∈ parsed.tables.map Unicode.fold) ∧
      (Statement.mk 0 withAlias.tokens).scan.sources.map Reference.name = ["a", "b"] := by
  have hscript : Statement.ofScript "WITH c AS (SELECT * FROM a) SELECT * FROM c x, b" =
      [⟨0, withAlias.tokens⟩] := by decide +kernel
  have hctes : withAliasTree.cteNames = withAlias.ctes := by decide +kernel
  have hlisted : withAlias.IsListed withAliasTree :=
    ⟨by decide +kernel, by decide +kernel, by decide +kernel, fun name => by rw [hctes]⟩
  exact ⟨hscript, hlisted, engines_agree _ none _ hscript rfl rfl hlisted, by decide +kernel⟩

end PlainStatement

end SqlTables
