import SqlTables.Proofs.Composition
import SqlTables.Proofs.Token.Word

/-!
# The current database

A table of one part without a dot is reported in the database of the last statement
`USE [DATABASE|SCHEMA] x` before it. The run takes an identifier or a quoted identifier for `x`;
a keyword that is not reserved can name a table but switches no database, and an empty name
switches the database off. So the tables behind some statements are reported as their last `USE`
says exactly when that is the database in force (`Statement.reportsNamed_iff`), as it is if
every `USE` names an identifier (`Statement.agrees_of_isName`).
-/

namespace SqlTables

/-- The name of a table in a database: a name of one part that has no dot is qualified. -/
def Reference.nameIn (database : Option String) (r : Reference) : String :=
  match database with
  | some x => if r.parts.length ≤ 1 ∧ '.' ∉ r.name.toList then x ++ "." ++ r.name else r.name
  | none => r.name

namespace Extraction

/-- The names of the sources of statement `k` in a database. -/
def namesIn (e : Extraction) (k : Nat) (database : Option String) : List String :=
  (e.references.filter fun r => r.statement == k && r.isSource).map (Reference.nameIn database)

/-- The sources of statement `k` are reported in the database, for the statement and, up to case,
for the script. -/
structure ReportsIn (e : Extraction) (k : Nat) (database : Option String) : Prop where
  statement : e.statements[k]?.map StatementSummary.tables =
    some (TableSet.listing (e.namesIn k database))
  script : ∀ name ∈ e.namesIn k database, ∃ table ∈ e.tables,
    Unicode.fold table = Unicode.fold name

end Extraction

namespace Statement

/-- The database that a statement `USE [DATABASE|SCHEMA] x` names. Its name is not empty, and is
any that a table can have. -/
def named? (s : Statement) : Option String :=
  match s.tokens with
  | [use, name] =>
    if use.isKeyword .USE ∧ Scan.isCandidate name ∧ name.value ≠ "" then some name.value else none
  | [use, unit, name] =>
    if use.isKeyword .USE ∧ unit.kind = .identifier
        ∧ (unit.upper = "DATABASE" ∨ unit.upper = "SCHEMA")
        ∧ Scan.isCandidate name ∧ name.value ≠ "" then
      some name.value
    else none
  | _ => none

/-- The database that the last `USE` among the statements names. -/
def lastNamed? (ss : List Statement) : Option String := ss.reverse.findSome? named?

/-- The tables of the next statement but session commands are reported as the last `USE` says. -/
def ReportsNamed (ss : List Statement) : Prop :=
  ∀ (r : Reader) (script : String) (s : Statement) (rest : List Statement),
    ofScript script = ss ++ s :: rest → s.kind ≠ .session →
      Extraction.ReportsIn (r.run script) ss.length (lastNamed? ss)

/-- The database in force is the one that the last `USE` names. -/
def Agrees (ss : List Statement) : Prop :=
  (inForce none ss).filter (fun x => x ≠ "") = lastNamed? ss

instance (ss : List Statement) : Decidable (Agrees ss) :=
  inferInstanceAs (Decidable (_ = _))

variable {s : Statement} {ss rest : List Statement} {script : String}

theorem index_of_mem_number {gs : List (List Token)} {i : Nat} (h : s ∈ number i gs) :
    i ≤ s.index ∧ s.index < i + gs.length := by
  induction gs generalizing i with
  | nil => cases h
  | cons g gs ih =>
      rw [List.length_cons]
      rcases List.mem_cons.mp h with rfl | h
      · dsimp only
        omega
      · have hindex := ih h
        omega

/-- A statement has the number of the statements before it, and no other has. -/
theorem index_of_ofScript (h : ofScript script = ss ++ s :: rest) :
    s.index = ss.length ∧ (∀ s' ∈ ss, s'.index ≠ ss.length) ∧
      ∀ s' ∈ rest, s'.index ≠ ss.length := by
  obtain ⟨before, after, -, rfl, hindex, rfl⟩ := number_eq_append h
  rw [Nat.zero_add] at hindex
  refine ⟨hindex, fun s' hs' => ?_, fun s' hs' => ?_⟩
  · have hlt := (index_of_mem_number hs').2
    rw [length_number]
    omega
  · have hle := (index_of_mem_number hs').1
    omega

end Statement

/-! ## Names in a database -/

/-- The run qualifies a name as it should for the database, the empty one apart. -/
theorem Reference.qualifiedName_eq (r : Reference) (database : Option String) :
    r.qualifiedName database = r.nameIn (database.filter fun x => x ≠ "") := by
  cases database with
  | none => rfl
  | some d =>
      by_cases hd : d = ""
      · simp [qualifiedName, nameIn, Option.filter, hd]
      · simp [qualifiedName, nameIn, Option.filter, hd, isQualified]

/-- A table of one part shows the database it is reported in. -/
theorem Reference.nameIn_inj {r : Reference} (hparts : r.parts.length ≤ 1)
    (hname : '.' ∉ r.name.toList) {x y : Option String} (h : r.nameIn x = r.nameIn y) : x = y := by
  have hlonger (d : String) : d ++ "." ++ r.name ≠ r.name := by
    intro heq
    have hlength := congrArg String.length heq
    rw [String.length_append, String.length_append] at hlength
    have hdot : ".".length = 1 := rfl
    omega
  cases x with
  | none =>
      cases y with
      | none => rfl
      | some d =>
          simp only [nameIn, if_pos (And.intro hparts hname)] at h
          exact absurd h.symm (hlonger d)
  | some c =>
      cases y with
      | none =>
          simp only [nameIn, if_pos (And.intro hparts hname)] at h
          exact absurd h (hlonger c)
      | some d =>
          simp only [nameIn, if_pos (And.intro hparts hname), String.append_assoc,
            String.append_left_inj] at h
          rw [h]

namespace Reader

open Statement

variable {r : Reader} {s : Statement} {ss rest : List Statement} {script : String}

theorem statement_of_mem_references {x : Reference} (h : x ∈ r.references script s) :
    x.statement = s.index := by
  rcases references_cases r script s with hnone | hscan | ⟨names, hparsed⟩
  · rw [hnone] at h
    cases h
  · rw [hscan] at h
    obtain ⟨x', -, rfl⟩ := List.mem_map.mp h
    rfl
  · rw [hparsed] at h
    obtain ⟨parts, -, rfl⟩ := List.mem_map.mp h
    rfl

/-- The references of a run that belong to a statement. -/
theorem filter_references (h : ofScript script = ss ++ s :: rest) (p : Reference → Bool) :
    (r.run script).references.filter (fun x => x.statement == ss.length && p x) =
      (r.references script s).filter p := by
  obtain ⟨hindex, hbefore, hafter⟩ := index_of_ofScript h
  have hnone {ss' : List Statement} (hss : ∀ s' ∈ ss', s'.index ≠ ss.length) :
      (ss'.flatMap (r.references script)).filter
        (fun x => x.statement == ss.length && p x) = [] := by
    rw [List.filter_eq_nil_iff, List.forall_mem_flatMap]
    intro s' hs' x hx
    rw [statement_of_mem_references hx]
    simp [hss s' hs']
  have hsame : (r.references script s).filter (fun x => x.statement == ss.length && p x) =
      (r.references script s).filter p := by
    refine List.filter_congr fun x hx => ?_
    rw [statement_of_mem_references hx, hindex, beq_self_eq_true, Bool.true_and]
  rw [references_run, h, List.flatMap_append, List.flatMap_cons, List.filter_append,
    List.filter_append, hnone hbefore, hnone hafter, hsame, List.nil_append, List.append_nil]

/-- The summary of a statement stands at its number. -/
theorem getElem?_statements (r : Reader) (h : ofScript script = ss ++ s :: rest) :
    (r.run script).statements[ss.length]? = some (r.summary script (inForce none ss) s) := by
  rw [statements_run, h, collect_append, collect,
    List.getElem?_append_right (Nat.le_of_eq (length_collect _ _ _)), length_collect, Nat.sub_self]
  rfl

/-- The sources of a statement are reported in the database in force. -/
theorem reportsIn_inForce (r : Reader) (h : ofScript script = ss ++ s :: rest) :
    Extraction.ReportsIn (r.run script) ss.length
      ((inForce none ss).filter fun x => x ≠ "") := by
  have hnames : (r.run script).namesIn ss.length ((inForce none ss).filter fun x => x ≠ "") =
      r.names script (inForce none ss) s := by
    rw [Extraction.namesIn, filter_references h, names, Reference.qualifiedNames]
    exact List.map_congr_left fun x _ => (x.qualifiedName_eq _).symm
  refine ⟨?_, fun name hname => ?_⟩
  · rw [getElem?_statements r h, hnames]
    rfl
  · rw [hnames] at hname
    rw [tables_run, h, collect_append, collect]
    exact TableSet.exists_mem_listing
      (List.mem_append_right _ (List.mem_append_left _ hname))

end Reader

namespace Statement

variable {s : Statement} {ss rest : List Statement} {script : String}

/-- In a script a statement with the keyword `USE` in front is a session command. -/
theorem kind_of_isKeyword_use (hs : s ∈ ofScript script) {use : Token} {tokens : List Token}
    (htokens : s.tokens = use :: tokens) (huse : use.isKeyword .USE) : s.kind = .session := by
  have hmem : use ∈ Token.scan script := by
    refine (sublist_scan hs).subset ?_
    rw [htokens]
    exact List.mem_cons_self
  have hupper : use.upper = "USE" := Token.upper_of_mem_scan hmem huse
  have hword : headWord use = "USE" := by
    rw [headWord, Token.kind_of_isKeyword huse]
    exact hupper
  rw [kind, htokens]
  dsimp only
  rw [hword, if_pos (by decide)]

/-- A `USE` of an identifier that is not empty switches to the database it names. -/
theorem switched?_eq_named? (hs : s ∈ ofScript script)
    (h : ∀ use ∈ s.tokens.head?, use.isKeyword .USE →
      ∀ t ∈ s.tokens.getLast?, t.isName ∧ t.value ≠ "") :
    s.switched? = s.named? := by
  have hcandidate {t : Token} (ht : t.isName) : Scan.isCandidate t := by
    rw [Scan.isCandidate, ht, Bool.true_or]
  rw [switched?, usedDatabase?, named?]
  rcases htokens : s.tokens with _ | ⟨use, _ | ⟨unit, _ | ⟨name, _ | ⟨t, rest⟩⟩⟩⟩
  · exact ite_self none
  · exact ite_self none
  · rw [htokens] at h
    by_cases huse : use.isKeyword .USE
    · obtain ⟨hname, hvalue⟩ := h use rfl huse unit rfl
      simp [kind_of_isKeyword_use hs htokens huse, huse, hname, hcandidate hname, hvalue]
    · simp [huse]
  · rw [htokens] at h
    by_cases huse : use.isKeyword .USE
    · obtain ⟨hname, hvalue⟩ := h use rfl huse name rfl
      simp [kind_of_isKeyword_use hs htokens huse, huse, hname, hcandidate hname, hvalue]
    · simp [huse]
  · exact ite_self none

theorem value_of_named? {d : String} (h : s.named? = some d) : d ≠ "" := by
  unfold named? at h
  split at h
  · split at h
    · next hname =>
        cases h
        exact hname.2.2
    · cases h
  · split at h
    · next hname =>
        cases h
        exact hname.2.2.2.2
    · cases h
  · cases h

/-- The database in force is the one that the last `USE` names, if each names an identifier
that is not empty. -/
theorem agrees_of_isName (hss : ∀ s ∈ ss, s ∈ ofScript script)
    (h : ∀ s ∈ ss, ∀ use ∈ s.tokens.head?, use.isKeyword .USE →
      ∀ t ∈ s.tokens.getLast?, t.isName ∧ t.value ≠ "") : Agrees ss := by
  induction ss using List.reverseRecOn with
  | nil => rfl
  | append_singleton ss s ih =>
      rw [List.forall_mem_append, List.forall_mem_singleton] at hss h
      have hnamed : lastNamed? (ss ++ [s]) = s.named?.or (lastNamed? ss) := by
        rw [lastNamed?, List.reverse_append, List.reverse_singleton, List.singleton_append,
          List.findSome?_cons]
        cases s.named? with
        | none => rfl
        | some d => rfl
      rw [Agrees, inForce_append_singleton, hnamed, switched?_eq_named? hss.2 h.2]
      cases hs : s.named? with
      | none =>
          rw [Option.none_or, Option.none_or]
          exact ih hss.1 h.1
      | some d =>
          rw [Option.some_or, Option.some_or, Option.filter_some,
            if_pos (decide_eq_true (value_of_named? hs))]

theorem reportsNamed_of_agrees {ss : List Statement} (h : Agrees ss) : ReportsNamed ss := by
  intro r script s rest hscript _
  rw [← h]
  exact r.reportsIn_inForce hscript

/-- The table of a statement `SELECT * FROM t` behind the statements shows which database is in
force. -/
theorem agrees_of_reportsNamed (hscript : ofScript script = ss ++ s :: rest)
    (h : ReportsNamed ss) : Agrees ss := by
  let query : Statement := ⟨0, [⟨.keyword .SELECT, "SELECT", 0⟩, ⟨.punctuation '*', "*", 7⟩,
    ⟨.keyword .FROM, "FROM", 9⟩, ⟨.identifier, "t", 14⟩]⟩
  have hquery : ofScript "SELECT * FROM t" = [query] := by decide +kernel
  obtain ⟨a, rfl, hapart⟩ := exists_apart hscript
  let s' := query.shift (ofScript a).length (a.length + 3)
  let script' := Script.join a "SELECT * FROM t"
  have hscript' : ofScript script' = ofScript a ++ s' :: [] := by
    rw [ofScript_join (hapart _ (by decide)), hquery]
    rfl
  have hkind : s'.kind ≠ .session := by
    rw [kind_shift]
    exact kind_ne_session rfl (by decide +kernel)
  let t : Reference :=
    ⟨["t"], ⟨14 + (a.length + 3 : Nat), 15 + (a.length + 3 : Nat)⟩, .source, (ofScript a).length⟩
  have hreferences : Reader.scan.references script' s' = [t] := by
    rw [Reader.references, if_neg hkind]
    change s'.scan.references = [t]
    have hscan : query.scan.references = [⟨["t"], ⟨14, 15⟩, .source, 0⟩] := by decide +kernel
    rw [references_scan_shift, hscan]
    simp [Reference.shift, Span.map, t]
  have hnames (database : Option String) :
      (Reader.scan.run script').namesIn (ofScript a).length database = [t.nameIn database] := by
    rw [Extraction.namesIn, Reader.filter_references hscript', hreferences]
    rfl
  have hnamed := (h Reader.scan script' s' [] hscript' hkind).statement
  have hforce := (Reader.scan.reportsIn_inForce hscript').statement
  rw [hnames, TableSet.listing_singleton] at hnamed hforce
  have hname := List.singleton_inj.mp (Option.some.inj (hforce.symm.trans hnamed))
  have hdot : '.' ∉ (".".intercalate ["t"]).toList := by decide
  exact Reference.nameIn_inj (r := t) (Nat.le_refl 1) hdot hname

/-- The tables of the statements that can stand behind some statements of a script are reported
as the last `USE` says exactly when it is the database in force. -/
theorem reportsNamed_iff (h : ofScript script = ss ++ s :: rest) : ReportsNamed ss ↔ Agrees ss :=
  ⟨agrees_of_reportsNamed h, reportsNamed_of_agrees⟩

/-- A quoted name is understood, and the `USE` without a name does not count. -/
theorem reportsNamed_quoted :
    let script := "USE a; use Schema `from`; USE; SELECT * FROM t"
    let ss := (ofScript script).take 3
    ofScript script = ss ++ [(ofScript script).getLastD ⟨0, []⟩] ∧
      lastNamed? ss = some "from" ∧ ReportsNamed ss := by
  intro script ss
  have hscript : ofScript script = ss ++ [(ofScript script).getLastD ⟨0, []⟩] := by
    decide +kernel
  exact ⟨hscript, by decide +kernel, (reportsNamed_iff hscript).mpr (by decide +kernel)⟩

/-- A keyword that can name a table is no database for the run. -/
theorem not_reportsNamed_keyword :
    let script := "USE location; SELECT * FROM t"
    let ss := (ofScript script).take 1
    ofScript script = ss ++ [(ofScript script).getLastD ⟨0, []⟩] ∧
      lastNamed? ss = some "location" ∧ (Reader.scan.run script).tables = ["t"] ∧
      ¬ ReportsNamed ss := by
  intro script ss
  have hscript : ofScript script = ss ++ [(ofScript script).getLastD ⟨0, []⟩] := by
    decide +kernel
  exact ⟨hscript, by decide +kernel, by decide +kernel, fun h =>
    absurd (agrees_of_reportsNamed hscript h) (by decide +kernel)⟩

end Statement

end SqlTables
