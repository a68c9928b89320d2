import SqlTables.Proofs.DerivedTable
import SqlTables.Proofs.Plain.Reading
import SqlTables.Proofs.Scan.Behind
import SqlTables.Proofs.Scan.Quiet

/-!
# What a statement writes

A statement that inserts the rows of a query into a table names the table and what the query
names, and so does one that creates a table from a query, if it is seen that a query follows
(`WriteStatement.addsTarget_iff`). The list of the words that may follow the `AS` lacks `VALUES`,
which starts a query everywhere else.
-/

namespace SqlTables

open Token Scan

/-- What stands before the name of a table in a statement that inserts into it. -/
inductive Inserts : List Token → Prop
  | into {insert into : Token} (hinsert : insert.isKeyword .INSERT) (hinto : into.isKeyword .INTO) :
      Inserts [insert, into]
  | overwrite {insert overwrite table : Token} (hinsert : insert.isKeyword .INSERT)
      (hoverwrite : overwrite.isKeyword .OVERWRITE) (htable : table.isKeyword .TABLE) :
      Inserts [insert, overwrite, table]

/-- What stands before the name of a table or a view in a statement that creates it: there may be
words between `CREATE` and `TABLE` or `VIEW`, as in `CREATE OR REPLACE VIEW`. -/
inductive Creates : List Token → Prop
  | intro {create kind : Token} {modifiers : List Token} (hcreate : create.isKeyword .CREATE)
      (hmodifiers : ∀ t ∈ modifiers, t.isAnyKeyword Query.createModifiers)
      (hkind : kind.isAnyKeyword [.TABLE, .VIEW]) : Creates (create :: (modifiers ++ [kind]))

/-- What stands before the name of the table that a statement writes, and between the name and
the query. -/
inductive Writes : List Token → List Token → Prop
  | insert {before : List Token} (h : Inserts before) : Writes before []
  | create {before : List Token} {word : Token} (h : Creates before) (hword : word.isKeyword .AS) :
      Writes before [word]

/-- The words and the mark that start a statement which is a query. -/
def startsQuery (t : Token) : Bool :=
  t.isAnyKeyword [.SELECT, .WITH, .VALUES, .FROM] || t.isMark '('

/-- As many parentheses are closed in the tokens as are opened. -/
def Token.Closes (ts : List Token) : Prop := ts.countP (·.isMark '(') = ts.countP (·.isMark ')')

/-- Outside parentheses stands an `AS`, and a token behind it that a query is seen by. -/
def Token.ShowsBody (ts : List Token) : Prop :=
  ∃ xs word t ys, ts = xs ++ word :: t :: ys ∧ Closes xs ∧ word.isKeyword .AS ∧ startsBody t

/-- `INSERT INTO t q`, `INSERT OVERWRITE TABLE t q`, `CREATE TABLE t AS q`, or
`CREATE OR REPLACE VIEW t AS q`. -/
structure WriteStatement where
  /-- The query by itself. -/
  query : List Token
  before : List Token
  target : TableName
  between : List Token
  /-- The query in the statement. -/
  written : List Token
  /-- How far the query is moved in the statement. -/
  shift : Int
  isWrite : Writes before between
  isNamed : ∀ t ∈ target.tokens, t.isName ∨ t.isMark '.'
  isQuery : query.head?.any startsQuery
  displaced : List.Forall₂ (Token.Displaced shift) query written

namespace WriteStatement

def tokens (w : WriteStatement) : List Token :=
  w.before ++ w.target.tokens ++ (w.between ++ w.written)

/-- The statement names the table and behind it the tables of the query. -/
def AddsTarget (w : WriteStatement) : Prop :=
  ∀ index : Nat, (Statement.mk index w.tokens).tableNames =
    w.target.read.text :: (Statement.mk index w.query).tableNames

/-- The statement inserts, its query does not start with `VALUES`, or a query is seen in it. -/
def ShowsQuery (w : WriteStatement) : Prop :=
  w.between = [] ∨ ¬ w.query.head?.any (·.isKeyword .VALUES) ∨ ShowsBody w.query

end WriteStatement

/-- `CREATE TABLE t (columns)`. -/
structure TableDefinition where
  /-- The columns by themselves, in their parentheses. -/
  columns : List Token
  before : List Token
  target : TableName
  /-- The columns in the statement. -/
  written : List Token
  /-- How far the columns are moved in the statement. -/
  shift : Int
  isCreate : Creates before
  isNamed : ∀ t ∈ target.tokens, t.isName ∨ t.isMark '.'
  isOpening : columns.head?.any (·.isMark '(')
  noQuery : ∀ xs word ys, columns = xs ++ word :: ys → Closes xs → ¬ word.isKeyword .AS
  displaced : List.Forall₂ (Token.Displaced shift) columns written

namespace TableDefinition

def tokens (d : TableDefinition) : List Token := d.before ++ d.target.tokens ++ d.written

/-- The statement names what the columns name, which is nothing unless there is a word of a clause
among them. -/
structure AddsNothing (d : TableDefinition) : Prop where
  same : ∀ index : Nat, (Statement.mk index d.tokens).tableNames =
    (Statement.mk index d.columns).tableNames
  none : (∀ t ∈ d.columns, ¬ t.isAnyKeyword clauseWords) →
    ∀ index : Nat, (Statement.mk index d.tokens).tableNames = []

end TableDefinition

namespace Scan

variable {t : Token} {rest : List Token} {base : Scope} {names : Names} {w : Surroundings}
  {n : TableName}

/-! ## Queries seen ahead -/

/-- How many more parentheses are opened than closed behind a token, if there are `d` before it. -/
def surplus (d : Int) (t : Token) : Int :=
  if t.isMark '(' then d + 1 else if t.isMark ')' then d - 1 else d

theorem surplus_cons (d : Int) (t : Token) (xs : List Token) :
    (d + (t :: xs).countP (·.isMark '(') = (t :: xs).countP (·.isMark ')')) ↔
      surplus d t + xs.countP (·.isMark '(') = xs.countP (·.isMark ')') := by
  rw [surplus, List.countP_cons, List.countP_cons]
  by_cases hopen : t.isMark '('
  · rw [if_pos hopen, if_pos hopen, if_neg (not_isMark_of_isMark hopen (by decide))]
    omega
  · rw [if_neg hopen, if_neg hopen]
    split
    · omega
    · rfl

theorem hasQueryBody_cons (d : Int) (t : Token) (ts : List Token) :
    hasQueryBody d (t :: ts) ↔
      (d = 0 ∧ t.isKeyword .AS ∧ ts.head?.any startsBody) ∨ hasQueryBody (surplus d t) ts := by
  have hmark {c : Char} (hc : t.isMark c) : ¬ t.isKeyword .AS := fun hk =>
    not_isMark_of_isKeyword hk c hc
  rw [hasQueryBody, surplus]
  split
  · next hopen => simp [hmark hopen]
  · split
    · next hclose => simp [hmark hclose]
    · simp [and_assoc]

theorem hasQueryBody_iff (ts : List Token) (d : Int) :
    hasQueryBody d ts ↔ ∃ xs word t ys, ts = xs ++ word :: t :: ys ∧
      d + xs.countP (·.isMark '(') = xs.countP (·.isMark ')') ∧ word.isKeyword .AS ∧
      startsBody t := by
  induction ts generalizing d with
  | nil => simp [hasQueryBody]
  | cons u ts ih =>
      rw [hasQueryBody_cons, ih]
      constructor
      · rintro (⟨rfl, hword, ht⟩ | ⟨xs, word, t, ys, rfl, hcount, hword⟩)
        · cases ts with
          | nil => cases ht
          | cons t ys => exact ⟨[], u, t, ys, rfl, rfl, hword, ht⟩
        · exact ⟨u :: xs, word, t, ys, rfl, (surplus_cons d u xs).mpr hcount, hword⟩
      · rintro ⟨_ | ⟨v, xs⟩, word, t, ys, heq, hcount, hword, ht⟩
        · obtain ⟨rfl, rfl⟩ := List.cons.inj heq
          exact Or.inl ⟨by simpa using hcount, hword, ht⟩
        · obtain ⟨rfl, rfl⟩ := List.cons.inj heq
          exact Or.inr ⟨xs, word, t, ys, rfl, (surplus_cons d u xs).mp hcount, hword, ht⟩

theorem hasQueryBody_iff_showsBody (ts : List Token) : hasQueryBody 0 ts ↔ ShowsBody ts := by
  rw [hasQueryBody_iff, ShowsBody]
  simp only [Int.zero_add, Int.ofNat_inj, Closes]

/-! ## Headings -/

theorem not_steering_of_isKeyword {word : Keyword} (ht : t.isKeyword word)
    (hword : word ∉ steering) : ¬ t.isAnyKeyword steering := by
  rw [isAnyKeyword, kind_of_isKeyword ht]
  simpa using hword

theorem not_steering_of_isAnyKeyword {words : List Keyword} (ht : t.isAnyKeyword words)
    (hwords : ∀ word ∈ words, word ∉ steering) : ¬ t.isAnyKeyword steering := by
  obtain ⟨word, hmem, hword⟩ := isAnyKeyword_iff.mp ht
  exact not_steering_of_isKeyword hword (hwords word hmem)

theorem not_steering_name (h : ∀ t ∈ n.tokens, t.isName ∨ t.isMark '.') :
    ∀ t ∈ n.tokens, ¬ t.isAnyKeyword steering := by
  intro t ht hwords
  rcases h t ht with hname | hdot
  · obtain ⟨word, -, hword⟩ := isAnyKeyword_iff.mp hwords
    exact not_isKeyword_of_isName hname word hword
  · exact not_isMark_of_isAnyKeyword hwords '.' hdot

theorem not_steering_inserts {before : List Token} (h : Inserts before) :
    ∀ t ∈ before, ¬ t.isAnyKeyword steering := by
  cases h with
  | into hinsert hinto =>
      simp only [List.forall_mem_cons]
      exact ⟨not_steering_of_isKeyword hinsert (by decide),
        not_steering_of_isKeyword hinto (by decide), List.forall_mem_nil _⟩
  | overwrite hinsert hoverwrite htable =>
      simp only [List.forall_mem_cons]
      exact ⟨not_steering_of_isKeyword hinsert (by decide),
        not_steering_of_isKeyword hoverwrite (by decide),
        not_steering_of_isKeyword htable (by decide), List.forall_mem_nil _⟩

theorem not_steering_creates {before : List Token} (h : Creates before) :
    ∀ t ∈ before, ¬ t.isAnyKeyword steering := by
  obtain ⟨hcreate, hmodifiers, hkind⟩ := h
  simp only [List.forall_mem_cons, List.forall_mem_append]
  exact ⟨not_steering_of_isKeyword hcreate (by decide),
    fun t ht => not_steering_of_isAnyKeyword (hmodifiers t ht) (by decide),
    not_steering_of_isAnyKeyword hkind (by decide), List.forall_mem_nil _⟩

theorem Query.step_overwrite {table : Token} (fresh : Bool) (ht : t.isKeyword .OVERWRITE)
    (htable : table.isKeyword .TABLE) :
    (Query.top base names (.clauses fresh)).step w t (table :: rest) =
      { body := .query (.top base names .target) } := by
  change Query.clauseStep _ _ fresh t _ = _
  simp only [clauseStep, kind_of_isKeyword ht, List.head?_cons, Option.any_some, htable, if_true]
  rfl

theorem Query.step_targetTable (ht : t.isKeyword .TABLE) :
    (Query.top base names .target).step w t rest =
      { body := .query (.top base names .targetName) } := by
  change Query.targetStep _ _ t rest = _
  rw [targetStep, if_pos ht]
  rfl

theorem Query.step_targetName (ht : isCandidate t) :
    (Query.top base names .targetName).step w t rest =
      { body := .query (.top base names (.name .target (.ofToken t))) } := by
  change Query.targetNameStep _ _ t rest = _
  rw [targetNameStep, if_pos ht]
  rfl

theorem reads_insertOverwrite {insert overwrite table : Token} (hinsert : insert.isKeyword .INSERT)
    (hoverwrite : overwrite.isKeyword .OVERWRITE) (htable : table.isKeyword .TABLE)
    (n : TableName) (limit : Nat) (after : List Token) :
    Reads limit after start (insert :: overwrite :: table :: n.tokens)
      (AtTop [[]] [] (.name .target n.read)) [n.read.text] := by
  have hidle := isIdle_of_isKeyword hinsert (by decide)
  refine (atTop_start.reads_token (atTop_start.step_idle limit _ hidle)
    (not_isMark_of_isKeyword hinsert '(') Bool.false_ne_true Bool.false_ne_true rfl).cons
    fun s₁ h₁ => ?_
  refine (h₁.1.reads_of_eq (Query.step_overwrite false hoverwrite htable) rfl rfl).cons
    fun s₂ h₂ => ?_
  refine (h₂.reads_of_eq (Query.step_targetTable htable) rfl rfl).cons fun s₃ h₃ => ?_
  rw [← Plain.tableNames_unnamed (.name .target n.read) n]
  exact Plain.reads_tableName h₃ rfl (h₃.step_of_eq (Query.step_targetName n.candidate))

theorem reads_inserts {before : List Token} (h : Inserts before) (n : TableName) (limit : Nat)
    (after : List Token) :
    Reads limit after start (before ++ n.tokens) (AtTop [[]] [] (.name .target n.read))
      [n.read.text] := by
  cases h with
  | into hinsert hinto => exact Plain.reads_insert hinsert hinto n limit after
  | overwrite hinsert hoverwrite htable =>
      exact reads_insertOverwrite hinsert hoverwrite htable n limit after

theorem reads_creates {before : List Token} (h : Creates before) (n : TableName) (limit : Nat)
    (after : List Token) :
    Reads limit after start (before ++ n.tokens) (AtTop [[]] [] (.name .created n.read)) [] := by
  obtain ⟨hcreate, hmodifiers, hkind⟩ := h
  have hread := Plain.reads_createName hcreate hmodifiers hkind n limit after
  simpa using hread

/-! ## The query behind a heading -/

theorem not_isKeyword_of_startsQuery (ht : startsQuery t) {word : Keyword}
    (hword : word ∉ [Keyword.SELECT, .WITH, .VALUES, .FROM]) : ¬ t.isKeyword word := by
  intro hk
  simp only [startsQuery, isAnyKeyword, isMark, kind_of_isKeyword hk, Bool.or_eq_true,
    List.contains_iff_mem] at ht
  exact ht.elim hword fun h => by simp at h

theorem not_isName_of_startsQuery (ht : startsQuery t) : ¬ t.isName := by
  intro hname
  rw [startsQuery, Bool.or_eq_true, isAnyKeyword_iff] at ht
  rcases ht with ⟨word, -, hword⟩ | hopen
  · exact not_isKeyword_of_isName hname word hword
  · exact not_isMark_of_isName hname '(' hopen

theorem not_isDot_of_startsQuery (ht : startsQuery t) : ¬ t.isMark '.' := by
  intro hdot
  rw [startsQuery, Bool.or_eq_true, isAnyKeyword_iff] at ht
  rcases ht with ⟨word, -, hword⟩ | hopen
  · exact not_isMark_of_isKeyword hword '.' hdot
  · exact not_isMark_of_isMark hopen (by decide) hdot

/-- The start of a query is no alias of the table before it. -/
theorem Query.step_target_of_startsQuery (w : Surroundings) (base : Scope) (names : Names)
    (n : TableName) (rest : List Token) (ht : startsQuery t) :
    (Query.top base names (.name .target n.read)).step w t rest =
      { clauseStep w (.top base names (.name .target n.read)) false t rest with
        references := [(Query.top base names (.name .target n.read)).reference n.read] } := by
  have hextend : n.read.extend? t = none := extend?_of_not_dot rfl (not_isDot_of_startsQuery ht)
  have hsample : ¬ t.isKeyword .TABLESAMPLE := not_isKeyword_of_startsQuery ht (by decide)
  have has : ¬ t.isKeyword .AS := not_isKeyword_of_startsQuery ht (by decide)
  have hname := not_isName_of_startsQuery ht
  change Query.nameStep w _ .target n.read t rest = _
  simp only [nameStep, hextend, nameEndStep, operandEndStep, hsample, aliasStep, hname, has,
    Bool.false_eq_true, if_false, false_and, followStep, Outcome.found, references_clauseStep]

/-- What starts a query is seen behind an `AS`, apart from `VALUES`. -/
theorem startsBody_iff (ht : startsQuery t) : startsBody t ↔ ¬ t.isKeyword .VALUES := by
  rw [startsQuery, Bool.or_eq_true, isAnyKeyword_iff] at ht
  rcases ht with ⟨word, hmem, hword⟩ | hopen
  · rw [startsBody, isAnyKeyword, isMark, isKeyword, kind_of_isKeyword hword]
    clear hword
    revert word
    decide
  · simp [startsBody, isKeyword, hopen, kind_of_isMark hopen]

theorem not_update_of_startsQuery (ht : startsQuery t) : ¬ t.isKeyword .UPDATE :=
  not_isKeyword_of_startsQuery ht (by decide)

/-- Behind the table that it inserts into, a statement names what the query names. -/
theorem tableNames_find_insert {before : List Token} (hbefore : Inserts before)
    (hn : ∀ t ∈ n.tokens, t.isName ∨ t.isMark '.') (ht : startsQuery t) (limit : Nat)
    (rest : List Token) :
    Reference.tableNames (find limit (before ++ n.tokens ++ t :: rest)).references =
      n.read.text :: Reference.tableNames (find limit (t :: rest)).references := by
  have hheading := reads_inserts hbefore n limit (t :: rest)
  have hsteady := List.forall_mem_append.mpr ⟨not_steering_inserts hbefore, not_steering_name hn⟩
  exact tableNames_find_append hheading hsteady (not_update_of_startsQuery ht)
    (fun w => Query.step_target_of_startsQuery w [[]] [] n rest ht) (List.append_nil _).symm

/-- A statement that creates a table names what the tokens behind the name do, and before that
the table if a query is seen among them. -/
theorem tableNames_find_create {before : List Token} (hbefore : Creates before)
    (hn : ∀ t ∈ n.tokens, t.isName ∨ t.isMark '.') (hdot : ¬ t.isMark '.')
    (hupdate : ¬ t.isKeyword .UPDATE) (limit : Nat) (rest : List Token) :
    Reference.tableNames (find limit (before ++ n.tokens ++ t :: rest)).references =
      (if hasQueryBody 0 (t :: rest) then [n.read.text] else []) ++
        Reference.tableNames (find limit (t :: rest)).references := by
  have hheading := reads_creates hbefore n limit (t :: rest)
  have hsteady := List.forall_mem_append.mpr ⟨not_steering_creates hbefore, not_steering_name hn⟩
  refine tableNames_find_append hheading hsteady hupdate (fun w => Plain.step_created rfl hdot) ?_
  rw [apply_ite Reference.tableNames, Plain.tableNames_unnamed]
  rfl

/-! ## The same tokens at another place -/

variable {shift : Int} {ts us : List Token}

theorem hasQueryBody_displaced (h : List.Forall₂ (Displaced shift) ts us) :
    hasQueryBody 0 us = hasQueryBody 0 ts :=
  hasQueryBody_of_forall₂ (h.imp fun _ _ ht => ht.kind) 0

theorem head?_any_displaced {p : Token → Bool} (hp : OfKind p)
    (h : List.Forall₂ (Displaced shift) ts us) : us.head?.any p = ts.head?.any p := by
  cases h with
  | nil => rfl
  | cons hhead hrest => exact hp _ _ hhead.kind

theorem exists_head_displaced {p : Token → Bool} (hp : OfKind p)
    (h : List.Forall₂ (Displaced shift) ts us) (hts : ts.head?.any p) :
    ∃ t rest, us = t :: rest ∧ p t := by
  rw [← head?_any_displaced hp h] at hts
  cases us with
  | nil => cases hts
  | cons t rest => exact ⟨t, rest, rfl, hts⟩

theorem ofKind_startsQuery : OfKind startsQuery :=
  (ofKind_isAnyKeyword _).or (ofKind_isMark '(')

end Scan

theorem Writes.inserts_or_creates {before between : List Token} (h : Writes before between) :
    (Inserts before ∧ between = []) ∨
      (Creates before ∧ ∃ word, word.isKeyword .AS ∧ between = [word]) := by
  cases h with
  | insert h => exact Or.inl ⟨h, rfl⟩
  | create h hword => exact Or.inr ⟨h, _, hword, rfl⟩

namespace TableDefinition

variable (d : TableDefinition)

/-- No query is seen in the columns. -/
theorem not_hasQueryBody : ¬ hasQueryBody 0 d.written := by
  rw [hasQueryBody_displaced d.displaced, hasQueryBody_iff_showsBody]
  rintro ⟨xs, word, t, ys, heq, hcloses, hword, -⟩
  exact d.noQuery xs word (t :: ys) heq hcloses hword

theorem addsNothing : d.AddsNothing := by
  obtain ⟨t, ts, hwritten, hopen⟩ :=
    exists_head_displaced (ofKind_isMark '(') d.displaced d.isOpening
  have hsame (index : Nat) : (Statement.mk index d.tokens).tableNames =
      (Statement.mk index d.columns).tableNames := by
    have hbody := d.not_hasQueryBody
    rw [hwritten] at hbody
    rw [Statement.tableNames_eq, Statement.tableNames_eq, tokens, hwritten,
      tableNames_find_create d.isCreate d.isNamed (not_isMark_of_isMark hopen (by decide))
        fun hk => not_isMark_of_isKeyword hk '(' hopen,
      if_neg hbody, List.nil_append, ← hwritten, tableNames_find_displaced depthLimit d.displaced]
  refine ⟨hsame, fun hplain index => ?_⟩
  rw [hsame, Statement.tableNames_eq]
  exact (reads_quiet isQuiet_start hplain).tableNames_find

end TableDefinition

namespace WriteStatement

variable (w : WriteStatement)

theorem exists_head : ∃ t ts, w.written = t :: ts ∧ startsQuery t :=
  exists_head_displaced ofKind_startsQuery w.displaced w.isQuery

theorem tableNames_written (limit : Nat) :
    Reference.tableNames (find limit w.written).references =
      Reference.tableNames (find limit w.query).references :=
  tableNames_find_displaced limit w.displaced

/-- The query is seen from its first token, unless that is `VALUES`, or further on. -/
theorem hasQueryBody_between {word : Token} (hword : word.isKeyword .AS) :
    hasQueryBody 0 (word :: w.written) ↔
      ¬ w.query.head?.any (·.isKeyword .VALUES) ∨ ShowsBody w.query := by
  obtain ⟨t, ts, hwritten, ht⟩ := w.exists_head
  have hvalues := head?_any_displaced (ofKind_isKeyword .VALUES) w.displaced
  rw [← hvalues, ← hasQueryBody_iff_showsBody, ← hasQueryBody_displaced w.displaced, hwritten,
    List.head?_cons, Option.any_some, ← startsBody_iff ht, hasQueryBody]
  simp [not_isMark_of_isKeyword hword, hword]

theorem addsTarget_of_inserts (hbefore : Inserts w.before) (hbetween : w.between = []) :
    w.AddsTarget := by
  intro index
  obtain ⟨t, ts, hwritten, ht⟩ := w.exists_head
  rw [Statement.tableNames_eq, Statement.tableNames_eq, tokens, hbetween, List.nil_append,
    hwritten, tableNames_find_insert hbefore w.isNamed ht, ← hwritten, w.tableNames_written]

theorem tableNames_of_creates (hbefore : Creates w.before) {word : Token}
    (hword : word.isKeyword .AS) (hbetween : w.between = [word]) (index : Nat) :
    (Statement.mk index w.tokens).tableNames =
      (if hasQueryBody 0 (word :: w.written) then [w.target.read.text] else []) ++
        (Statement.mk index w.query).tableNames := by
  obtain ⟨t, ts, hwritten, ht⟩ := w.exists_head
  rw [Statement.tableNames_eq, Statement.tableNames_eq, tokens, hbetween, List.singleton_append,
    tableNames_find_create hbefore w.isNamed (not_isMark_of_isKeyword hword '.')
      (by simp [isKeyword, kind_of_isKeyword hword]),
    hwritten, tableNames_find_idle (isIdle_of_isKeyword hword (by decide))
      (not_steering_of_isKeyword hword (by decide)) (not_update_of_startsQuery ht),
    ← hwritten, w.tableNames_written]

theorem addsTarget_iff_of_creates (hbefore : Creates w.before) {word : Token}
    (hword : word.isKeyword .AS) (hbetween : w.between = [word]) :
    w.AddsTarget ↔ hasQueryBody 0 (word :: w.written) := by
  have hnames := w.tableNames_of_creates hbefore hword hbetween
  constructor
  · intro h
    by_contra hbody
    have hsame := (h 0).symm.trans (hnames 0)
    rw [if_neg hbody] at hsame
    -- One name more cannot be the same list.
    exact absurd (congrArg List.length hsame) (by simp)
  · intro hbody index
    rw [hnames, if_pos hbody]
    rfl

/-- `CREATE TABLE t AS VALUES (1)`. -/
def createdValues : WriteStatement where
  query := (Lexer.scanFrom 0 0 "VALUES (1)".toList).filter Token.isSignificant
  before := [⟨.keyword .CREATE, "CREATE", 0⟩, ⟨.keyword .TABLE, "TABLE", 7⟩]
  target := (AliasedTable.bare ⟨.identifier, "t", 13⟩ rfl).name
  between := [⟨.keyword .AS, "AS", 15⟩]
  written := (Lexer.scanFrom 18 0 "VALUES (1)".toList).filter Token.isSignificant
  shift := 18
  isWrite := .create (@Creates.intro _ _ [] rfl (List.forall_mem_nil _) rfl) rfl
  isNamed := List.forall_mem_singleton.mpr (Or.inl rfl)
  isQuery := by decide +kernel
  displaced := .cons ⟨rfl, rfl, rfl⟩ (.cons ⟨rfl, rfl, rfl⟩ (.cons ⟨rfl, rfl, rfl⟩
    (.cons ⟨rfl, rfl, rfl⟩ .nil)))

/-- A statement that inserts names its table and what its query names, and so does one that creates
its table exactly if a query is seen behind the `AS`; the columns of a table add nothing. -/
theorem addsTarget_iff (d : TableDefinition) :
    (w.AddsTarget ↔ w.ShowsQuery) ∧ d.AddsNothing := by
  refine ⟨?_, d.addsNothing⟩
  rcases w.isWrite.inserts_or_creates with ⟨hbefore, hbetween⟩ | ⟨hbefore, word, hword, hbetween⟩
  · exact iff_of_true (w.addsTarget_of_inserts hbefore hbetween) (Or.inl hbetween)
  · have hsome : w.between ≠ [] := by simp [hbetween]
    rw [w.addsTarget_iff_of_creates hbefore hword hbetween, w.hasQueryBody_between hword,
      ShowsQuery, or_iff_right hsome]

/-- The rows of a `VALUES` are not seen as a query behind an `AS`: the created table is lost. -/
theorem not_addsTarget_values :
    (Statement.mk 0 createdValues.tokens).tableNames = [] ∧ ¬ createdValues.AddsTarget := by
  have hnone : (Statement.mk 0 createdValues.tokens).tableNames = [] := by decide +kernel
  refine ⟨hnone, fun h => ?_⟩
  have hnames := hnone.symm.trans (h 0)
  cases hnames

end WriteStatement

end SqlTables
