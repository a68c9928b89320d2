import SqlTables.Proofs.Scan.Naming
import SqlTables.Proofs.Scan.TopLevel
import SqlTables.Proofs.Token.Order

/-!
# The items of a FROM clause

`FromStatement` is a statement `SELECT * FROM item, …, item`, where an item is a
table with an optional alias and any number of joins. Its tables should all be
recorded as sources. The scan reads the items of the list one after the other as
long as they are plain tables: a join ends the list, and the comma after it brings
no table. So the tables are all recorded exactly when only the last item has joins
(`FromStatement.recordsTables_iff`).
-/

namespace SqlTables

open Token

/-- A table name as it is written: parts after dots follow the first one. -/
structure TableName where
  first : Token
  parts : List (Token × Token)
  candidate : Scan.isCandidate first
  dots : ∀ p ∈ parts, p.1.isMark '.'
  names : ∀ p ∈ parts, p.2.isName || p.2.keyword?.isSome

namespace TableName

def tokens (n : TableName) : List Token := n.first :: n.parts.flatMap fun p => [p.1, p.2]

/-- The name that is read from the tokens. -/
def read (n : TableName) : DottedName :=
  { parts := n.first.value :: n.parts.map (·.2.value)
    start := n.first.offset
    stop := (n.parts.getLast?.map (·.2.stop)).getD n.first.stop
    dangling := false }

theorem extendAll?_parts (parts : List (Token × Token)) (n : DottedName)
    (hdots : ∀ p ∈ parts, p.1.isMark '.')
    (hnames : ∀ p ∈ parts, p.2.isName || p.2.keyword?.isSome) (hn : n.dangling = false) :
    n.extendAll? (parts.flatMap fun p => [p.1, p.2]) =
      some ⟨n.parts ++ parts.map (·.2.value), n.start,
        (parts.getLast?.map (·.2.stop)).getD n.stop, false⟩ := by
  induction parts generalizing n with
  | nil =>
      obtain ⟨parts, start, stop, dangling⟩ := n
      obtain rfl : dangling = false := hn
      simp
  | cons p parts ih =>
      rw [List.forall_mem_cons] at hdots hnames
      have hdot : n.extend? p.1 = some { n with stop := p.1.stop, dangling := true } := by
        simp [DottedName.extend?, hn, hdots.1]
      have hname : ({ n with stop := p.1.stop, dangling := true } : DottedName).extend? p.2 =
          some ⟨n.parts ++ [p.2.value], n.start, p.2.stop, false⟩ := by
        simp only [DottedName.extend?, hnames.1, if_true]
      rw [List.flatMap_cons, DottedName.extendAll?_append, DottedName.extendAll?_cons hdot,
        DottedName.extendAll?_cons hname, DottedName.extendAll?_nil, Option.bind_some,
        ih _ hdots.2 hnames.2 rfl]
      simp only [List.map_cons, List.append_assoc, List.singleton_append, List.getLast?_cons]
      cases parts.getLast? <;> rfl

theorem extendAll?_read (n : TableName) :
    (DottedName.ofToken n.first).extendAll? (n.parts.flatMap fun p => [p.1, p.2]) =
      some n.read :=
  extendAll?_parts n.parts _ n.dots n.names rfl

end TableName

/-- An alias, after an optional `AS`. -/
structure TableAlias where
  word : Option Token
  name : Token
  isAs : ∀ t ∈ word, t.isKeyword .AS
  isName : name.isName

def TableAlias.tokens (a : TableAlias) : List Token := a.word.toList ++ [a.name]

structure AliasedTable where
  name : TableName
  «alias» : Option TableAlias

namespace AliasedTable

def tokens (r : AliasedTable) : List Token :=
  r.name.tokens ++ (r.alias.map TableAlias.tokens).getD []

/-- A table of one part without an alias. -/
def bare (t : Token) (h : Scan.isCandidate t) : AliasedTable :=
  ⟨⟨t, [], h, by simp, by simp⟩, none⟩

/-- The alias of the table is the name of none of the given tables. -/
def Avoids (r : AliasedTable) (tables : List AliasedTable) : Prop :=
  ∀ a ∈ r.alias, ∀ r' ∈ tables,
    r'.name.read.single?.map Unicode.lower ≠ some (Unicode.lower a.name.value)

instance (r : AliasedTable) (tables : List AliasedTable) : Decidable (r.Avoids tables) :=
  inferInstanceAs (Decidable (∀ a ∈ r.alias, _))

end AliasedTable

/-- A join `JOIN table ON cond`. The condition is any balanced run without keywords;
a comma in it makes no difference. -/
structure TableJoin where
  word : Token
  table : AliasedTable
  on : Token
  cond : List Token
  isJoin : word.isKeyword .JOIN
  isOn : on.isKeyword .ON
  balanced : Balanced cond
  plain : ∀ t ∈ cond, t.keyword? = none

def TableJoin.tokens (j : TableJoin) : List Token :=
  j.word :: j.table.tokens ++ j.on :: j.cond

/-- An item of a table list. -/
structure FromItem where
  table : AliasedTable
  joins : List TableJoin

namespace FromItem

def tokens (i : FromItem) : List Token := i.table.tokens ++ i.joins.flatMap TableJoin.tokens

/-- The tokens of further items, each one after a comma. -/
def listTokens (more : List (Token × FromItem)) : List Token :=
  more.flatMap fun p => p.1 :: p.2.tokens

/-- The tables of the item with their aliases. -/
def tables (i : FromItem) : List AliasedTable := i.table :: i.joins.map TableJoin.table

end FromItem

/-- A statement `SELECT * FROM item, …, item`. -/
structure FromStatement where
  select : Token
  star : Token
  source : Token
  first : FromItem
  more : List (Token × FromItem)
  isSelect : select.isKeyword .SELECT
  isStar : star.isMark '*'
  isFrom : source.isKeyword .FROM
  commas : ∀ p ∈ more, p.1.isMark ','

namespace FromStatement

def tokens (f : FromStatement) : List Token :=
  f.select :: f.star :: f.source :: (f.first.tokens ++ FromItem.listTokens f.more)

def items (f : FromStatement) : List FromItem := f.first :: f.more.map (·.2)

def tables (f : FromStatement) : List AliasedTable := f.items.flatMap FromItem.tables

/-- No table has the name of an alias. -/
def IsUnambiguous (f : FromStatement) : Prop := ∀ r ∈ f.tables, r.Avoids f.tables

instance (f : FromStatement) : Decidable f.IsUnambiguous :=
  inferInstanceAs (Decidable (∀ r ∈ f.tables, _))

end FromStatement

/-- The table is recorded as a source where it stands. -/
def Findings.Records (f : Findings) (n : TableName) : Prop :=
  ∃ r ∈ f.references, r.parts = n.read.parts ∧ r.span = n.read.span ∧ r.role = .source

instance (f : Findings) (n : TableName) : Decidable (f.Records n) :=
  inferInstanceAs (Decidable (∃ r ∈ f.references, _))

namespace Scan

variable {limit : Nat} {s : Scan} {t : Token} {rest after ts : List Token}
  {base : Scope} {names : Names} {mode : Mode} {follow : Follow} {opener : Option Span}
  {below : List Frame}

/-! ## A table and what follows it -/

/-- The expectations after a complete table. -/
inductive TableEnd (follow : Follow) : Mode → Prop
  | name (n : DottedName) (h : n.dangling = false) : TableEnd follow (.name (.operand follow) n)
  | columns : TableEnd follow (.columns follow)

/-- Whether the token shows that the table before it is complete. -/
def endsTable (t : Token) : Bool := t.isMark ',' || t.isKeyword .JOIN || t.isKeyword .ON

theorem AtQuery.step_extend {purpose : Purpose} {n longer : DottedName}
    (h : s.AtQuery opener below base names (.name purpose n)) (limit : Nat) (rest : List Token)
    (hn : n.extend? t = some longer) :
    (s.step limit t rest).AtQuery opener below base names (.name purpose longer) := by
  have hstep : (Query.top base names (.name purpose n)).step (s.surroundings limit) t rest =
      { body := .query (.top base names (.name purpose longer)) } := by
    change Query.nameStep _ _ purpose n t rest = _
    rw [Query.nameStep, hn]
    rfl
  exact h.step_of_eq hstep

theorem AtQuery.advance_extend {purpose : Purpose} {n longer : DottedName}
    (h : s.AtQuery opener below base names (.name purpose n)) (limit : Nat) (after : List Token)
    {xs : List Token} (hn : n.extendAll? xs = some longer) :
    (s.advance limit after xs).AtQuery opener below base names (.name purpose longer) := by
  induction xs generalizing s n with
  | nil =>
      rw [DottedName.extendAll?_nil, Option.some.injEq] at hn
      rwa [advance_nil, ← hn]
  | cons t xs ih =>
      obtain ⟨m, hm, hlonger⟩ := Option.bind_eq_some_iff.mp hn
      rw [advance_cons]
      exact ih (h.step_extend limit _ hm) hlonger

theorem AtQuery.advance_name (h : s.AtQuery opener below base names (.operand follow)) (limit : Nat)
    (after : List Token) (n : TableName) :
    (s.advance limit after n.tokens).AtQuery opener below base names
      (.name (.operand follow) n.read) := by
  rw [TableName.tokens, advance_cons]
  exact (h.step_candidate limit _ n.candidate).advance_extend limit after n.extendAll?_read

/-- The expectations before an alias, after a table or a group in its place. -/
inductive AwaitsAlias (follow : Follow) : Mode → Prop
  | name (n : DottedName) (h : n.dangling = false) : AwaitsAlias follow (.name (.operand follow) n)
  | operandEnd : AwaitsAlias follow (.operandEnd follow)

/-- Where an alias may stand, a token completes the table and is read as the alias. -/
theorem Query.step_of_awaitsAlias (w : Surroundings) (base : Scope) (names : Names)
    (rest : List Token) (hmode : AwaitsAlias follow mode) (hopen : ¬ t.isMark '(')
    (hdot : ¬ t.isMark '.') (hsample : ¬ t.isKeyword .TABLESAMPLE) :
    (Query.top base names mode).step w t rest =
      { Query.aliasStep w (.top base names mode) follow t rest with
        references := (Query.top base names mode).settle.1 ++
          (Query.aliasStep w (.top base names mode) follow t rest).references } := by
  cases hmode with
  | name n hn =>
      change Query.nameStep w _ (.operand follow) n t rest = _
      rw [Query.nameStep, extend?_of_not_dot hn hdot]
      simp only [Query.nameEndStep]
      rw [if_neg hopen, Query.operandEndStep, if_neg hsample]
      rfl
  | operandEnd =>
      change Query.operandEndStep w _ follow t rest = _
      rw [Query.operandEndStep, if_neg hsample]
      rfl

/-- After a table, an alias may follow. -/
theorem AtQuery.step_alias (h : s.AtQuery opener below base names mode) (limit : Nat)
    (rest : List Token) (hmode : mode = .alias follow ∨ AwaitsAlias follow mode)
    (ht : t.isName) :
    (s.step limit t rest).AtQuery opener below base (names.define t.value .aliasDefinition)
      (.columns follow) := by
  have haliased (q : Query) (w : Surroundings) : Query.aliasStep w q follow t rest =
      { body := .query ((q.defineAlias t.value).goto (.columns follow)),
        references := [{ parts := [t.value], span := t.span, role := .aliasDefinition }] } := by
    rw [Query.aliasStep, if_pos ht]
  rcases hmode with rfl | hmode
  · exact h.step_of_eq (haliased _ _)
  · have hstep := Query.step_of_awaitsAlias (s.surroundings limit) base names rest hmode
      (not_isMark_of_isName ht '(') (not_isMark_of_isName ht '.')
      (not_isKeyword_of_isName ht .TABLESAMPLE)
    rw [haliased] at hstep
    exact h.step_of_eq hstep

theorem AtQuery.step_as (h : s.AtQuery opener below base names mode) (limit : Nat)
    (rest : List Token) (hmode : AwaitsAlias follow mode) (ht : t.isKeyword .AS)
    (hrest : rest.head?.any isName) :
    (s.step limit t rest).AtQuery opener below base names (.alias follow) := by
  have hkind : t.kind = .keyword .AS := kind_of_isKeyword ht
  have hstep := Query.step_of_awaitsAlias (s.surroundings limit) base names rest hmode
    (not_isMark_of_isKeyword ht '(') (not_isMark_of_isKeyword ht '.')
    (by simp [isKeyword, hkind])
  have has (w : Surroundings) : Query.aliasStep w (.top base names mode) follow t rest =
      { body := .query (.top base names (.alias follow)) } := by
    simp [Query.aliasStep, isKeyword, isName, hkind, hrest]
    rfl
  rw [has] at hstep
  exact h.step_of_eq hstep

theorem AtQuery.advance_alias (h : s.AtQuery opener below base names mode) (limit : Nat)
    (after : List Token) (a : TableAlias) (hmode : AwaitsAlias follow mode) :
    (s.advance limit after a.tokens).AtQuery opener below base
      (names.define a.name.value .aliasDefinition) (.columns follow) := by
  rw [TableAlias.tokens]
  cases hword : a.word with
  | none =>
      rw [Option.toList_none, List.nil_append, advance_cons, advance_nil]
      exact h.step_alias limit after (Or.inr hmode) a.isName
  | some word =>
      rw [Option.toList_some, List.singleton_append, advance_cons, advance_cons, advance_nil]
      have has := h.step_as limit ([a.name] ++ after) hmode (a.isAs word hword)
        (by simpa using a.isName)
      exact has.step_alias limit after (Or.inl rfl) a.isName

/-- What comes after a complete table is read as if it came after the table list or
the join. -/
theorem Query.step_of_tableEnd (w : Surroundings) (base : Scope) (names : Names)
    (rest : List Token) (hmode : TableEnd follow mode)
    (ht : endsTable t) :
    ((Query.top base names mode).step w t rest).body =
        (Query.followStep w (.top base names mode) follow t rest).body ∧
      ((Query.top base names mode).step w t rest).action =
        (Query.followStep w (.top base names mode) follow t rest).action := by
  have hends : ¬ t.isMark '(' ∧ ¬ t.isMark '.' ∧ ¬ t.isName ∧ ¬ t.isKeyword .AS ∧
      ¬ t.isKeyword .TABLESAMPLE := by
    rw [endsTable, Bool.or_eq_true, Bool.or_eq_true] at ht
    simp only [isMark, isKeyword, beq_iff_eq] at ht
    rcases ht with (hk | hk) | hk <;> simp [isMark, isKeyword, isName, hk]
  obtain ⟨hopen, hdot, hname, has, hsample⟩ := hends
  cases hmode with
  | name n hn =>
      change (Query.nameStep w _ (.operand follow) n t rest).body = _ ∧
        (Query.nameStep w _ (.operand follow) n t rest).action = _
      rw [Query.nameStep, extend?_of_not_dot hn hdot]
      simp only [Query.nameEndStep]
      rw [if_neg hopen, Query.operandEndStep, if_neg hsample, Query.aliasStep, if_neg hname,
        if_neg fun h => has h.1]
      exact ⟨rfl, rfl⟩
  | columns =>
      change (Query.columnsStep w _ follow t rest).body = _ ∧
        (Query.columnsStep w _ follow t rest).action = _
      rw [Query.columnsStep, if_neg hopen]
      exact ⟨rfl, rfl⟩

theorem AtQuery.step_comma (h : s.AtQuery opener below base names mode) (limit : Nat)
    (rest : List Token)
    (hmode : TableEnd .list mode) (ht : t.isMark ',') :
    (s.step limit t rest).AtQuery opener below base names (.operand .list) := by
  have hends : endsTable t := by simp [endsTable, ht]
  obtain ⟨hbody, haction⟩ := Query.step_of_tableEnd (s.surroundings limit) base names
    rest hmode hends
  rw [Query.followStep, Query.listedStep, if_pos ht] at hbody haction
  exact h.step hbody haction

theorem AtQuery.step_join (h : s.AtQuery opener below base names mode) (limit : Nat)
    (rest : List Token)
    (hmode : TableEnd .list mode ∨ ∃ fresh, mode = .clauses fresh)
    (ht : t.isKeyword .JOIN) :
    (s.step limit t rest).AtQuery opener below base names (.operand .clause) := by
  have hkind : t.kind = .keyword .JOIN := kind_of_isKeyword ht
  have hclause (w : Surroundings) (fresh : Bool) :
      Query.clauseStep w (.top base names mode) fresh t rest =
        { body := .query (.top base names (.operand .clause)) } := by
    simp only [Query.clauseStep, hkind]
    rfl
  rcases hmode with hmode | ⟨fresh, rfl⟩
  · have hends : endsTable t := by simp [endsTable, ht]
    obtain ⟨hbody, haction⟩ := Query.step_of_tableEnd (s.surroundings limit) base names
      rest hmode hends
    rw [Query.followStep, Query.listedStep, if_neg (not_isMark_of_isKeyword ht ',')]
      at hbody haction
    exact h.step (hbody.trans (congrArg Outcome.body (hclause _ _)))
      (haction.trans (congrArg Outcome.action (hclause _ _)))
  · exact h.step (congrArg Outcome.body (hclause _ fresh))
      (congrArg Outcome.action (hclause _ fresh))

theorem AtQuery.step_on (h : s.AtQuery opener below base names mode) (limit : Nat)
    (rest : List Token)
    (hmode : TableEnd .clause mode) (ht : t.isKeyword .ON) :
    (s.step limit t rest).AtQuery opener below base names (.clauses false) := by
  have hends : endsTable t := by simp [endsTable, ht]
  have hidle := isIdle_of_isKeyword ht (by decide)
  obtain ⟨hbody, haction⟩ := Query.step_of_tableEnd (s.surroundings limit) base names
    rest hmode hends
  rw [Query.followStep, Query.clauseStep_of_isIdle _ _ _ _ hidle] at hbody haction
  exact h.step hbody haction

/-! ## Tables that are recorded, and tables that are passed over -/

/-- The next token does not go on with a name and does not make it a function. -/
def EndsName (ts : List Token) : Prop := ∀ t ∈ ts.head?, ¬ t.isMark '.' ∧ ¬ t.isMark '('

/-- None of the tables has one of the names. -/
def Misses (names : Names) (tables : List AliasedTable) : Prop :=
  ∀ r ∈ tables, r.name.read.single?.bind names.lookup? = none

/-- Somewhere in the tokens the scan has read the table as one, and the name is not
bound. -/
def Visits (limit : Nat) (s : Scan) (ts : List Token) (n : TableName) : Prop :=
  ∃ us vs names follow, ts = us ++ vs ∧
    (s.advance limit vs us).AtTop [[]] names (.name (.operand follow) n.read) ∧
    EndsName vs ∧ n.read.single?.bind names.lookup? = none

/-- Somewhere in the tokens the scan stands before the table without expecting it. -/
def Skips (limit : Nat) (s : Scan) (ts : List Token) (n : TableName) : Prop :=
  ∃ us vs names fresh, ts = us ++ n.first :: vs ∧
    (s.advance limit (n.first :: vs) us).AtTop [[]] names (.clauses fresh)

theorem Visits.append (xs : List Token) {n : TableName}
    (h : Visits limit (s.advance limit ts xs) ts n) : Visits limit s (xs ++ ts) n := by
  obtain ⟨us, vs, names, follow, rfl, htop, hends, hnames⟩ := h
  refine ⟨xs ++ us, vs, names, follow, (List.append_assoc _ _ _).symm, ?_, hends, hnames⟩
  rwa [advance_append]

theorem Skips.append (xs : List Token) {n : TableName}
    (h : Skips limit (s.advance limit ts xs) ts n) : Skips limit s (xs ++ ts) n := by
  obtain ⟨us, vs, names, fresh, rfl, htop⟩ := h
  refine ⟨xs ++ us, vs, names, fresh, (List.append_assoc _ _ _).symm, ?_⟩
  rwa [advance_append]

theorem Visits.records {n : TableName} (h : Visits limit start ts n) :
    ∃ r ∈ (find limit ts).references,
      r.parts = n.read.parts ∧ r.span = n.read.span ∧ r.role = .source := by
  obtain ⟨us, vs, names, follow, rfl, htop, hends, hnames⟩ := h
  have hrole : ((Query.top [[]] names (.name (.operand follow) n.read)).reference n.read).role =
      .source := by
    change (if n.read.dangling then Role.unresolved
      else (n.read.single?.bind (Scope.lookup? (names :: [[]]))).getD .source) = _
    rw [if_neg (by simp [TableName.read])]
    cases hsingle : n.read.single? with
    | none => rfl
    | some v =>
        rw [hsingle, Option.bind_some] at hnames
        rw [Option.bind_some, Scope.lookup?_cons, hnames]
        rfl
  refine ⟨_, mem_references.mpr ⟨us, vs, rfl, _, ?_, by rw [htop.fated]; rfl⟩, rfl, rfl, hrole⟩
  cases vs with
  | nil =>
      rw [brings, htop.body]
      exact List.mem_singleton_self _
  | cons t rest =>
      obtain ⟨hdot, hopen⟩ := hends t rfl
      rw [brings, outcome_query htop.body]
      change _ ∈ (Query.nameStep _ _ (.operand follow) n.read t rest).references
      rw [Query.nameStep, extend?_of_not_dot rfl hdot]
      simp only [Query.nameEndStep]
      rw [if_neg hopen]
      exact List.mem_cons_self

/-- A table that is passed over is recorded nowhere. -/
theorem Skips.not_records {n : TableName} (h : Skips limit start ts n) (hts : Ordered ts) :
    ¬ ∃ r ∈ (find limit ts).references,
      r.parts = n.read.parts ∧ r.span = n.read.span ∧ r.role = .source := by
  rintro ⟨r, hr, -, hspan, hrole⟩
  obtain ⟨us, vs, names, fresh, rfl, htop⟩ := h
  obtain ⟨xs, ys, hxs, r', hr', rfl⟩ := mem_references.mp hr
  rw [fated_span] at hspan
  rcases origin_of_brings isNest_start rfl hr' with
    ⟨m, hrefers, before, w, since, rfl, -, hpending, hread⟩ |
      ⟨u, rest, -, -, -, -, hnot⟩
  · -- The name began with the first token of the table, which starts no name.
    have hoffset : n.first.offset = w.offset := by
      have hstart := DottedName.start_of_extendAll? hread
      rw [hrefers.name_eq.2] at hspan
      have heq := congrArg Span.start hspan
      simp only [DottedName.span, hstart, DottedName.ofToken, TableName.read] at heq
      omega
    have hcut : us ++ n.first :: vs = before ++ w :: (since ++ ys) := by
      rw [hxs, List.append_assoc, List.cons_append]
    obtain ⟨rfl, rfl, rfl⟩ := hts.eq_of_offset_eq hcut hoffset
    have hidle := (htop.step_idle limit (since ++ ys)
      (isIdle_of_isCandidate n.candidate)).pending?
    rw [advance_append, advance_cons, advance_nil, List.nil_append] at hpending
    rw [List.singleton_append, hidle] at hpending
    cases hpending
  · have hsource : (Reference.isSource r') = true := by
      rw [← fated_isSource (start.advance limit ys xs) ys, Reference.isSource, hrole,
        Role.isSource]
    rw [hsource] at hnot
    cases hnot

/-! ## Items -/

theorem endsName_nil : EndsName [] := by
  simp [EndsName]

theorem endsName_of_endsTable (ht : endsTable t) (ts : List Token) : EndsName (t :: ts) := by
  intro u hu
  obtain rfl : t = u := Option.some.inj hu
  rw [endsTable, Bool.or_eq_true, Bool.or_eq_true] at ht
  simp only [isMark, isKeyword, beq_iff_eq] at ht
  rcases ht with (hk | hk) | hk <;> simp [isMark, hk]

theorem TableAlias.endsName (a : TableAlias) (ts : List Token) : EndsName (a.tokens ++ ts) := by
  intro u hu
  rw [TableAlias.tokens] at hu
  cases hword : a.word with
  | none =>
      rw [hword] at hu
      obtain rfl : a.name = u := Option.some.inj hu
      exact ⟨not_isMark_of_isName a.isName '.', not_isMark_of_isName a.isName '('⟩
  | some word =>
      rw [hword] at hu
      obtain rfl : word = u := Option.some.inj hu
      have has := a.isAs word hword
      exact ⟨not_isMark_of_isKeyword has '.', not_isMark_of_isKeyword has '('⟩

variable {tables : List AliasedTable}

theorem Misses.define {r : AliasedTable} (h : Misses names tables) (hr : r.Avoids tables)
    {a : TableAlias} (ha : a ∈ r.alias) :
    Misses (names.define a.name.value .aliasDefinition) tables := by
  intro r' hr'
  have hmiss := h r' hr'
  have hne := hr a ha r' hr'
  cases hv : r'.name.read.single? with
  | none => rfl
  | some v =>
      rw [hv, Option.map_some, ne_eq, Option.some.injEq] at hne
      rw [hv, Option.bind_some] at hmiss
      rw [Option.bind_some, Names.lookup?_define, if_neg hne, hmiss]

theorem AtQuery.advance_table (h : s.AtTop [[]] names (.operand follow)) (limit : Nat)
    (r : AliasedTable) (hmisses : Misses names tables) (hr : r ∈ tables) (havoids : r.Avoids tables)
    (hts : EndsName ts) :
    Visits limit s (r.tokens ++ ts) r.name ∧
      ∃ names' mode', (s.advance limit ts r.tokens).AtTop [[]] names' mode' ∧
        TableEnd follow mode' ∧ Misses names' tables := by
  have hname (after : List Token) := h.advance_name limit after r.name
  rw [AliasedTable.tokens]
  cases ha : r.alias with
  | none =>
      rw [Option.map_none, Option.getD_none, List.append_nil]
      exact ⟨⟨r.name.tokens, ts, names, follow, rfl, hname ts, hts, hmisses r hr⟩,
        names, _, hname ts, .name _ rfl, hmisses⟩
  | some a =>
      rw [Option.map_some, Option.getD_some]
      refine ⟨⟨r.name.tokens, a.tokens ++ ts, names, follow, List.append_assoc _ _ _,
        hname _, TableAlias.endsName a ts, hmisses r hr⟩, _, _, ?_, .columns,
        hmisses.define havoids ha⟩
      rw [advance_append]
      exact (hname _).advance_alias limit ts a (.name _ rfl)

theorem AtQuery.advance_join (h : s.AtTop [[]] names mode) (limit : Nat) (ts : List Token)
    (j : TableJoin) (hmode : TableEnd .list mode ∨ ∃ fresh, mode = .clauses fresh)
    (hmisses : Misses names tables) (hr : j.table ∈ tables)
    (havoids : j.table.Avoids tables) :
    Visits limit s (j.tokens ++ ts) j.table.name ∧
      ∃ names' fresh, (s.advance limit ts j.tokens).AtTop [[]] names' (.clauses fresh) ∧
        Misses names' tables := by
  have hends : EndsName (j.on :: (j.cond ++ ts)) :=
    endsName_of_endsTable (by simp [endsTable, j.isOn]) _
  have hword := h.step_join limit (j.table.tokens ++ j.on :: (j.cond ++ ts)) hmode j.isJoin
  obtain ⟨hvisits, names', mode', htable, hend, hmisses'⟩ :=
    hword.advance_table limit j.table hmisses hr havoids hends
  obtain ⟨fresh, hcond⟩ := (htable.step_on limit (j.cond ++ ts) hend j.isOn).advance_idle
    limit ts (idle_of_balanced j.balanced j.plain)
  have htokens : j.tokens ++ ts = [j.word] ++ (j.table.tokens ++ j.on :: (j.cond ++ ts)) := by
    simp [TableJoin.tokens]
  refine ⟨?_, names', fresh, ?_, hmisses'⟩
  · rw [htokens]
    exact Visits.append [j.word] hvisits
  · rw [TableJoin.tokens, List.cons_append, advance_cons, advance_append, advance_cons,
      List.append_assoc, List.cons_append]
    exact hcond

/-- Joins are read one after the other; each one records its table. -/
theorem AtQuery.advance_joins (h : s.AtTop [[]] names mode) (limit : Nat) (ts : List Token)
    (js : List TableJoin) (hmode : TableEnd .list mode ∨ ∃ fresh, mode = .clauses fresh)
    (hmisses : Misses names tables) (hr : ∀ j ∈ js, j.table ∈ tables)
    (havoids : ∀ j ∈ js, j.table.Avoids tables) :
    (∀ j ∈ js, Visits limit s (js.flatMap TableJoin.tokens ++ ts) j.table.name) ∧
      ∃ names' mode',
        (s.advance limit ts (js.flatMap TableJoin.tokens)).AtTop [[]] names' mode' ∧
        (js = [] → mode' = mode) ∧ (js ≠ [] → ∃ fresh, mode' = .clauses fresh) ∧
        Misses names' tables := by
  induction js generalizing s names mode with
  | nil => exact ⟨by simp, names, mode, h, fun _ => rfl, fun h => absurd rfl h, hmisses⟩
  | cons j js ih =>
      rw [List.forall_mem_cons] at hr havoids
      obtain ⟨hvisits, names', fresh, hj, hmisses'⟩ :=
        h.advance_join limit (js.flatMap TableJoin.tokens ++ ts) j hmode hmisses hr.1
          havoids.1
      obtain ⟨hrest, names'', mode'', hjs, hnil, hcons, hmisses''⟩ :=
        ih hj (Or.inr ⟨fresh, rfl⟩) hmisses' hr.2 havoids.2
      rw [List.flatMap_cons, List.append_assoc]
      refine ⟨?_, names'', mode'', ?_, fun h => absurd h (List.cons_ne_nil j js), ?_, hmisses''⟩
      · rw [List.forall_mem_cons]
        exact ⟨hvisits, fun j' hj' => Visits.append _ (hrest j' hj')⟩
      · rw [advance_append]
        exact hjs
      · intro _
        by_cases hempty : js = []
        · exact ⟨fresh, hnil hempty⟩
        · exact hcons hempty

/-- An item records all of its tables; the list goes on after it when it has no
joins. -/
theorem AtQuery.advance_item (h : s.AtTop [[]] names (.operand .list)) (limit : Nat)
    (i : FromItem) (hmisses : Misses names tables) (hr : ∀ r ∈ i.tables, r ∈ tables)
    (havoids : ∀ r ∈ i.tables, r.Avoids tables) (hts : EndsName ts) :
    (∀ r ∈ i.tables, Visits limit s (i.tokens ++ ts) r.name) ∧
      ∃ names' mode', (s.advance limit ts i.tokens).AtTop [[]] names' mode' ∧
        (i.joins = [] → TableEnd .list mode') ∧
        (i.joins ≠ [] → ∃ fresh, mode' = .clauses fresh) ∧ Misses names' tables := by
  rw [FromItem.tables, List.forall_mem_cons, List.forall_mem_map] at hr havoids ⊢
  have hends : EndsName (i.joins.flatMap TableJoin.tokens ++ ts) := by
    cases hjoins : i.joins with
    | nil => exact hts
    | cons j js => exact endsName_of_endsTable (by simp [endsTable, j.isJoin]) _
  obtain ⟨hvisits, names', mode', htable, hend, hmisses'⟩ :=
    h.advance_table limit i.table hmisses hr.1 havoids.1 hends
  obtain ⟨hrest, names'', mode'', hjoins, hnil, hcons, hmisses''⟩ :=
    htable.advance_joins limit ts i.joins (Or.inl hend) hmisses' hr.2 havoids.2
  rw [FromItem.tokens, List.append_assoc]
  refine ⟨⟨hvisits, fun j hj => Visits.append _ (hrest j hj)⟩, names'', mode'', ?_, ?_, hcons,
    hmisses''⟩
  · rw [advance_append]
    exact hjoins
  · intro hempty
    rw [hnil hempty]
    exact hend

theorem endsName_listTokens {more : List (Token × FromItem)}
    (hcommas : ∀ p ∈ more, p.1.isMark ',') : EndsName (FromItem.listTokens more) := by
  cases more with
  | nil => exact endsName_nil
  | cons p more =>
      have hcomma := hcommas p List.mem_cons_self
      exact endsName_of_endsTable (by simp [endsTable, hcomma]) _

/-- As long as the items are plain tables, the list goes on. -/
theorem AtQuery.visits_items (h : s.AtTop [[]] names (.operand .list)) (limit : Nat)
    (first : FromItem) (more : List (Token × FromItem))
    (hcommas : ∀ p ∈ more, p.1.isMark ',') (hmisses : Misses names tables)
    (hr : ∀ i ∈ first :: more.map (·.2), ∀ r ∈ i.tables, r ∈ tables)
    (havoids : ∀ r ∈ tables, r.Avoids tables)
    (hplain : ∀ i ∈ (first :: more.map (·.2)).dropLast, i.joins = []) :
    ∀ i ∈ first :: more.map (·.2), ∀ r ∈ i.tables,
      Visits limit s (first.tokens ++ FromItem.listTokens more) r.name := by
  induction more generalizing s names first with
  | nil =>
      rw [List.map_nil, List.forall_mem_singleton] at hr ⊢
      exact (h.advance_item limit first hmisses hr (fun r hmem => havoids r (hr r hmem))
        endsName_nil).1
  | cons p more ih =>
      rw [List.map_cons, List.dropLast_cons_cons, List.forall_mem_cons] at hplain
      rw [List.map_cons, List.forall_mem_cons] at hr ⊢
      obtain ⟨hvisits, names', mode', hitem, hend, -, hmisses'⟩ :=
        h.advance_item limit first hmisses hr.1
          (fun r hmem => havoids r (hr.1 r hmem)) (endsName_listTokens hcommas)
      rw [List.forall_mem_cons] at hcommas
      refine ⟨hvisits, fun i hi r hmem => Visits.append _ ?_⟩
      have hcomma := hitem.step_comma limit
        (p.2.tokens ++ FromItem.listTokens more) (hend hplain.1) hcommas.1
      exact Visits.append [p.1]
        (ih hcomma p.2 hcommas.2 hmisses' hr.2 hplain.2 i hi r hmem)

/-- The item after one with joins is passed over. -/
theorem AtQuery.skips_items (h : s.AtTop [[]] names (.operand .list)) (limit : Nat)
    (first : FromItem) (more : List (Token × FromItem))
    (hcommas : ∀ p ∈ more, p.1.isMark ',') (hmisses : Misses names tables)
    (hr : ∀ i ∈ first :: more.map (·.2), ∀ r ∈ i.tables, r ∈ tables)
    (havoids : ∀ r ∈ tables, r.Avoids tables)
    (hjoins : ∃ i ∈ (first :: more.map (·.2)).dropLast, i.joins ≠ []) :
    ∃ r ∈ tables, Skips limit s (first.tokens ++ FromItem.listTokens more) r.name := by
  induction more generalizing s names first with
  | nil =>
      obtain ⟨i, hi, -⟩ := hjoins
      cases hi
  | cons p more ih =>
      rw [List.map_cons, List.forall_mem_cons] at hr
      obtain ⟨-, names', mode', hitem, hend, hclauses, hmisses'⟩ :=
        h.advance_item limit first hmisses hr.1
          (fun r hmem => havoids r (hr.1 r hmem)) (endsName_listTokens hcommas)
      rw [List.forall_mem_cons] at hcommas
      by_cases hfirst : first.joins = []
      · have hcomma := hitem.step_comma limit
          (p.2.tokens ++ FromItem.listTokens more) (hend hfirst) hcommas.1
        have hlater : ∃ i ∈ (p.2 :: more.map (·.2)).dropLast, i.joins ≠ [] := by
          obtain ⟨i, hi, hne⟩ := hjoins
          rw [List.map_cons, List.dropLast_cons_cons, List.mem_cons] at hi
          rcases hi with rfl | hi
          · exact absurd hfirst hne
          · exact ⟨i, hi, hne⟩
        obtain ⟨r, hmem, hskips⟩ := ih hcomma p.2 hcommas.2 hmisses' hr.2 hlater
        exact ⟨r, hmem, Skips.append _ (Skips.append [p.1] hskips)⟩
      · obtain ⟨fresh, rfl⟩ := hclauses hfirst
        have hcomma := hitem.step_idle (t := p.1) limit
          (p.2.tokens ++ FromItem.listTokens more) (isIdle_of_isMark hcommas.1 (by decide))
        refine ⟨p.2.table, hr.2 p.2 List.mem_cons_self _ List.mem_cons_self,
          Skips.append _ ?_⟩
        refine ⟨[p.1], _, names', false, ?_, hcomma⟩
        simp [FromItem.listTokens, FromItem.tokens, AliasedTable.tokens, TableName.tokens]

end Scan

namespace FromStatement

open Scan

/-- The list of tables begins after `SELECT * FROM`. -/
theorem advance_source (f : FromStatement) (limit : Nat) (after : List Token) :
    (start.advance limit after [f.select, f.star, f.source]).AtTop [[]] []
      (.operand .list) :=
  atTop_selectFrom f.isSelect f.isStar f.isFrom limit after

/-- All tables of a FROM clause are recorded exactly when only the last item has
joins. -/
theorem recordsTables_iff (f : FromStatement) (index : Nat) (hnames : f.IsUnambiguous)
    (horder : Ordered f.tokens) :
    (∀ r ∈ f.tables, (Statement.scan ⟨index, f.tokens⟩).Records r.name) ↔
      ∀ i ∈ f.items.dropLast, i.joins = [] := by
  have htop := f.advance_source depthLimit
    (f.first.tokens ++ FromItem.listTokens f.more)
  have hmisses : Misses [] f.tables := fun r _ => by
    cases r.name.read.single? <;> rfl
  have hr : ∀ i ∈ f.first :: f.more.map (·.2), ∀ r ∈ i.tables, r ∈ f.tables :=
    fun i hi r hmem => List.mem_flatMap.mpr ⟨i, hi, hmem⟩
  have hrecords (n : TableName) : (Statement.scan ⟨index, f.tokens⟩).Records n ↔
      ∃ r ∈ (find depthLimit f.tokens).references,
        r.parts = n.read.parts ∧ r.span = n.read.span ∧ r.role = .source := by
    simp [Findings.Records, Statement.scan]
  constructor
  · intro h
    by_contra hjoins
    push Not at hjoins
    obtain ⟨r, hmem, hskips⟩ :=
      htop.skips_items depthLimit f.first f.more f.commas hmisses hr hnames hjoins
    exact (Skips.append _ hskips).not_records horder ((hrecords r.name).mp (h r hmem))
  · intro hplain r hmem
    obtain ⟨i, hi, hmem⟩ := List.mem_flatMap.mp hmem
    have hvisits := htop.visits_items depthLimit f.first f.more f.commas hmisses hr
      hnames hplain i hi r hmem
    exact (hrecords r.name).mpr (Visits.append _ hvisits).records

/-- A join in the last item leaves no table out. -/
theorem recordsTables_lastJoin :
    ∃ f : FromStatement,
      [f.tokens] = (Statement.ofScript "SELECT * FROM a, b JOIN c ON b.x = 1").map
        Statement.tokens ∧
      f.IsUnambiguous ∧ Ordered f.tokens ∧
      ∀ r ∈ f.tables, (Statement.scan ⟨0, f.tokens⟩).Records r.name := by
  refine ⟨{
    select := ⟨.keyword .SELECT, "SELECT", 0⟩
    star := ⟨.punctuation '*', "*", 7⟩
    source := ⟨.keyword .FROM, "FROM", 9⟩
    first := ⟨.bare ⟨.identifier, "a", 14⟩ (by decide), []⟩
    more := [(⟨.punctuation ',', ",", 15⟩, ⟨.bare ⟨.identifier, "b", 17⟩ (by decide), [{
      word := ⟨.keyword .JOIN, "JOIN", 19⟩
      table := .bare ⟨.identifier, "c", 24⟩ (by decide)
      on := ⟨.keyword .ON, "ON", 26⟩
      cond := [⟨.identifier, "b", 29⟩, ⟨.punctuation '.', ".", 30⟩, ⟨.identifier, "x", 31⟩,
        ⟨.punctuation '=', "=", 33⟩, ⟨.number, "1", 35⟩]
      isJoin := by decide
      isOn := by decide
      balanced := by decide
      plain := by decide }]⟩)]
    isSelect := by decide
    isStar := by decide
    isFrom := by decide
    commas := by decide }, by decide +kernel, by decide, by decide, ?_⟩
  exact (recordsTables_iff _ 0 (by decide) (by decide)).mpr (by decide)

/-- The comma after a join brings no table: `c` is left out. -/
theorem not_recordsTables_earlyJoin :
    ∃ f : FromStatement,
      [f.tokens] = (Statement.ofScript "SELECT * FROM a JOIN b ON a.x = b.x, c").map
        Statement.tokens ∧
      f.IsUnambiguous ∧ Ordered f.tokens ∧
      ¬ ∀ r ∈ f.tables, (Statement.scan ⟨0, f.tokens⟩).Records r.name := by
  refine ⟨{
    select := ⟨.keyword .SELECT, "SELECT", 0⟩
    star := ⟨.punctuation '*', "*", 7⟩
    source := ⟨.keyword .FROM, "FROM", 9⟩
    first := ⟨.bare ⟨.identifier, "a", 14⟩ (by decide), [{
      word := ⟨.keyword .JOIN, "JOIN", 16⟩
      table := .bare ⟨.identifier, "b", 21⟩ (by decide)
      on := ⟨.keyword .ON, "ON", 23⟩
      cond := [⟨.identifier, "a", 26⟩, ⟨.punctuation '.', ".", 27⟩, ⟨.identifier, "x", 28⟩,
        ⟨.punctuation '=', "=", 30⟩, ⟨.identifier, "b", 32⟩, ⟨.punctuation '.', ".", 33⟩,
        ⟨.identifier, "x", 34⟩]
      isJoin := by decide
      isOn := by decide
      balanced := by decide
      plain := by decide }]⟩
    more := [(⟨.punctuation ',', ",", 35⟩, ⟨.bare ⟨.identifier, "c", 37⟩ (by decide), []⟩)]
    isSelect := by decide
    isStar := by decide
    isFrom := by decide
    commas := by decide }, by decide +kernel, by decide, by decide, by decide⟩

end FromStatement

end SqlTables
