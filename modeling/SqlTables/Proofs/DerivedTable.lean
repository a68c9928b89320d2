import SqlTables.Proofs.Scan.Enclosed
import SqlTables.Proofs.Scan.Reads
import SqlTables.Proofs.Subquery

/-!
# Queries as derived tables

A query `q` names the same tables as the statement `SELECT * FROM (q) x`, if it starts
with `SELECT`, `WITH` or `VALUES`; a query that starts with `FROM` is a statement as
well, but in parentheses it is passed over (`DerivedTable.keepsTables_iff`).

The group is entered as a query of its own, in whose scopes nothing is named, so it names
what the query names without the statement around (`Scan.tableNames_gather_group`).
-/

namespace SqlTables

/-- A statement `SELECT * FROM (query) name`. -/
structure DerivedTable where
  /-- The query by itself. -/
  query : List Token
  select : Token
  star : Token
  source : Token
  group : TokenGroup
  name : Token
  /-- How far the query is moved in the statement. -/
  shift : Int
  isSelect : select.isKeyword .SELECT
  isStar : star.isMark '*'
  isFrom : source.isKeyword .FROM
  isName : name.isName
  displaced : List.Forall₂ (Token.Displaced shift) query group.content

/-- A displaced token is moved back to where it was. -/
theorem Token.Displaced.moved_back {shift : Int} {t u : Token} (h : t.Displaced shift u) :
    u.Moved (· - shift) t := by
  have hoffset : (t.offset : Int) = u.offset - shift := by rw [h.offset, Int.add_sub_cancel]
  have hstop : (t.stop : Int) = u.stop - shift := by
    have hlength := congrArg String.length h.text
    simp only [Token.stop]
    omega
  exact ⟨h.kind.symm, fun _ => h.value.symm, Span.mk.injEq .. ▸ ⟨hoffset, hstop⟩⟩

namespace DerivedTable

def tokens (d : DerivedTable) : List Token :=
  [d.select, d.star, d.source] ++ (d.group.tokens ++ [d.name])

/-- The query starts with the word, names nothing that is created or merged into, and
has at most 98 parentheses open at once. -/
structure IsPlain (head : Keyword) (d : DerivedTable) : Prop where
  head : d.query.head?.any fun t => t.isKeyword head
  creates : ∀ t ∈ d.query, ¬ t.isKeyword .CREATE
  merges : ∀ t ∈ d.query, ¬ t.isKeyword .MERGE
  depth : Token.peak 0 d.query ≤ 98

/-- The words that start a query. -/
def queryHeads : List Keyword := [.SELECT, .WITH, .VALUES, .FROM]

/-- A query that starts with the word names the same tables in a statement around. -/
def KeepsTables (head : Keyword) : Prop :=
  ∀ d : DerivedTable, d.IsPlain head → ∀ index : Nat,
    (Statement.mk index d.tokens).tableNames = (Statement.mk index d.query).tableNames

end DerivedTable

namespace Scan

open Token

variable {limit : Nat} {s : Scan} {rest : List Token}

/-! ## The same query at another place -/

theorem peak_displaced {shift : Int} {ts us : List Token}
    (h : List.Forall₂ (Token.Displaced shift) ts us) (depth : Nat) :
    peak depth us = peak depth ts := by
  induction h generalizing depth with
  | nil => rfl
  | @cons t u ts us ht hts ih =>
      have hmark (c : Char) : u.isMark c = t.isMark c := ofKind_isMark c t u ht.kind
      rw [peak, peak, ih, nest, nest, hmark, hmark]

theorem forall_displaced {shift : Int} {ts us : List Token} {p : Token → Bool} (hp : OfKind p)
    (h : List.Forall₂ (Token.Displaced shift) ts us) (hts : ∀ t ∈ ts, ¬ p t) :
    ∀ u ∈ us, ¬ p u := by
  induction h with
  | nil => simp
  | @cons t u ts us ht hrest ih =>
      rw [List.forall_mem_cons] at hts ⊢
      exact ⟨by rw [hp t u ht.kind]; exact hts.1, ih hts.2⟩

/-- Tokens name the same tables wherever they stand. -/
theorem tableNames_find_displaced (limit : Nat) {shift : Int} {ts us : List Token}
    (h : List.Forall₂ (Token.Displaced shift) ts us) :
    Reference.tableNames (find limit us).references =
      Reference.tableNames (find limit ts).references := by
  have hback : List.Forall₂ (Token.Moved (· - shift)) us ts :=
    h.flip.imp fun _ _ ht => ht.moved_back
  rw [find_moved limit hback,
    Reference.tableNames_map (f := Reference.map (· - shift)) (fun _ => rfl) (fun _ => rfl)]

/-! ## The statement around -/

/-- After `SELECT * FROM` a table is expected. -/
theorem atTop_source (d : DerivedTable) (limit : Nat) (after : List Token) :
    (start.advance limit after [d.select, d.star, d.source]).AtTop [[]] [] (.operand .list) :=
  atTop_selectFrom d.isSelect d.isStar d.isFrom limit after

theorem tableNames_source (d : DerivedTable) (limit : Nat) (after : List Token) :
    Reference.tableNames (start.gather limit after [d.select, d.star, d.source]) = [] := by
  have hread := reads_selectFrom d.isSelect d.isStar d.isFrom limit after
  exact (List.append_eq_nil_iff.mp hread.names).1

theorem merging_source (d : DerivedTable) (limit : Nat) (after : List Token) :
    (start.advance limit after [d.select, d.star, d.source]).merging = false := by
  have hselect := kind_of_isKeyword d.isSelect
  have hstar := kind_of_isMark d.isStar
  have hfrom := kind_of_isKeyword d.isFrom
  refine (merging_advance fun t ht => ?_).trans rfl
  simp only [List.mem_cons, List.not_mem_nil, or_false] at ht
  rcases ht with rfl | rfl | rfl
  · simp [steersMerge, isKeyword, hselect]
  · simp [steersMerge, isKeyword, hstar]
  · simp [steersMerge, isKeyword, hfrom]

/-- The name of a derived table ends it. -/
theorem atTop_name (d : DerivedTable) (hs : s.AtTop [[]] [] (.operandEnd .list)) (limit : Nat)
    (rest : List Token) :
    ∃ names, (s.step limit d.name rest).AtTop [[]] names (.columns .list) := by
  have hsample : ¬ d.name.isKeyword .TABLESAMPLE := not_isKeyword_of_isName d.isName _
  refine ⟨Names.define [] d.name.value .aliasDefinition, hs.step ?_ ?_⟩
  · change (Query.operandEndStep _ _ .list _ _).body = _
    rw [Query.operandEndStep, if_neg hsample, Query.aliasStep, if_pos d.isName]
    rfl
  · change (Query.operandEndStep _ _ .list _ _).action = _
    rw [Query.operandEndStep, if_neg hsample, Query.aliasStep, if_pos d.isName]

/-- A closed subquery in the table list names the tables that it names by itself, if it
stays clear of the depth limit. -/
theorem tableNames_group (d : DerivedTable) (limit : Nat)
    (hs : s.AtTop [[]] [] (.operand .list)) (hmerging : s.merging = false)
    (hhead : d.group.content.head?.any startsSubquery)
    (hcreates : ∀ t ∈ d.group.content, ¬ t.isKeyword .CREATE)
    (hpeak : peak 0 d.group.content + 2 ≤ limit) :
    Reference.tableNames (s.gather limit [d.name] d.group.tokens) =
      Reference.tableNames (find limit d.group.content).references := by
  have hlimit : 1 < limit := by omega
  have haction := hs.opensSubquery_operand hlimit d.group.opener
    (d.group.content ++ d.group.closer :: [d.name]) d.group.isOpening
    (startsSubquery_append hhead _)
  have hroom : peak (s.below.length + 1) d.group.content < limit := by
    have hle := peak_le_add (Nat.le_refl (0 + 1)) d.group.content
    rw [hs.below, List.length_nil]
    omega
  rw [tableNames_gather_group d.group hs.isNest lookup?_unnamed haction hmerging hcreates hroom,
    tableNames_outcome hs.pending?, List.nil_append]

/-- A closed subquery in the table list is a table there. -/
theorem atTop_group (d : DerivedTable) (limit : Nat) (hs : s.AtTop [[]] [] (.operand .list))
    (hhead : d.group.content.head?.any startsSubquery) :
    (s.advance limit [d.name] d.group.tokens).AtTop [[]] [] (.operandEnd .list) := by
  have hopening := d.group.isOpening
  have hlateral : ¬ d.group.opener.isKeyword .LATERAL := fun hk =>
    not_isMark_of_isKeyword hk '(' hopening
  refine hs.group limit [d.name] hopening d.group.isClosing d.group.balanced ?_ ?_
  · change (Query.operandStep _ _ .list _ _).body = _
    rw [Query.operandStep, if_neg hlateral, if_pos hopening]
    rfl
  · rw [← outcome_query hs.body]
    exact fun body => kind_of_enter (startsSubquery_append hhead _)

/-- A query that starts as a subquery does names the same tables in a statement around
it, if it stays clear of the depth limit. -/
theorem tableNames_find_derived (limit : Nat) (d : DerivedTable)
    (hhead : d.group.content.head?.any startsSubquery)
    (hcreates : ∀ t ∈ d.group.content, ¬ t.isKeyword .CREATE)
    (hpeak : peak 0 d.group.content + 2 ≤ limit) :
    Reference.tableNames (find limit d.tokens).references =
      Reference.tableNames (find limit d.group.content).references := by
  have hsource := atTop_source d limit (d.group.tokens ++ [d.name])
  have hskipped := tableNames_source d limit (d.group.tokens ++ [d.name])
  have hgroup := tableNames_group d limit hsource (merging_source d limit _) hhead hcreates hpeak
  have hleft := atTop_group d limit hsource hhead
  obtain ⟨names, hname⟩ := atTop_name d hleft limit []
  have hlast : start.advance limit [] d.tokens =
      ((start.advance limit (d.group.tokens ++ [d.name]) [d.select, d.star, d.source]).advance
        limit [d.name] d.group.tokens).step limit d.name [] := by
    rw [DerivedTable.tokens, advance_append, advance_append, List.append_nil, List.append_nil]
    rfl
  have hend : (start.advance limit [] d.tokens).remainder = [] := by
    rw [hlast]
    exact remainder_of_pending?_eq_none hname.pending?
  rw [find_references, hend, List.append_nil, DerivedTable.tokens, gather_append, gather_append,
    List.append_nil, List.append_nil, Reference.tableNames_append, Reference.tableNames_append,
    hskipped, hgroup,
    tableNames_gather_cons hleft.pending?, List.nil_append]
  exact List.append_nil _

end Scan

namespace DerivedTable

open Scan Token

/-- The query `FROM a SELECT *`, and the statement `SELECT * FROM (FROM a SELECT *) x`. -/
def fromFirst : DerivedTable where
  query := (Lexer.scanFrom 0 0 "FROM a SELECT *".toList).filter Token.isSignificant
  select := ⟨.keyword .SELECT, "SELECT", 0⟩
  star := ⟨.punctuation '*', "*", 7⟩
  source := ⟨.keyword .FROM, "FROM", 9⟩
  group :=
    { opener := ⟨.punctuation '(', "(", 14⟩
      content := (Lexer.scanFrom 15 0 "FROM a SELECT *".toList).filter Token.isSignificant
      closer := ⟨.punctuation ')', ")", 30⟩
      isOpening := by decide
      isClosing := by decide
      balanced := by decide +kernel }
  name := ⟨.identifier, "x", 32⟩
  shift := 15
  isSelect := by decide
  isStar := by decide
  isFrom := by decide
  isName := by decide
  displaced := .cons ⟨rfl, rfl, rfl⟩ (.cons ⟨rfl, rfl, rfl⟩ (.cons ⟨rfl, rfl, rfl⟩
    (.cons ⟨rfl, rfl, rfl⟩ .nil)))

/-- A query that starts as a subquery does names the same tables as a derived table. -/
theorem tableNames_tokens (d : DerivedTable) (index : Nat)
    (hhead : d.query.head?.any startsSubquery) (hcreates : ∀ t ∈ d.query, ¬ t.isKeyword .CREATE)
    (hdepth : peak 0 d.query ≤ 98) :
    (Statement.mk index d.tokens).tableNames = (Statement.mk index d.query).tableNames := by
  have halike := Alike.of_forall₂ (d.displaced.imp fun _ _ h => h.kind) .nil
  rw [List.append_nil, List.append_nil] at halike
  have hhead' : d.group.content.head?.any startsSubquery := by
    rwa [halike.sameSight.subquery]
  have hcreates' := forall_displaced (ofKind_isKeyword .CREATE) d.displaced hcreates
  have hpeak : peak 0 d.group.content + 2 ≤ depthLimit := by
    rw [peak_displaced d.displaced]
    exact Nat.add_le_add_right hdepth 2
  rw [Statement.tableNames_eq, Statement.tableNames_eq,
    tableNames_find_derived depthLimit d hhead' hcreates' hpeak,
    tableNames_find_displaced depthLimit d.displaced]

theorem startsSubquery_of_isKeyword {t : Token} {head : Keyword} (ht : t.isKeyword head)
    (h : head ∈ queryHeads) (hne : head ≠ .FROM) : startsSubquery t := by
  have hwords : ∀ word ∈ queryHeads, word ≠ .FROM →
      word ∈ [Keyword.SELECT, .WITH, .VALUES] := by decide
  rw [startsSubquery, isAnyKeyword, kind_of_isKeyword ht]
  exact List.contains_iff_mem.mpr (hwords head h hne)

/-- A query names the same tables as a derived table, if it starts with any of the words
that start a query but `FROM`. -/
theorem keepsTables_iff {head : Keyword} (h : head ∈ queryHeads) :
    KeepsTables head ↔ head ≠ .FROM := by
  constructor
  · rintro hkeeps rfl
    have hsame := hkeeps fromFirst ⟨by decide +kernel, by decide +kernel, by decide +kernel,
      by decide +kernel⟩ 0
    revert hsame
    decide +kernel
  · intro hne d hplain index
    refine d.tableNames_tokens index ?_ hplain.creates hplain.depth
    have hhead := hplain.head
    cases hquery : d.query.head? with
    | none =>
        rw [hquery] at hhead
        cases hhead
    | some t =>
        rw [hquery] at hhead
        exact startsSubquery_of_isKeyword hhead h hne

/-- The common table expressions of a query are its own in a statement around as well. -/
theorem keepsTables_with : Keyword.WITH ∈ queryHeads ∧ KeepsTables .WITH := by
  have h : Keyword.WITH ∈ queryHeads := by decide
  exact ⟨h, (keepsTables_iff h).mpr (by decide)⟩

/-- A query that starts with `FROM` is no subquery in parentheses: its `a` is lost. -/
theorem not_keepsTables_from :
    Keyword.FROM ∈ queryHeads ∧ fromFirst.IsPlain .FROM ∧
      (Statement.mk 0 fromFirst.query).tableNames = ["a"] ∧
      (Statement.mk 0 fromFirst.tokens).tableNames = [] := by
  exact ⟨by decide, ⟨by decide +kernel, by decide +kernel, by decide +kernel, by decide +kernel⟩,
    by decide +kernel, by decide +kernel⟩

end DerivedTable

end SqlTables
