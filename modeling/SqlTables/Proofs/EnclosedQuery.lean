import SqlTables.Proofs.DerivedTable
import SqlTables.Proofs.FromClause

/-!
# Queries in other statements

A query in parentheses names its tables wherever it stands: as a table, among the members of
`IN`, and among the arguments of a function. The one exception is a query that is right
between the parentheses of a table function, which are passed over without a look at what
they begin with (`EnclosedQuery.isSearched_iff`).
-/

namespace SqlTables

namespace EnclosedQuery

/-- What a token of the statement around is: names and numbers may be any. -/
inductive Piece
  | word (keyword : Keyword)
  | mark (c : Char)
  | name
  | number
deriving DecidableEq

def Piece.fits : Piece → Token → Prop
  | word keyword, t => t.isKeyword keyword
  | mark c, t => t.isMark c
  | name, t => t.isName
  | number, t => t.kind = .number

/-- Where a query stands in a statement. -/
inductive Place
  /-- `SELECT * FROM (query) name` -/
  | derived
  /-- `SELECT * FROM name JOIN (query) name ON 1 = 1` -/
  | joined
  /-- `SELECT 1 WHERE name IN (query)` -/
  | member
  /-- `SELECT name(query)` -/
  | argument
  /-- `SELECT name((query))` -/
  | wrappedArgument
  /-- `SELECT * FROM name(query)` -/
  | function
  /-- `SELECT * FROM name((query))` -/
  | wrappedFunction
deriving DecidableEq

namespace Place

def selectFrom : List Piece := [.word .SELECT, .mark '*', .word .FROM]

/-- What stands before the parentheses of the query. -/
def before : Place → List Piece
  | derived => selectFrom
  | joined => selectFrom ++ [.name, .word .JOIN]
  | member => [.word .SELECT, .number, .word .WHERE, .name, .word .IN]
  | argument => [.word .SELECT, .name]
  | wrappedArgument => [.word .SELECT, .name, .mark '(']
  | function => selectFrom ++ [.name]
  | wrappedFunction => selectFrom ++ [.name, .mark '(']

/-- What stands behind them. -/
def after : Place → List Piece
  | derived => [.name]
  | joined => [.name, .word .ON, .number, .mark '=', .number]
  | wrappedArgument | wrappedFunction => [.mark ')']
  | member | argument | function => []

end Place

end EnclosedQuery

open EnclosedQuery in
/-- A query by itself and in parentheses at some place of a statement. -/
structure EnclosedQuery (p : Place) where
  query : List Token
  before : List Token
  group : TokenGroup
  after : List Token
  /-- How far the query is moved in the statement. -/
  shift : Int
  isBefore : List.Forall₂ Piece.fits p.before before
  isAfter : List.Forall₂ Piece.fits p.after after
  displaced : List.Forall₂ (Token.Displaced shift) query group.content

namespace EnclosedQuery

variable {p : Place}

def tokens (e : EnclosedQuery p) : List Token := e.before ++ (e.group.tokens ++ e.after)

/-- The query is a `SELECT` in which nothing is created or merged into, and the statement stays
clear of the depth limit. -/
structure IsPlain (e : EnclosedQuery p) : Prop where
  head : e.query.head?.any fun t => t.isKeyword .SELECT
  creates : ∀ t ∈ e.query, ¬ t.isKeyword .CREATE
  merges : ∀ t ∈ e.query, ¬ t.isKeyword .MERGE
  depth : Token.peak 0 e.tokens < Scan.depthLimit

/-- Whatever tables a query names by itself, a statement with the query at the place names them. -/
def Place.IsSearched (p : Place) : Prop :=
  ∀ e : EnclosedQuery p, e.IsPlain → ∀ index : Nat,
    ∀ name ∈ (Statement.mk index e.query).tableNames,
      name ∈ (Statement.mk index e.tokens).tableNames

open Scan Token

/-! ## The statement around -/

theorem not_isKeyword_of_fits {pieces : List Piece} {ts : List Token} {word : Keyword}
    (h : List.Forall₂ Piece.fits pieces ts) (hword : .word word ∉ pieces) :
    ∀ t ∈ ts, ¬ t.isKeyword word := by
  induction h with
  | nil => simp
  | @cons piece t pieces ts hfits hrest ih =>
      rw [List.mem_cons, not_or] at hword
      refine List.forall_mem_cons.mpr ⟨fun ht => ?_, ih hword.2⟩
      have hkind := kind_of_isKeyword ht
      cases piece with
      | word other =>
          have hother := kind_of_isKeyword hfits
          rw [hkind, TokenKind.keyword.injEq] at hother
          exact hword.1 (congrArg Piece.word hother)
      | mark c => exact not_isMark_of_isKeyword ht c hfits
      | name => exact not_isKeyword_of_isName hfits word ht
      | number =>
          rw [show t.kind = .number from hfits] at hkind
          cases hkind

/-- Whether a query passes over the piece between its clauses. -/
def Piece.isIdle : Piece → Bool
  | word keyword => !clauseWords.contains keyword
  | mark c => c != '(' && c != ')'
  | _ => true

theorem isIdle_of_fits {piece : Piece} {t : Token} (h : piece.fits t) (hpiece : piece.isIdle) :
    Scan.isIdle t := by
  cases piece with
  | word keyword =>
      rw [Piece.isIdle, Bool.not_eq_true', ← Bool.not_eq_true, List.contains_iff_mem] at hpiece
      exact isIdle_of_isKeyword h hpiece
  | mark c =>
      rw [Piece.isIdle, Bool.and_eq_true, bne_iff_ne, bne_iff_ne] at hpiece
      exact isIdle_of_isMark h hpiece
  | name => exact isIdle_of_isCandidate (isCandidate_of_isName h)
  | number =>
      have hkind : t.kind = .number := h
      refine isIdle_of_keyword?_eq_none ?_ ?_ ?_
      · rw [keyword?, hkind]
      · simp [isMark, hkind]
      · simp [isMark, hkind]

theorem idle_of_fits {pieces : List Piece} {ts : List Token}
    (h : List.Forall₂ Piece.fits pieces ts) (hpieces : ∀ piece ∈ pieces, piece.isIdle) :
    Idle ts := by
  induction h with
  | nil => exact .nil
  | cons hfits hrest ih =>
      rw [List.forall_mem_cons] at hpieces
      exact .cons (isIdle_of_fits hfits hpieces.1) (ih hpieces.2)

/-- Behind `SELECT * FROM` a table is expected. -/
theorem atTop_of_fits {pieces : List Piece} {before : List Token}
    (h : List.Forall₂ Piece.fits (Place.selectFrom ++ pieces) before) (limit : Nat) :
    ∃ lead ts, before = lead ++ ts ∧ List.Forall₂ Piece.fits pieces ts ∧
      ∀ after, (start.advance limit after lead).AtTop [[]] [] (.operand .list) := by
  obtain ⟨select, _, hselect, htail, rfl⟩ := List.forall₂_cons_left_iff.mp h
  obtain ⟨star, _, hstar, htail', rfl⟩ := List.forall₂_cons_left_iff.mp htail
  obtain ⟨source, ts, hfrom, hts, rfl⟩ := List.forall₂_cons_left_iff.mp htail'
  exact ⟨[select, star, source], ts, rfl, hts, atTop_selectFrom hselect hstar hfrom limit⟩

/-- Wherever it stands, a query is entered as a query of its own, unless it is right between the
parentheses of a table function. -/
theorem opensSubquery (hp : p ≠ .function) {before : List Token} {o : Token} (rest : List Token)
    (hbefore : List.Forall₂ Piece.fits p.before before) (ho : o.isMark '(') (limit : Nat)
    (hlimit : 2 < limit) : (start.advance limit (o :: rest) before).OpensSubquery limit := by
  have hone : 1 < limit := Nat.lt_of_succ_lt hlimit
  have hidle (hpieces : ∀ piece ∈ p.before, piece.isIdle) :
      (start.advance limit (o :: rest) before).OpensSubquery limit := by
    obtain ⟨fresh, htop⟩ :=
      atTop_start.advance_idle limit (o :: rest) (idle_of_fits hbefore hpieces)
    exact htop.opensSubquery_clauses hone
  cases p with
  | derived =>
      obtain ⟨lead, _, rfl, ⟨⟩, hsource⟩ := atTop_of_fits hbefore limit
      rw [List.append_nil]
      exact (hsource _).opensSubquery_operand hone
  | joined =>
      obtain ⟨lead, _, rfl, hpieces, hsource⟩ := atTop_of_fits hbefore limit
      obtain ⟨name, _, hname, htail, rfl⟩ := List.forall₂_cons_left_iff.mp hpieces
      obtain ⟨join, _, hjoin, ⟨⟩, rfl⟩ := List.forall₂_cons_left_iff.mp htail
      rw [advance_append]
      have htable := (hsource ([name, join] ++ o :: rest)).step_candidate limit
        ([join] ++ o :: rest) (isCandidate_of_isName hname)
      exact (htable.step_join limit (o :: rest) (Or.inl (.name _ rfl)) hjoin).opensSubquery_operand
        hone
  | member => exact hidle (by decide)
  | argument => exact hidle (by decide)
  | wrappedArgument =>
      obtain ⟨select, _, hselect, htail, rfl⟩ := List.forall₂_cons_left_iff.mp hbefore
      obtain ⟨name, _, hname, htail', rfl⟩ := List.forall₂_cons_left_iff.mp htail
      obtain ⟨wrap, _, hwrap, ⟨⟩, rfl⟩ := List.forall₂_cons_left_iff.mp htail'
      have hfirst := atTop_start.step_idle limit ([name, wrap] ++ o :: rest)
        (isIdle_of_fits hselect (by decide))
      have hsecond := hfirst.step_idle limit ([wrap] ++ o :: rest)
        (isIdle_of_fits hname (by decide))
      refine hsecond.opensSubquery_group hwrap ?_ hlimit
      exact fun hstarts => not_isMark_of_isAnyKeyword hstarts '(' ho
  | function => exact absurd rfl hp
  | wrappedFunction =>
      obtain ⟨lead, _, rfl, hpieces, hsource⟩ := atTop_of_fits hbefore limit
      obtain ⟨name, _, hname, htail, rfl⟩ := List.forall₂_cons_left_iff.mp hpieces
      obtain ⟨wrap, _, hwrap, ⟨⟩, rfl⟩ := List.forall₂_cons_left_iff.mp htail
      rw [advance_append]
      have htable := (hsource ([name, wrap] ++ o :: rest)).step_candidate limit
        ([wrap] ++ o :: rest) (isCandidate_of_isName hname)
      exact htable.opensSubquery_function hwrap hlimit

/-- A query names its tables at every place but right in a table function. -/
theorem mem_tableNames (hp : p ≠ .function) (e : EnclosedQuery p) (h : e.IsPlain) (index : Nat)
    {name : String} (hname : name ∈ (Statement.mk index e.query).tableNames) :
    name ∈ (Statement.mk index e.tokens).tableNames := by
  have halike := Alike.of_forall₂ (e.displaced.imp fun _ _ ht => ht.kind) .nil
  rw [List.append_nil, List.append_nil] at halike
  have hhead : e.group.content.head?.any startsSubquery := by
    have hselect := h.head
    rw [halike.sameSight.subquery]
    cases hquery : e.query.head? with
    | none =>
        rw [hquery] at hselect
        cases hselect
    | some t =>
        rw [hquery] at hselect
        exact DerivedTable.startsSubquery_of_isKeyword hselect (by decide) (by decide)
  have hcreates := forall_displaced (ofKind_isKeyword .CREATE) e.displaced h.creates
  have hmerge : Piece.word .MERGE ∉ p.before := by cases p <;> decide
  have hmerges := not_isKeyword_of_fits e.isBefore hmerge
  have hopens := opensSubquery hp (e.group.content ++ [e.group.closer] ++ e.after) e.isBefore
    e.group.isOpening depthLimit (by decide)
  rw [Statement.tableNames_eq, ← tableNames_find_displaced depthLimit e.displaced] at hname
  rw [Statement.tableNames_eq]
  exact mem_tableNames_find e.before e.group e.after hopens hhead hmerges hcreates h.depth hname

/-- The query `SELECT * FROM b`, and the statement `SELECT * FROM f(SELECT * FROM b)`. -/
def functionOfQuery : EnclosedQuery .function where
  query := scanSignificant "SELECT * FROM b"
  before := scanSignificant "SELECT * FROM f"
  group :=
    { opener := ⟨.punctuation '(', "(", 15⟩
      content := (Lexer.scanFrom 16 0 "SELECT * FROM b".toList).filter isSignificant
      closer := ⟨.punctuation ')', ")", 31⟩
      isOpening := by decide
      isClosing := by decide
      balanced := by decide +kernel }
  after := []
  shift := 16
  isBefore := .cons rfl (.cons rfl (.cons rfl (.cons rfl .nil)))
  isAfter := .nil
  displaced := .cons ⟨rfl, rfl, rfl⟩ (.cons ⟨rfl, rfl, rfl⟩ (.cons ⟨rfl, rfl, rfl⟩
    (.cons ⟨rfl, rfl, rfl⟩ .nil)))

theorem isPlain_functionOfQuery : functionOfQuery.IsPlain :=
  ⟨by decide +kernel, by decide +kernel, by decide +kernel, by decide +kernel⟩

theorem tableNames_functionOfQuery :
    (Statement.mk 0 functionOfQuery.query).tableNames = ["b"] ∧
      (Statement.mk 0 functionOfQuery.tokens).tableNames = [] := by
  decide +kernel

/-- A query names its tables wherever it stands in parentheses, unless they are those of a table
function. -/
theorem isSearched_iff (p : Place) : p.IsSearched ↔ p ≠ .function := by
  constructor
  · rintro hsearched rfl
    obtain ⟨hquery, htokens⟩ := tableNames_functionOfQuery
    have hname := hsearched functionOfQuery isPlain_functionOfQuery 0 "b" (by
      rw [hquery]
      exact List.mem_singleton.mpr rfl)
    rw [htokens] at hname
    cases hname
  · intro hp e hplain index name hname
    exact mem_tableNames hp e hplain index hname

/-- The statement `SELECT * FROM f((SELECT * FROM b))`. -/
def wrapped : EnclosedQuery .wrappedFunction where
  query := scanSignificant "SELECT * FROM b"
  before := scanSignificant "SELECT * FROM f("
  group :=
    { opener := ⟨.punctuation '(', "(", 16⟩
      content := (Lexer.scanFrom 17 0 "SELECT * FROM b".toList).filter isSignificant
      closer := ⟨.punctuation ')', ")", 32⟩
      isOpening := by decide
      isClosing := by decide
      balanced := by decide +kernel }
  after := [⟨.punctuation ')', ")", 33⟩]
  shift := 17
  isBefore := .cons rfl (.cons rfl (.cons rfl (.cons rfl (.cons rfl .nil))))
  isAfter := .cons rfl .nil
  displaced := .cons ⟨rfl, rfl, rfl⟩ (.cons ⟨rfl, rfl, rfl⟩ (.cons ⟨rfl, rfl, rfl⟩
    (.cons ⟨rfl, rfl, rfl⟩ .nil)))

/-- In parentheses of its own a query is searched among the arguments of a table function. -/
theorem isSearched_wrappedFunction :
    wrapped.IsPlain ∧ "b" ∈ (Statement.mk 0 wrapped.query).tableNames ∧
      "b" ∈ (Statement.mk 0 wrapped.tokens).tableNames := by
  have hplain : wrapped.IsPlain :=
    ⟨by decide +kernel, by decide +kernel, by decide +kernel, by decide +kernel⟩
  have hname : "b" ∈ (Statement.mk 0 wrapped.query).tableNames := by decide +kernel
  have hsearched := (isSearched_iff .wrappedFunction).mpr (by decide)
  exact ⟨hplain, hname, hsearched wrapped hplain 0 "b" hname⟩

/-- The tables of a query right in a table function are lost. -/
theorem not_isSearched_function :
    functionOfQuery.IsPlain ∧
      (Statement.mk 0 functionOfQuery.query).tableNames = ["b"] ∧
      (Statement.mk 0 functionOfQuery.tokens).tableNames = [] :=
  ⟨isPlain_functionOfQuery, tableNames_functionOfQuery⟩

end EnclosedQuery

end SqlTables
