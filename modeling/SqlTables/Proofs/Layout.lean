import SqlTables.Proofs.Respelling
import SqlTables.Proofs.Run
import SqlTables.Proofs.Token.Word

/-!
# Layout and literals

Of a script only the significant tokens count, and of a string or a number only that it is one.
Scripts whose significant tokens are the same words (`Token.SameWord`) have reports that differ
in places only (`Extraction.sameButPlaces_run`), whatever blanks and comments stand between the
words and whatever the literals hold.

The words of one script are those of the other one, changed: as tokens stand one after the
other, there is a `Change` that takes each to its place in the other script
(`Token.exists_change`).
-/

namespace SqlTables

/-- Whether the kinds are the same, but for which word a keyword is and which mark a mark is. -/
def TokenKind.sameClass : TokenKind → TokenKind → Bool
  | .keyword _, .keyword _ | .punctuation _, .punctuation _ => true
  | kind, kind' => kind == kind'

/-- Tokens of one kind with the same text; the texts of two strings or of two numbers are free. -/
structure Token.SameWord (t u : Token) : Prop where
  kind : t.kind.sameClass u.kind
  text : ¬ t.isLiteral → u.text = t.text

instance : DecidableRel Token.SameWord := fun t u =>
  decidable_of_iff (t.kind.sameClass u.kind ∧ (¬ t.isLiteral → u.text = t.text))
    ⟨fun h => ⟨h.1, h.2⟩, fun h => ⟨h.kind, h.text⟩⟩

/-- The reference without its place. -/
def Reference.unplaced (r : Reference) : Reference := { r with span := ⟨0, 0⟩ }

/-- The summary without its place. -/
def StatementSummary.unplaced (s : StatementSummary) : StatementSummary :=
  { s with span := ⟨0, 0⟩ }

/-- The reports differ in places only. -/
structure Extraction.SameButPlaces (e e' : Extraction) : Prop where
  statements : e'.statements.map StatementSummary.unplaced =
    e.statements.map StatementSummary.unplaced
  references : e'.references.map Reference.unplaced = e.references.map Reference.unplaced
  tables : e'.tables = e.tables

/-! ## Words -/

namespace Token

variable {a b : String} {t u : Token} {ts us : List Token} {R : Token → Token → Prop}

theorem text_of_mem_scan {mark : Char} (ht : t ∈ scan a) (hkind : t.kind = .punctuation mark) :
    t.text = String.ofList [mark] := by
  obtain ⟨c, more, rest, hlexeme, htext⟩ := (Lexer.cut_scanFrom 0 a.toList).lexeme_of_mem ht
  rw [hkind] at hlexeme
  obtain ⟨rfl, rfl⟩ := Lexer.eq_of_lexeme_punctuation hlexeme
  rw [← htext, String.ofList_toList]

/-- In scripts the text of a word tells which keyword or mark it is. -/
theorem SameWord.kind_eq (h : t.SameWord u) (ht : t ∈ scan a) (hu : u ∈ scan b) :
    u.kind = t.kind := by
  obtain ⟨hkind, htext⟩ := h
  unfold TokenKind.sameClass at hkind
  split at hkind
  · next word word' hword hword' =>
      have hsame : u.text = t.text := htext (by simp [isLiteral, hword])
      have hupper : word'.text = word.text := by
        rw [← upper_of_mem_scan ht (beq_iff_eq.mpr hword),
          ← upper_of_mem_scan hu (beq_iff_eq.mpr hword'), upper, upper, hsame]
      have hfound := Keyword.ofUpper?_text word'
      rw [hupper, Keyword.ofUpper?_text, Option.some.injEq] at hfound
      rw [hword, hword', hfound]
  · next mark mark' hmark hmark' =>
      have hsame : u.text = t.text := htext (by simp [isLiteral, hmark])
      rw [text_of_mem_scan ht hmark, text_of_mem_scan hu hmark', String.ofList_inj,
        List.singleton_inj] at hsame
      rw [hmark, hmark', hsame]
  · exact (eq_of_beq hkind).symm

/-! ## Places -/

/-- If the places `f` of the tokens are all different, a map takes them to those of any related
tokens. -/
theorem exists_move {f : Token → Nat} (hf : ts.Pairwise fun t u => f t < f u)
    (h : List.Forall₂ R ts us) :
    ∃ move : Int → Int, List.Forall₂ (fun t u => R t u ∧ (f u : Int) = move (f t)) ts us := by
  induction h with
  | nil => exact ⟨id, .nil⟩
  | @cons t u ts us ht _ ih =>
      rw [List.pairwise_cons] at hf
      obtain ⟨move, hmove⟩ := ih hf.2
      refine ⟨Function.update move (f t) (f u), .cons ⟨ht, by rw [Function.update_self]⟩ ?_⟩
      refine ((List.forall₂_and_left _ _).mpr ⟨hf.1, hmove⟩).imp fun t' u' hnext => ?_
      obtain ⟨hlt, hrelated, hplace⟩ := hnext
      have hne : (f t' : Int) ≠ f t := by omega
      exact ⟨hrelated, hplace.trans (Function.update_of_ne hne ..).symm⟩

/-- There is a way to move tokens that stand one after the other to the places of any others. -/
theorem exists_change (hts : Ordered ts) (h : List.Forall₂ R ts us) :
    ∃ start stop : Int → Int, List.Forall₂
      (fun t u => R t u ∧ u.span = ⟨start t.span.start, stop t.span.stop⟩) ts us := by
  have hbounds {t u : Token} (ht : t ∈ ts) (hu : u ∈ ts) (hle : t.stop ≤ u.offset) :
      t.offset < u.offset ∧ t.stop < u.stop :=
    ⟨Nat.lt_of_lt_of_le (hts.1 t ht) hle, Nat.lt_of_le_of_lt hle (hts.1 u hu)⟩
  obtain ⟨start, hstart⟩ := exists_move
    (hts.2.imp_of_mem fun ht hu hle => (hbounds ht hu hle).1) h
  obtain ⟨stop, hstop⟩ := exists_move
    (hts.2.imp_of_mem fun ht hu hle => (hbounds ht hu hle).2) hstart
  refine ⟨start, stop, hstop.imp fun t u hplace => ⟨hplace.1.1, ?_⟩⟩
  rw [span, span, hplace.1.2, hplace.2]

end Token

/-! ## Statements -/

variable {a b : String} {start stop : Int → Int}

namespace Statement

/-- The statements of a script are those of the other one at other places. -/
theorem exists_recased
    (h : List.Forall₂ Token.SameWord (Token.scanSignificant a) (Token.scanSignificant b)) :
    ∃ start stop, List.Forall₂ (Recased (.ofPlaces start stop)) (ofScript a) (ofScript b) := by
  have hordered : Token.Ordered (Token.scanSignificant a) :=
    (Lexer.ordered_scanFrom a.toList 0 0).sublist List.filter_sublist
  have hscan {script : String} {t : Token} (ht : t ∈ Token.scanSignificant script) :
      t ∈ Token.scan script := (List.mem_filter.mp ht).1
  have hkind : List.Forall₂ (fun t u => t.SameWord u ∧ u.kind = t.kind)
      (Token.scanSignificant a) (Token.scanSignificant b) := by
    rw [List.forall₂_iff_get] at h ⊢
    refine ⟨h.1, fun i ha hb => ⟨h.2 i ha hb, ?_⟩⟩
    exact (h.2 i ha hb).kind_eq (hscan (List.get_mem _ _)) (hscan (List.get_mem _ _))
  obtain ⟨start, stop, hplaced⟩ := Token.exists_change hordered hkind
  refine ⟨start, stop, ofTokens_recased (hplaced.imp ?_)⟩
  rintro ⟨kind, text, offset⟩ ⟨kind', text', offset'⟩ ⟨⟨⟨-, htext⟩, rfl⟩, hspan⟩
  refine ⟨⟨rfl, fun hliteral => ?_, hspan⟩, fun hliteral => ?_⟩
  · obtain rfl : text' = text := htext hliteral
    rfl
  · obtain rfl : text' = text := htext hliteral
    rfl

theorem switched?_recased {s s' : Statement} (h : s.Recased (.ofPlaces start stop) s') :
    s'.switched? = s.switched? := by
  rw [switched?, switched?, kind_recased h, usedDatabase?_recased h, Option.map_id]
  rfl

end Statement

/-! ## Reports -/

namespace Reference

theorem unplaced_change (r : Reference) :
    (r.change (.ofPlaces start stop)).unplaced = r.unplaced := by
  rw [unplaced, unplaced, change, List.map_id]

theorem qualifiedNames_unplaced (database : Option String) (rs : List Reference) :
    qualifiedNames database (rs.map unplaced) = qualifiedNames database rs := by
  rw [qualifiedNames, qualifiedNames, List.filter_map, List.map_map]
  rfl

end Reference

namespace Reader

open Statement

variable {r : Reader} {s s' : Statement}

theorem unplaced_references (hr : r.engine = .scan) (h : s.Recased (.ofPlaces start stop) s') :
    (r.references b s').map Reference.unplaced = (r.references a s).map Reference.unplaced := by
  rw [references, references, kind_recased h]
  split
  · rfl
  · simp only [find, hr, scan_recased h, List.map_map]
    exact List.map_congr_left fun r _ => r.unplaced_change

theorem names_recased (hr : r.engine = .scan) (h : s.Recased (.ofPlaces start stop) s')
    (database : Option String) : r.names b database s' = r.names a database s := by
  rw [names, names, ← Reference.qualifiedNames_unplaced, unplaced_references hr h,
    Reference.qualifiedNames_unplaced]

theorem unplaced_summary (hr : r.engine = .scan) (h : s.Recased (.ofPlaces start stop) s')
    (database : Option String) :
    (r.summary b database s').unplaced = (r.summary a database s).unplaced := by
  rw [summary, summary, names_recased (a := a) (b := b) hr h]
  simp only [StatementSummary.unplaced, kind_recased h, h.index, find, hr]

end Reader

namespace Extraction

/-- Scripts with the same words have reports that differ in places only. -/
theorem sameButPlaces_run (parser : Parser Id) (dialect : Option String)
    (h : List.Forall₂ Token.SameWord (Token.scanSignificant a) (Token.scanSignificant b)) :
    SameButPlaces ((Reader.mk .scan parser dialect).run a)
      ((Reader.mk .scan parser dialect).run b) := by
  obtain ⟨start, stop, hss⟩ := Statement.exists_recased h
  have hswitched : ∀ s s' : Statement, s.Recased (.ofPlaces start stop) s' →
      ∀ d d' : Option String, d' = d → s'.switched?.or d' = s.switched?.or d := by
    rintro s s' hs d _ rfl
    rw [Statement.switched?_recased hs]
  constructor
  · rw [Reader.statements_run, Reader.statements_run, Statement.map_collect,
      Statement.map_collect]
    refine Statement.collect_congr hss ?_ hswitched rfl
    rintro s s' hs database _ rfl
    rw [List.map_singleton, List.map_singleton, Reader.unplaced_summary rfl hs]
  · rw [Reader.references_run, Reader.references_run, List.map_flatMap, List.map_flatMap,
      ← Statement.collect_const _ none, ← Statement.collect_const _ none]
    exact Statement.collect_congr hss
      (fun s s' hs _ _ _ => Reader.unplaced_references rfl hs) hswitched rfl
  · rw [Reader.tables_run, Reader.tables_run, Statement.collect_congr hss ?_ hswitched rfl]
    rintro s s' hs _ database rfl
    exact Reader.names_recased rfl hs database

/-- The table is in the same database, whatever stands in comments and in literals. -/
theorem sameButPlaces_run_use :
    let a := "USE Db; SELECT 'a', 1 FROM Orders o JOIN o"
    let b := "USE/**/Db;\nSELECT 'FROM x',22 -- ;\nFROM Orders o\n  JOIN o"
    List.Forall₂ Token.SameWord (Token.scanSignificant a) (Token.scanSignificant b) ∧
      (Reader.scan.run a).tables = ["Db.Orders"] ∧
      SameButPlaces (Reader.scan.run a) (Reader.scan.run b) := by
  intro a b
  have h : List.Forall₂ Token.SameWord (Token.scanSignificant a) (Token.scanSignificant b) := by
    decide +kernel
  exact ⟨h, by decide +kernel, sameButPlaces_run noParser none h⟩

end Extraction

end SqlTables
