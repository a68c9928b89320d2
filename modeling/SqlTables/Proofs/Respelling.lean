import SqlTables.Extraction
import SqlTables.Proofs.Scan.Moved

/-!
# Respelled scripts

What a literal holds and where a token stands says nothing about tables. `Token.Respelled`
relates a token to the same token at another place, a literal to any other of its kind, and
the tables of a script are the same when its significant tokens are respelled
(`Extraction.tables_respelled`). `Token.Recased` relates a token to one that may be changed as
well, in the same upper case; a statement stays of its kind then.
-/

namespace SqlTables

/-- The same token at its place moved; a literal may be any other one. -/
structure Token.Respelled (move : Int → Int) (t u : Token) : Prop where
  kind : u.kind = t.kind
  text : ¬ t.isLiteral → u.text = t.text
  span : u.span = t.span.map move

/-- The same token changed, in the same upper case; a literal may hold something else. -/
structure Token.Recased (δ : Change) (t u : Token) : Prop extends t.Changed δ u where
  upper : ¬ t.isLiteral → u.upper = t.upper

variable {move : Int → Int} {δ : Change} {t u : Token} {ts us : List Token}

namespace Token.Respelled

theorem moved (h : t.Respelled move u) : t.Moved move u := by
  refine ⟨h.kind, fun hkind => ?_, h.span⟩
  obtain ⟨kind, text, offset⟩ := t
  obtain ⟨kind', text', offset'⟩ := u
  obtain rfl : kind' = kind := h.kind
  obtain rfl : text' = text := h.text hkind
  rfl

theorem upper (h : t.Respelled move u) (hliteral : ¬ t.isLiteral) : u.upper = t.upper := by
  rw [Token.upper, Token.upper, h.text hliteral]

theorem recased (h : t.Respelled move u) : t.Recased (.ofMove move) u := ⟨h.moved, h.upper⟩

theorem filter_isSignificant (h : List.Forall₂ (Token.Respelled move) ts us) :
    List.Forall₂ (Token.Respelled move) (ts.filter Token.isSignificant)
      (us.filter Token.isSignificant) :=
  List.rel_filter (fun _ _ ht => by simp only [Token.isSignificant, ht.kind]) h

end Token.Respelled

/-! ## Statements -/

namespace Statement

variable {s s' : Statement}

/-- The same statement with its tokens respelled. -/
structure Respelled (move : Int → Int) (s s' : Statement) : Prop where
  index : s'.index = s.index
  tokens : List.Forall₂ (Token.Respelled move) s.tokens s'.tokens

/-- The same statement with its tokens recased. -/
structure Recased (δ : Change) (s s' : Statement) : Prop where
  index : s'.index = s.index
  tokens : List.Forall₂ (Token.Recased δ) s.tokens s'.tokens

section Lists

variable {R : Token → Token → Prop}

/-- Related tokens are cut alike, if the semicolons among them stand at the same places. -/
theorem forall₂_groups (hR : ∀ t u, R t u → u.isMark ';' = t.isMark ';')
    (h : List.Forall₂ R ts us) : List.Forall₂ (List.Forall₂ R) (groups ts) (groups us) := by
  induction h with
  | nil => exact .cons .nil .nil
  | @cons t u ts us ht hts ih =>
      rw [groups, groups, hR t u ht]
      split
      · exact .cons .nil ih
      · generalize groups ts = gs at ih ⊢
        generalize groups us = gs' at ih ⊢
        cases ih with
        | nil => exact .cons (.cons ht .nil) .nil
        | cons hg hgs => exact .cons (.cons ht hg) hgs

theorem forall₂_number {gs gs' : List (List Token)} (h : List.Forall₂ (List.Forall₂ R) gs gs')
    (index : Nat) :
    List.Forall₂ (fun s s' => s'.index = s.index ∧ List.Forall₂ R s.tokens s'.tokens)
      (number index gs) (number index gs') := by
  induction h generalizing index with
  | nil => exact .nil
  | cons hg _ ih => exact .cons ⟨rfl, hg⟩ (ih (index + 1))

theorem forall₂_ofTokens (hR : ∀ t u, R t u → u.isMark ';' = t.isMark ';')
    (h : List.Forall₂ R (ts.filter Token.isSignificant) (us.filter Token.isSignificant)) :
    List.Forall₂ (fun s s' => s'.index = s.index ∧ List.Forall₂ R s.tokens s'.tokens)
      (ofTokens ts) (ofTokens us) := by
  have hempty {g g' : List Token} (hg : List.Forall₂ R g g') :
      (!g.isEmpty) = true ↔ (!g'.isEmpty) = true := by
    cases hg with
    | nil => exact Iff.rfl
    | cons _ _ => exact Iff.rfl
  exact forall₂_number (List.rel_filter (fun _ _ hg => hempty hg) (forall₂_groups hR h)) 0

end Lists

theorem ofTokens_respelled
    (h : List.Forall₂ (Token.Respelled move) (ts.filter Token.isSignificant)
      (us.filter Token.isSignificant)) :
    List.Forall₂ (Respelled move) (ofTokens ts) (ofTokens us) :=
  (forall₂_ofTokens (fun _ _ ht => ht.moved.isMark ';') h).imp fun _ _ hs => ⟨hs.1, hs.2⟩

theorem ofTokens_recased
    (h : List.Forall₂ (Token.Recased δ) (ts.filter Token.isSignificant)
      (us.filter Token.isSignificant)) :
    List.Forall₂ (Recased δ) (ofTokens ts) (ofTokens us) :=
  (forall₂_ofTokens (fun _ _ ht => ht.toChanged.isMark ';') h).imp fun _ _ hs => ⟨hs.1, hs.2⟩

theorem headWord_recased (h : t.Recased δ u) : headWord u = headWord t := by
  have hupper := h.upper
  unfold headWord
  rw [h.kind]
  split
  · next hk => exact hupper (by rw [Token.isLiteral, hk]; exact Bool.false_ne_true)
  · next hk => exact hupper (by rw [Token.isLiteral, hk]; exact Bool.false_ne_true)
  · rfl

theorem hasOuterKeyword_recased (h : List.Forall₂ (Token.Recased δ) ts us)
    (words : List Keyword) (depth : Nat) :
    hasOuterKeyword words depth us = hasOuterKeyword words depth ts := by
  induction h generalizing depth with
  | nil => rfl
  | @cons t u ts us ht _ ih =>
      have hchanged := ht.toChanged
      rw [hasOuterKeyword, hasOuterKeyword, hchanged.isMark, hchanged.isMark,
        hchanged.isAnyKeyword, ih, ih, ih]

theorem kind_recased (h : s.Recased δ s') : s'.kind = s.kind := by
  have htokens := h.tokens
  have houter := hasOuterKeyword_recased htokens StatementKind.writeKeywords 0
  unfold kind
  generalize s.tokens = ts at htokens houter ⊢
  generalize s'.tokens = us at htokens houter ⊢
  cases htokens with
  | nil => rfl
  | cons ht _ =>
      dsimp only
      rw [headWord_recased ht, houter, ht.toChanged.isMark]

theorem usedDatabase?_recased (h : s.Recased δ s') :
    s'.usedDatabase? = s.usedDatabase?.map δ.rename := by
  have htokens := h.tokens
  unfold usedDatabase?
  generalize s.tokens = ts at htokens ⊢
  generalize s'.tokens = us at htokens ⊢
  rcases htokens with _ | ⟨huse, _ | ⟨hunit, _ | ⟨hname, _ | ⟨hmore, _⟩⟩⟩⟩
  · rfl
  · rfl
  · simp only [huse.toChanged.isKeyword, hunit.toChanged.isName]
    split
    · next hnamed => rw [hunit.toChanged.value_of_isName hnamed.2]; rfl
    · rfl
  · simp only [huse.toChanged.isKeyword, hunit.kind, hname.toChanged.isName]
    split
    · next hnamed =>
        obtain ⟨hkeyword, hkind, hword, hnamed⟩ := hnamed
        rw [hunit.upper (by rw [Token.isLiteral, hkind]; exact Bool.false_ne_true)] at hword
        rw [if_pos ⟨hkeyword, hkind, hword, hnamed⟩, hname.toChanged.value_of_isName hnamed]
        rfl
    · next hnamed =>
        rw [if_neg]
        · rfl
        · rintro ⟨hkeyword, hkind, hword, hname⟩
          rw [← hunit.upper (by rw [Token.isLiteral, hkind]; exact Bool.false_ne_true)] at hword
          exact hnamed ⟨hkeyword, hkind, hword, hname⟩
  · rfl

/-- A recased statement makes the same references, changed. -/
theorem scan_recased (h : s.Recased δ s') :
    s'.scan.references = s.scan.references.map (Reference.change δ) := by
  rw [scan, scan]
  dsimp only
  rw [Scan.find_changed Scan.depthLimit (h.tokens.imp fun _ _ ht => ht.toChanged), h.index,
    List.map_map, List.map_map]
  rfl

theorem Respelled.recased (h : s.Respelled move s') : s.Recased (.ofMove move) s' :=
  ⟨h.index, h.tokens.imp fun _ _ ht => ht.recased⟩

theorem kind_respelled (h : s.Respelled move s') : s'.kind = s.kind := kind_recased h.recased

theorem usedDatabase?_respelled (h : s.Respelled move s') :
    s'.usedDatabase? = s.usedDatabase? := by
  rw [usedDatabase?_recased h.recased, Option.map_id]
  rfl

/-- A respelled statement makes the same references, moved. -/
theorem scan_respelled (h : s.Respelled move s') :
    s'.scan.references = s.scan.references.map (Reference.map move) := by
  rw [scan_recased h.recased, Reference.change_ofMove]

end Statement

/-! ## Scripts -/

theorem TableSet.insertSources_map (T : TableSet) (database : Option String)
    (references : List Reference) :
    T.insertSources database (references.map (Reference.map move)) =
      T.insertSources database references := by
  rw [insertSources, insertSources, List.filter_map, List.foldl_map]
  rfl

namespace Extraction

/-- The tables found so far, and the database in force, are the same. -/
structure SameTables (p p' : Progress) : Prop where
  database : p'.database = p.database
  tables : p'.tables = p.tables

theorem step_respelled {p p' : Progress} {s s' : Statement} {script script' : String}
    (hp : SameTables p p') (hs : s.Respelled move s') :
    SameTables (Id.run (step .scan noParser none script p s))
      (Id.run (step .scan noParser none script' p' s')) := by
  have hkind := Statement.kind_respelled hs
  have hused := Statement.usedDatabase?_respelled hs
  unfold step
  rw [hkind]
  split
  · refine ⟨?_, hp.tables⟩
    simp only [Progress.addSession, hused, Id.run_pure]
    split
    · rfl
    · exact hp.database
  · refine ⟨hp.database, ?_⟩
    simp only [Progress.add, Statement.scan_respelled hs, Id.run_pure, hp.tables, hp.database,
      TableSet.insertSources_map]

/-- The tables of a script are the same when its significant tokens are respelled. -/
theorem tables_respelled {script script' : String}
    (h : List.Forall₂ (Token.Respelled move) (Token.scanSignificant script)
      (Token.scanSignificant script')) :
    (scan script').tables = (scan script).tables := by
  have hsteps (ss ss' : List Statement) (hss : List.Forall₂ (Statement.Respelled move) ss ss')
      {p p' : Progress} (hp : SameTables p p') :
      SameTables (Id.run (steps .scan noParser none script p ss))
        (Id.run (steps .scan noParser none script' p' ss')) := by
    induction hss generalizing p p' with
    | nil => exact hp
    | cons hs _ ih => exact ih (step_respelled hp hs)
  have hstart : SameTables (.start (Token.scan script)) (.start (Token.scan script')) :=
    ⟨rfl, rfl⟩
  exact congrArg TableSet.sorted
    (hsteps _ _ (Statement.ofTokens_respelled h) hstart).tables

end Extraction

end SqlTables
