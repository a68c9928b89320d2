import Mathlib.Algebra.Order.BigOperators.Group.List
import Mathlib.Algebra.Order.Group.Nat
import SqlTables.Proofs.Found
import SqlTables.Proofs.Respelling
import SqlTables.Proofs.Token.Literal
import SqlTables.Proofs.Token.Word

/-!
# Literals are opaque

Whatever a string or a block comment of a script holds, the tables of the script are the
same, unless a substitution is open before it (`ScriptLiteral.isOpaque_iff`).

If none is, the tokens before the literal do not depend on its contents, those behind it
are moved, and the literal itself is respelled. If one is, a literal that holds a `}` ends
the substitution, and what the literal holds behind the `}` is read as a part of the
script: it can name a table that no part of the script names.
-/

namespace SqlTables

/-- A closed literal that is a token of a script. -/
structure ScriptLiteral where
  form : LiteralForm
  before : String
  text : String
  after : String
  isClosed : form.isClosed text
  isToken : ⟨form.kind, text, before.length⟩ ∈ Token.scan (before ++ text ++ after)

namespace ScriptLiteral

/-- The script with another text in the place of the literal. -/
def withText (l : ScriptLiteral) (text : String) : String := l.before ++ text ++ l.after

def script (l : ScriptLiteral) : String := l.withText l.text

/-- The tables of the script do not depend on what the literal holds. -/
def IsOpaque (l : ScriptLiteral) : Prop :=
  ∀ text, l.form.isClosed text →
    (Extraction.scan (l.withText text)).tables = (Extraction.scan l.script).tables

/-- Whether a `${` that is not closed stands before the literal. -/
def followsSubstitution (l : ScriptLiteral) : Bool :=
  Token.opensSubstitution ((Token.scan l.script).filter fun t => t.offset < l.before.length)

end ScriptLiteral

namespace Lexer

open Token

variable {o o' : Nat} {shift : Int} {move : Int → Int} {b r : List Char} {ts : List Token}

theorem Cut.filter_offset (h : Cut r o b ts) :
    (Lexer.scanFrom o 0 (b ++ r)).filter (fun t => t.offset < o + b.length) = ts := by
  rw [h.scanFrom, List.filter_append, List.filter_eq_self.mpr, List.filter_eq_nil_iff.mpr,
    List.append_nil]
  · intro t ht
    have hle := offset_le_of_mem_scanFrom _ _ _ t ht
    rw [decide_eq_true_eq]
    omega
  · intro t ht
    have hbound := h.mem_bounds t ht
    rw [decide_eq_true_eq]
    omega

theorem respelled_of_offset (kind : TokenKind) (text : String) (hshift : (o' : Int) = o + shift)
    (hmove : ∀ p : Nat, o ≤ p → move p = p + shift) :
    Respelled move ⟨kind, text, o⟩ ⟨kind, text, o'⟩ := by
  refine ⟨rfl, fun _ => rfl, ?_⟩
  have hstart := hmove o (Nat.le_refl o)
  have hstop := hmove (o + text.length) (Nat.le_add_right o _)
  simp only [span, stop, Span.map, Span.mk.injEq, hstart, hstop]
  omega

/-- The same text at another place has the same tokens, moved. -/
theorem scanFrom_respelled (xs : List Char) (skip : Nat) (hshift : (o' : Int) = o + shift)
    (hmove : ∀ p : Nat, o ≤ p → move p = p + shift) :
    List.Forall₂ (Respelled move) (scanFrom o skip xs) (scanFrom o' skip xs) := by
  induction xs generalizing o o' skip with
  | nil => exact .nil
  | cons c xs ih =>
      have hnextShift : ((o' + 1 : Nat) : Int) = (o + 1 : Nat) + shift := by omega
      have hnext (skip : Nat) := ih skip hnextShift fun p hp => hmove p (by omega)
      cases skip with
      | succ k => exact hnext k
      | zero => exact .cons (respelled_of_offset _ _ hshift hmove) (hnext _)

end Lexer

namespace ScriptLiteral

open Lexer Token

variable {l : ScriptLiteral} {text : String} {rest : List Char} {ts : List Token}

theorem toList_withText (l : ScriptLiteral) (text : String) :
    (l.withText text).toList = l.before.toList ++ (text.toList ++ l.after.toList) := by
  rw [withText, String.toList_append, String.toList_append, List.append_assoc]

theorem exists_cut_script (l : ScriptLiteral) :
    ∃ ts, Cut (l.text.toList ++ l.after.toList) 0 l.before.toList ts := by
  have htoken := l.isToken
  rw [← withText, scan, toList_withText] at htoken
  exact exists_cut htoken (by rw [Nat.zero_add, String.length_toList])

theorem lexeme_script (htext : l.text.toList = l.form.first :: rest) :
    lexeme l.form.first (rest ++ l.after.toList) = (l.form.kind, rest) := by
  obtain ⟨ts, hcut⟩ := l.exists_cut_script
  have htoken := l.isToken
  rw [← withText, scan, toList_withText, hcut.scanFrom, htext, List.cons_append, scanFrom,
    List.mem_append, List.mem_cons] at htoken
  rcases htoken with htoken | htoken | htoken
  · have hbound := hcut.mem_bounds _ htoken
    rw [Nat.zero_add, String.length_toList] at hbound
    exact absurd (Nat.lt_of_lt_of_le hbound.1 hbound.2) (Nat.lt_irrefl _)
  · rw [Token.mk.injEq] at htoken
    have hrest := congrArg String.toList htoken.2.1
    rw [htext, String.toList_ofList, List.cons.injEq] at hrest
    exact Prod.ext htoken.1.symm hrest.2.symm
  · have hle := offset_le_of_mem_scanFrom _ _ _ _ htoken
    rw [Nat.zero_add, String.length_toList] at hle
    dsimp only at hle
    omega

theorem after_ne_quote (hform : l.form = .string) : l.after.toList.head? ≠ some '\'' := by
  obtain ⟨rest, htext, hrest⟩ := LiteralForm.isRest_of_isClosed l.isClosed
  have hlex := lexeme_script htext
  rw [hform] at hlex hrest
  rw [LiteralForm.first, lexeme_quote, Prod.mk.injEq] at hlex
  exact head?_ne_quote hrest hlex.2

/-- The tokens of a script with a closed literal. -/
theorem scan_withText (h : l.form.isClosed text)
    (hcut : Cut (text.toList ++ l.after.toList) 0 l.before.toList ts) :
    scan (l.withText text) = ts ++ ⟨l.form.kind, text, l.before.length⟩ ::
      scanFrom (l.before.length + text.length) 0 l.after.toList := by
  obtain ⟨rest, htext, hrest⟩ := LiteralForm.isRest_of_isClosed h
  have hlex := LiteralForm.lexeme_append hrest fun hform => after_ne_quote hform
  have hlength : rest.length + 1 = text.length := by
    rw [← String.length_toList, htext, List.length_cons]
  rw [scan, toList_withText, hcut.scanFrom, htext, List.cons_append, scanFrom_cons _ hlex rfl,
    ← htext, String.ofList_toList, hlength, Nat.zero_add, String.length_toList]

theorem followsSubstitution_eq (hcut : Cut (l.text.toList ++ l.after.toList) 0 l.before.toList ts) :
    l.followsSubstitution = opensSubstitution ts := by
  have hfilter := hcut.filter_offset
  rw [Nat.zero_add, String.length_toList] at hfilter
  rw [followsSubstitution, script, scan, toList_withText, hfilter]

/-- Where a place of the script is with another text in the place of the literal. -/
def move (l : ScriptLiteral) (text : String) (place : Int) : Int :=
  if place ≤ l.before.length then place else place + (text.length - l.text.length)

theorem respelled_before {t : Token} (l : ScriptLiteral) (text : String)
    (h : t.offset < t.stop ∧ t.stop ≤ l.before.length) : t.Respelled (l.move text) t := by
  have hfixed {n : Nat} (h : n ≤ l.before.length) : l.move text n = n :=
    if_pos (Int.ofNat_le.mpr h)
  refine ⟨rfl, fun _ => rfl, ?_⟩
  rw [Token.span, Span.map, hfixed (by omega), hfixed h.2]

/-- The tokens behind the literal are moved as far as its end. -/
theorem respelled_after (l : ScriptLiteral) (text : String) (htext : 0 < l.text.length) :
    List.Forall₂ (Respelled (l.move text))
      (scanFrom (l.before.length + l.text.length) 0 l.after.toList)
      (scanFrom (l.before.length + text.length) 0 l.after.toList) := by
  have hshift : ((l.before.length + text.length : Nat) : Int) =
      (l.before.length + l.text.length : Nat) + (text.length - l.text.length) := by omega
  exact scanFrom_respelled _ _ hshift fun p hp => if_neg (by omega)

theorem respelled_literal (l : ScriptLiteral) (text : String) (htext : 0 < l.text.length) :
    Respelled (l.move text) ⟨.string, l.text, l.before.length⟩
      ⟨.string, text, l.before.length⟩ := by
  have hstart : l.move text l.before.length = l.before.length := if_pos (Int.le_refl _)
  have hstop : l.move text (l.before.length + l.text.length : Nat) =
      (l.before.length + l.text.length : Nat) + (text.length - l.text.length) :=
    if_neg (by omega)
  refine ⟨rfl, fun h => absurd rfl h, ?_⟩
  rw [Token.span, Token.span, Span.map, Token.stop, Token.stop, Span.mk.injEq, hstart, hstop]
  refine ⟨rfl, ?_⟩
  dsimp only
  omega

/-- If no substitution is open before it, a literal is opaque. -/
theorem isOpaque_of_not_followsSubstitution (h : ¬ l.followsSubstitution) : l.IsOpaque := by
  intro text htext
  obtain ⟨ts, hcut⟩ := l.exists_cut_script
  rw [followsSubstitution_eq hcut] at h
  have hcut' : Cut (text.toList ++ l.after.toList) 0 l.before.toList ts := by
    obtain ⟨rest, hrest, -⟩ := LiteralForm.isRest_of_isClosed l.isClosed
    obtain ⟨rest', hrest', -⟩ := LiteralForm.isRest_of_isClosed htext
    rw [hrest, List.cons_append] at hcut
    rw [hrest', List.cons_append]
    exact hcut.congr l.form.first_eq h _
  have hlength : 0 < l.text.length := by
    obtain ⟨rest, hrest, -⟩ := LiteralForm.isRest_of_isClosed l.isClosed
    rw [← String.length_toList, hrest]
    exact Nat.succ_pos _
  have hbefore : List.Forall₂ (Respelled (l.move text)) ts ts :=
    List.forall₂_same.mpr fun t ht => l.respelled_before text (by
      have hbounds := hcut.mem_bounds t ht
      rwa [Nat.zero_add, String.length_toList] at hbounds)
  have hafter := l.respelled_after text hlength
  suffices hscan : List.Forall₂ (Respelled (l.move text)) (scanSignificant l.script)
      (scanSignificant (l.withText text)) from Extraction.tables_respelled hscan
  rw [scanSignificant, scanSignificant, script, scan_withText l.isClosed hcut,
    scan_withText htext hcut', List.filter_append, List.filter_append]
  refine List.rel_append (Respelled.filter_isSignificant hbefore) ?_
  cases hform : l.form with
  | string =>
      exact Respelled.filter_isSignificant (.cons (l.respelled_literal text hlength) hafter)
  | blockComment =>
      have hcomment (text : String) (o : Nat) :
          ¬ (Token.mk LiteralForm.blockComment.kind text o).isSignificant := Bool.false_ne_true
      rw [List.filter_cons_of_neg (hcomment _ _), List.filter_cons_of_neg (hcomment _ _)]
      exact Respelled.filter_isSignificant hafter

end ScriptLiteral

/-! ## A literal that ends a substitution -/

theorem flatMap_replicate {f : Char → List Char} {c : Char} (h : f c = [c]) (n : Nat) :
    (List.replicate n c).flatMap f = List.replicate n c := by
  induction n with
  | zero => rfl
  | succ n ih => rw [List.replicate_succ, List.flatMap_cons, ih, h, List.singleton_append]

namespace Lexer

/-- No keyword starts with an underscore. -/
theorem wordKind_underscores (n : Nat) : wordKind (List.replicate (n + 1) '_') = .identifier := by
  have hupper : Unicode.upperChar '_' = ['_'] := by decide +kernel
  have hkeywords : ∀ k ∈ Keyword.all, k.text.toList.head? ≠ some '_' := by decide +kernel
  have hnone : Keyword.ofUpper? (String.ofList (List.replicate (n + 1) '_')) = none := by
    rw [Keyword.ofUpper?, List.find?_eq_none]
    intro k hk h
    apply hkeywords k hk
    rw [eq_of_beq h, String.toList_ofList, List.replicate_succ, List.head?_cons]
  rw [wordKind, Unicode.upper, String.toList_ofList, flatMap_replicate hupper, hnone]

theorem lexeme_underscores (n : Nat) (r : List Char) :
    lexeme '_' (List.replicate n '_' ++ ';' :: r) = (.identifier, List.replicate n '_') := by
  have hchar : isWordChar '_' ∧ ¬ isWordChar ';' := by decide +kernel
  have hword : word false (List.replicate n '_' ++ ';' :: r) = List.replicate n '_' := by
    induction n with
    | zero => simp [word, hchar]
    | succ n ih => simp [List.replicate_succ, word, hchar, ih]
  rw [lexeme_wordStart (by decide +kernel) (by decide +kernel) (by decide), hword,
    ← List.replicate_succ, wordKind_underscores]

/-- The tokens of `FROM` and a name of underscores, in between semicolons. -/
theorem scanFrom_statement (o n : Nat) (r : List Char) :
    scanFrom o 0 (';' :: 'F' :: 'R' :: 'O' :: 'M' :: ' ' :: '_' ::
        (List.replicate n '_' ++ ';' :: r)) =
      ⟨.punctuation ';', ";", o⟩ ::
        ([⟨.keyword .FROM, "FROM", o + 1⟩, ⟨.whitespace, " ", o + 5⟩,
          ⟨.identifier, String.ofList (List.replicate (n + 1) '_'), o + 6⟩] ++
        ⟨.punctuation ';', ";", o + 6 + (n + 1)⟩ :: scanFrom (o + 6 + (n + 1) + 1) 0 r) := by
  have hmark (r : List Char) : lexeme ';' r = (.punctuation ';', []) :=
    lexeme_mark (by decide +kernel) (by decide) r
  have hblank : lexeme ' ' ('_' :: (List.replicate n '_' ++ ';' :: r)) = (.whitespace, []) := by
    have hc : Unicode.isBlank ' ' ∧ ¬ Unicode.isBlank '_' := by decide +kernel
    simp [lexeme, hc]
  have hsemicolon (o : Nat) (r : List Char) :
      scanFrom o 0 (';' :: r) = ⟨.punctuation ';', ";", o⟩ :: scanFrom (o + 1) 0 r :=
    scanFrom_cons o (hmark r) rfl
  have hspace : scanFrom (o + 5) 0 (' ' :: '_' :: (List.replicate n '_' ++ ';' :: r)) =
      ⟨.whitespace, " ", o + 5⟩ ::
        scanFrom (o + 6) 0 ('_' :: (List.replicate n '_' ++ ';' :: r)) :=
    scanFrom_cons (o + 5) hblank rfl
  have hfrom : scanFrom (o + 1) 0
      ('F' :: 'R' :: 'O' :: 'M' :: ' ' :: '_' :: (List.replicate n '_' ++ ';' :: r)) =
      ⟨.keyword .FROM, "FROM", o + 1⟩ ::
        scanFrom (o + 5) 0 (' ' :: '_' :: (List.replicate n '_' ++ ';' :: r)) :=
    scanFrom_keyword .FROM (o + 1) (by decide +kernel) _
  rw [hsemicolon, hfrom, hspace, scanFrom_cons _ (lexeme_underscores n r) rfl, hsemicolon,
    List.length_replicate]
  rfl

end Lexer

namespace Statement

theorem references_from (i o p : Nat) (text : String) :
    (Statement.mk i [⟨.keyword .FROM, "FROM", o⟩, ⟨.identifier, text, p⟩]).scan.references =
      [⟨[text], ⟨p, p + text.length⟩, .source, i⟩] := rfl

end Statement

namespace Unicode

theorem length_fold_append (s t : String) :
    (fold (s ++ t)).length = (fold s).length + (fold t).length := by
  simp only [fold, String.toList_append, List.flatMap_append, String.length_ofList,
    List.length_append]

end Unicode

theorem Reference.length_fold_name_le (r : Reference) (database : Option String) :
    (Unicode.fold r.name).length ≤ (Unicode.fold (r.qualifiedName database)).length := by
  unfold qualifiedName
  split
  · exact Nat.le_refl _
  · split
    · rw [Unicode.length_fold_append]
      exact Nat.le_add_left _ _
    · exact Nat.le_refl _

/-- A statement `FROM name` brings its name into the tables of the script, qualified
perhaps. -/
theorem Extraction.exists_mem_tables_from {script name : String} {xs ys : List Token}
    {o p q r s : Nat}
    (h : Token.scan script = xs ++ ⟨.punctuation ';', ";", o⟩ ::
      ([⟨.keyword .FROM, "FROM", p⟩, ⟨.whitespace, " ", q⟩, ⟨.identifier, name, r⟩] ++
        ⟨.punctuation ';', ";", s⟩ :: ys)) :
    ∃ table ∈ (scan script).tables, (Unicode.fold name).length ≤ (Unicode.fold table).length := by
  have hplain : ∀ t ∈ [⟨.keyword .FROM, "FROM", p⟩, ⟨.whitespace, " ", q⟩,
      Token.mk .identifier name r], ¬ t.isMark ';' := by
    simp [Token.isMark]
  obtain ⟨i, hi⟩ : ∃ i, ⟨i, [⟨.keyword .FROM, "FROM", p⟩, ⟨.identifier, name, r⟩]⟩ ∈
      Statement.ofScript script := by
    rw [Statement.ofScript, h]
    exact Statement.exists_mem_ofTokens rfl rfl hplain (List.cons_ne_nil _ _)
  have hsession : ¬ StatementKind.sessionWords.contains
      (Statement.headWord ⟨.keyword .FROM, "FROM", p⟩) := by
    change ¬ StatementKind.sessionWords.contains (Unicode.upper "FROM")
    decide +kernel
  have hreference : ⟨[name], ⟨r, r + name.length⟩, .source, i⟩ ∈
      (Statement.mk i [⟨.keyword .FROM, "FROM", p⟩, ⟨.identifier, name, r⟩]).scan.references := by
    rw [Statement.references_from]
    exact List.mem_singleton_self _
  obtain ⟨database, table, hmem, hfold⟩ := exists_mem_tables hi
    (Statement.kind_ne_session rfl hsession) hreference rfl
  refine ⟨table, hmem, ?_⟩
  have hle := Reference.length_fold_name_le ⟨[name], ⟨r, r + name.length⟩, .source, i⟩ database
  rwa [Reference.name, String.intercalate_singleton, ← hfold] at hle

namespace ScriptLiteral

open Lexer Token

variable {l : ScriptLiteral}

/-- If a substitution is open before it, the literal can name a table of any length. -/
theorem exists_name (h : l.followsSubstitution) (n : Nat) :
    ∃ text, l.form.isClosed text ∧
      ∃ name ∈ (Extraction.scan (l.withText text)).tables, n < (Unicode.fold name).length := by
  obtain ⟨ts, hcut⟩ := l.exists_cut_script
  rw [followsSubstitution_eq hcut] at h
  obtain ⟨rest, hrest, -⟩ := LiteralForm.isRest_of_isClosed l.isClosed
  rw [hrest, List.cons_append] at hcut
  have hplain : ∀ c ∈ ['}', ';', 'F', 'R', 'O', 'M', ' ', '_'] ++
      (List.replicate n '_' ++ [';']), c ≠ '\'' ∧ c ≠ '\\' ∧ c ≠ '*' := by
    rw [List.forall_mem_append, List.forall_mem_append]
    refine ⟨by simp, fun c hc => ?_, by simp⟩
    rw [List.eq_of_mem_replicate hc]
    decide
  have hclosed := LiteralForm.isClosed_of_isRest (l.form.isRest_of_plain hplain)
  refine ⟨_, hclosed, ?_⟩
  obtain ⟨us, hus⟩ := hcut.closed l.form.first_eq h l.form.opening_ne
    ('F' :: 'R' :: 'O' :: 'M' :: ' ' :: '_' ::
      (List.replicate n '_' ++ ';' :: (l.form.closing ++ l.after.toList)))
  have hscan := hus.scanFrom
  rw [scanFrom_statement] at hscan
  generalize htext : String.ofList (l.form.first :: _) = text
  have hscript : (l.withText text).toList =
      l.before.toList ++ l.form.first :: (l.form.opening ++ ['}']) ++
        ';' :: 'F' :: 'R' :: 'O' :: 'M' :: ' ' :: '_' ::
          (List.replicate n '_' ++ ';' :: (l.form.closing ++ l.after.toList)) := by
    rw [toList_withText, ← htext, String.toList_ofList]
    simp
  rw [← hscript] at hscan
  obtain ⟨name, hmem, hle⟩ := Extraction.exists_mem_tables_from hscan
  have hchar : Unicode.foldChar '_' = ['_'] := by decide +kernel
  rw [Unicode.fold, String.toList_ofList, flatMap_replicate hchar, String.length_ofList,
    List.length_replicate] at hle
  exact ⟨name, hmem, hle⟩

/-- A literal is opaque exactly when no substitution is open before it. -/
theorem isOpaque_iff (l : ScriptLiteral) : l.IsOpaque ↔ ¬ l.followsSubstitution := by
  refine ⟨fun hsame h => ?_, isOpaque_of_not_followsSubstitution⟩
  obtain ⟨text, hclosed, name, hmem, hlong⟩ := exists_name h
    ((Extraction.scan l.script).tables.map fun t => (Unicode.fold t).length).sum
  rw [hsame text hclosed] at hmem
  have hle := List.le_sum_of_mem
    (List.mem_map_of_mem (f := fun t => (Unicode.fold t).length) hmem)
  exact absurd hlong (Nat.not_lt.mpr hle)

/-- The comment of `SELECT * FROM ${d}.a /* ${ */, b`. -/
def afterSubstitution : ScriptLiteral where
  form := .blockComment
  before := "SELECT * FROM $\x7bd\x7d.a "
  text := "/* $\x7b */"
  after := ", b"
  isClosed := by decide +kernel
  isToken := by decide +kernel

/-- A substitution that is closed makes no difference. -/
theorem isOpaque_afterSubstitution : afterSubstitution.IsOpaque :=
  afterSubstitution.isOpaque_iff.mpr (by decide +kernel)

/-- The string of `SELECT * FROM a WHERE k = ${d; SELECT * FROM b WHERE k = 'x'`. -/
def inSubstitution : ScriptLiteral where
  form := .string
  before := "SELECT * FROM a WHERE k = $\x7bd; SELECT * FROM b WHERE k = "
  text := "'x'"
  after := ""
  isClosed := by decide +kernel
  isToken := by decide +kernel

/-- With `'}'` for the string the script has one statement only, which does not name
`b`. -/
theorem not_isOpaque_inSubstitution : ¬ inSubstitution.IsOpaque := by
  intro h
  have hsame := h "'\x7d'" (by decide +kernel)
  have hmem : "b" ∈ (Extraction.scan inSubstitution.script).tables :=
    List.mem_mergeSort.mpr (by decide +kernel)
  have htables : (Extraction.scan (inSubstitution.withText "'\x7d'")).tables = ["a"] := by
    decide +kernel
  rw [← hsame, htables] at hmem
  exact absurd hmem (by decide)

end ScriptLiteral

end SqlTables
