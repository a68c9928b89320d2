import SqlTables.Proofs.Plain.Engines
import SqlTables.Proofs.Run
import SqlTables.Proofs.Token.Literal
import SqlTables.Proofs.Token.Word

/-!
# Quoted names

Any text is a name once it is written in quotes, with the quotes in it doubled
(`IdentifierQuote.enquote`): the text is one token, which ends before a dot or the end of
the script (`Lexer.lexeme_enquote`), and its value is the name again
(`Token.undouble_double`). So a script that selects from quoted names joined by dots has one
table, whose name is what stands in the quotes (`Extraction.tables_quoted`).
-/

namespace SqlTables

namespace Token

variable {quote c : Char} {xs : List Char}

/-- The text with every quote doubled. -/
def double (quote : Char) (xs : List Char) : List Char :=
  xs.flatMap fun c => if c = quote then [quote, quote] else [c]

theorem double_cons (quote c : Char) (xs : List Char) :
    double quote (c :: xs) =
      if c = quote then quote :: quote :: double quote xs else c :: double quote xs := by
  rw [double, List.flatMap_cons]
  split
  · rfl
  · rfl

theorem undouble_cons (hc : c ≠ quote) (xs : List Char) :
    undouble quote (c :: xs) = c :: undouble quote xs := by
  cases xs with
  | nil => rfl
  | cons d xs => rw [undouble, if_neg fun h => hc h.1]

theorem undouble_double (quote : Char) (xs : List Char) :
    undouble quote (double quote xs) = xs := by
  induction xs with
  | nil => rfl
  | cons c xs ih =>
      rw [double_cons]
      split
      · next hc => rw [undouble, if_pos ⟨rfl, rfl⟩, ih, hc]
      · next hc => rw [undouble_cons hc, ih]

theorem isClosedBody_cons (hc : c ≠ quote) (hxs : xs ≠ []) :
    isClosedBody quote false (c :: xs) = isClosedBody quote false xs := by
  cases xs with
  | nil => exact absurd rfl hxs
  | cons d xs => simp [isClosedBody, hc]

/-- Among doubled quotes, the quote at the end is the first that closes the text. -/
theorem isClosedBody_double (quote : Char) (xs : List Char) :
    isClosedBody quote false (double quote xs ++ [quote]) := by
  induction xs with
  | nil => simp [double, isClosedBody]
  | cons c xs ih =>
      rw [double_cons]
      split
      · simpa [isClosedBody] using ih
      · next hc => rwa [List.cons_append, isClosedBody_cons hc (by simp)]

end Token

/-- The quotes that a name may stand in. -/
inductive IdentifierQuote
  | double
  | back
deriving DecidableEq

namespace IdentifierQuote

def char : IdentifierQuote → Char
  | double => '"'
  | back => '`'

/-- What follows the opening quote of a name. -/
def body (q : IdentifierQuote) (name : String) : List Char :=
  Token.double q.char name.toList ++ [q.char]

/-- The name in quotes. -/
def enquote (q : IdentifierQuote) (name : String) : String :=
  String.ofList (q.char :: q.body name)

/-- The token that a name in quotes is. -/
def token (q : IdentifierQuote) (name : String) (offset : Nat) : Token :=
  ⟨.quotedIdentifier, q.enquote name, offset⟩

theorem value_token (q : IdentifierQuote) (name : String) (offset : Nat) :
    (q.token name offset).value = name := by
  have hclosed : (q.token name offset).isUnterminated = false := by
    have hbody := Token.isClosedBody_double q.char name.toList
    simp [Token.isUnterminated, token, enquote, body, hbody]
  have htext : (q.token name offset).text.toList = q.char :: q.body name :=
    String.toList_ofList
  have hkind : (q.token name offset).kind = .quotedIdentifier := rfl
  simp [Token.value, hkind, htext, hclosed, body, Token.undouble_double]

end IdentifierQuote

namespace Scan

/-- What is accepted as a table is accepted after a dot. -/
theorem isName_or_isSome_keyword? {t : Token} (h : isCandidate t) :
    t.isName || t.keyword?.isSome := by
  rw [isCandidate, Token.isAnyKeyword] at h
  rw [Token.keyword?]
  cases hkind : t.kind <;> simp_all

end Scan

namespace TableName

variable {n : TableName} {t : Token}

theorem cases_of_mem (ht : t ∈ n.tokens) : t.isMark '.' ∨ t.isName ∨ t.keyword?.isSome := by
  rw [tokens, List.mem_cons, List.mem_flatMap] at ht
  rcases ht with rfl | ⟨p, hp, ht⟩
  · exact Or.inr ((Bool.or_eq_true _ _).mp (Scan.isName_or_isSome_keyword? n.candidate))
  · simp only [List.mem_cons, List.not_mem_nil, or_false] at ht
    rcases ht with rfl | rfl
    · exact Or.inl (n.dots p hp)
    · exact Or.inr ((Bool.or_eq_true _ _).mp (n.names p hp))

theorem isSignificant_of_mem (ht : t ∈ n.tokens) : t.isSignificant := by
  have hcases := cases_of_mem ht
  unfold Token.isMark Token.isName Token.keyword? at hcases
  unfold Token.isSignificant
  cases hkind : t.kind <;> simp_all

theorem not_isMark_of_mem (ht : t ∈ n.tokens) : ¬ t.isMark ';' := by
  have hcases := cases_of_mem ht
  unfold Token.isMark Token.isName Token.keyword? at hcases
  unfold Token.isMark
  cases hkind : t.kind <;> simp_all

end TableName

namespace Lexer

open Token Scan

variable {q : IdentifierQuote} {after : List Char}

theorem lexeme_identifierQuote (q : IdentifierQuote) (rest : List Char) :
    lexeme q.char rest = (.quotedIdentifier, quoted q.char false rest) := by
  cases q with
  | double => simp [lexeme, IdentifierQuote.char, show Unicode.isBlank '"' = false by decide]
  | back => simp [lexeme, IdentifierQuote.char, show Unicode.isBlank '`' = false by decide]

/-- A name in quotes is one token. -/
theorem lexeme_enquote (name : String) (hafter : after.head? ≠ some q.char) :
    lexeme q.char (q.body name ++ after) = (.quotedIdentifier, q.body name) := by
  have hclosed : isClosedBody q.char false (q.body name) := isClosedBody_double q.char name.toList
  rw [lexeme_identifierQuote, quoted_append (by simp) hclosed hafter]

theorem scanFrom_enquote (offset : Nat) (name : String) (hafter : after.head? ≠ some q.char) :
    scanFrom offset 0 ((q.enquote name).toList ++ after) =
      q.token name offset :: scanFrom (offset + ((q.body name).length + 1)) 0 after := by
  rw [IdentifierQuote.enquote, String.toList_ofList, List.cons_append,
    scanFrom_cons offset (lexeme_enquote name hafter) rfl]
  rfl

/-- A dot before a quote begins no number. -/
theorem scanFrom_dot (offset : Nat) (q : IdentifierQuote) (rest : List Char) :
    scanFrom offset 0 ('.' :: q.char :: rest) =
      ⟨.punctuation '.', ".", offset⟩ :: scanFrom (offset + 1) 0 (q.char :: rest) := by
  have hdot : ¬ Unicode.isBlank '.' ∧ ¬ Unicode.isDigit '.' ∧ ¬ isWordStart '.' := by
    decide +kernel
  have hquote : Unicode.isDigit q.char = false := by
    cases q with
    | double => decide +kernel
    | back => decide +kernel
  exact scanFrom_cons offset (by simp [lexeme, hdot, hquote]) rfl

theorem exists_dotted (q : IdentifierQuote) (first : String) (more : List String) :
    ∃ rest, (".".intercalate ((first :: more).map q.enquote)).toList = q.char :: rest := by
  have hfirst : (q.enquote first).toList = q.char :: q.body first := String.toList_ofList
  cases more with
  | nil =>
      rw [List.map_singleton, String.intercalate_singleton, hfirst]
      exact ⟨_, rfl⟩
  | cons second more =>
      rw [List.map_cons, List.map_cons, String.intercalate_cons_cons, String.append_assoc,
        String.toList_append, hfirst]
      exact ⟨_, rfl⟩

/-- Quoted names joined by dots are read as one name of these parts. -/
theorem exists_tableName (q : IdentifierQuote) (offset : Nat) (first : String)
    (more : List String) :
    ∃ n : TableName, n.read.parts = first :: more ∧
      scanFrom offset 0 (".".intercalate ((first :: more).map q.enquote)).toList = n.tokens := by
  induction more generalizing offset first with
  | nil =>
      have hempty : ([] : List Char).head? ≠ some q.char := by simp
      have hscan := scanFrom_enquote offset first hempty
      rw [List.append_nil] at hscan
      refine ⟨⟨q.token first offset, [], rfl, by simp, by simp⟩, ?_, ?_⟩
      · rw [TableName.read, q.value_token]
        rfl
      · rw [List.map_singleton, String.intercalate_singleton, hscan]
        rfl
  | cons second more ih =>
      let stop := offset + ((q.body first).length + 1)
      let dot : Token := ⟨.punctuation '.', ".", stop⟩
      obtain ⟨n, hparts, hscan⟩ := ih (stop + 1) second
      have hlater : n.first.isName || n.first.keyword?.isSome :=
        isName_or_isSome_keyword? n.candidate
      refine ⟨⟨q.token first offset, (dot, n.first) :: n.parts, rfl, ?_, ?_⟩, ?_, ?_⟩
      · exact List.forall_mem_cons.mpr ⟨rfl, n.dots⟩
      · exact List.forall_mem_cons.mpr ⟨hlater, n.names⟩
      · rw [TableName.read] at hparts ⊢
        dsimp only at hparts ⊢
        rw [List.map_cons, hparts, q.value_token]
      · obtain ⟨rest, hrest⟩ := exists_dotted q second more
        rw [hrest] at hscan
        have hdot : (".").toList = ['.'] := rfl
        have hne : ('.' :: q.char :: rest).head? ≠ some q.char := by
          cases q <;> simp [IdentifierQuote.char]
        rw [List.map_cons, List.map_cons, String.intercalate_cons_cons, ← List.map_cons,
          String.append_assoc, String.toList_append, String.toList_append, hrest, hdot,
          List.singleton_append, scanFrom_enquote offset first hne, scanFrom_dot, hscan]
        rfl

/-- `SELECT * FROM` before a name in quotes. -/
theorem scanFrom_selectFrom (q : IdentifierQuote) (rest : List Char) :
    scanFrom 0 0 ("SELECT * FROM ".toList ++ q.char :: rest) =
      [⟨.keyword .SELECT, "SELECT", 0⟩, ⟨.whitespace, " ", 6⟩, ⟨.punctuation '*', "*", 7⟩,
        ⟨.whitespace, " ", 8⟩, ⟨.keyword .FROM, "FROM", 9⟩, ⟨.whitespace, " ", 13⟩] ++
        scanFrom 14 0 (q.char :: rest) := by
  have hspace : ¬ isWordChar ' ' := by decide +kernel
  have hblank : ¬ Unicode.isBlank q.char := by
    cases q <;> decide
  have hstart : Keyword.FROM.text.toList ++ ' ' :: q.char :: rest =
      'F' :: 'R' :: 'O' :: 'M' :: ' ' :: q.char :: rest := rfl
  have htext : "SELECT * FROM ".toList ++ q.char :: rest =
      Keyword.SELECT.text.toList ++ ' ' :: '*' :: ' ' ::
        (Keyword.FROM.text.toList ++ ' ' :: q.char :: rest) := rfl
  have hstar (r : List Char) : scanFrom 7 0 ('*' :: r) =
      ⟨.punctuation '*', "*", 7⟩ :: scanFrom 8 0 r :=
    scanFrom_cons 7 (lexeme_mark (by decide +kernel) (by decide) r) rfl
  have hselect : (Keyword.text .SELECT).length = 6 := rfl
  have hfrom : (Keyword.text .FROM).length = 4 := rfl
  rw [htext, scanFrom_keyword .SELECT 0 hspace, hselect, scanFrom_space _ (by decide), hstar,
    hstart, scanFrom_space 8 (by decide), ← hstart, scanFrom_keyword .FROM 9 hspace, hfrom,
    scanFrom_space 13 hblank]
  rfl

end Lexer

namespace Statement

open Lexer Token

theorem tableNames_selectFrom {select star source : Token} (hselect : select.isKeyword .SELECT)
    (hstar : star.isMark '*') (hfrom : source.isKeyword .FROM) (index : Nat) (n : TableName) :
    (Statement.mk index ([select, star, source] ++ n.tokens)).tableNames = [n.read.text] := by
  have hread := Scan.reads_selectFrom hselect hstar hfrom Scan.depthLimit (n.tokens ++ [])
  rw [tableNames_eq, ← Plain.tableNames_unnamed (.name (.operand .list) n.read) n]
  exact (hread.append fun s h => Plain.reads_tableName h rfl
    (h.step_candidate _ _ n.candidate)).tableNames_find

/-- A script that selects from quoted names joined by dots is one statement. -/
theorem exists_ofScript (q : IdentifierQuote) (first : String) (more : List String) :
    ∃ s : Statement,
      ofScript ("SELECT * FROM " ++ ".".intercalate ((first :: more).map q.enquote)) = [s] ∧
      s.kind ≠ .session ∧ s.tableNames = [".".intercalate (first :: more)] := by
  obtain ⟨n, hparts, hscan⟩ := exists_tableName q 14 first more
  obtain ⟨rest, hrest⟩ := exists_dotted q first more
  let select : Token := ⟨.keyword .SELECT, "SELECT", 0⟩
  let star : Token := ⟨.punctuation '*', "*", 7⟩
  let source : Token := ⟨.keyword .FROM, "FROM", 9⟩
  have hsignificant : (Token.scan ("SELECT * FROM " ++
      ".".intercalate ((first :: more).map q.enquote))).filter isSignificant =
        [select, star, source] ++ n.tokens := by
    rw [Token.scan, String.toList_append, hrest, scanFrom_selectFrom, ← hrest, hscan,
      List.filter_append, List.filter_eq_self.mpr fun t ht => TableName.isSignificant_of_mem ht]
    rfl
  have hmark : ∀ t ∈ [select, star, source] ++ n.tokens, ¬ t.isMark ';' := by
    rw [List.forall_mem_append]
    exact ⟨by decide, fun t ht => TableName.not_isMark_of_mem ht⟩
  refine ⟨⟨0, [select, star, source] ++ n.tokens⟩, ?_, kind_ne_session rfl (by decide +kernel), ?_⟩
  · rw [ofScript, ofTokens, hsignificant, groups_eq_singleton hmark]
    rfl
  · rw [tableNames_selectFrom rfl rfl rfl, DottedName.text, hparts]

end Statement

namespace Extraction

/-- The tables of a script of one statement. -/
theorem tables_singleton {script : String} {s : Statement} (hs : Statement.ofScript script = [s])
    (hkind : s.kind ≠ .session) : (scan script).tables = TableSet.listing s.tableNames := by
  rw [scan, run_singleton hs, step, if_neg hkind]
  change (TableSet.empty.insertSources none s.scan.references).sorted = _
  rw [TableSet.insertSources_eq]
  rfl

/-- What stands in quotes is a name, whatever it is. -/
theorem tables_quoted (q : IdentifierQuote) (first : String) (more : List String) :
    (scan ("SELECT * FROM " ++ ".".intercalate ((first :: more).map q.enquote))).tables =
      [".".intercalate (first :: more)] := by
  obtain ⟨s, hscript, hkind, hnames⟩ := Statement.exists_ofScript q first more
  rw [tables_singleton hscript hkind, hnames, TableSet.listing_singleton]

/-- Quotes, semicolons and comments in a name mean nothing. -/
example : (scan "SELECT * FROM `a``b`.`; -- 'c`").tables = ["a`b.; -- 'c"] := by decide +kernel

end Extraction

end SqlTables
