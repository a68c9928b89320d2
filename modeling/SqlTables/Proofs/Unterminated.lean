import SqlTables.Proofs.Run
import SqlTables.Proofs.Scan.Reports
import SqlTables.Proofs.Token.Delimiter

/-!
# Unterminated tokens

A token is unterminated just where nothing in the text behind its opening delimiter closes it.
Such a token takes the rest of the text, so there is one at most, and it is the last. What a
run reports about tokens is that token, at its first character
(`detectsUnterminated`), whatever a parser says about the statements.
-/

namespace SqlTables

namespace DiagnosticCode

/-- Whether the code is one of those for tokens, `S0100` to `S0109`. -/
def isLexing (c : DiagnosticCode) : Bool := 100 ≤ c.number ∧ c.number < 110

end DiagnosticCode

/-- The code for a token of that kind that is unterminated. -/
def TokenKind.unterminatedCode? : TokenKind → Option DiagnosticCode
  | .string => some .unterminatedString
  | .quotedIdentifier => some .unterminatedIdentifier
  | .comment => some .unterminatedComment
  | _ => none

theorem TokenKind.isLexing_of_unterminatedCode? {kind : TokenKind} {code : DiagnosticCode}
    (h : kind.unterminatedCode? = some code) : code.isLexing := by
  unfold unterminatedCode? at h
  split at h
  · rw [← Option.some.inj h]; rfl
  · rw [← Option.some.inj h]; rfl
  · rw [← Option.some.inj h]; rfl
  · cases h

/-- What is reported about tokens. -/
def Extraction.lexing (e : Extraction) : List Diagnostic := e.diagnostics.filter (·.code.isLexing)

/-- No token of the script is unterminated but the last, which ends with the script. -/
structure EndsUnterminated (script : String) (t : Token) : Prop where
  isUnterminated : t.isUnterminated
  last : ∃ before, Token.scan script = before ++ [t] ∧ ∀ u ∈ before, ¬ u.isUnterminated
  stop : t.stop = script.length

/-- Tokens are marked as unterminated exactly where they run out of text, and reported. -/
structure DetectsUnterminated (script : String) : Prop where
  runsOut : ∀ t ∈ Token.scan script,
    t.isUnterminated ↔ Lexer.RunsOut t.kind (script.toList.drop t.offset)
  atMostOne : (∀ t ∈ Token.scan script, ¬ t.isUnterminated) ∨ ∃ t, EndsUnterminated script t
  silent : (∀ t ∈ Token.scan script, ¬ t.isUnterminated) →
    ∀ r : Reader, (r.run script).lexing = []
  reported : ∀ t, EndsUnterminated script t → ∀ r : Reader, ∃ d, (r.run script).lexing = [d] ∧
    some d.code = t.kind.unterminatedCode? ∧ d.primarySpan? = some ⟨t.offset, t.offset + 1⟩

namespace Token

variable {t : Token} {script : String}

theorem unterminated?_of_not (h : ¬ t.isUnterminated) : Diagnostic.unterminated? t = none := by
  rw [Diagnostic.unterminated?]
  simp only [h, Bool.false_eq_true, if_false]
  cases t.kind <;> rfl

theorem exists_unterminated? (h : t.isUnterminated) :
    ∃ d, Diagnostic.unterminated? t = some d ∧ some d.code = t.kind.unterminatedCode? ∧
      d.primarySpan? = some ⟨t.offset, t.offset + 1⟩ := by
  unfold Diagnostic.unterminated?
  simp only [h, if_true]
  cases hkind : t.kind with
  | string => exact ⟨_, rfl, rfl, rfl⟩
  | quotedIdentifier => exact ⟨_, rfl, rfl, rfl⟩
  | comment => exact ⟨_, rfl, rfl, rfl⟩
  | keyword | identifier | number | punctuation | whitespace =>
      simp [isUnterminated, hkind] at h

theorem isLexing_of_unterminated? {d : Diagnostic} (h : Diagnostic.unterminated? t = some d) :
    d.code.isLexing := by
  by_cases ht : t.isUnterminated
  · obtain ⟨d', hd', hcode, -⟩ := exists_unterminated? ht
    obtain rfl : d' = d := Option.some.inj (hd'.symm.trans h)
    exact TokenKind.isLexing_of_unterminatedCode? hcode.symm
  · rw [unterminated?_of_not ht] at h
    cases h

theorem isUnterminated_iff_runsOut (h : t ∈ scan script) :
    t.isUnterminated ↔ Lexer.RunsOut t.kind (script.toList.drop t.offset) := by
  obtain ⟨c, rest, more, hdrop, hlex, htext⟩ := (Lexer.cut_scanFrom 0 script.toList).lexeme_drop h
  rw [List.append_nil, Nat.sub_zero] at hdrop
  have ht : t = ⟨t.kind, String.ofList (c :: more), t.offset⟩ := by rw [← htext]
  rw [hdrop, ← Lexer.isUnterminated_iff (o := t.offset) hlex, ← ht]

/-- An unterminated token ends the script, and with the script the tokens. -/
theorem endsUnterminated (h : t ∈ scan script) (ht : t.isUnterminated) :
    EndsUnterminated script t := by
  have hcut : Lexer.Cut [] 0 script.toList (scan script) := Lexer.cut_scanFrom 0 script.toList
  obtain ⟨before, after, hscan⟩ := List.append_of_mem h
  rw [hscan] at hcut
  obtain ⟨rfl, -⟩ := hcut.eq_nil_of_isUnterminated ht
  refine ⟨ht, ⟨before, hscan, fun u hu hopen => ?_⟩, ?_⟩
  · obtain ⟨first, last, rfl⟩ := List.append_of_mem hu
    rw [List.append_assoc, List.cons_append] at hcut
    have hlast := (hcut.eq_nil_of_isUnterminated hopen).1
    simp at hlast
  · rw [hcut.stop_getLast t List.getLast?_concat, Nat.zero_add, String.length_toList]

end Token

namespace Reader

variable (r : Reader) (script : String)

/-- The codes of what may be reported of a statement. -/
def codes : List DiagnosticCode :=
  [.statementSkipped, .databaseSwitched, .parserFallback] ++ Scan.codes

theorem code_of_mem_diagnostics {s : Statement} {d : Diagnostic}
    (h : d ∈ r.diagnostics script s) : d.code ∈ codes := by
  have hscan (h : d ∈ s.scan.diagnostics) : d.code ∈ codes :=
    List.mem_append_right _ (s.code_of_mem_scan d h)
  have hskipped : DiagnosticCode.statementSkipped ∈ codes := by decide
  have hswitched : DiagnosticCode.databaseSwitched ∈ codes := by decide
  have hfallback : DiagnosticCode.parserFallback ∈ codes := by decide
  unfold diagnostics at h
  split at h
  · rw [List.mem_singleton] at h
    rw [h, Statement.sessionDiagnostic]
    split
    · exact hswitched
    · exact hskipped
  · unfold find at h
    cases hengine : r.engine with
    | scan =>
        rw [hengine] at h
        exact hscan h
    | parser =>
        rw [hengine] at h
        cases hanswer : Id.run (r.parser (s.text script) r.dialect) with
        | tables names =>
            simp only [hanswer] at h
            cases h
        | notModelled =>
            simp only [hanswer] at h
            exact hscan h
        | failed cause =>
            simp only [hanswer] at h
            rcases List.mem_cons.mp h with rfl | h
            · exact hfallback
            · exact hscan h

/-- What a run reports about tokens is what is reported of each token, and of no statement. -/
theorem lexing_run :
    (r.run script).lexing = (Token.scan script).filterMap Diagnostic.unterminated? := by
  have htokens : ((Token.scan script).filterMap Diagnostic.unterminated?).filter
      (·.code.isLexing) = (Token.scan script).filterMap Diagnostic.unterminated? := by
    refine List.filter_eq_self.mpr fun d hd => ?_
    obtain ⟨t, -, ht⟩ := List.mem_filterMap.mp hd
    exact Token.isLexing_of_unterminated? ht
  have hstatements : ((Statement.ofScript script).flatMap (r.diagnostics script)).filter
      (·.code.isLexing) = [] := by
    refine List.filter_eq_nil_iff.mpr fun d hd => ?_
    have hcodes : ∀ code ∈ codes, code.isLexing = false := by decide
    obtain ⟨s, -, hd⟩ := List.mem_flatMap.mp hd
    rw [hcodes _ (r.code_of_mem_diagnostics script hd)]
    exact Bool.false_ne_true
  rw [Extraction.lexing, diagnostics_run, List.filter_append, htokens, hstatements,
    List.append_nil]

end Reader

/-- Whatever the script is, its unterminated tokens are detected. -/
theorem detectsUnterminated (script : String) : DetectsUnterminated script where
  runsOut _ h := Token.isUnterminated_iff_runsOut h
  atMostOne := by
    by_cases hnone : ∀ t ∈ Token.scan script, ¬ t.isUnterminated
    · exact Or.inl hnone
    · push Not at hnone
      obtain ⟨t, ht, hopen⟩ := hnone
      exact Or.inr ⟨t, Token.endsUnterminated ht hopen⟩
  silent hnone r := by
    rw [r.lexing_run, List.filterMap_eq_nil_iff]
    exact fun t ht => Token.unterminated?_of_not (hnone t ht)
  reported t h r := by
    obtain ⟨before, hscan, hbefore⟩ := h.last
    obtain ⟨d, hd, hcode, hspan⟩ := Token.exists_unterminated? h.isUnterminated
    refine ⟨d, ?_, hcode, hspan⟩
    have hnone : before.filterMap Diagnostic.unterminated? = [] :=
      List.filterMap_eq_nil_iff.mpr fun u hu => Token.unterminated?_of_not (hbefore u hu)
    rw [r.lexing_run, hscan, List.filterMap_append, hnone, List.filterMap_cons, hd]
    rfl

/-- Neither an escaped quote nor the star of an opening mark closes anything. -/
example : (Token.scan "'a\\'").map Token.isUnterminated = [true] ∧
    (Token.scan "/*/").map Token.isUnterminated = [true] := by
  decide +kernel

end SqlTables
