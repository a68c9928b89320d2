import SqlTables.CommandLine.Session
import SqlTables.Grammar
import SqlTables.Proofs.Answered
import SqlTables.Proofs.Settings.Stored
import SqlTables.Proofs.Settings.Written

/-!
# The reply to a form

Whatever the configuration file holds and whatever is submitted, the form should get a text back:
the message of a problem with the input, or the tables. The settings are always there, and what
they hold names an engine and a separator. Only the name of the dialect is not checked before the
parser is asked, so there is a reply unless the parser is asked with a dialect that it does not
know (`FormCall.replies_iff`).
-/

namespace SqlTables

namespace ConfigFile

variable {file : ConfigFile}

/-- What was saved and removed leaves no integers in a file that was not there at first. -/
theorem IsWritten.hasShortIntegers (h : file.IsWritten) : file.HasShortIntegers := by
  obtain ⟨sections, hnamed, rfl⟩ := h
  by_cases hplain : sections.IsPlain
  · have hread := Sections.read_file hnamed hplain
    constructor
    · intro digits hlong
      rw [hread] at hlong
      cases hlong
    · intro entries hentries
      rw [hread] at hentries
      cases hentries
      refine Datum.isShowable_table.mpr fun e he => ?_
      obtain ⟨values, hd, hvalues⟩ := isSection_tables sections e he
      rw [hd]
      exact Datum.isShowable_table.mpr hvalues
  · have hread := Sections.read_file_of_not_isPlain hnamed hplain
    constructor
    · intro digits hlong
      rw [hread] at hlong
      cases hlong
    · intro entries hentries
      rw [hread] at hentries
      cases hentries

end ConfigFile

/-- A parser that has an answer for every text in a dialect that it knows, and refuses any other
dialect. -/
structure SqlParser.Knows (parser : SqlParser) (isKnown : String → Prop) : Prop where
  answers : ∀ text dialect, isKnown dialect → ∃ answer, parser text (some dialect) = .ok answer
  refuses : ∀ text dialect, ¬ isKnown dialect → ∃ cause, parser text (some dialect) = .error cause

/-- A form that is submitted, with a configuration file and a parser. -/
structure FormCall where
  file : ConfigFile
  hasShortIntegers : file.HasShortIntegers
  parser : SqlParser
  isKnown : String → Prop
  knows : parser.Knows isKnown
  submission : Submission

namespace FormCall

variable (call : FormCall) {s : Settings} {script : String} {origin : InputOrigin}

/-- The script that is submitted, or a problem with the input. -/
def input (s : Settings) : Except InputProblem (String × InputOrigin) :=
  Input.resolve call.submission.text call.submission.file s.maxInputBytes

/-- What comes back with the settings in force. -/
def reply : Except Failure String := do
  let s ← call.file.settings.mapError .config
  (call.submission.answer call.parser s none).mapError .choice

/-- A problem with the input has its message for a reply, and a script its tables, joined by the
configured separator. -/
def Replies (s : Settings) : Prop :=
  match call.input s with
  | .error problem => call.reply = .ok problem.message
  | .ok (script, _) => ∃ e joiner,
      Extraction.runChosen call.parser s.engine s.dialect script = .ok e ∧
        s.joiner? = some joiner ∧ call.reply = .ok (joiner.intercalate e.tables)

/-- The parser is the engine, and there is a statement that it is asked for. -/
def AsksParser (s : Settings) : Prop :=
  s.engine = Engine.parser.text ∧ ∃ script origin, call.input s = .ok (script, origin) ∧
    ∃ statement ∈ Statement.ofScript script, statement.kind ≠ .session

theorem reply_eq (hs : call.file.settings = .ok s) :
    call.reply = (call.submission.answer call.parser s none).mapError .choice := by
  rw [reply, hs]
  rfl

theorem reply_of_problem {problem : InputProblem} (hs : call.file.settings = .ok s)
    (hinput : call.input s = .error problem) : call.reply = .ok problem.message := by
  rw [input] at hinput
  rw [call.reply_eq hs, Submission.answer, hinput]
  rfl

theorem reply_of_extraction {e : Extraction} {joiner : String}
    (hs : call.file.settings = .ok s) (hinput : call.input s = .ok (script, origin))
    (hrun : Extraction.runChosen call.parser s.engine s.dialect script = .ok e)
    (hjoiner : s.joiner? = some joiner) : call.reply = .ok (joiner.intercalate e.tables) := by
  rw [input] at hinput
  rw [call.reply_eq hs, Submission.answer, hinput]
  dsimp only
  rw [hrun, Option.none_or, hjoiner]
  rfl

/-- The parser answers for a statement exactly if it knows the dialect. -/
theorem exists_answer_iff (text dialect : String) :
    (∃ answer, call.parser text (some dialect) = .ok answer) ↔ call.isKnown dialect := by
  constructor
  · rintro ⟨answer, hanswer⟩
    by_contra hunknown
    obtain ⟨cause, hcause⟩ := call.knows.refuses text dialect hunknown
    rw [hanswer] at hcause
    cases hcause
  · exact call.knows.answers text dialect

/-- A script with the settings in force is read, unless the parser is asked for a statement in a
dialect that it does not know. -/
theorem exists_runChosen_iff (hengine : s.engine ∈ Settings.engines)
    (hinput : call.input s = .ok (script, origin)) :
    (∃ e, Extraction.runChosen call.parser s.engine s.dialect script = .ok e) ↔
      (call.AsksParser s → call.isKnown s.dialect) := by
  have hnames (engine : Engine) : Engine.ofText? engine.text = some engine := by
    cases engine <;> decide
  have hchoice : ∃ engine : Engine, s.engine = engine.text := by
    rcases List.mem_cons.mp hengine with hscan | hrest
    · exact ⟨.scan, hscan⟩
    · exact ⟨.parser, List.mem_singleton.mp hrest⟩
  obtain ⟨engine, htext⟩ := hchoice
  rw [Extraction.runChosen, htext, hnames, AsksParser, htext]
  dsimp only
  rw [Extraction.exists_run_iff]
  constructor
  · rintro h ⟨hparser, script', origin', hinput', statement, hmem, hkind⟩
    rw [hinput] at hinput'
    cases hinput'
    rw [← call.exists_answer_iff (statement.text script)]
    have hasked : engine = .parser := by
      cases engine with
      | scan => exact absurd hparser (by decide)
      | parser => rfl
    exact h statement hmem ⟨hasked, hkind⟩
  · rintro h statement hmem ⟨rfl, hkind⟩
    rw [call.exists_answer_iff]
    exact h ⟨rfl, script, origin, hinput, statement, hmem, hkind⟩

/-- The settings are there, and there is a reply exactly if the parser, should it be asked at all,
knows the dialect. -/
theorem replies_iff : ∃ s, call.file.settings = .ok s ∧
    (call.Replies s ↔ (call.AsksParser s → call.isKnown s.dialect)) := by
  obtain ⟨s, hs⟩ := call.hasShortIntegers.exists_settings
  have hvalid := Settings.isValid_settings hs
  obtain ⟨joiner, hjoiner⟩ := Option.isSome_iff_exists.mp hvalid.separator
  refine ⟨s, hs, ?_⟩
  rw [Replies]
  cases hinput : call.input s with
  | error problem =>
      refine iff_of_true (call.reply_of_problem hs hinput) ?_
      rintro ⟨-, script, origin, hscript, -⟩
      rw [hinput] at hscript
      cases hscript
  | ok result =>
      obtain ⟨script, origin⟩ := result
      rw [← call.exists_runChosen_iff hvalid.engine hinput]
      constructor
      · rintro ⟨e, joiner, hrun, -⟩
        exact ⟨e, hrun⟩
      · rintro ⟨e, hrun⟩
        exact ⟨e, joiner, hrun, hjoiner, call.reply_of_extraction hs hinput hrun hjoiner⟩

/-- The parser of the program knows the dialects that can be chosen. -/
theorem knows_parse :
    SqlParser.Knows Grammar.parse fun dialect => ∃ d, Dialect.choose (some dialect) = .ok d := by
  constructor
  case answers =>
    rintro text dialect ⟨d, hd⟩
    rw [Grammar.parse, Grammar.parseBy, hd]
    exact ⟨_, rfl⟩
  case refuses =>
    intro text dialect hunknown
    rw [Grammar.parse, Grammar.parseBy]
    cases hchoose : Dialect.choose (some dialect) with
    | ok d => exact absurd ⟨d, hchoose⟩ hunknown
    | error cause => exact ⟨_, rfl⟩

/-- `SELECT * FROM a`, after the parser and a dialect that there is not were saved. -/
def inStrangeDialect : FormCall where
  file := ConfigFile.edits none [.set "extract.engine" "sqlglot", .set "extract.dialect" "nope"]
  hasShortIntegers := (ConfigFile.isWritten_edits _).hasShortIntegers
  parser := Grammar.parse
  isKnown := fun dialect => ∃ d, Dialect.choose (some dialect) = .ok d
  knows := knows_parse
  submission := ⟨some "SELECT * FROM a", none⟩

/-- The dialect is accepted as a setting, and refused by the parser. -/
theorem not_replies_inStrangeDialect :
    inStrangeDialect.file.settings = .ok { engine := "sqlglot", dialect := "nope" } ∧
      ¬ inStrangeDialect.Replies { engine := "sqlglot", dialect := "nope" } := by
  have hinput : inStrangeDialect.input { engine := "sqlglot", dialect := "nope" } =
      .ok ("SELECT * FROM a", .text) := by
    decide +kernel
  have hstatement : ∃ statement ∈ Statement.ofScript "SELECT * FROM a",
      statement.kind ≠ .session := by
    decide +kernel
  have hname : "nope".splitOn "," = ["nope"] := by
    rw [String.splitOn, if_neg (by decide)]
    iterate 4 rw [String.splitOnAux, if_neg (by decide), if_neg (by decide)]
    rw [String.splitOnAux, if_pos (by decide)]
    decide
  have hchoose : Dialect.choose (some "nope") = .error (.unknown "nope") := by
    rw [Dialect.choose, hname]
    rfl
  refine ⟨by decide +kernel, ?_⟩
  rw [Replies, hinput]
  rintro ⟨e, joiner, hrun, -⟩
  have hknown := (inStrangeDialect.exists_runChosen_iff (by decide) hinput).mp ⟨e, hrun⟩
  obtain ⟨d, hd⟩ := hknown ⟨rfl, _, _, hinput, hstatement⟩
  rw [hchoose] at hd
  cases hd

end FormCall

end SqlTables
