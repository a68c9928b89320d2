import SqlTables.CommandLine.Extract
import SqlTables.Proofs.Answered
import SqlTables.Proofs.Calendar
import SqlTables.Proofs.Input
import SqlTables.Proofs.Settings.Written

/-!
# Counting back the retention time

Settings that were accepted should not break a run of `extract`. All values but one keep this
promise. The number of days for which the log is kept may be any positive integer, and each run
that is logged counts it back from the current day, which has to lie in the calendar: the run fails
if the day number of the current day is not greater (`ScanRun.endsCleanly_iff`).
-/

namespace SqlTables

namespace LogFolder

variable {now : Instant} {days : Int}

/-- Days can be counted back from a moment exactly if the calendar goes back so far. -/
theorem exists_expired_iff (files : List String) (hnow : now.date.isValid) (hdays : 0 < days) :
    (∃ gone, expired files now days = .ok gone) ↔ days < now.date.dayNumber := by
  have hlast := Date.dayNumber_le_last hnow
  have hnumber : Date.lastDayNumber = 3652059 := by decide +kernel
  rw [hnumber] at hlast
  unfold expired cutoff
  rw [RetentionProblem.longestSpan, hnumber]
  constructor
  · rintro ⟨gone, hgone⟩
    by_contra hfar
    split at hgone
    · cases hgone
    · split at hgone
      · cases hgone
      · rw [if_pos (by omega)] at hgone
        cases hgone
  · intro hnear
    rw [if_neg (by omega), if_neg (by omega), if_neg (by omega)]
    exact ⟨_, rfl⟩

end LogFolder

/-- A run of `extract` after some edits of the settings. The engine is the scan, and there is no
script but the argument. -/
structure ScanRun where
  parser : SqlParser
  host : Host
  request : ExtractRequest
  edits : List ConfigEdit
  isEdited : host.config = ConfigFile.edits none edits
  isDate : host.now.date.isValid
  isArgument : request.file = none ∧ request.base64 = none ∧ request.fromStdin = false
  isScan : ∀ s, host.config.settings = .ok s → (request.override s).engine = "scan"
  isChoice : ∀ name ∈ request.separator, name ∈ Settings.separators.map Prod.fst

namespace ScanRun

variable (run : ScanRun) {s : Settings}

def outcome : Outcome := run.request.perform run.parser run.host

/-- The run ends with an exit code. -/
def EndsCleanly : Prop := ∃ code, run.outcome.ending = .exit code

def IsLogged (s : Settings) : Prop := s.logEnabled ∧ run.request.noLog = false

/-- There is a script, and it is not too large. -/
def HasScript (s : Settings) : Prop :=
  ∃ script ∈ run.request.script, script ≠ "" ∧ (Input.byteCount script : Int) ≤ s.maxInputBytes

/-! ## The steps of a run -/

theorem exists_settings : ∃ s, run.host.config.settings = .ok s := by
  rw [run.isEdited]
  exact (ConfigFile.isWritten_edits run.edits).exists_settings

theorem isSome_joiner? (hs : s.IsValid) : (run.request.override s).joiner?.isSome := by
  rw [Settings.joiner?, ExtractRequest.override]
  cases hseparator : run.request.separator with
  | none => exact hs.separator
  | some name => exact Settings.isSome_lookup_separators name (run.isChoice name hseparator)

/-- The script is read from the argument. -/
theorem read_eq (limit : Int) :
    run.request.read run.host limit =
      (Input.resolve run.request.script none limit).mapError .input := by
  obtain ⟨hfile, hbase64, hstdin⟩ := run.isArgument
  have hone : ¬ 1 < run.request.inputNames.length := by
    rw [ExtractRequest.inputNames, hfile, hbase64, hstdin]
    split <;> decide
  rw [ExtractRequest.read, if_neg hone, hstdin, hfile, hbase64]
  rfl

theorem read_of_hasScript (h : run.HasScript s) :
    ∃ script, run.request.read run.host s.maxInputBytes = .ok (script, .text) := by
  obtain ⟨script, hscript, hne, hsize⟩ := h
  refine ⟨script, ?_⟩
  rw [read_eq, Option.mem_def.mp hscript, Input.resolve_text _ hne,
    if_neg (Int.not_lt.mpr hsize)]
  rfl

theorem read_of_not_hasScript (h : ¬ run.HasScript s) :
    ∃ problem, run.request.read run.host s.maxInputBytes = .error (.input problem) := by
  rw [read_eq]
  cases hscript : run.request.script with
  | none => exact ⟨_, rfl⟩
  | some script =>
      by_cases hne : script = ""
      · rw [hne]
        exact ⟨_, rfl⟩
      · by_cases hsize : (Input.byteCount script : Int) ≤ s.maxInputBytes
        · exact absurd ⟨script, hscript, hne, hsize⟩ h
        · rw [Input.resolve_text _ hne, if_pos (Int.not_le.mp hsize)]
          exact ⟨_, rfl⟩

theorem runChosen_eq (hs : run.host.config.settings = .ok s) (dialect : Option String)
    (script : String) :
    ∃ e, Extraction.runChosen run.parser (run.request.override s).engine dialect script =
      .ok e := by
  rw [run.isScan s hs]
  exact Extraction.exists_run_scan run.parser dialect script

theorem ending_logged {host : Host} {s : Settings} (entry : LogEntry) {o : Outcome}
    (ho : ∃ code, o.ending = .exit code) :
    (∃ code, (ExtractRequest.logged host s entry o).ending = .exit code) ↔
      ∃ gone, LogFolder.expired host.logFiles host.now s.logRetentionDays = .ok gone := by
  rw [ExtractRequest.logged]
  cases LogFolder.expired host.logFiles host.now s.logRetentionDays with
  | ok files => simpa using ho
  | error problem => simp

/-! ## The end of a run -/

theorem outcome_of_not_hasScript (hs : run.host.config.settings = .ok s)
    (h : ¬ run.HasScript s) : run.outcome.ending = .exit 1 := by
  obtain ⟨problem, hread⟩ := run.read_of_not_hasScript h
  rw [outcome, ExtractRequest.perform, hs]
  dsimp only
  rw [ExtractRequest.performWith]
  dsimp only [ExtractRequest.override]
  rw [hread]

/-- A run with a script prints its tables, and is logged or not. -/
theorem outcome_of_hasScript (hs : run.host.config.settings = .ok s) (h : run.HasScript s) :
    ∃ entry joiner e, run.outcome =
      if s.logEnabled && !run.request.noLog then
        ExtractRequest.logged run.host (run.request.override s) entry
          (ExtractRequest.printed joiner run.request e)
      else ExtractRequest.printed joiner run.request e := by
  have hvalid := Settings.isValid_settings hs
  obtain ⟨joiner, hjoiner⟩ := Option.isSome_iff_exists.mp (run.isSome_joiner? hvalid)
  obtain ⟨script, hread⟩ := run.read_of_hasScript h
  obtain ⟨e, he⟩ := run.runChosen_eq hs (some (run.request.override s).dialect) script
  refine ⟨ExtractRequest.entry (run.request.override s) .text e, joiner, e, ?_⟩
  rw [outcome, ExtractRequest.perform, hs]
  dsimp only
  have hlimit : (run.request.override s).maxInputBytes = s.maxInputBytes := rfl
  rw [ExtractRequest.performWith, hlimit, hread]
  dsimp only
  rw [he, hjoiner]
  rfl

/-- The settings are there, and the run ends with an exit code unless it is logged, has a script,
and the calendar does not go back as many days as the log is kept. -/
theorem endsCleanly_iff : ∃ s, run.host.config.settings = .ok s ∧
    (run.EndsCleanly ↔
      (run.IsLogged s → run.HasScript s →
        s.logRetentionDays < run.host.now.date.dayNumber)) := by
  obtain ⟨s, hs⟩ := run.exists_settings
  refine ⟨s, hs, ?_⟩
  have hdays := (Settings.isValid_settings hs).logRetentionDays
  by_cases hscript : run.HasScript s
  · obtain ⟨entry, joiner, e, houtcome⟩ := run.outcome_of_hasScript hs hscript
    have hprinted : ∃ code, (ExtractRequest.printed joiner run.request e).ending = .exit code :=
      ⟨0, rfl⟩
    rw [EndsCleanly, houtcome]
    by_cases hlogged : run.IsLogged s
    · have hlogs : (s.logEnabled && !run.request.noLog) = true := by simp [hlogged.1, hlogged.2]
      have hsame : (run.request.override s).logRetentionDays = s.logRetentionDays := rfl
      rw [if_pos hlogs, ending_logged entry hprinted, hsame,
        LogFolder.exists_expired_iff run.host.logFiles run.isDate hdays]
      exact ⟨fun h _ _ => h, fun h => h hlogged hscript⟩
    · have hlogs : ¬ (s.logEnabled && !run.request.noLog) = true := by
        simpa [IsLogged] using hlogged
      rw [if_neg hlogs]
      exact iff_of_true hprinted fun h => absurd h hlogged
  · exact iff_of_true ⟨1, run.outcome_of_not_hasScript hs hscript⟩
      fun _ h => absurd h hscript

/-- A log that is to be kept longer than the calendar goes back. -/
def farEdit : ConfigEdit := .set "log.retention_days" "800000"

theorem settings_farEdit :
    (ConfigFile.edits none [farEdit]).settings = .ok { logRetentionDays := 800000 } := by
  decide +kernel

/-- `SELECT * FROM a`, with settings that were accepted. -/
def farBack : ScanRun where
  parser := fun _ _ => .ok .notModelled
  host :=
    { now := ⟨⟨2024, 6, 15⟩, 0⟩
      configPath := "config.toml"
      config := ConfigFile.edits none [farEdit]
      logFiles := []
      target := fun _ => .nothing
      stdin := none }
  request := { script := some "SELECT * FROM a" }
  edits := [farEdit]
  isEdited := rfl
  isDate := by decide
  isArgument := by decide
  isScan := by
    intro s hs
    rw [settings_farEdit] at hs
    cases hs
    rfl
  isChoice := by decide

/-- The setting is saved, and the next run fails on it. -/
theorem not_endsCleanly_farBack :
    (ConfigFile.edit none farEdit).1 = .ok .saved ∧ ¬ farBack.EndsCleanly := by
  have hending : farBack.outcome.ending = .failed (.retention .outsideCalendar) := by
    decide +kernel
  refine ⟨by decide +kernel, ?_⟩
  rintro ⟨code, hcode⟩
  rw [hending] at hcode
  cases hcode

end ScanRun

end SqlTables
