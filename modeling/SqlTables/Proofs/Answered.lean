import Mathlib.Data.List.Basic
import SqlTables.Extraction
import SqlTables.Proofs.Toml.Distinct

/-!
# Runs that return

A run asks the parser for the statements that are no session commands, if the parser is the engine.
It returns exactly if the parser has an answer for each of them (`Extraction.exists_run_iff`), so
a run of the scan always does (`Extraction.exists_run_scan`).
-/

namespace SqlTables

namespace Extraction

variable {ε : Type} {engine : Engine} {parser : Parser (Except ε)} {dialect : Option String}
  {script : String}

/-- The parser is asked for the statement. -/
def Asks (engine : Engine) (s : Statement) : Prop := engine = .parser ∧ s.kind ≠ .session

theorem exists_step_iff (p : Progress) (s : Statement) :
    (∃ next, step engine parser dialect script p s = .ok next) ↔
      (Asks engine s → ∃ answer, parser (s.text script) dialect = .ok answer) := by
  unfold step
  split
  · next hkind =>
      constructor
      · intro _ hasks
        exact absurd hkind hasks.2
      · intro _
        exact ⟨_, rfl⟩
  · next hkind =>
      cases engine with
      | scan =>
          constructor
          · intro _ hasks
            cases hasks.1
          · intro _
            exact ⟨_, rfl⟩
      | parser =>
          constructor
          · rintro ⟨next, hnext⟩ -
            obtain ⟨answer, hanswer, -⟩ := Toml.bind_eq_ok hnext
            exact ⟨answer, hanswer⟩
          · intro h
            obtain ⟨answer, hanswer⟩ := h ⟨rfl, hkind⟩
            dsimp only
            rw [hanswer]
            exact ⟨_, rfl⟩

theorem exists_steps_iff (p : Progress) (ss : List Statement) :
    (∃ after, steps engine parser dialect script p ss = .ok after) ↔
      ∀ s ∈ ss, Asks engine s → ∃ answer, parser (s.text script) dialect = .ok answer := by
  induction ss generalizing p with
  | nil =>
      constructor
      · exact fun _ => List.forall_mem_nil _
      · exact fun _ => ⟨p, rfl⟩
  | cons s rest ih =>
      rw [List.forall_mem_cons, ← exists_step_iff p s, steps]
      constructor
      · rintro ⟨after, hafter⟩
        obtain ⟨next, hnext, hrest⟩ := Toml.bind_eq_ok hafter
        exact ⟨⟨next, hnext⟩, (ih next).mp ⟨after, hrest⟩⟩
      · rintro ⟨⟨next, hnext⟩, hrest⟩
        rw [hnext]
        exact (ih next).mpr hrest

/-- A run returns if the parser has an answer for each statement for which it is asked, and only
then. -/
theorem exists_run_iff :
    (∃ e, run engine parser dialect script = .ok e) ↔
      ∀ s ∈ Statement.ofScript script, Asks engine s →
        ∃ answer, parser (s.text script) dialect = .ok answer := by
  rw [Statement.ofScript, ← exists_steps_iff (.start (Token.scan script)), run]
  constructor
  · rintro ⟨e, he⟩
    obtain ⟨p, hp, -⟩ := Toml.bind_eq_ok he
    exact ⟨p, hp⟩
  · rintro ⟨p, hp⟩
    rw [hp]
    exact ⟨_, rfl⟩

/-- The scan asks no parser. -/
theorem exists_run_scan (parser : Parser (Except ε)) (dialect : Option String) (script : String) :
    ∃ e, run .scan parser dialect script = .ok e := by
  refine exists_run_iff.mpr fun s _ hasks => ?_
  cases hasks.1

end Extraction

end SqlTables
