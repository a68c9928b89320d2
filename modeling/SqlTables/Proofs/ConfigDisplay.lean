import SqlTables.CommandLine.Config
import SqlTables.Proofs.Settings.Fields

/-!
# The origins that are shown

Beside each setting in force `config show` names its origin: the configuration file, or the
defaults. The value comes from the settings that are loaded, which pass over what is not accepted,
but the origin is the file as soon as anything is stored for the key. So the display tells the
truth about a document exactly if its values can be shown and every value that it holds for a key
is accepted (`DocumentHost.tellsTruth_iff`).
-/

namespace SqlTables

/-- A host whose configuration file is a document. -/
structure DocumentHost where
  host : Host
  entries : Entries Datum
  read_eq : host.config.read = .ok entries

namespace Settings

variable {s t : Settings} {k : SettingsKey}

theorem Agree.value_eq (h : Agree k s t) : s.value k = t.value k := by
  cases k
  case logEnabled => exact congrArg (fun b : Bool => if b then "true" else "false") h
  case maxInputBytes => exact congrArg (fun n : Int => toString n) h
  case logRetentionDays => exact congrArg (fun n : Int => toString n) h
  all_goals exact h

end Settings

namespace ConfigCommand

/-- A key with a value and its origin. -/
def shownAs (k : SettingsKey) (value origin : String) : String :=
  "  " ++ k.text ++ " = " ++ value ++ " (" ++ origin ++ ")"

variable {s : Settings} {stored : Entries String} {k : SettingsKey}

theorem line_of_some {text : String} (h : stored.get? k.text = some text) :
    line s stored k = shownAs k (s.value k) "file" := by
  rw [line, origin, h]
  rfl

theorem line_of_none (h : stored.get? k.text = none) :
    line s stored k = shownAs k (s.value k) "default" := by
  rw [line, origin, h]
  rfl

theorem length_shownAs (k : SettingsKey) (value origin : String) :
    (shownAs k value origin).length =
      2 + k.text.length + 3 + value.length + 2 + origin.length + 1 := by
  simp only [shownAs, String.length_append]
  rfl

theorem problem_ne_print (host : Host) (p : ConfigProblem) (text : String) :
    problem host p ≠ .print text := by
  intro h
  have hending := congrArg Outcome.ending h
  cases p <;> cases hending

/-- Where no part is longer than its counterpart, joined texts of the same length have parts of
the same lengths. -/
theorem length_intercalate {α : Type} {f g : α → String} {xs : List α} (sep : String)
    {first first' : String} (hfirst : first.length ≤ first'.length)
    (hle : ∀ x ∈ xs, (f x).length ≤ (g x).length) :
    (sep.intercalate (first :: xs.map f)).length ≤
        (sep.intercalate (first' :: xs.map g)).length ∧
      ((sep.intercalate (first :: xs.map f)).length =
        (sep.intercalate (first' :: xs.map g)).length → first.length = first'.length ∧
          ∀ x ∈ xs, (f x).length = (g x).length) := by
  induction xs generalizing first first' with
  | nil =>
      simp only [List.map_nil, String.intercalate_singleton]
      exact ⟨hfirst, fun h => ⟨h, List.forall_mem_nil _⟩⟩
  | cons x xs ih =>
      rw [List.forall_mem_cons] at hle
      obtain ⟨hrest, heq⟩ := ih hle.1 hle.2
      simp only [List.map_cons, String.intercalate_cons_cons, String.length_append]
      refine ⟨by omega, fun h => ?_⟩
      obtain ⟨hx, hxs⟩ := heq (by omega)
      exact ⟨by omega, List.forall_mem_cons.mpr ⟨hx, hxs⟩⟩

end ConfigCommand

open ConfigCommand ConfigFile

namespace DocumentHost

variable (c : DocumentHost) {s : Settings} {stored : Entries String} {k : SettingsKey} {d : Datum}

/-- The settings with the value that the document holds for a key, if it is accepted. -/
def accepted? (k : SettingsKey) : Option Settings :=
  (stored? c.entries k).bind fun d => (({} : Settings).assign k d.text).toOption

/-- The value and the origin of a key by the document. -/
def trueLine (k : SettingsKey) : String :=
  match c.accepted? k with
  | some t => shownAs k (t.value k) "file"
  | none => shownAs k (({} : Settings).value k) "default"

/-- Each key is shown with its value and origin by the document. -/
def TellsTruth : Prop :=
  display c.host = .print ("\n".intercalate
    (("# " ++ c.host.configPath) :: SettingsKey.all.map c.trueLine))

instance : Decidable c.TellsTruth := inferInstanceAs (Decidable (_ = _))

/-! ## One line -/

section Line

variable (hget : stored.get? k.text = (stored? c.entries k).map Datum.text)
  (hloaded : Settings.IsLoaded k ((stored? c.entries k).map Datum.text) {} s)
include hget hloaded

theorem line_eq_trueLine (h : ∀ d, stored? c.entries k = some d → Settings.Accepts k d.text) :
    line s stored k = c.trueLine k := by
  rw [trueLine, accepted?]
  cases hd : stored? c.entries k with
  | none =>
      rw [hd] at hget hloaded
      rw [line_of_none hget, Settings.Agree.value_eq hloaded]
      rfl
  | some d =>
      rw [hd] at hget hloaded
      rcases hloaded with ⟨t, ht, hagree⟩ | ⟨hnot, -⟩
      · rw [line_of_some hget, hagree.value_eq, Option.bind_some, ht]
        rfl
      · exact absurd (h d hd) hnot

/-- A value that is not accepted leaves the default, which is said to come from the file. -/
theorem length_line_lt (hd : stored? c.entries k = some d) (hnot : ¬ Settings.Accepts k d.text) :
    (line s stored k).length < (c.trueLine k).length := by
  rw [hd] at hget hloaded
  have hdefault : s.value k = ({} : Settings).value k := by
    rcases hloaded with ⟨t, ht, -⟩ | ⟨-, hagree⟩
    · exact absurd ⟨t, ht⟩ hnot
    · exact hagree.value_eq
  have hrefused : c.accepted? k = none := by
    rw [accepted?, hd, Option.bind_some]
    cases hread : ({} : Settings).assign k d.text with
    | ok t => exact absurd ⟨t, hread⟩ hnot
    | error problem => rfl
  rw [line_of_some hget, trueLine, hrefused, hdefault, length_shownAs, length_shownAs]
  have hshorter : "file".length < "default".length := by decide
  omega

theorem length_line_le : (line s stored k).length ≤ (c.trueLine k).length := by
  by_cases h : ∀ d, stored? c.entries k = some d → Settings.Accepts k d.text
  · rw [c.line_eq_trueLine hget hloaded h]
  · push Not at h
    obtain ⟨d, hd, hnot⟩ := h
    exact Nat.le_of_lt (c.length_line_lt hget hloaded hd hnot)

end Line

/-! ## All lines -/

/-- The lines that are shown if the values can be shown. -/
theorem exists_display (h : ∀ e ∈ members c.entries, e.2.isShowable) :
    ∃ s stored, display c.host = .print ("\n".intercalate
        (("# " ++ c.host.configPath) :: SettingsKey.all.map (line s stored))) ∧
      ∀ k, stored.get? k.text = (stored? c.entries k).map Datum.text ∧
        Settings.IsLoaded k ((stored? c.entries k).map Datum.text) {} s := by
  obtain ⟨stored, hlist, -, hget⟩ := exists_list c.read_eq h
  have hsettings : ∃ s, c.host.config.settings = .ok s := by
    rw [settings, hlist]
    exact ⟨_, rfl⟩
  obtain ⟨s, hs⟩ := hsettings
  refine ⟨s, stored, ?_, fun k => ⟨hget k, isLoaded_settings c.read_eq hs h k⟩⟩
  rw [display, hlist, hs]

theorem isShowable_of_tellsTruth (h : c.TellsTruth) :
    ∀ e ∈ members c.entries, e.2.isShowable := by
  rw [TellsTruth, display] at h
  cases hlist : c.host.config.list with
  | ok stored =>
      rw [list, c.read_eq] at hlist
      exact isShowable_of_flatten hlist
  | error p =>
      rw [hlist] at h
      exact absurd h (problem_ne_print c.host p _)

/-- The display tells the truth about a document exactly if its values can be shown, and what it
holds for a key is accepted. -/
theorem tellsTruth_iff : c.TellsTruth ↔
    (∀ e ∈ members c.entries, e.2.isShowable) ∧
      ∀ k d, stored? c.entries k = some d → Settings.Accepts k d.text := by
  constructor
  · intro h
    have hshowable := c.isShowable_of_tellsTruth h
    refine ⟨hshowable, fun k d hd => ?_⟩
    obtain ⟨s, stored, hdisplay, hlines⟩ := c.exists_display hshowable
    by_contra hnot
    have hle : ∀ k ∈ SettingsKey.all, (line s stored k).length ≤ (c.trueLine k).length :=
      fun k _ => c.length_line_le (hlines k).1 (hlines k).2
    rw [TellsTruth, hdisplay] at h
    have hout := congrArg (fun o : Outcome => o.out.length) h
    simp only [Outcome.print, String.length_append] at hout
    have hlengths := (length_intercalate "\n" (Nat.le_refl ("# " ++ c.host.configPath).length)
      hle).2 (Nat.add_right_cancel hout)
    exact Nat.ne_of_lt (c.length_line_lt (hlines k).1 (hlines k).2 hd hnot)
      (hlengths.2 k (SettingsKey.mem_all k))
  · rintro ⟨hshowable, haccepts⟩
    obtain ⟨s, stored, hdisplay, hlines⟩ := c.exists_display hshowable
    have hsame : line s stored = c.trueLine := funext fun k =>
      c.line_eq_trueLine (hlines k).1 (hlines k).2 (haccepts k)
    rw [TellsTruth, hdisplay, hsame]

/-- An engine that is not accepted. -/
def unknownEngine : Sections := [("extract", [("engine", "regex")])]

def withUnknownEngine : DocumentHost where
  host :=
    { now := ⟨⟨2024, 6, 15⟩, 0⟩
      configPath := "config.toml"
      config := some (Utf8.encode unknownEngine.chars)
      logFiles := []
      target := fun _ => .nothing
      stdin := none }
  entries := unknownEngine.tables
  read_eq := (read_encode _).mpr (Sections.read_sections
    (Sections.wellNamed_singleton (by decide) (by decide) _) (by decide))

/-- The default engine is in force, and is shown as the one of the file. -/
theorem not_tellsTruth_withUnknownEngine : ¬ withUnknownEngine.TellsTruth := by
  decide +kernel

end DocumentHost

end SqlTables
