import SqlTables.Proofs.Entries
import SqlTables.Proofs.Log.FileName

/-!
# Log entries over time

A clean-up should keep the entries of the last days, as many days as it is asked for, and all files
whose names are no dates. A file counts as old from the midnight that its day begins with, but days
are counted back to the time of day of the clean-up. So an entry that is recent enough is lost
just if its day lies that many days back and the clean-up does not run at midnight; an entry of a
year before `1000` is always kept, as the name of its file is no date
(`LoggedEntry.isKept_iff`).
-/

namespace SqlTables

/-- What happens to the log of a project. -/
inductive LogEvent
  | entry (now : Instant) (line : String)
  | cleanUp (now : Instant) (days : Int)

/-- The clock shows a time of a day of the calendar. -/
structure Instant.IsValid (t : Instant) : Prop where
  date : t.date.isValid
  clock : t.clock < perDay

/-- The event is a clean-up that drops a file, if it is there. -/
def LogEvent.Drops (file : String) : LogEvent → Prop
  | .entry _ _ => False
  | .cleanUp now days => ∃ limit, LogFolder.cutoff now days = .ok limit ∧
      LogFolder.isExpired limit file

namespace LogFolder

/-- The lines of a file, if it is there. -/
def lines (folder : LogFolder) (file : String) : List String := (folder.get? file).getD []

/-- The folder after an event. A clean-up that fails leaves it as it was. -/
def event (folder : LogFolder) : LogEvent → LogFolder
  | .entry now line => folder.add now line
  | .cleanUp now days =>
    match folder.cleanUp now days with
    | .ok (_, left) => left
    | .error _ => folder

/-- The folder after some events. -/
def events (folder : LogFolder) (es : List LogEvent) : LogFolder := es.foldl event folder

variable {folder : LogFolder} {now : Instant} {days limit : Int} {file line : String}

/-- Days are counted back to the time of day of the clean-up. -/
theorem eq_of_cutoff (h : cutoff now days = .ok limit) :
    limit = (now.date.dayNumber - days) * Instant.perDay + now.clock := by
  unfold cutoff at h
  dsimp only at h
  split at h
  · cases h
  · split at h
    · cases h
    · split at h
      · cases h
      · exact (Except.ok.inj h).symm

/-- A clean-up drops the files of days that began before the limit, and no other. -/
theorem exists_cleanUp (folder : LogFolder) (h : cutoff now days = .ok limit) :
    ∃ count left, folder.cleanUp now days = .ok (count, left) ∧
      ∀ file, left.get? file = if isExpired limit file then none else folder.get? file := by
  refine ⟨_, _, by rw [cleanUp, expired, h]; rfl, fun file => ?_⟩
  rw [get?_without]
  by_cases hexpired : isExpired limit file
  · rw [if_pos hexpired]
    split
    · rfl
    · next hcontains =>
        refine Entries.get?_eq_none_iff.mpr fun e he heq => hcontains ?_
        exact List.contains_iff_mem.mpr
          (List.mem_filter.mpr ⟨List.mem_map.mpr ⟨e, he, heq⟩, hexpired⟩)
  · rw [if_neg hexpired, if_neg]
    intro hcontains
    exact hexpired (List.mem_filter.mp (List.contains_iff_mem.mp hcontains)).2

theorem isExpired_of_dateOf?_eq_none (h : dateOf? file = none) : isExpired limit file = false := by
  rw [isExpired, h]

/-! ## Events -/

theorem mem_lines_add (h : line ∈ folder.lines file) (now : Instant) (other : String) :
    line ∈ (folder.add now other).lines file := by
  rw [lines, get?_add]
  split
  · exact List.mem_append_left _ h
  · exact h

theorem mem_lines_add_self (folder : LogFolder) (now : Instant) (line : String) :
    line ∈ (folder.add now line).lines (fileName now.date) := by
  rw [lines, get?_add, if_pos rfl]
  exact List.mem_append_right _ List.mem_cons_self

/-- A line stays in its file, unless the file is dropped. -/
theorem mem_lines_event {e : LogEvent} (h : line ∈ folder.lines file) (he : ¬ e.Drops file) :
    line ∈ (folder.event e).lines file := by
  cases e with
  | entry now other => exact mem_lines_add h now other
  | cleanUp now days =>
      cases hcutoff : cutoff now days with
      | error problem =>
          rw [event, cleanUp, expired, hcutoff]
          exact h
      | ok limit =>
          obtain ⟨count, left, hclean, hget⟩ := exists_cleanUp folder hcutoff
          have hkept : ¬ isExpired limit file := fun hexpired => he ⟨limit, hcutoff, hexpired⟩
          rw [event, hclean, lines, hget, if_neg hkept]
          exact h

/-- A line stays in its file over a whole run that never drops the file. -/
theorem mem_lines_events {es : List LogEvent} (h : line ∈ folder.lines file)
    (hes : ∀ e ∈ es, ¬ e.Drops file) : line ∈ (folder.events es).lines file := by
  induction es generalizing folder with
  | nil => exact h
  | cons e es ih =>
      rw [List.forall_mem_cons] at hes
      exact ih (mem_lines_event h hes.1) hes.2

end LogFolder

/-- An entry that was made in a folder, what happened after it, and a clean-up at a time when it is
younger than the days that are kept. Nothing dropped its file in between. -/
structure LoggedEntry where
  folder : LogFolder
  made : Instant
  line : String
  later : List LogEvent
  now : Instant
  days : Int
  limit : Int
  made_isValid : made.IsValid
  now_isValid : now.IsValid
  not_drops : ∀ e ∈ later, ¬ e.Drops (LogFolder.fileName made.date)
  cutoff_eq : LogFolder.cutoff now days = .ok limit
  isRecent : (now.ticks : Int) < made.ticks + days * Instant.perDay

namespace LoggedEntry

open LogFolder

variable (e : LoggedEntry)

def file : String := fileName e.made.date

/-- The folder that the clean-up finds. -/
def found : LogFolder := (e.folder.add e.made e.line).events e.later

/-- The clean-up returns and leaves the entry in its file. -/
def IsKept : Prop :=
  ∃ count left, e.found.cleanUp e.now e.days = .ok (count, left) ∧ e.line ∈ left.lines e.file

/-- The clean-up returns and leaves files whose names are no dates as they are. -/
def SparesUndated : Prop :=
  ∃ count left, e.found.cleanUp e.now e.days = .ok (count, left) ∧
    ∀ name, dateOf? name = none → left.get? name = e.found.get? name

/-- The day of the entry is the first that is to be kept, and part of it lies too far back. -/
def IsCutInto : Prop :=
  1000 ≤ e.made.date.year ∧ e.now.date.dayNumber = e.made.date.dayNumber + e.days ∧
    0 < e.now.clock

theorem mem_lines_found : e.line ∈ e.found.lines e.file :=
  mem_lines_events (mem_lines_add_self e.folder e.made e.line) e.not_drops

/-- The file of a recent entry counts as old exactly if its day is cut into. -/
theorem isExpired_iff : isExpired e.limit e.file ↔ e.IsCutInto := by
  rw [isExpired, file, dateOf?_fileName e.made_isValid.date, IsCutInto]
  by_cases hyear : 1000 ≤ e.made.date.year
  · rw [if_pos hyear, and_iff_right hyear]
    simp only [decide_eq_true_eq]
    have hrecent := e.isRecent
    have hmade := e.made_isValid.clock
    have hnow := e.now_isValid.clock
    -- The entry was made less than a day after its midnight, so its day is at most as many days
    -- back as are kept.
    rw [eq_of_cutoff e.cutoff_eq]
    simp only [Instant.ticks, Instant.perDay, Instant.perSecond] at hrecent hmade hnow ⊢
    constructor
    · intro hold
      omega
    · rintro ⟨hday, hclock⟩
      omega
  · rw [if_neg hyear]
    simp [hyear]

/-- Files whose names are no dates are spared, and the entry is kept unless its day is cut
into. -/
theorem isKept_iff : e.SparesUndated ∧ (e.IsKept ↔ ¬ e.IsCutInto) := by
  obtain ⟨count, left, hclean, hget⟩ := exists_cleanUp e.found e.cutoff_eq
  refine ⟨⟨count, left, hclean, fun name hname => ?_⟩, ?_⟩
  · rw [hget, isExpired_of_dateOf?_eq_none hname]
    rfl
  · rw [← e.isExpired_iff]
    constructor
    · rintro ⟨count', left', hclean', hmem⟩ hexpired
      rw [hclean] at hclean'
      cases hclean'
      rw [lines, hget, if_pos hexpired] at hmem
      cases hmem
    · intro hkept
      refine ⟨count, left, hclean, ?_⟩
      rw [lines, hget, if_neg hkept]
      exact e.mem_lines_found

/-- An entry of the evening before, and a clean-up at noon that should keep one day. -/
def eveningBefore : LoggedEntry where
  folder := []
  made := ⟨⟨2024, 6, 14⟩, 82800000000⟩
  line := "an entry"
  later := []
  now := ⟨⟨2024, 6, 15⟩, 43200000000⟩
  days := 1
  limit := 63854049600000000
  made_isValid := ⟨by decide, by decide⟩
  now_isValid := ⟨by decide, by decide⟩
  not_drops := List.forall_mem_nil _
  cutoff_eq := by decide +kernel
  isRecent := by decide +kernel

/-- The entry is thirteen hours old, and its file is dropped. -/
theorem not_isKept_eveningBefore : ¬ eveningBefore.IsKept := by
  have hclean : eveningBefore.found.cleanUp eveningBefore.now eveningBefore.days = .ok (1, []) := by
    decide +kernel
  rintro ⟨count, left, hleft, hmem⟩
  rw [hclean] at hleft
  cases hleft
  cases hmem

end LoggedEntry

end SqlTables
