import SqlTables.Proofs.Settings.Edit

/-!
# Files that can be edited

An edit should return or be refused with a message about the setting or about the file, and leave
the file as it was when it is refused. The file is always left as it was, but another failure
gets out where an edit finds something that is no section of values that can be shown. So every
edit fails cleanly just for the files that hold nothing but such sections, or are no documents
(`ConfigFile.failsCleanly_iff`).
-/

namespace SqlTables

namespace ConfigProblem

/-- The problem is one of the setting or of a file that cannot be read. -/
def isClean : ConfigProblem → Bool
  | setting _ | unreadable _ => true
  | _ => false

end ConfigProblem

namespace ConfigFile

/-- An edit that does not return is refused with a problem of the setting or of the file, which is
left as it was. -/
def FailsCleanly (file : ConfigFile) (e : ConfigEdit) : Prop :=
  ∀ problem, (file.edit e).1 = .error problem → problem.isClean ∧ (file.edit e).2 = file

/-- The file holds nothing but sections of values that can be shown, or is no document. -/
structure IsEditable (file : ConfigFile) : Prop where
  isSection : ∀ entries, file.read = .ok entries → ∀ e ∈ entries, IsSection e.2
  isClean : ∀ problem, file.read = .error problem → problem.isClean

variable {file : ConfigFile} {entries changed : Entries Datum} {problem : ConfigProblem}
  {k : SettingsKey} {name value text : String}

/-! ## What cannot be written -/

theorem bind_eq_error {ε α β : Type} {x : Except ε α} {f : α → Except ε β} {problem : ε}
    (h : (x >>= f) = .error problem) :
    x = .error problem ∨ ∃ a, x = .ok a ∧ f a = .error problem := by
  cases x with
  | error other =>
      cases h
      exact Or.inl rfl
  | ok a => exact Or.inr ⟨a, rfl, h⟩

theorem exists_of_mapM_error {ε α β : Type} {f : α → Except ε β} {xs : List α} {problem : ε}
    (h : xs.mapM f = .error problem) : ∃ x ∈ xs, f x = .error problem := by
  induction xs with
  | nil => cases h
  | cons x xs ih =>
      rw [List.mapM_cons] at h
      rcases bind_eq_error h with hx | ⟨y, -, h⟩
      · exact ⟨x, List.mem_cons_self, hx⟩
      · rcases bind_eq_error h with hxs | ⟨ys, -, h⟩
        · obtain ⟨x', hmem, hx'⟩ := ih hxs
          exact ⟨x', List.mem_cons_of_mem _ hmem, hx'⟩
        · cases h

theorem isShowable_of_line {d : Datum} {chars : List Char} (h : line name d = .ok chars) :
    d.isShowable := by
  obtain ⟨text, htext, -⟩ := Settings.exists_of_map h
  by_contra hnot
  rw [shown, if_neg hnot] at htext
  cases htext

theorem eq_notShowable_of_line {d : Datum} (h : line name d = .error problem) :
    problem = .notShowable := by
  rw [line, shown] at h
  split at h
  · cases h
  · cases h
    rfl

theorem isSection_of_lines {ls : List (List Char)} (h : lines entries = .ok ls) :
    ∀ e ∈ entries, IsSection e.2 := by
  induction entries generalizing ls with
  | nil => exact List.forall_mem_nil _
  | cons e entries ih =>
      obtain ⟨name, d⟩ := e
      cases d with
      | table values =>
          rw [lines] at h
          obtain ⟨first, hfirst, h⟩ := Toml.bind_eq_ok h
          obtain ⟨others, hothers, -⟩ := Toml.bind_eq_ok h
          obtain ⟨valueLines, hvalues, -⟩ := Settings.exists_of_map hfirst
          refine List.forall_mem_cons.mpr ⟨⟨values, rfl, fun v hv => ?_⟩, ih hothers⟩
          obtain ⟨chars, hchars⟩ := forall_of_mapM hvalues v hv
          exact isShowable_of_line hchars
      | _ => cases h

theorem eq_error_of_map {ε α β : Type} {x : Except ε α} {f : α → β} {problem : ε}
    (h : x.map f = .error problem) : x = .error problem := by
  cases x with
  | ok a => cases h
  | error other =>
      cases h
      rfl

theorem not_isClean_of_sectionLines {values : Entries Datum}
    (h : sectionLines name values = .error problem) : problem.isClean = false := by
  obtain ⟨v, -, hv⟩ := exists_of_mapM_error (eq_error_of_map h)
  rw [eq_notShowable_of_line hv]
  rfl

theorem not_isClean_of_lines (h : lines entries = .error problem) : problem.isClean = false := by
  induction entries with
  | nil => cases h
  | cons e entries ih =>
      obtain ⟨name, d⟩ := e
      cases d with
      | table values =>
          rw [lines] at h
          rcases bind_eq_error h with hfirst | ⟨first, -, h⟩
          · exact not_isClean_of_sectionLines hfirst
          · rcases bind_eq_error h with hothers | ⟨others, -, h⟩
            · exact ih hothers
            · cases h
      | _ =>
          cases h
          rfl

theorem isSection_of_write {bytes : List UInt8} (h : write entries = .ok bytes) :
    ∀ e ∈ entries, IsSection e.2 := by
  obtain ⟨ls, hls, -⟩ := Settings.exists_of_map h
  exact isSection_of_lines hls

theorem not_isClean_of_write (h : write entries = .error problem) : problem.isClean = false :=
  not_isClean_of_lines (eq_error_of_map h)

theorem not_isClean_of_putIn (h : putIn entries k text = .error problem) :
    problem.isClean = false := by
  unfold putIn at h
  split at h <;> cases h <;> rfl

/-! ## Edits of sections -/

/-- What is left of sections without a value is sections. -/
theorem exists_removeFrom (h : ∀ e ∈ entries, IsSection e.2) (k : SettingsKey) :
    ∃ left, removeFrom entries k = .ok left ∧ ∀ rest ∈ left, ∀ e ∈ rest, IsSection e.2 := by
  unfold removeFrom
  cases hget : entries.get? k.group with
  | none => exact ⟨none, rfl, fun _ hrest => nomatch hrest⟩
  | some d =>
      obtain ⟨values, rfl, hvalues⟩ := h _ (Entries.mem_of_get? hget)
      dsimp only
      split
      · split
        · refine ⟨_, rfl, fun rest hrest e he => ?_⟩
          cases hrest
          exact h e (Entries.mem_of_mem_remove he)
        · refine ⟨_, rfl, fun rest hrest e he => ?_⟩
          cases hrest
          rcases Entries.mem_put he with rfl | he
          · exact ⟨_, rfl, fun v hv => hvalues v (Entries.mem_of_mem_remove hv)⟩
          · exact h e he
      · exact ⟨none, rfl, fun _ hrest => nomatch hrest⟩

theorem IsEditable.isClean_of_set (h : file.IsEditable)
    (hset : file.set name value = .error problem) : problem.isClean := by
  rcases set_cases file name value with ⟨cause, hrefused⟩ | ⟨k, hk, haccepts⟩
  · rw [hrefused] at hset
    cases hset
    rfl
  · rw [set_of_accepts file hk haccepts] at hset
    rcases bind_eq_error hset with hread | ⟨entries, hread, hstore⟩
    · exact h.isClean problem hread
    · obtain ⟨changed, hput, hchanged, -⟩ :=
        exists_putIn (h.isSection entries hread) k (Text.trim value)
      rw [store, hput, Except.bind, write_eq hchanged] at hstore
      cases hstore

theorem IsEditable.isClean_of_unset (h : file.IsEditable)
    (hunset : file.unset name = .error problem) : problem.isClean := by
  cases hk : SettingsKey.ofText? name with
  | none =>
      rw [unset_of_not_key hk] at hunset
      cases hunset
      rfl
  | some k =>
      rw [unset_of_key file hk] at hunset
      rcases bind_eq_error hunset with hread | ⟨entries, hread, hleave⟩
      · exact h.isClean problem hread
      · obtain ⟨left, hleft, hrest⟩ := exists_removeFrom (h.isSection entries hread) k
        rw [hleft, Except.bind] at hleave
        cases left with
        | none => cases hleave
        | some rest =>
            rw [leave] at hleave
            split at hleave
            · cases hleave
            · rw [write_eq (hrest rest rfl)] at hleave
              cases hleave

theorem IsEditable.failsCleanly (h : file.IsEditable) (e : ConfigEdit) : file.FailsCleanly e := by
  intro problem herror
  refine ⟨?_, edit_refused herror⟩
  cases e with
  | set name value => exact h.isClean_of_set (set_error_of_edit herror)
  | unset name => exact h.isClean_of_unset (unset_error_of_edit herror)

/-! ## Edits that find something else -/

theorem FailsCleanly.not_set {problem : ConfigProblem} (h : file.FailsCleanly (.set name value))
    (hclean : problem.isClean = false) : file.set name value ≠ .error problem := by
  intro hset
  have herror : (file.edit (.set name value)).1 = .error problem := by rw [edit_set_error hset]
  exact Bool.false_ne_true (hclean.symm.trans (h problem herror).1)

/-- Where a value that is accepted is saved or refused cleanly, there are sections to save it
in. -/
theorem FailsCleanly.exists_putIn (h : file.FailsCleanly (.set k.text value))
    (haccepts : Settings.Accepts k value) (hread : file.read = .ok entries) :
    ∃ changed, putIn entries k (Text.trim value) = .ok changed ∧
      ∀ e ∈ changed, IsSection e.2 := by
  have hset := set_of_accepts file (SettingsKey.ofText?_text k) haccepts
  rw [hread, Except.bind, store] at hset
  cases hput : putIn entries k (Text.trim value) with
  | error problem =>
      rw [hput] at hset
      exact absurd hset (h.not_set (not_isClean_of_putIn hput))
  | ok changed =>
      refine ⟨changed, rfl, ?_⟩
      rw [hput, Except.bind] at hset
      cases hwrite : write changed with
      | error problem =>
          rw [hwrite] at hset
          exact absurd hset (h.not_set (not_isClean_of_write hwrite))
      | ok bytes => exact isSection_of_write hwrite

theorem exists_of_putIn (h : putIn entries k text = .ok changed) :
    ∃ d, changed = entries.put k.group d := by
  unfold putIn at h
  split at h <;> cases h <;> exact ⟨_, rfl⟩

/-- If sections come of a value that is saved, the entries are sections of values that can be shown,
but for the value that is replaced. -/
theorem isSection_but_of_putIn (hdistinct : entries.Distinct)
    (hput : putIn entries k text = .ok changed) (hchanged : ∀ e ∈ changed, IsSection e.2) :
    ∀ e ∈ entries, ∃ values, e.2 = .table values ∧
      ∀ v ∈ values, v.1 ≠ k.name → v.2.isShowable := by
  rintro ⟨group, d⟩ he
  -- The entry is the section that the value is put into, or it stays beside that.
  by_cases hgroup : group = k.group
  · subst hgroup
    rw [putIn, (Entries.get?_eq_some_iff hdistinct).mpr he] at hput
    cases d with
    | table values =>
        cases hput
        obtain ⟨after, hafter, hshowable⟩ := hchanged _ (Entries.mem_put_self _ _ _)
        cases hafter
        refine ⟨values, rfl, fun v hv hne => ?_⟩
        exact hshowable v (Entries.mem_put_of_ne hv hne _)
    | _ => cases hput
  · have hmem : (group, d) ∈ changed := by
      obtain ⟨d', rfl⟩ := exists_of_putIn hput
      exact Entries.mem_put_of_ne he hgroup _
    obtain ⟨values, hd, hshowable⟩ := hchanged _ hmem
    exact ⟨values, hd, fun v hv _ => hshowable v hv⟩

/-- The settings of the engine and of the dialect are enough to try: each of them finds what stands
in the way of the other. -/
theorem isEditable_of_failsCleanly (hengine : file.FailsCleanly (.set "extract.engine" "scan"))
    (hdialect : file.FailsCleanly (.set "extract.dialect" "scan")) : file.IsEditable := by
  have hacceptsEngine : Settings.Accepts .engine "scan" := ⟨{}, by decide +kernel⟩
  have hacceptsDialect : Settings.Accepts .dialect "scan" :=
    ⟨{ dialect := "scan" }, by decide +kernel⟩
  constructor
  case isSection =>
    rintro entries hread e he
    obtain ⟨hdistinct, -⟩ := Datum.distinct_table.mp (distinct_of_read hread)
    obtain ⟨first, hfirst, hsections⟩ :=
      FailsCleanly.exists_putIn (k := .engine) hengine hacceptsEngine hread
    obtain ⟨second, hsecond, hsections'⟩ :=
      FailsCleanly.exists_putIn (k := .dialect) hdialect hacceptsDialect hread
    obtain ⟨values, hd, hbutEngine⟩ := isSection_but_of_putIn hdistinct hfirst hsections e he
    obtain ⟨values', hd', hbutDialect⟩ := isSection_but_of_putIn hdistinct hsecond hsections' e he
    rw [hd] at hd'
    cases hd'
    refine ⟨values, hd, fun v hv => ?_⟩
    -- A stored engine is replaced by the first edit, but kept by the second.
    by_cases hname : v.1 = SettingsKey.name .engine
    · exact hbutDialect v hv (by rw [hname]; decide)
    · exact hbutEngine v hv hname
  case isClean =>
    intro problem hread
    have hset := set_of_accepts file (SettingsKey.ofText?_text .engine) hacceptsEngine
    rw [hread] at hset
    by_contra hnot
    exact hengine.not_set (Bool.not_eq_true _ ▸ hnot) hset

/-- Every edit fails cleanly exactly for the files that hold nothing but sections of values that can
be shown, or are no documents. -/
theorem failsCleanly_iff : (∀ e, file.FailsCleanly e) ↔ file.IsEditable :=
  ⟨fun h => isEditable_of_failsCleanly (h _) (h _), fun h => h.failsCleanly⟩

/-- A number has the name of a section, and the separator cannot be saved in it. -/
theorem not_failsCleanly_number :
    ¬ FailsCleanly (some (Utf8.encode "extract = 5\n".toList))
      (.set "extract.separator" "comma") := by
  intro h
  have herror : (edit (some (Utf8.encode "extract = 5\n".toList))
      (.set "extract.separator" "comma")).1 = .error (.noAssignment "int") := by
    decide +kernel
  exact absurd (h _ herror).1 (by decide)

end ConfigFile

end SqlTables
