import Mathlib.Data.List.Infix
import SqlTables.Proofs.Entries
import SqlTables.Toml.Document

/-!
# Distinct keys

No table of a document that has been read has a key twice, at any depth
(`Toml.distinct_read`). The readers change tables only by `Entries.put`, at some path, so each
of them keeps the keys distinct.
-/

namespace SqlTables

namespace Datum

/-- No table in the value has a key twice. -/
inductive Distinct : Datum → Prop
  | scalar {d : Datum} (h : Toml.isClosed d = false) : Distinct d
  | list {items : List Datum} (h : ∀ d ∈ items, Distinct d) : Distinct (.list items)
  | table {entries : Entries Datum} (h : entries.Distinct) (hvalues : ∀ e ∈ entries, Distinct e.2) :
    Distinct (.table entries)

theorem distinct_list {items : List Datum} : Distinct (.list items) ↔ ∀ d ∈ items, Distinct d := by
  refine ⟨fun h => ?_, .list⟩
  cases h with
  | scalar h => cases h
  | list h => exact h

theorem distinct_table {entries : Entries Datum} :
    Distinct (.table entries) ↔ entries.Distinct ∧ ∀ e ∈ entries, Distinct e.2 := by
  refine ⟨fun h => ?_, fun h => .table h.1 h.2⟩
  cases h with
  | scalar h => cases h
  | table h hvalues => exact ⟨h, hvalues⟩

theorem distinct_table_nil : Distinct (.table []) :=
  .table Entries.distinct_nil fun _ h => (nomatch h)

variable {entries : Entries Datum} {key : String} {d : Datum}

theorem Distinct.put (h : Distinct (.table entries)) (key : String) (hd : Distinct d) :
    Distinct (.table (entries.put key d)) := by
  obtain ⟨hkeys, hvalues⟩ := distinct_table.mp h
  refine .table (Entries.distinct_put hkeys key d) fun e he => ?_
  rcases Entries.mem_put he with rfl | hmem
  · exact hd
  · exact hvalues e hmem

theorem Distinct.of_get? (h : Distinct (.table entries)) (hget : entries.get? key = some d) :
    Distinct d :=
  (distinct_table.mp h).2 _ (Entries.mem_of_get? hget)

end Datum

namespace Toml

theorem wellFormed_eq_ok {α : Type} {a? : Option α} {a : α} (h : wellFormed a? = .ok a) :
    a? = some a := by
  cases a? with
  | none => cases h
  | some b =>
      cases h
      rfl

theorem bind_eq_ok {ε α β : Type} {x : Except ε α} {f : α → Except ε β} {b : β}
    (h : (x >>= f) = .ok b) : ∃ a, x = .ok a ∧ f a = .ok b := by
  cases x with
  | error problem => cases h
  | ok a => exact ⟨a, rfl, h⟩

/-! ## Changes of a table -/

/-- A change of the entries of a table that keeps keys distinct. -/
def KeepsDistinct (change : Entries Datum → Option (Entries Datum)) : Prop :=
  ∀ ⦃entries changed⦄, change entries = some changed →
    Datum.Distinct (.table entries) → Datum.Distinct (.table changed)

theorem keepsDistinct_some : KeepsDistinct some := by
  intro entries changed hchange h
  cases hchange
  exact h

theorem keepsDistinct_addNew? (key : String) {value : Datum} (hvalue : value.Distinct) :
    KeepsDistinct (addNew? key value) := by
  intro entries changed hchange h
  rw [addNew?] at hchange
  split at hchange
  · cases hchange
  · cases hchange
    exact h.put key hvalue

theorem keepsDistinct_appendTable? (key : String) : KeepsDistinct (Document.appendTable? key) := by
  intro entries changed hchange h
  rw [Document.appendTable?] at hchange
  split at hchange
  · cases hchange
    exact h.put key (.list fun d hd => List.mem_singleton.mp hd ▸ Datum.distinct_table_nil)
  · next items hget =>
      cases hchange
      refine h.put key (.list fun d hd => ?_)
      rcases List.mem_append.mp hd with hbefore | hlast
      · exact Datum.distinct_list.mp (h.of_get? hget) d hbefore
      · exact List.mem_singleton.mp hlast ▸ Datum.distinct_table_nil
  · cases hchange

theorem keepsDistinct_changeAt? (intoLists : Bool)
    {change : Entries Datum → Option (Entries Datum)} (hkeeps : KeepsDistinct change)
    (path : List String) : KeepsDistinct (changeAt? intoLists change path) := by
  induction path with
  | nil => exact hkeeps
  | cons k path ih =>
      intro entries changed hchange h
      rw [changeAt?] at hchange
      split at hchange
      · obtain ⟨inner, hinner, hput⟩ := Option.bind_eq_some_iff.mp hchange
        cases hput
        exact h.put k (ih hinner Datum.distinct_table_nil)
      · next before hget =>
          obtain ⟨inner, hinner, hput⟩ := Option.bind_eq_some_iff.mp hchange
          cases hput
          exact h.put k (ih hinner (h.of_get? hget))
      · next items hget =>
          have hitems := Datum.distinct_list.mp (h.of_get? hget)
          split at hchange
          · next before hlast =>
              obtain ⟨inner, hinner, hput⟩ := Option.bind_eq_some_iff.mp hchange
              cases hput
              refine h.put k (.list fun d hd => ?_)
              rcases List.mem_append.mp hd with hearlier | hnew
              · exact hitems d (List.mem_of_mem_dropLast hearlier)
              · rw [List.mem_singleton.mp hnew]
                exact ih hinner (hitems _ (List.mem_of_getLast? hlast))
          · cases hchange
      · cases hchange

/-! ## Values -/

theorem isClosed_datum (m : Moment) : isClosed m.datum = false := by
  cases m <;> rfl

theorem isClosed_of_map {α : Type} {read? : Option α} {f : α → Datum × List Char}
    {rest : List Char} {d : Datum} (hf : ∀ a, isClosed (f a).1 = false)
    (h : read?.map f = some (d, rest)) : isClosed d = false := by
  obtain ⟨a, -, hread⟩ := Option.map_eq_some_iff.mp h
  have hclosed := hf a
  rwa [hread] at hclosed

theorem isClosed_based? {chars rest : List Char} {d : Datum} (h : based? chars = some (d, rest)) :
    isClosed d = false := by
  unfold based? at h
  dsimp only at h
  split at h
  · exact isClosed_of_map (fun _ => rfl) h
  · exact isClosed_of_map (fun _ => rfl) h
  · exact isClosed_of_map (fun _ => rfl) h
  · cases h

theorem isClosed_decimal? {chars rest : List Char} {d : Datum}
    (h : decimal? chars = some (.ok (d, rest))) : isClosed d = false := by
  unfold decimal? at h
  dsimp only at h
  split at h <;> obtain ⟨_, -, h⟩ := Option.bind_eq_some_iff.mp h
  all_goals
    split at h
    · cases h
      rfl
    · split at h <;> cases h
      rfl

theorem isClosed_special? {chars rest : List Char} {d : Datum}
    (h : special? chars = some (d, rest)) : isClosed d = false := by
  rw [special?] at h
  dsimp only at h
  split at h <;> cases h <;> rfl

theorem isClosed_number {chars rest : List Char} {d : Datum} (h : number chars = .ok (d, rest)) :
    isClosed d = false := by
  rw [number] at h
  split at h
  · next hbased =>
      cases h
      exact isClosed_based? hbased
  · split at h
    · next hdecimal =>
        subst h
        exact isClosed_decimal? hdecimal
    · exact isClosed_special? (wellFormed_eq_ok h)

theorem isClosed_scalar {chars rest : List Char} {d : Datum} (h : scalar chars = .ok (d, rest)) :
    isClosed d = false := by
  unfold scalar at h
  split at h
  · exact isClosed_of_map (fun _ => rfl) (wellFormed_eq_ok h)
  · exact isClosed_of_map (fun _ => rfl) (wellFormed_eq_ok h)
  · cases h
    rfl
  · cases h
    rfl
  · split at h
    · next m _ _ =>
        split at h
        · cases h
          exact isClosed_datum m
        · cases h
    · exact isClosed_number h

/-- What is read as a value with some fuel has distinct keys. -/
def ValuesDistinct (fuel : Nat) : Prop :=
  ∀ ⦃chars d rest⦄, valueWith fuel chars = .ok (d, rest) → d.Distinct

theorem distinct_items {fuel : Nat} (hvalues : ∀ n < fuel, ValuesDistinct n)
    {chars rest : List Char} {ds : List Datum} (h : items fuel chars = .ok (ds, rest)) :
    ∀ d ∈ ds, d.Distinct := by
  induction fuel generalizing chars ds rest with
  | zero =>
      rw [items] at h
      cases h
  | succ fuel ih =>
      unfold items at h
      split at h
      · cases h
        exact fun _ h => (nomatch h)
      · obtain ⟨⟨d, left⟩, hd, h⟩ := bind_eq_ok h
        obtain ⟨_, -, h⟩ := bind_eq_ok h
        have hfirst := hvalues fuel (Nat.lt_succ_self fuel) hd
        split at h
        · cases h
          exact fun e he => List.mem_singleton.mp he ▸ hfirst
        · obtain ⟨_, -, h⟩ := bind_eq_ok h
          obtain ⟨⟨others, left⟩, hothers, h⟩ := bind_eq_ok h
          cases h
          exact List.forall_mem_cons.mpr
            ⟨hfirst, ih (fun n hn => hvalues n (Nat.lt_succ_of_lt hn)) hothers⟩
        · cases h

theorem distinct_entries {fuel : Nat} (hvalues : ∀ n < fuel, ValuesDistinct n)
    {closed : List (List String)} {known es : Entries Datum} {chars rest : List Char}
    (h : entries fuel closed known chars = .ok (es, rest))
    (hknown : Datum.Distinct (.table known)) : Datum.Distinct (.table es) := by
  induction fuel generalizing closed known chars with
  | zero =>
      rw [entries] at h
      cases h
  | succ fuel ih =>
      unfold entries at h
      obtain ⟨⟨path, left⟩, -, h⟩ := bind_eq_ok h
      dsimp only at h
      split at h
      · obtain ⟨⟨d, left⟩, hd, h⟩ := bind_eq_ok h
        dsimp only at h
        split at h
        · cases h
        · obtain ⟨added, hchange, h⟩ := bind_eq_ok h
          have hadded : Datum.Distinct (.table added) :=
            keepsDistinct_changeAt? false
              (keepsDistinct_addNew? _ (hvalues fuel (Nat.lt_succ_self fuel) hd)) _
              (wellFormed_eq_ok hchange) hknown
          split at h
          · cases h
            exact hadded
          · exact ih (fun n hn => hvalues n (Nat.lt_succ_of_lt hn)) h hadded
          · cases h
      · cases h

theorem valuesDistinct (fuel : Nat) : ValuesDistinct fuel := by
  induction fuel using Nat.strongRecOn with
  | ind fuel ih =>
      intro chars d rest h
      unfold valueWith at h
      split at h
      · cases h
      · next fuel =>
          have hvalues : ∀ n < fuel, ValuesDistinct n := fun n hn => ih n (Nat.lt_succ_of_lt hn)
          split at h
          · obtain ⟨_, -, h⟩ := bind_eq_ok h
            obtain ⟨⟨ds, left⟩, hds, h⟩ := bind_eq_ok h
            cases h
            exact .list (distinct_items hvalues hds)
          · dsimp only at h
            split at h
            · cases h
              exact Datum.distinct_table_nil
            · obtain ⟨⟨es, left⟩, hes, h⟩ := bind_eq_ok h
              cases h
              exact distinct_entries hvalues hes Datum.distinct_table_nil
          · exact .scalar (isClosed_scalar h)

/-! ## Documents -/

/-- No table of the document has a key twice. -/
def Document.Distinct (d : Document) : Prop := Datum.Distinct (.table d.entries)

namespace Document

variable {d after : Document} {path : List String}

theorem Distinct.openTable? (hd : d.Distinct) (h : d.openTable? path = some after) :
    after.Distinct := by
  rw [Document.openTable?] at h
  split at h
  · cases h
  · obtain ⟨entries, hchange, h⟩ := Option.bind_eq_some_iff.mp h
    cases h
    exact keepsDistinct_changeAt? true keepsDistinct_some path hchange hd

theorem Distinct.openItem? (hd : d.Distinct) (h : d.openItem? path = some after) :
    after.Distinct := by
  rw [Document.openItem?] at h
  split at h
  · cases h
  · obtain ⟨entries, hchange, h⟩ := Option.bind_eq_some_iff.mp h
    cases h
    exact keepsDistinct_changeAt? true (keepsDistinct_appendTable? _) _ hchange hd

theorem Distinct.assign? (hd : d.Distinct) {value : Datum} (hvalue : value.Distinct)
    (h : d.assign? path value = some after) : after.Distinct := by
  unfold Document.assign? at h
  dsimp only at h
  split at h
  · cases h
  · obtain ⟨entries, hchange, h⟩ := Option.bind_eq_some_iff.mp h
    cases h
    exact keepsDistinct_changeAt? true (keepsDistinct_addNew? _ hvalue) _ hchange hd

theorem Distinct.header? (hd : d.Distinct) {chars rest : List Char}
    (h : Toml.header? d chars = some (after, rest)) : after.Distinct := by
  unfold Toml.header? at h
  split at h
  all_goals
    obtain ⟨⟨path, _⟩, -, h⟩ := Option.bind_eq_some_iff.mp h
    obtain ⟨opened, hopen, h⟩ := Option.bind_eq_some_iff.mp h
    split at h
    · cases h
      first
      | exact Distinct.openItem? (d := d.settle) hd hopen
      | exact Distinct.openTable? (d := d.settle) hd hopen
    · cases h

theorem Distinct.statement (hd : d.Distinct) {chars rest : List Char}
    (h : Toml.statement d chars = .ok (after, rest)) : after.Distinct := by
  unfold Toml.statement at h
  split at h
  · cases h
    exact hd
  · split at h
    · obtain ⟨⟨path, left⟩, -, h⟩ := bind_eq_ok h
      dsimp only at h
      split at h
      · obtain ⟨⟨value, left⟩, hvalue, h⟩ := bind_eq_ok h
        obtain ⟨assigned, hassign, h⟩ := bind_eq_ok h
        cases h
        exact hd.assign? (valuesDistinct _ hvalue) (wellFormed_eq_ok hassign)
      · cases h
    · split at h
      · exact hd.header? (wellFormed_eq_ok h)
      · split at h
        · cases h
          exact hd
        · cases h

theorem Distinct.lines (hd : d.Distinct) {fuel : Nat} {chars : List Char}
    (h : Toml.lines fuel d chars = .ok after) : after.Distinct := by
  induction fuel generalizing d chars with
  | zero => cases h
  | succ fuel ih =>
      rw [Toml.lines] at h
      obtain ⟨⟨next, left⟩, hstatement, h⟩ := bind_eq_ok h
      obtain ⟨rest, -, h⟩ := bind_eq_ok h
      have hnext := hd.statement hstatement
      split at h
      · cases h
        exact hnext
      · exact ih hnext h
      · cases h

end Document

/-- No table of a document has a key twice. -/
theorem distinct_read {text : List Char} {entries : Entries Datum} (h : read text = .ok entries) :
    Datum.Distinct (.table entries) := by
  rw [read] at h
  cases hlines : lines ((Text.unifyLineEnds text).length + 1) .empty (Text.unifyLineEnds text) with
  | error problem =>
      rw [hlines] at h
      cases h
  | ok d =>
      rw [hlines] at h
      cases h
      exact Document.Distinct.lines (d := .empty) Datum.distinct_table_nil hlines

end Toml

end SqlTables
