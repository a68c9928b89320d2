import Mathlib.Tactic.Common
import SqlTables.Proofs.Text
import SqlTables.Settings.ConfigFile

/-!
# Lines of the configuration file

A line that is written is the header of a section, a value, or empty. Where its names are
bare keys, the document reader takes the line for what it is, whatever lines follow
(`ConfigFile.statement_row`), with one exception: a value is written with its control
characters as they are, and one with any but tabs is refused.
-/

namespace SqlTables

namespace Toml

/-! ## Reading a string between double quotes -/

theorem basicBody?_quote (rest : List Char) : basicBody? ('"' :: rest) = some ([], rest) := by
  rw [basicBody?]

theorem basicBody?_escape {c : Char} (h : c = '\\' ∨ c = '"') (rest : List Char) :
    basicBody? ('\\' :: c :: rest) = (basicBody? rest).map (prepend c) := by
  rw [Option.map_eq_bind]
  rcases h with rfl | rfl
  all_goals
    rw [basicBody?]
    · rfl
    all_goals simp

theorem basicBody?_char {c : Char} (h : c ≠ '\\') (h' : c ≠ '"') (rest : List Char) :
    basicBody? (c :: rest) = if isLineChar c then (basicBody? rest).map (prepend c) else none := by
  rw [basicBody?]
  · simp [h]
  all_goals simp_all

end Toml

namespace ConfigFile

/-- A character as it is written between double quotes. -/
def escaped (c : Char) : List Char := if c = '\\' ∨ c = '"' then ['\\', c] else [c]

/-- Whether a text holds no control characters but tabs. -/
def isPlain (text : String) : Bool := text.toList.all Toml.isLineChar

/-- Whether a name may stand without quotes. -/
def isBare (name : String) : Bool :=
  !name.toList.isEmpty && name.toList.all Toml.isBareKeyChar

theorem quoted_append (text : String) (rest : List Char) :
    quoted text ++ rest = '"' :: (text.toList.flatMap escaped ++ '"' :: rest) := by
  rw [quoted, List.append_assoc, List.cons_append]
  rfl

/-- The body of a text between quotes is read back where it has no control characters but
tabs. -/
theorem basicBody?_escaped (chars rest : List Char) :
    Toml.basicBody? (Text.unifyLineEnds (chars.flatMap escaped ++ '"' :: rest)) =
      if chars.all Toml.isLineChar then some (chars, Text.unifyLineEnds rest) else none := by
  induction chars with
  | nil =>
      rw [List.flatMap_nil, List.nil_append, Text.unifyLineEnds_cons (by decide),
        Toml.basicBody?_quote]
      rfl
  | cons c chars ih =>
      rw [List.flatMap_cons, List.append_assoc, List.all_cons]
      by_cases hescape : c = '\\' ∨ c = '"'
      · have hc : c ≠ '\r' ∧ Toml.isLineChar c := by
          rcases hescape with rfl | rfl <;> decide
        rw [escaped, if_pos hescape, List.cons_append, List.singleton_append,
          Text.unifyLineEnds_cons (by decide), Text.unifyLineEnds_cons hc.1,
          Toml.basicBody?_escape hescape, ih, hc.2, Bool.true_and]
        split <;> rfl
      · rw [escaped, if_neg hescape, List.singleton_append]
        rw [not_or] at hescape
        by_cases hreturn : c = '\r'
        · obtain ⟨more, hmore⟩ := Text.unifyLineEnds_return (chars.flatMap escaped ++ '"' :: rest)
          rw [hreturn, hmore, Toml.basicBody?_char (by decide) (by decide)]
          rfl
        · rw [Text.unifyLineEnds_cons hreturn, Toml.basicBody?_char hescape.1 hescape.2, ih]
          cases Toml.isLineChar c with
          | false => rfl
          | true =>
              rw [if_pos rfl, Bool.true_and]
              split <;> rfl

/-- What is read ends with its line. -/
def EndsLine (rest : List Char) : Prop := rest = [] ∨ ∃ more, rest = '\n' :: more

variable {rest : List Char}

theorem EndsLine.unifyLineEnds (h : EndsLine rest) : EndsLine (Text.unifyLineEnds rest) := by
  rcases h with rfl | ⟨more, rfl⟩
  · exact Or.inl rfl
  · exact Or.inr ⟨_, Text.unifyLineEnds_cons (by decide) more⟩

theorem EndsLine.skipSpace (h : EndsLine rest) : Toml.skipSpace rest = rest := by
  rcases h with rfl | ⟨more, rfl⟩ <;> rfl

theorem EndsLine.ne_cons (h : EndsLine rest) {c : Char} (hc : c ≠ '\n') (more : List Char) :
    rest ≠ c :: more := by
  rcases h with rfl | ⟨_, rfl⟩
  · exact fun heq => (nomatch heq)
  · exact fun heq => hc (List.cons.inj heq).1.symm

theorem string?_quoted (text : String) (hrest : EndsLine rest) :
    Toml.string? (Text.unifyLineEnds (quoted text ++ rest)) =
      if isPlain text then some (text, Text.unifyLineEnds rest) else none := by
  have hbody := basicBody?_escaped text.toList rest
  rw [quoted_append, Text.unifyLineEnds_cons (by decide)]
  unfold Toml.string?
  split
  · next more heq =>
      -- Three quotes would be an empty text with a quote behind it.
      rw [(List.cons.inj heq).2, Toml.basicBody?_quote] at hbody
      split at hbody
      · injection hbody with hbody
        exact absurd (congrArg Prod.snd hbody).symm (hrest.unifyLineEnds.ne_cons (by decide) _)
      · cases hbody
  · next heq => cases heq
  · next body _ heq =>
      rw [(List.cons.inj heq).2] at hbody
      rw [hbody, isPlain]
      split
      · exact congrArg (fun s => some (s, Text.unifyLineEnds rest)) String.ofList_toList
      · rfl
  · next heq => cases heq
  · next h _ => exact (h _ rfl).elim

theorem value_quoted (text : String) (hrest : EndsLine rest) :
    Toml.value (Text.unifyLineEnds (quoted text ++ rest)) =
      if isPlain text then .ok (.string text, Text.unifyLineEnds rest) else .error .malformed := by
  have hstring := string?_quoted text hrest
  rw [quoted_append, Text.unifyLineEnds_cons (by decide)] at hstring ⊢
  rw [Toml.value, Toml.valueWith, Toml.scalar, hstring]
  · split <;> rfl
  all_goals
    intro more heq
    cases heq

/-! ## Reading a name -/

theorem isBareKeyChar_of_mem {name : String} (h : isBare name) {c : Char} (hc : c ∈ name.toList) :
    Toml.isBareKeyChar c :=
  List.all_eq_true.mp (Bool.and_eq_true_iff.mp h).2 c hc

theorem ne_of_mem_bare {name : String} (h : isBare name) {c : Char} (hc : c ∈ name.toList)
    {d : Char} (hd : ¬ Toml.isBareKeyChar d) : c ≠ d :=
  fun heq => hd (heq ▸ isBareKeyChar_of_mem h hc)

theorem exists_cons_of_isBare {name : String} (h : isBare name) :
    ∃ c chars, name.toList = c :: chars ∧ Toml.isBareKeyChar c := by
  cases hname : name.toList with
  | nil => simp [isBare, hname] at h
  | cons c chars =>
      exact ⟨c, chars, rfl, isBareKeyChar_of_mem h (hname ▸ List.mem_cons_self)⟩

theorem skipSpace_bare {name : String} (h : isBare name) (rest : List Char) :
    Toml.skipSpace (name.toList ++ rest) = name.toList ++ rest := by
  obtain ⟨c, chars, hname, hc⟩ := exists_cons_of_isBare h
  have hspace : ¬ Toml.isSpace c := by
    rw [Toml.isSpace, Bool.or_eq_true, decide_eq_true_iff, decide_eq_true_iff]
    rintro (rfl | rfl) <;> exact absurd hc (by decide)
  rw [hname, List.cons_append]
  exact List.dropWhile_cons_of_neg hspace

theorem key?_bare {name : String} (h : isBare name) (fuel : Nat) {c : Char}
    (hc : ¬ Toml.isBareKeyChar c)
    (hdot : ∀ more, Toml.skipSpace (c :: rest) ≠ '.' :: more) :
    Toml.key? fuel (name.toList ++ c :: rest) = some ([name], Toml.skipSpace (c :: rest)) := by
  have htake : (name.toList ++ c :: rest).takeWhile Toml.isBareKeyChar = name.toList := by
    rw [List.takeWhile_append_of_pos fun _ => isBareKeyChar_of_mem h,
      List.takeWhile_cons_of_neg hc, List.append_nil]
  have hempty : ¬ name.toList.isEmpty := by
    obtain ⟨c, chars, hname, -⟩ := exists_cons_of_isBare h
    rw [hname]
    exact Bool.false_ne_true
  have hpart : Toml.keyPart? (name.toList ++ c :: rest) = some (name, c :: rest) := by
    unfold Toml.keyPart?
    simp only [htake]
    rw [if_neg hempty, List.drop_left, String.ofList_toList]
  unfold Toml.key?
  rw [hpart]
  dsimp only
  split
  · next more heq => exact absurd heq (hdot more)
  · rfl

/-! ## Reading a line -/

/-- A line of the file. -/
inductive Row
  | header (name : String)
  | value (name text : String)
  | blank

namespace Row

def chars : Row → List Char
  | header name => '[' :: name.toList ++ [']']
  | value name text => name.toList ++ " = ".toList ++ quoted text
  | blank => []

/-- What the line makes of a document. -/
def apply (d : Toml.Document) : Row → Except Toml.Problem Toml.Document
  | header name => Toml.wellFormed (d.settle.openTable? [name])
  | value name text =>
    if isPlain text then Toml.wellFormed (d.assign? [name] (.string text)) else .error .malformed
  | blank => .ok d

/-- The name in the line is a bare key. -/
def IsBare : Row → Prop
  | header name | value name _ => isBare name
  | blank => True

variable {d : Toml.Document}

theorem statement_header {name : String} (h : isBare name) (hrest : EndsLine rest) :
    Toml.statement d (Toml.skipSpace (Text.unifyLineEnds ((header name).chars ++ rest))) =
      ((header name).apply d).map fun d => (d, Text.unifyLineEnds rest) := by
  have hname (c : Char) (hc : c ∈ name.toList) : c ≠ '\r' := ne_of_mem_bare h hc (by decide)
  have hkey : Toml.key? (name.toList ++ ']' :: Text.unifyLineEnds rest).length
      (name.toList ++ ']' :: Text.unifyLineEnds rest) =
        some ([name], ']' :: Text.unifyLineEnds rest) :=
    key?_bare h _ (by decide) fun _ heq => absurd (List.cons.inj heq).1 (by decide)
  have hchars : Text.unifyLineEnds ((header name).chars ++ rest) =
      '[' :: (name.toList ++ ']' :: Text.unifyLineEnds rest) := by
    rw [chars, List.cons_append, List.cons_append, List.append_assoc, List.singleton_append,
      Text.unifyLineEnds_cons (by decide), Text.unifyLineEnds_append hname,
      Text.unifyLineEnds_cons (by decide)]
  rw [hchars]
  change Toml.wellFormed (Toml.header? d (name.toList ++ ']' :: Text.unifyLineEnds rest)) = _
  unfold Toml.header?
  split
  · next heq =>
      obtain ⟨c, chars, hname, hc⟩ := exists_cons_of_isBare h
      rw [hname] at heq
      cases (List.cons.inj heq).1
      exact absurd hc (by decide)
  · rw [skipSpace_bare h, hkey, apply]
    change Toml.wellFormed ((d.settle.openTable? [name]).bind fun d =>
      some (d, Toml.skipSpace (Text.unifyLineEnds rest))) = _
    rw [hrest.unifyLineEnds.skipSpace]
    cases d.settle.openTable? [name] <;> rfl

/-- A statement that begins with a bare key is an assignment. -/
theorem statement_bare {c : Char} {chars more : List Char} {path : List String}
    (hc : Toml.isBareKeyChar c)
    (hkey : Toml.key? (c :: chars).length (c :: chars) = some (path, '=' :: more)) :
    Toml.statement d (c :: chars) = (do
      let read ← Toml.value (Toml.skipSpace more)
      let d ← Toml.wellFormed (d.assign? path read.1)
      pure (d, Toml.skipSpace read.2)) := by
  have hbare : (Toml.isBareKeyChar c || decide (c = '"') || decide (c = '\'')) = true := by
    rw [hc]
    rfl
  unfold Toml.statement
  dsimp only
  rw [if_pos hbare, hkey]
  rfl

theorem statement_value {name : String} (h : isBare name) (text : String)
    (hrest : EndsLine rest) :
    Toml.statement d (Toml.skipSpace (Text.unifyLineEnds ((value name text).chars ++ rest))) =
      ((value name text).apply d).map fun d => (d, Text.unifyLineEnds rest) := by
  have hname (c : Char) (hc : c ∈ name.toList) : c ≠ '\r' := ne_of_mem_bare h hc (by decide)
  have hchars : Text.unifyLineEnds ((value name text).chars ++ rest) =
      name.toList ++ ' ' :: '=' :: ' ' :: Text.unifyLineEnds (quoted text ++ rest) := by
    rw [chars, List.append_assoc, List.append_assoc, Text.unifyLineEnds_append hname]
    change _ ++ Text.unifyLineEnds (' ' :: '=' :: ' ' :: (quoted text ++ rest)) = _
    rw [Text.unifyLineEnds_cons (by decide), Text.unifyLineEnds_cons (by decide),
      Text.unifyLineEnds_cons (by decide)]
  have hspace : Toml.skipSpace (' ' :: Text.unifyLineEnds (quoted text ++ rest)) =
      Text.unifyLineEnds (quoted text ++ rest) := by
    rw [quoted_append, Text.unifyLineEnds_cons (by decide)]
    rfl
  have hkey (fuel : Nat) : Toml.key? fuel
      (name.toList ++ ' ' :: '=' :: ' ' :: Text.unifyLineEnds (quoted text ++ rest)) =
        some ([name], '=' :: ' ' :: Text.unifyLineEnds (quoted text ++ rest)) :=
    key?_bare h fuel (by decide) fun _ heq => absurd (List.cons.inj heq).1 (by decide)
  obtain ⟨c, cs, hcons, hc⟩ := exists_cons_of_isBare h
  rw [hchars, skipSpace_bare h]
  rw [hcons, List.cons_append] at hkey ⊢
  rw [statement_bare hc (hkey _), hspace, value_quoted text hrest, apply]
  by_cases hplain : isPlain text
  · rw [if_pos hplain, if_pos hplain]
    change (Toml.wellFormed (d.assign? [name] (.string text))).bind (fun d =>
      .ok (d, Toml.skipSpace (Text.unifyLineEnds rest))) = _
    rw [hrest.unifyLineEnds.skipSpace]
    cases d.assign? [name] (.string text) <;> rfl
  · rw [if_neg hplain, if_neg hplain]
    rfl

theorem statement_blank (hrest : EndsLine rest) :
    Toml.statement d (Toml.skipSpace (Text.unifyLineEnds (blank.chars ++ rest))) =
      (blank.apply d).map fun d => (d, Text.unifyLineEnds rest) := by
  rw [chars, List.nil_append, hrest.unifyLineEnds.skipSpace]
  rcases hrest.unifyLineEnds with hnil | ⟨more, hmore⟩
  · rw [hnil]
    rfl
  · rw [hmore]
    rfl

/-- A line is read as what it is, up to the end of the line. -/
theorem statement_row {row : Row} (h : row.IsBare) (d : Toml.Document) (hrest : EndsLine rest) :
    Toml.statement d (Toml.skipSpace (Text.unifyLineEnds (row.chars ++ rest))) =
      (row.apply d).map fun d => (d, Text.unifyLineEnds rest) := by
  cases row with
  | header name => exact statement_header h hrest
  | value name text => exact statement_value h text hrest
  | blank => exact statement_blank hrest

/-! ## Reading all lines -/

/-- The lines after the first, each behind a line feed. -/
def tail (rows : List Row) : List Char := rows.flatMap fun row => '\n' :: row.chars

theorem intercalate_chars (row : Row) (rows : List Row) :
    ['\n'].intercalate ((row :: rows).map chars) = row.chars ++ tail rows := by
  induction rows generalizing row with
  | nil => simp [tail]
  | cons next rows ih =>
      rw [List.map_cons, List.map_cons, List.intercalate_cons_cons, ← List.map_cons, ih next]
      simp [tail]

theorem endsLine_tail (rows : List Row) : EndsLine (tail rows) := by
  cases rows with
  | nil => exact Or.inl rfl
  | cons row rows => exact Or.inr ⟨row.chars ++ tail rows, rfl⟩

theorem lines_rows {row : Row} {rows : List Row} (h : ∀ r ∈ row :: rows, r.IsBare)
    (d : Toml.Document) {fuel : Nat} (hfuel : rows.length < fuel) :
    Toml.lines fuel d (Text.unifyLineEnds (row.chars ++ tail rows)) =
      (row :: rows).foldlM apply d := by
  induction rows generalizing row d fuel with
  | nil =>
      obtain ⟨fuel, rfl⟩ := Nat.exists_eq_add_of_lt hfuel
      rw [Toml.lines, statement_row (h row List.mem_cons_self) d (endsLine_tail []),
        List.foldlM_cons]
      cases row.apply d <;> rfl
  | cons next rows ih =>
      obtain ⟨fuel, rfl⟩ := Nat.exists_eq_add_of_lt hfuel
      have htail : Text.unifyLineEnds (tail (next :: rows)) =
          '\n' :: Text.unifyLineEnds (next.chars ++ tail rows) :=
        Text.unifyLineEnds_cons (by decide) _
      rw [Toml.lines, statement_row (h row List.mem_cons_self) d (endsLine_tail (next :: rows)),
        List.foldlM_cons, htail]
      cases row.apply d with
      | error problem => rfl
      | ok d =>
          exact ih (fun r hr => h r (List.mem_cons_of_mem _ hr)) d
            (Nat.lt_of_lt_of_le (Nat.lt_succ_self _) (Nat.le_add_right _ _))

theorem length_le_count (row : Row) (rows : List Row) :
    rows.length ≤ (row.chars ++ tail rows).count '\n' := by
  rw [List.count_append]
  refine Nat.le_add_left_of_le ?_
  induction rows with
  | nil => exact Nat.zero_le _
  | cons next rows ih =>
      change _ ≤ ('\n' :: (next.chars ++ tail rows)).count '\n'
      rw [List.count_cons_self, List.count_append]
      exact Nat.succ_le_succ (Nat.le_add_left_of_le ih)

/-- Lines are read one by one. -/
theorem read_rows {row : Row} {rows : List Row} (h : ∀ r ∈ row :: rows, r.IsBare) :
    Toml.read (['\n'].intercalate ((row :: rows).map chars)) =
      ((row :: rows).foldlM apply .empty).map Toml.Document.entries := by
  have hlength := Nat.le_trans (length_le_count row rows)
    (Text.count_le_length_unifyLineEnds (row.chars ++ tail rows))
  rw [intercalate_chars, Toml.read, lines_rows h .empty (Nat.lt_succ_of_le hlength)]

end Row

end ConfigFile

end SqlTables
