import SqlTables.Proofs.Join
import SqlTables.Proofs.Run

/-!
# Scripts compose

What is reported of a script does not depend on what stands behind it, and of what stands
before it only on the last `USE`: what a run reports of `Script.join a b` is put together of
what it reports of `a` and of `b` behind that `USE` (`Reader.composes_join`). A statement of `a`
that could not be read to its end, in which a parenthesis is left open or a dot or a `WITH`
leads nowhere, changes nothing in what is reported of `b`.
-/

namespace SqlTables

/-- The summary of the statement, `k` statements and `n` characters further back. -/
def StatementSummary.shift (k n : Nat) (s : StatementSummary) : StatementSummary :=
  { s with index := s.index + k, span := s.span.map (· + n) }

namespace Statement

variable {database : Option String} {s : Statement} {ss : List Statement}

/-- The last of the statements that switches the database. -/
def lastSwitch? (ss : List Statement) : Option Statement :=
  ss.reverse.find? fun s => s.switched?.isSome

theorem kind_of_switched? {d : String} (h : s.switched? = some d) : s.kind = .session := by
  by_contra hkind
  rw [switched?, if_neg hkind] at h
  cases h

theorem lastSwitch?_append_singleton (ss : List Statement) (s : Statement) :
    lastSwitch? (ss ++ [s]) = if s.switched?.isSome then some s else lastSwitch? ss := by
  rw [lastSwitch?, List.reverse_append, List.reverse_singleton, List.singleton_append,
    List.find?_cons]
  cases s.switched?.isSome with
  | true => rfl
  | false => rfl

/-- The database in force is that of the last switch. -/
theorem inForce_eq (database : Option String) (ss : List Statement) :
    inForce database ss = ((lastSwitch? ss).bind switched?).or database := by
  induction ss using List.reverseRecOn with
  | nil => rfl
  | append_singleton ss s ih =>
      rw [inForce_append_singleton, ih, lastSwitch?_append_singleton]
      cases hs : s.switched? with
      | none => rw [Option.none_or, if_neg (by simp)]
      | some d => rw [if_pos (by simp), Option.bind_some, hs]; rfl

theorem switched?_shift (s : Statement) (k n : Nat) : (s.shift k n).switched? = s.switched? := by
  rw [switched?, switched?, kind_shift, usedDatabase?_shift]

end Statement

namespace Script

open Statement

/-- What of a script concerns the scripts behind it: its last statement that switches the
database. -/
def lead (a : String) : String :=
  match lastSwitch? (ofScript a) with
  | some s => join (s.text a) ""
  | none => ""

/-- Behind `a`, and at `n`, stands `b`, and the statements are those of both. -/
structure Continues (a b whole : String) (n : Nat) : Prop where
  start : ∃ after, whole.toList = a.toList ++ after
  rest : ∃ before, whole.toList = before ++ b.toList ∧ before.length = n
  statements : ofScript whole =
    ofScript a ++ (ofScript b).map (Statement.shift (ofScript a).length n)

theorem continues_join {a : String} (h : Token.LeaveNone (Token.scan a)) (b : String) :
    Continues a b (join a b) (a.length + 3) where
  start := ⟨_, toList_join a b⟩
  rest := ⟨a.toList ++ ['\n', ';', '\n'], by simp [toList_join], by simp [String.length_toList]⟩
  statements := ofScript_join (apart_of_leaveNone h b)

theorem continues_lead {a : String} (h : Token.LeaveNone (Token.scan a)) (b : String) :
    Continues (lead a) b (lead a ++ b) (lead a).length := by
  refine ⟨⟨b.toList, String.toList_append⟩,
    ⟨(lead a).toList, String.toList_append, String.length_toList⟩, ?_⟩
  rw [lead]
  split
  · next s hs =>
      have hmem : s ∈ ofScript a := List.mem_reverse.mp (List.mem_of_find?_eq_some hs)
      have htext := leaveNone_text h hmem
      have hjoin : join (s.text a) "" ++ b = join (s.text a) b := by
        rw [join, join, String.append_empty]
      have hlength : (join (s.text a) "").length = (s.text a).length + 3 := by
        rw [join, String.append_empty, String.length_append]
        rfl
      have hnone : ofScript "" = [] := rfl
      rw [hjoin, hlength, ofScript_join (apart_of_leaveNone htext b),
        ofScript_join (apart_of_leaveNone htext ""), hnone, List.map_nil, List.append_nil]
  · have hnone : ofScript "" = [] := rfl
    have hid : (ofScript b).map (Statement.shift 0 0) = ofScript b :=
      (List.map_congr_left fun s _ => s.shift_zero).trans (List.map_id _)
    rw [hnone, String.empty_append, String.length_empty, List.length_nil, hid]
    rfl

/-- The lead of a script sets the database that is in force behind the script. -/
theorem inForce_lead {a : String} (h : Token.LeaveNone (Token.scan a)) :
    inForce none (ofScript (lead a)) = inForce none (ofScript a) ∧
      ∀ s ∈ ofScript (lead a), s.kind = .session := by
  rw [inForce_eq none (ofScript a), lead]
  split
  · next s hs =>
      have hmem : s ∈ ofScript a := List.mem_reverse.mp (List.mem_of_find?_eq_some hs)
      have hsome := List.find?_some hs
      obtain ⟨d, hd⟩ := Option.isSome_iff_exists.mp hsome
      obtain ⟨s₀, n, htext, hshift⟩ := exists_ofScript_text hmem
      have hnone : ofScript "" = [] := rfl
      have hs₀ : s₀.switched? = some d := by
        rw [← switched?_shift s₀ s.index n, hshift, hd]
      rw [ofScript_join (apart_of_leaveNone (leaveNone_text h hmem) ""), hnone, List.map_nil,
        List.append_nil, htext, hs, Option.bind_some, hd]
      refine ⟨?_, ?_⟩
      · rw [inForce_cons, hs₀]
        rfl
      · rw [List.forall_mem_singleton]
        exact kind_of_switched? hs₀
  · next hs =>
      rw [hs]
      exact ⟨rfl, List.forall_mem_nil _⟩

end Script

namespace Reader

open Statement Script

variable {r : Reader} {a b whole : String} {n : Nat} {s : Statement}

theorem find_shift (r : Reader) (hne : s.tokens ≠ []) {k : Nat}
    (htext : (s.shift k n).text whole = s.text b) :
    (r.find whole (s.shift k n)).1 = (r.find b s).1 ∧
      (r.find whole (s.shift k n)).2.references =
        (r.find b s).2.references.map (Reference.shift k n) := by
  have hscan := references_scan_shift s k n
  unfold find
  cases r.engine with
  | scan => exact ⟨rfl, hscan⟩
  | parser =>
      dsimp only
      rw [htext]
      cases Id.run (r.parser (s.text b) r.dialect) with
      | tables names =>
          refine ⟨rfl, ?_⟩
          have hspan := span_shift hne k n
          simp only [ofParse, parsed, List.map_map, hspan]
          rfl
      | notModelled => exact ⟨rfl, hscan⟩
      | failed cause => exact ⟨rfl, hscan⟩

theorem references_shift (r : Reader) (hne : s.tokens ≠ []) {k : Nat}
    (htext : (s.shift k n).text whole = s.text b) :
    r.references whole (s.shift k n) = (r.references b s).map (Reference.shift k n) := by
  rw [references, references, kind_shift]
  split
  · rfl
  · exact (r.find_shift hne htext).2

theorem names_shift (r : Reader) (hne : s.tokens ≠ []) {k : Nat}
    (htext : (s.shift k n).text whole = s.text b) (database : Option String) :
    r.names whole database (s.shift k n) = r.names b database s := by
  rw [names, names, r.references_shift hne htext, Reference.qualifiedNames, List.filter_map,
    List.map_map]
  rfl

theorem summary_shift (r : Reader) (hne : s.tokens ≠ []) {k : Nat}
    (htext : (s.shift k n).text whole = s.text b) (database : Option String) :
    r.summary whole database (s.shift k n) = (r.summary b database s).shift k n := by
  have hfind := (r.find_shift hne htext).1
  simp only [summary, StatementSummary.shift, r.names_shift hne htext, kind_shift, hfind,
    span_shift hne]
  rfl

/-- What is made of the statements of two scripts behind one another. -/
theorem collect_continues {α : Type} (h : Continues a b whole n)
    {f : String → Option String → Statement → List α} {g : Nat → Nat → α → α}
    (hf : ∀ {script whole : String} {s : Statement} {k n : Nat}, s.tokens ≠ [] →
      (s.shift k n).text whole = s.text script →
        ∀ database, f whole database (s.shift k n) = (f script database s).map (g k n))
    (hg : g 0 0 = id) :
    collect (f whole) none (ofScript whole) = collect (f a) none (ofScript a) ++
      (collect (f b) (inForce none (ofScript a)) (ofScript b)).map (g (ofScript a).length n) := by
  obtain ⟨after, hstart⟩ := h.start
  obtain ⟨before, hrest, rfl⟩ := h.rest
  have hleft : collect (f whole) none (ofScript a) = collect (f a) none (ofScript a) := by
    have hsame : ∀ s ∈ ofScript a, ∀ database,
        f whole database (id s) = (f a database s).map id := fun s hs database => by
      have hwhole : whole.toList = [] ++ (a.toList ++ after) := hstart
      have htext := text_shift hs 0 hwhole
      have hshift := hf (tokens_ne_nil hs) htext database
      rwa [List.length_nil, shift_zero, hg] at hshift
    have hmap := collect_map hsame (fun _ _ => rfl) none
    rwa [List.map_id, List.map_id] at hmap
  have hright : ∀ s ∈ ofScript b, ∀ database,
      f whole database (s.shift (ofScript a).length before.length) =
        (f b database s).map (g (ofScript a).length before.length) := fun s hs database => by
    have hwhole : whole.toList = before ++ (b.toList ++ []) := by rw [hrest, List.append_nil]
    exact hf (tokens_ne_nil hs) (text_shift hs _ hwhole) database
  rw [h.statements, collect_append, hleft,
    collect_map hright (fun s _ => switched?_shift s _ _)]

theorem statements_continues (r : Reader) (h : Continues a b whole n) :
    (r.run whole).statements = (r.run a).statements ++
      (collect (fun database s => [r.summary b database s]) (inForce none (ofScript a))
        (ofScript b)).map (StatementSummary.shift (ofScript a).length n) := by
  have hzero : StatementSummary.shift 0 0 = id := by
    funext s
    simp [StatementSummary.shift, Span.map]
  rw [statements_run, statements_run]
  refine collect_continues h (f := fun script database s => [r.summary script database s]) ?_ hzero
  intro script whole s k n hne htext database
  rw [r.summary_shift hne htext, List.map_singleton]

theorem references_continues (r : Reader) (h : Continues a b whole n) :
    (r.run whole).references = (r.run a).references ++
      (r.run b).references.map (Reference.shift (ofScript a).length n) := by
  have hzero : Reference.shift 0 0 = id := by
    funext r
    simp [Reference.shift, Span.map]
  rw [references_run, references_run, references_run, ← collect_const, ← collect_const,
    ← collect_const _ (inForce none (ofScript a))]
  exact collect_continues h (f := fun script _ s => r.references script s)
    (fun hne htext _ => r.references_shift hne htext) hzero

/-- The tables of two scripts are those of the names in both. -/
theorem tables_continues (r : Reader) (h : Continues a b whole n) :
    (r.run whole).tables = TableSet.listing (collect (r.names a) none (ofScript a) ++
      collect (r.names b) (inForce none (ofScript a)) (ofScript b)) := by
  have hnames := collect_continues h (f := fun script => r.names script) (g := fun _ _ => id)
    (fun hne htext database => by rw [r.names_shift hne htext, List.map_id]) rfl
  rw [tables_run, hnames, List.map_id]

end Reader

/-- A summary that comes behind `before` statements and not behind `skipped`, and `n` characters
further back. -/
def StatementSummary.move (skipped before : Nat) (n : Int) (s : StatementSummary) :
    StatementSummary :=
  { s with index := s.index - skipped + before, span := s.span.map (· + n) }

def Reference.move (skipped before : Nat) (n : Int) (r : Reference) : Reference :=
  { r with statement := r.statement - skipped + before, span := r.span.map (· + n) }

/-- The report `whole` is put together of two: of `first`, and of `second`, whose first statements
are `skipped` and which moves by `n` characters. -/
structure Extraction.Composes (first second whole : Extraction) (skipped : Nat) (n : Int) :
    Prop where
  statements : whole.statements = first.statements ++
    (second.statements.drop skipped).map
      (StatementSummary.move skipped first.statements.length n)
  references : whole.references = first.references ++
    second.references.map (Reference.move skipped first.statements.length n)
  tables : whole.tables = TableSet.union first.tables second.tables

section Move

variable {skipped before n m : Nat}

theorem Span.map_map_sub (s : Span) :
    (s.map (· + (m : Int))).map (· + ((n : Int) - m)) = s.map (· + (n : Int)) := by
  simp only [Span.map, Span.mk.injEq]
  omega

theorem StatementSummary.move_shift :
    StatementSummary.move skipped before (n - m) ∘ StatementSummary.shift skipped m =
      StatementSummary.shift before n := by
  funext s
  simp only [Function.comp_apply, move, shift, Span.map_map_sub, Nat.add_sub_cancel]

theorem Reference.move_shift :
    Reference.move skipped before (n - m) ∘ Reference.shift skipped m =
      Reference.shift before n := by
  funext r
  simp only [Function.comp_apply, move, shift, Span.map_map_sub, Nat.add_sub_cancel]

end Move

namespace Reader

open Statement Script

variable {a : String}

/-- A script of session commands brings no tables. -/
theorem nothing_of_session (r : Reader) (h : ∀ s ∈ ofScript a, s.kind = .session) :
    (r.run a).references = [] ∧ collect (r.names a) none (ofScript a) = [] := by
  have hnone : ∀ s ∈ ofScript a, r.references a s = [] := fun s hs => by
    rw [references, if_pos (h s hs)]
  refine ⟨?_, collect_eq_nil (fun s hs database => ?_) none⟩
  · rw [references_run]
    exact List.flatMap_eq_nil_iff.mpr hnone
  · rw [names, hnone s hs]
    rfl

/-- What a run reports of two scripts behind one another is put together of what it reports of
the first, and of the second behind the last `USE` of the first. -/
theorem composes_join (r : Reader) {a : String} (h : IsClosed a) (b : String) :
    Extraction.Composes (r.run a) (r.run (lead a ++ b)) (r.run (join a b))
      (ofScript (lead a)).length (a.length + 3 - (lead a).length) := by
  have hclosed := h.leaveNone
  have hwhole := continues_join hclosed b
  have hsecond := continues_lead hclosed b
  obtain ⟨hforce, hsession⟩ := inForce_lead hclosed
  obtain ⟨hnoReferences, hnoNames⟩ := r.nothing_of_session hsession
  have hlength : ((a.length : Int) + 3 - (lead a).length) =
      ((a.length + 3 : Nat) : Int) - (lead a).length := rfl
  refine ⟨?_, ?_, ?_⟩
  · have hsummaries := r.statements_continues hsecond
    rw [hforce] at hsummaries
    rw [r.statements_continues hwhole, hsummaries, ← r.length_statements (lead a),
      List.drop_left, List.map_map, hlength, StatementSummary.move_shift, r.length_statements a]
  · rw [r.references_continues hwhole, r.references_continues hsecond, hnoReferences,
      List.nil_append, List.map_map, hlength, Reference.move_shift, r.length_statements a]
  · rw [r.tables_continues hwhole, r.tables_continues hsecond, hforce, hnoNames, List.nil_append,
      r.tables_run a, TableSet.listing_append]

/-- The parenthesis that is left open ends with its statement, and the database stays in
force. -/
theorem composes_join_unclosed :
    let a := "USE d; SELECT * FROM (t_$\x7bday\x7d"
    let b := "SELECT * FROM T, u"
    IsClosed a ∧ Extraction.Composes (scan.run a) (scan.run (lead a ++ b)) (scan.run (join a b))
      (ofScript (lead a)).length (a.length + 3 - (lead a).length) := by
  intro a b
  have hclosed : IsClosed a := by decide +kernel
  exact ⟨hclosed, scan.composes_join hclosed b⟩

end Reader

end SqlTables
