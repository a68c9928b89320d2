import SqlTables.Proofs.Scan.Spelling
import SqlTables.Proofs.Slice

/-!
# References quote the script

A reference is a piece of its statement. The part of the script that it spans is read as the
words and dots that spell its parts, with nothing else between them than whitespace and
comments (`Statement.spells_slice`), and no two references of a statement share a piece
(`Statement.references_quote`).
-/

namespace SqlTables

namespace Token

variable {ts : List Token} {parts : List String} {trailing : Bool}

/-- Where the tokens stand does not matter to what they spell. -/
theorem Spells.rebase (h : Spells ts parts trailing) (start : Nat) :
    Spells (ts.map (rebase start)) parts trailing := by
  induction h with
  | word t ht => exact .word (Token.rebase start t) ht
  | dot h t ht ih =>
      rw [List.map_append]
      exact .dot ih (Token.rebase start t) ht
  | part h t ht ih =>
      rw [List.map_append]
      exact .part ih (Token.rebase start t) ht

/-- A name does not end in a `$` that belongs to a word. -/
theorem Spells.not_endsInDollar (h : Spells ts parts trailing) {us : List Token}
    (hlast : us.getLast? = ts.getLast?) : ¬ endsInDollar us := by
  intro hends
  obtain ⟨d, hd, hdollar⟩ := exists_getLast?_of_endsInDollar hends
  obtain ⟨t, ht, hkind⟩ := h.getLast?
  rw [hlast, ht, Option.some.injEq] at hd
  rw [hd] at hkind
  rcases hkind with hpart | hdot
  · exact not_isMark_of_isPart hpart _ hdollar
  · exact not_isMark_of_isMark hdot (by decide) hdollar

end Token

namespace Statement

open Token

variable {script : String} {s : Statement} {r : Reference}

/-- Some tokens of a statement that follow each other are a run of the tokens of the script,
with what counts for nothing in between. -/
theorem exists_run_of_append (hs : s ∈ ofScript script) {xs run ys : List Token}
    (h : s.tokens = xs ++ (run ++ ys)) (hrun : run ≠ []) :
    ∃ us piece vs, Token.scan script = us ++ (piece ++ vs) ∧
      piece.filter isSignificant = run ∧ piece.head? = run.head? ∧
      piece.getLast? = run.getLast? := by
  obtain ⟨us, all, vs, hscan, hall, -⟩ := exists_run hs
  rw [h] at hall
  obtain ⟨bs, cs, rfl, -, hcs⟩ := List.filter_eq_append_iff.mp hall
  obtain ⟨ds, es, rfl, hds, -⟩ := List.filter_eq_append_iff.mp hcs
  obtain ⟨as, piece, zs, rfl, hpiece, hhead, hlast, -⟩ := exists_trimmed hds hrun
  refine ⟨us ++ bs ++ as, piece, zs ++ es ++ vs, ?_, hpiece, hhead, hlast⟩
  rw [hscan]
  simp only [List.append_assoc]

/-- The part of the script that a reference spans is read as the tokens that spell it. -/
theorem spells_slice (hs : s ∈ ofScript script) {xs run ys : List Token}
    (h : s.tokens = xs ++ (run ++ ys)) (hr : r.IsSpelledBy run) :
    ∃ trailing, Spells (scanSignificant (r.span.slice script)) r.parts trailing ∧
      (trailing → r.role = .unresolved) := by
  obtain ⟨trailing, hspells, hrole⟩ := hr.spells
  obtain ⟨first, hfirst, last, hlast, hspan⟩ := hr.covers
  obtain ⟨us, piece, vs, hscan, hpiece, hhead, htail⟩ :=
    exists_run_of_append hs h hspells.ne_nil
  have hslice := (scan_slice_iff hscan (by rwa [hhead]) (by rwa [htail])).mpr
    (hspells.not_endsInDollar htail)
  refine ⟨trailing, ?_, hrole⟩
  have hfilter : (piece.map (rebase first.offset)).filter isSignificant =
      run.map (rebase first.offset) := by
    rw [List.filter_map, ← hpiece]
    rfl
  rw [scanSignificant, hspan, hslice, hfilter]
  exact hspells.rebase first.offset

/-- A reference is not empty and lies in its statement. -/
theorem span_le {xs run ys : List Token} (hordered : Ordered s.tokens)
    (h : s.tokens = xs ++ (run ++ ys)) (hr : r.IsSpelledBy run) :
    s.span.start ≤ r.span.start ∧ r.span.start < r.span.stop ∧ r.span.stop ≤ s.span.stop := by
  have hsub : run.Sublist s.tokens := by simp [h]
  exact ((hr.marks (hordered.sublist hsub)).mono hsub.subset).within hordered

/-- Every reference of a statement quotes a piece of the script, inside the statement: words
with dots between them which are its parts. With a dot at its end it is unresolved. The
references are in order, and no two pieces overlap. -/
theorem references_quote {script : String} {s : Statement} (hs : s ∈ ofScript script) :
    s.scan.references.Pairwise (fun r r' => r.span.stop ≤ r'.span.start) ∧
      ∀ r ∈ s.scan.references,
        s.span.start ≤ r.span.start ∧ r.span.start < r.span.stop ∧ r.span.stop ≤ s.span.stop ∧
        ∃ trailing, Spells (scanSignificant (r.span.slice script)) r.parts trailing ∧
          (trailing → r.role = .unresolved) := by
  have htiles := Scan.tiles_find Scan.depthLimit s.tokens
  have hordered := ordered_tokens hs
  refine ⟨List.pairwise_map.mpr (htiles.pairwise hordered), fun r hr => ?_⟩
  obtain ⟨r', hr', rfl⟩ := List.mem_map.mp hr
  obtain ⟨xs, run, ys, htokens, hspelled⟩ := htiles.exists_run hr'
  obtain ⟨hstart, hlt, hstop⟩ := span_le hordered htokens hspelled
  have hslice := spells_slice hs htokens hspelled
  exact ⟨hstart, hlt, hstop, hslice⟩

/-- The second name is not known to be complete, and comments belong to no name. -/
theorem references_quote_dangling :
    let script := "SELECT * FROM a /* x */ . select JOIN `b``c` ."
    let s : Statement := ⟨0, scanSignificant script⟩
    let r : Reference := ⟨["b`c"], ⟨38, 46⟩, .unresolved, 0⟩
    s ∈ ofScript script ∧ r ∈ s.scan.references ∧
      ∃ trailing, Spells (scanSignificant (r.span.slice script)) ["b`c"] trailing ∧
        (trailing → r.role = .unresolved) := by
  intro script s r
  have hs : s ∈ ofScript script := by decide +kernel
  have hr : r ∈ s.scan.references := by decide +kernel
  exact ⟨hs, hr, ((references_quote hs).2 r hr).2.2.2⟩

end Statement

end SqlTables
