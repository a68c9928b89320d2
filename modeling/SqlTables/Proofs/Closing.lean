import SqlTables.Proofs.Scan.Moved
import SqlTables.Proofs.Unclosed

/-!
# Parentheses closed at the end

Closing parentheses behind the last token of a statement change neither what it names nor
where: a source is reported either way, only its role may differ
(`Statement.sameTables_closed`).

To a token of the statement, a `)` behind the last one is as good as the end: no look ahead
makes anything of it (`sameSight_append_closers`, `hasQueryBody_append_closers`). So the
groups are the same up to there, and the first `)` completes what the end of the tokens
completes (`references_closer`). Roles are compared after demotion, as a group that is
closed demotes nothing.
-/

namespace SqlTables

namespace Reference

/-- Two references to the same thing at the same place, of which one may be less certain. -/
structure Agrees (r r' : Reference) : Prop where
  parts : r'.parts = r.parts
  span : r'.span = r.span
  role : r'.role = r.role ∨ r.role = .source ∧ r'.role = .unresolved ∨
    r.role = .unresolved ∧ r'.role = .source

variable {r r' : Reference}

theorem role_demote (r : Reference) :
    r.demote.role = if r.role = .source then .unresolved else r.role := by
  unfold demote
  split <;> rfl

theorem agrees_of_demote (h : r'.demote = r.demote) : r.Agrees r' := by
  have hparts : r'.demote.parts = r.demote.parts := by rw [h]
  have hspan : r'.demote.span = r.demote.span := by rw [h]
  have hrole : r'.demote.role = r.demote.role := by rw [h]
  rw [demote_parts, demote_parts] at hparts
  rw [demote_span, demote_span] at hspan
  rw [role_demote, role_demote] at hrole
  refine ⟨hparts, hspan, ?_⟩
  split at hrole
  · next hr' =>
      split at hrole
      · next hr => exact Or.inl (hr'.trans hr.symm)
      · exact Or.inr (Or.inr ⟨hrole.symm, hr'⟩)
  · split at hrole
    · next hr => exact Or.inr (Or.inl ⟨hr, hrole⟩)
    · exact Or.inl hrole

theorem Agrees.isSource (h : r.Agrees r') : r'.isSource = r.isSource := by
  unfold Reference.isSource
  rcases h.role with heq | ⟨hr, hr'⟩ | ⟨hr, hr'⟩
  · rw [heq]
  · rw [hr, hr', Role.isSource, Role.isSource]
  · rw [hr, hr', Role.isSource, Role.isSource]

theorem tableNames_of_agrees {rs ss : List Reference} (h : List.Forall₂ Agrees rs ss) :
    tableNames ss = tableNames rs := by
  induction h with
  | nil => rfl
  | @cons r r' rs ss hr _ ih =>
      have hname : r'.name = r.name := congrArg ".".intercalate hr.parts
      have hhead : tableNames [r'] = tableNames [r] := by
        simp only [tableNames, List.filter_cons, List.filter_nil, hr.isSource]
        split
        · rw [List.map_cons, List.map_cons, hname]
        · rfl
      rw [← List.singleton_append, ← List.singleton_append (l := rs), tableNames_append,
        tableNames_append, hhead, ih]

end Reference

/-- The same things are named at the same places, and the same tables are reported. -/
structure Findings.SameTables (f g : Findings) : Prop where
  references : List.Forall₂ Reference.Agrees f.references g.references
  sources : g.sources.map Reference.name = f.sources.map Reference.name

namespace Scan

open Token

variable {limit : Nat} {s s' : Scan} {c t : Token} {cs ts xs rest : List Token}

/-! ## Seen from the tokens before -/

section Sight

variable (hcs : ∀ c ∈ cs, c.isMark ')')

include hcs

theorem head?_any_closers {p : Token → Bool} (hp : ∀ c : Token, c.isMark ')' → p c = false) :
    cs.head?.any p = false := by
  cases cs with
  | nil => rfl
  | cons c cs => exact hp c (hcs c List.mem_cons_self)

theorem head?_any_append_closers {p : Token → Bool}
    (hp : ∀ c : Token, c.isMark ')' → p c = false) (ts : List Token) :
    (ts ++ cs).head?.any p = ts.head?.any p := by
  cases ts with
  | nil => exact head?_any_closers hcs hp
  | cons t ts => rfl

/-- Behind the parenthesis that closes a group, or is added to close it, the same word
stands. -/
theorem afterClosing?_append_closers (d : Nat) (ts : List Token) :
    ((afterClosing? d (ts ++ cs)).any fun tail => tail.head?.any fun u => u.isKeyword .AS) =
      (afterClosing? d ts).any fun tail => tail.head?.any fun u => u.isKeyword .AS := by
  have has (c : Token) (hc : c.isMark ')') : c.isKeyword .AS = false :=
    isKeyword_of_endsSight (endsSight_of_isMark hc) (by decide)
  cases hts : afterClosing? d ts with
  | some tail =>
      rw [afterClosing?_append_of_some hts, Option.any_some, Option.any_some,
        head?_any_append_closers hcs has]
  | none =>
      -- Only an added parenthesis can close the group then, and others stand behind it.
      cases hadded : afterClosing? d (ts ++ cs) with
      | none => rfl
      | some tail =>
          obtain ⟨e, he⟩ := Option.isSome_iff_exists.mp ((afterClosing?_eq_none_iff ts d).mp hts)
          rw [afterClosing?_append he] at hadded
          obtain ⟨ys, c, rfl, -, -⟩ := exists_of_afterClosing? hadded
          have htail : ∀ c ∈ tail, c.isMark ')' := fun c hc =>
            hcs c (List.mem_append_right _ (List.mem_cons_of_mem _ hc))
          rw [Option.any_some, Option.any_none, head?_any_closers htail has]

theorem looksLikeCte_append_closers (ts : List Token) :
    looksLikeCte (ts ++ cs) = looksLikeCte ts := by
  have hends (c : Token) (hc : c.isMark ')') : endsSight c := endsSight_of_isMark hc
  cases ts with
  | nil =>
      cases cs with
      | nil => rfl
      | cons c cs =>
          have hc := hcs c List.mem_cons_self
          exact not_looksLikeCte_of_not_isName (fun hname => not_isMark_of_isName hname _ hc)
            (fun hword => not_isMark_of_isKeyword hword _ hc) cs
  | cons name ts =>
      cases ts with
      | nil =>
          cases cs with
          | nil => rfl
          | cons c cs =>
              have hc := hcs c List.mem_cons_self
              have has : c.isKeyword .AS = false := isKeyword_of_endsSight (hends c hc) (by decide)
              have hopen : ¬ c.isMark '(' := not_isMark_of_isMark hc (by decide)
              simp [looksLikeCte, has, hopen]
      | cons t ts =>
          have hbody := head?_any_append_closers hcs
            (p := fun u => u.isMark '(' || u.isAnyKeyword [.NOT, .MATERIALIZED]) (fun c hc => by
              have hopen : ¬ c.isMark '(' := not_isMark_of_isMark hc (by decide)
              rw [Bool.eq_false_iff.mpr hopen,
                isAnyKeyword_of_endsSight (hends c hc) (by decide)]
              rfl) ts
          simp only [List.cons_append, looksLikeCte, hbody, afterClosing?_append_closers hcs]

/-- A step sees the end of the tokens and a `)` in its place alike. -/
theorem sameSight_append_closers (ts : List Token) : SameSight ts (ts ++ cs) := by
  have hends (c : Token) (hc : c.isMark ')') : endsSight c := endsSight_of_isMark hc
  constructor
  · exact head?_any_append_closers hcs
      (fun c hc => isAnyKeyword_of_endsSight (hends c hc) (by decide)) ts
  · exact head?_any_append_closers hcs
      (fun c hc => isKeyword_of_endsSight (hends c hc) (by decide)) ts
  · exact head?_any_append_closers hcs
      (fun c hc => Bool.eq_false_iff.mpr fun hname => not_isMark_of_isName hname _ hc) ts
  · refine head?_any_append_closers hcs (fun c hc => ?_) ts
    have hopen : ¬ c.isMark '(' := not_isMark_of_isMark hc (by decide)
    rw [isCandidate_of_endsSight (hends c hc), Bool.eq_false_iff.mpr hopen]
    rfl
  · exact looksLikeCte_append_closers hcs ts

theorem hasQueryBody_closers (d : Int) : hasQueryBody d cs = false := by
  induction cs generalizing d with
  | nil => rfl
  | cons c cs ih =>
      rw [List.forall_mem_cons] at hcs
      have hopen : ¬ c.isMark '(' := not_isMark_of_isMark hcs.1 (by decide)
      rw [hasQueryBody, if_neg hopen, if_pos hcs.1, ih hcs.2]

theorem hasQueryBody_append_closers (d : Int) (ts : List Token) :
    hasQueryBody d (ts ++ cs) = hasQueryBody d ts := by
  induction ts generalizing d with
  | nil => exact hasQueryBody_closers hcs d
  | cons t ts ih =>
      have hbody := head?_any_append_closers hcs (p := startsBody) (fun c hc => by
        have hopen : ¬ c.isMark '(' := not_isMark_of_isMark hc (by decide)
        rw [startsBody, Bool.eq_false_iff.mpr hopen, Bool.or_false, Bool.eq_false_iff]
        exact fun hword => not_isMark_of_isAnyKeyword hword _ hc) ts
      rw [List.cons_append, hasQueryBody, hasQueryBody, ih, ih, ih, hbody]

end Sight

/-! ## Read by the scan -/

theorem demote_fated (s : Scan) (ts : List Token) (r : Reference) :
    (s.fated ts r).demote = r.demote := by
  unfold fated fate
  split
  · exact demote_demote r
  · rfl

/-- What is found over some tokens does not depend on the parentheses closed behind them,
up to roles. -/
theorem gather_append_closers (limit : Nat) (hcs : ∀ c ∈ cs, c.isMark ')') (xs : List Token)
    (h : s.Moved id s') (hs : IsNest s.top s.below) :
    (s.advance limit [] xs).Moved id (s'.advance limit cs xs) ∧
      (s'.gather limit cs xs).map Reference.demote =
        (s.gather limit [] xs).map Reference.demote := by
  induction xs generalizing s s' with
  | nil => exact ⟨h, rfl⟩
  | cons t xs ih =>
      have hsight := sameSight_append_closers hcs xs
      have hbody (_ : s.top.body.isCreating) :
          hasQueryBody 0 (t :: (xs ++ cs)) = hasQueryBody 0 (t :: xs) :=
        hasQueryBody_append_closers hcs 0 (t :: xs)
      have hfound := (outcome_changed limit h t.moved_id hsight hbody).references_moved
      rw [Reference.map_id, List.map_id] at hfound
      obtain ⟨hadvance, hgather⟩ := ih (changed_step limit h t.moved_id hsight hs hbody)
        (isNest_step limit t xs hs)
      rw [advance_cons, advance_cons, gather_cons, gather_cons, List.append_nil, List.map_append,
        List.map_append, hgather, hfound]
      refine ⟨hadvance, ?_⟩
      simp only [List.map_map, Function.comp_def, demote_fated]

/-- A `)` makes nothing of its own, so it brings something only where a name is complete. -/
theorem references_of_pending?_eq_none (hs : s.pending? = none) (hc : ¬ t.isName) :
    (s.outcome limit t rest).references = [] := by
  refine List.eq_nil_iff_forall_not_mem.mpr fun r hr => ?_
  cases makes_of_mem_outcome hr with
  | name n hread =>
      rw [hs] at hread
      cases hread
  | definition hname => exact hc hname

theorem Flat.references_closer {f : Flat} {n : DottedName} (hread : f.read = some n)
    (hc : c.isMark ')') : (f.step c).references = f.settle := by
  have hn : n.extend? c = none := DottedName.extend?_eq_none_of_isMark hc (by decide)
  have hopen : ¬ c.isMark '(' := not_isMark_of_isMark hc (by decide)
  have hplain : (f.plainStep false c).references = [] := by
    unfold Flat.plainStep
    rw [if_neg hopen, if_pos hc]
    dsimp only
    split <;> rfl
  rw [Flat.settle, Flat.step, hread]
  simp only [hn, Bool.eq_false_iff.mpr hopen]
  cases f.reference? n false with
  | none => exact hplain
  | some r => exact congrArg (r :: ·) hplain

theorem Mode.eq_name_created {m : Mode} {n : DottedName} (hcreating : m.isCreating)
    (hpending : m.pending? = some n) : m = .name .created n := by
  cases m with
  | name purpose read =>
      obtain rfl : read = n := Option.some.inj hpending
      cases purpose with
      | created => rfl
      | _ => cases hcreating
  | _ => cases hpending

/-- A created table waits for a query, which does not come any more. -/
theorem Query.references_closer_created {w : Surroundings} {q : Query} {n : DottedName}
    (hmode : q.mode = .name .created n) (hc : c.isMark ')') (hcs : ∀ c ∈ cs, c.isMark ')') :
    (q.step w c cs).references = q.settle.1 := by
  have hn : n.extend? c = none := DottedName.extend?_eq_none_of_isMark hc (by decide)
  have hquery : hasQueryBody 0 (c :: cs) = false :=
    hasQueryBody_closers (List.forall_mem_cons.mpr ⟨hc, hcs⟩) 0
  have hclause : (clauseStep w q false c cs).references = [] := by
    simp only [clauseStep, kind_of_isMark hc]
  simp only [step, settle, hmode, nameStep, hn, nameEndStep, hquery, Bool.false_eq_true, if_false,
    hclause]

/-- A `)` with none but such behind it completes what the end of the tokens completes. -/
theorem references_closer (limit : Nat) (hc : c.isMark ')') (hcs : ∀ c ∈ cs, c.isMark ')') :
    (s.outcome limit c cs).references = s.top.body.remainder := by
  have hname : ¬ c.isName := fun hname => not_isMark_of_isName hname _ hc
  have hopen : ¬ c.isMark '(' := not_isMark_of_isMark hc (by decide)
  cases hpending : s.pending? with
  | none =>
      rw [references_of_pending?_eq_none hpending hname]
      refine (List.eq_nil_iff_forall_not_mem.mpr fun r hr => ?_).symm
      obtain ⟨n, hread, -⟩ := mem_remainder hr
      rw [hpending] at hread
      cases hread
  | some n =>
      cases hbody : s.top.body with
      | expression scope =>
          rw [pending?, hbody] at hpending
          cases hpending
      | flat f =>
          rw [outcome_flat hbody, Body.remainder]
          exact Flat.references_closer (by rwa [pending?, hbody] at hpending) hc
      | query q =>
          rw [outcome_query hbody, Body.remainder]
          by_cases hcreating : q.mode.isCreating
          · rw [pending?, hbody, Body.pending?] at hpending
            exact Query.references_closer_created (Mode.eq_name_created hcreating hpending) hc hcs
          · obtain ⟨defs, heq, -, hdefs⟩ := q.references_step (s.surroundings limit) cs hopen
              (q.not_continues_of_isMark hc (by decide)) hcreating
            rw [heq, hdefs hname, List.append_nil]

/-- Closing parentheses find nothing once no name is being read. -/
theorem gather_closers (limit : Nat) (hcs : ∀ c ∈ cs, c.isMark ')') (hs : IsNest s.top s.below)
    (hpending : s.pending? = none) :
    s.gather limit [] cs = [] ∧ (s.advance limit [] cs).remainder = [] := by
  induction cs generalizing s with
  | nil => exact ⟨rfl, remainder_of_pending?_eq_none hpending⟩
  | cons c cs ih =>
      rw [List.forall_mem_cons] at hcs
      have hname : ¬ c.isName := fun hname => not_isMark_of_isName hname _ hcs.1
      obtain ⟨hgather, hremainder⟩ := ih hcs.2 (isNest_step limit c (cs ++ []) hs)
        (pending?_step_of_isMark hs hcs.1 (by decide))
      refine ⟨?_, hremainder⟩
      rw [gather_cons, references_of_pending?_eq_none hpending hname, hgather]
      rfl

/-- Closing parentheses at the end find what the end of the tokens completes. -/
theorem gather_closers_eq_remainder (limit : Nat) (hcs : ∀ c ∈ cs, c.isMark ')')
    (hs : IsNest s.top s.below) :
    (s.gather limit [] cs ++ (s.advance limit [] cs).remainder).map Reference.demote =
      s.top.body.remainder.map Reference.demote := by
  cases cs with
  | nil =>
      simp only [gather_nil, advance_nil, List.nil_append, remainder, List.map_map,
        Function.comp_def, demote_fated]
  | cons c cs =>
      rw [List.forall_mem_cons] at hcs
      obtain ⟨hgather, hremainder⟩ := gather_closers limit hcs.2
        (isNest_step limit c (cs ++ []) hs) (pending?_step_of_isMark hs hcs.1 (by decide))
      rw [gather_cons, advance_cons, hgather, hremainder, List.append_nil, List.append_nil,
        List.append_nil, references_closer limit hcs.1 hcs.2]
      simp only [List.map_map, Function.comp_def, demote_fated]

/-- The references of a statement and of the same statement with parentheses closed behind
it, up to roles. -/
theorem find_append_closers (limit : Nat) (hcs : ∀ c ∈ cs, c.isMark ')') (ts : List Token) :
    (find limit (ts ++ cs)).references.map Reference.demote =
      (find limit ts).references.map Reference.demote := by
  obtain ⟨hadvance, hgather⟩ := gather_append_closers limit hcs ts (start_moved id)
    isNest_start
  have hend := gather_closers_eq_remainder limit hcs
    (isNest_advance limit cs ts isNest_start)
  have hremainder : (start.advance limit cs ts).top.body.remainder =
      (start.advance limit [] ts).top.body.remainder := by
    have hmoved := hadvance.top.body
    generalize (start.advance limit [] ts).top.body = b at hmoved ⊢
    generalize (start.advance limit cs ts).top.body = b' at hmoved ⊢
    cases hmoved with
    | query q hq =>
        have heq := q.settle_changed hq
        rwa [Reference.change_ofMove, Reference.map_id, List.map_id] at heq
    | expression scope => rfl
    | flat f hread =>
        have heq := f.settle_changed hread
        rwa [Reference.change_ofMove, Reference.map_id, List.map_id] at heq
  rw [find_references, find_references, gather_append, advance_append, List.append_nil,
    List.append_assoc, List.map_append, hend, hgather, hremainder, List.map_append, remainder]
  simp only [List.map_map, Function.comp_def, demote_fated]

end Scan

namespace Statement

/-- The statement with further tokens at its end. -/
def append (s : Statement) (ts : List Token) : Statement := { s with tokens := s.tokens ++ ts }

/-- A statement whose missing parentheses are closed at its end names the same things at the
same places, and reports the same tables. It does so whatever the number of parentheses is
that are closed there: as many as are missing, fewer or more. -/
theorem sameTables_closed (s : Statement) (closers : List Token)
    (h : ∀ c ∈ closers, c.isMark ')') : s.scan.SameTables (s.append closers).scan := by
  have hdemoted := Scan.find_append_closers Scan.depthLimit h s.tokens
  rw [← List.forall₂_eq_eq_eq, List.forall₂_map_left_iff, List.forall₂_map_right_iff] at hdemoted
  have hreferences : List.Forall₂ Reference.Agrees s.scan.references
      (s.append closers).scan.references := by
    refine List.forall₂_map_left_iff.mpr (List.forall₂_map_right_iff.mpr ?_)
    refine hdemoted.flip.imp fun r r' hr => ?_
    have hagrees := Reference.agrees_of_demote hr
    exact ⟨hagrees.parts, hagrees.span, hagrees.role⟩
  exact ⟨hreferences, Reference.tableNames_of_agrees hreferences⟩

/-- Three parentheses are missing here, one of them that of a join tree. -/
theorem sameTables_closed_joinTree :
    let s := (ofScript "SELECT * FROM (a x JOIN (SELECT * FROM b WHERE k IN (SELECT k FROM c").headD
      ⟨0, []⟩
    let closers := Token.scanSignificant ")))"
    closers.length = (Token.unclosed s.tokens).length ∧ (∀ c ∈ closers, c.isMark ')') ∧
      s.scan.SameTables (s.append closers).scan := by
  refine ⟨by decide +kernel, by decide +kernel, sameTables_closed _ _ ?_⟩
  decide +kernel

end Statement

end SqlTables
