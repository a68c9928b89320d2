import SqlTables.Proofs.Matching
import SqlTables.Proofs.Scan.Leading

/-!
# Plain groups

Most parentheses hold no tables of their own: the arguments of a function, the columns of a
table, a list of values. Whatever words stand in such a group, the scan passes over them and
only looks into the groups inside (`Statement.opensSearch`). A group is searched if it
starts a subquery, or if it stands where a table may stand or the body of a common table
expression does; then the token right before it says so.
-/

namespace SqlTables

namespace Token

/-- A parenthesis of a token sequence, and a token that it is the innermost one around. -/
structure Innermost (tokens : List Token) where
  before : List Token
  opener : Token
  /-- What stands between the parenthesis and the token. -/
  between : List Token
  token : Token
  after : List Token
  isOpening : opener.isMark '('
  balanced : Balanced between
  split : tokens = before ++ opener :: (between ++ token :: after)

namespace Innermost

variable {tokens : List Token}

/-- What stands behind the parenthesis. -/
def content (i : Innermost tokens) : List Token := i.between ++ i.token :: i.after

/-- The group is searched for tables, as far as its surroundings tell. -/
def OpensSearch (i : Innermost tokens) : Prop :=
  i.content.head?.any Scan.startsSubquery ∨ i.before.getLast?.any Scan.leadsGroup

end Innermost

end Token

namespace Scan

open Token

variable {limit : Nat} {s : Scan} {us vs ts tokens : List Token} {r : Reference}

/-- Nothing is found in a group that is passed over. -/
theorem isQuery_of_brings (hr : r ∈ s.brings limit vs) (hflat : s.top.body.kind ≠ .flat) :
    s.top.body.isQuery := by
  cases hbody : s.top.body with
  | query q => rfl
  | expression scope =>
      cases vs with
      | nil =>
          rw [brings, hbody] at hr
          cases hr
      | cons t rest =>
          have hturn := outcome_turn limit s t rest
          rw [brings] at hr
          rw [hbody] at hturn
          generalize s.outcome limit t rest = o at hr hturn
          cases hturn <;> cases hr
  | flat f =>
      rw [hbody] at hflat
      exact absurd rfl hflat

theorem isQuery_of_kind {body other : Body} (h : body.kind = other.kind) (hbody : body.isQuery) :
    other.isQuery := by
  cases other with
  | query q => rfl
  | expression scope =>
      cases body with
      | query q =>
          rw [Body.kind, Body.kind] at h
          split at h <;> cases h
      | _ => cases hbody
  | flat f =>
      cases body with
      | query q =>
          rw [Body.kind, Body.kind] at h
          split at h <;> cases h
      | _ => cases hbody

/-- No group behind an identifier is searched for its sake. -/
theorem not_leadsGroup_of_isName {t : Token} (ht : t.isName) : ¬ leadsGroup t := by
  have hkeywords : ¬ t.isAnyKeyword [.FROM, .JOIN, .USING, .LATERAL, .AS, .NOT, .MATERIALIZED] := by
    rw [isAnyKeyword_iff]
    rintro ⟨word, -, hword⟩
    exact not_isKeyword_of_isName ht word hword
  simp [leadsGroup, hkeywords, not_isMark_of_isName ht]

/-- No group is flat where fewer parentheses are open than the limit allows. -/
theorem not_flat_of_peak (h : peak 0 (us ++ vs) < limit) :
    (start.advance limit vs us).top.body.kind ≠ .flat := by
  intro hflat
  have hheight := height_of_start limit vs us
  have hpeak := foldl_nest_le_peak us vs 0
  have hlength := le_length_of_flat limit vs us hflat
  rw [height] at hheight
  omega

/-- Where something is found in a group, the group starts a subquery or is led by a token. -/
theorem leads_of_brings {before xs : List Token} {o : Token} (ho : o.isMark '(')
    (hxs : Balanced xs) (hpeak : peak 0 (before ++ o :: xs ++ vs) < limit)
    (hr : r ∈ (start.advance limit vs (before ++ o :: xs)).brings limit vs) :
    (xs ++ vs).head?.any startsSubquery ∨ before.getLast?.any leadsGroup := by
  have hquery := isQuery_of_brings hr (not_flat_of_peak hpeak)
  have hs := isNest_advance limit (o :: (xs ++ vs)) before isNest_start
  have hflat : (start.advance limit (o :: (xs ++ vs)) before).top.body.kind ≠ .flat := by
    refine not_flat_of_peak ?_
    rwa [← List.cons_append, ← List.append_assoc]
  obtain ⟨body, haction, hmatches⟩ := (matches_enter limit (xs ++ vs) hs ho).resolve_left hflat
  have hopen : afterClosing? 0 xs = none :=
    (afterClosing?_eq_none_iff xs 0).mpr (Option.isSome_of_eq_some hxs)
  obtain ⟨m, hm, inner, f, hstack, ⟨-, hkind⟩, hinner⟩ := hmatches.lies xs vs rfl hopen
  -- Nothing is open in the group, so it is the innermost one.
  obtain rfl : 0 = m := Option.some.inj (hxs.symm.trans hm)
  rw [Nat.add_eq_zero_iff, List.length_eq_zero_iff] at hinner
  rw [hinner.1, List.nil_append, List.cons.injEq] at hstack
  rw [advance_append, List.cons_append, hstack.1] at hquery
  exact leads_of_enter haction (isQuery_of_kind hkind hquery)

/-- The group in which a reference begins is searched for tables. -/
theorem opensSearch (hordered : Ordered tokens) (hpeak : peak 0 tokens < limit)
    (i : Innermost tokens) (hr : r ∈ (find limit tokens).references)
    (hfirst : r.span.start = i.token.offset) : i.OpensSearch := by
  obtain ⟨us, vs, hsplit, r', hr', rfl⟩ := mem_references.mp hr
  rw [fated_span] at hfirst
  have hi : tokens = (i.before ++ i.opener :: i.between) ++ i.token :: i.after := by
    rw [List.append_assoc]
    exact i.split
  -- The scan finds the reference in the group of its first token, which no parenthesis leaves.
  have hpoint (since : List Token) (heq : i.token :: i.after = since ++ vs)
      (hus : us = (i.before ++ i.opener :: i.between) ++ since) (hsince : Balanced since) :
      i.OpensSearch := by
    have hxs : us = i.before ++ i.opener :: (i.between ++ since) := by
      rw [hus, List.append_assoc, List.cons_append]
    rw [hsplit, hxs] at hpeak
    rw [hxs] at hr'
    rw [Innermost.OpensSearch, Innermost.content, heq, ← List.append_assoc]
    refine leads_of_brings i.isOpening ?_ hpeak hr'
    rw [Token.Balanced, i.balanced.depth?_append]
    exact hsince
  rw [hi] at hordered
  rcases origin_of_brings isNest_start rfl hr' with
    ⟨n, hrefers, xs, w, since, hus, hcandidate, -, hn⟩ | ⟨t, rest, hvs, -, -, hspan, -⟩
  · rw [hrefers.name_eq.2, DottedName.span, DottedName.start_of_extendAll? hn,
      DottedName.ofToken, Int.ofNat_inj] at hfirst
    rw [hi, hus, List.append_assoc xs, List.cons_append] at hsplit
    obtain ⟨hxs, hw, hafter⟩ := hordered.eq_of_offset_eq hsplit hfirst.symm
    refine hpoint (w :: since) (by rw [hw, hafter]; rfl) (by rw [hus, hxs]) ?_
    rw [Token.Balanced, depth?_cons_other (not_isMark_of_isCandidate hcandidate _)
      (not_isMark_of_isCandidate hcandidate _)]
    exact balanced_of_not_isMark (DottedName.not_isMark_of_extendAll? hn)
  · rw [hspan, Token.span, Int.ofNat_inj] at hfirst
    rw [hi, hvs] at hsplit
    obtain ⟨hxs, ht, hafter⟩ := hordered.eq_of_offset_eq hsplit hfirst.symm
    exact hpoint [] (by rw [hvs, ht, hafter]; rfl) (by rw [hxs, List.append_nil]) rfl

end Scan

namespace Statement

open Token

/-- The arguments of a function, the columns of a table and the values of a list hold no tables
of their own. Where the depth limit is not reached, a group in which a reference begins starts
a subquery or is led by a token behind which groups are searched. A group right behind an
identifier is not, so that it starts a subquery. -/
theorem opensSearch_of_reference {script : String} {s : Statement} (hs : s ∈ ofScript script)
    (hdepth : peak 0 s.tokens < Scan.depthLimit) {r : Reference} (hr : r ∈ s.scan.references)
    (i : Innermost s.tokens) (hfirst : r.span.start = i.token.offset) :
    i.OpensSearch ∧
      (i.before.getLast?.any Token.isName → i.content.head?.any Scan.startsSubquery) := by
  obtain ⟨r', hr', rfl⟩ := List.mem_map.mp hr
  have hsearch := Scan.opensSearch (ordered_tokens hs) hdepth i hr' hfirst
  refine ⟨hsearch, fun hname => hsearch.resolve_right fun hleads => ?_⟩
  cases hlast : i.before.getLast? with
  | none =>
      rw [hlast] at hname
      cases hname
  | some t =>
      rw [hlast] at hname hleads
      exact Scan.not_leadsGroup_of_isName hname hleads

/-- In `SELECT f(SELECT x FROM a)`, the group around the table. -/
def argumentGroup : Innermost (Token.scanSignificant "SELECT f(SELECT x FROM a)") where
  before := [⟨.keyword .SELECT, "SELECT", 0⟩, ⟨.identifier, "f", 7⟩]
  opener := ⟨.punctuation '(', "(", 8⟩
  between := [⟨.keyword .SELECT, "SELECT", 9⟩, ⟨.identifier, "x", 16⟩, ⟨.keyword .FROM, "FROM", 18⟩]
  token := ⟨.identifier, "a", 23⟩
  after := [⟨.punctuation ')', ")", 24⟩]
  isOpening := rfl
  balanced := by decide
  split := by decide +kernel

/-- The arguments of `f` are searched because they are a subquery. -/
theorem opensSearch_argument :
    let s : Statement := ⟨0, Token.scanSignificant "SELECT f(SELECT x FROM a)"⟩
    let r : Reference := ⟨["a"], ⟨23, 24⟩, .source, 0⟩
    s ∈ ofScript "SELECT f(SELECT x FROM a)" ∧ peak 0 s.tokens < Scan.depthLimit ∧
      r ∈ s.scan.references ∧ r.span.start = argumentGroup.token.offset ∧
      argumentGroup.before.getLast?.any Token.isName ∧
      argumentGroup.content.head?.any Scan.startsSubquery := by
  intro s r
  have hmem : s ∈ ofScript "SELECT f(SELECT x FROM a)" := by decide +kernel
  have hdepth : peak 0 s.tokens < Scan.depthLimit := by decide +kernel
  have hr : r ∈ s.scan.references := by decide +kernel
  have hname : argumentGroup.before.getLast?.any Token.isName := rfl
  exact ⟨hmem, hdepth, hr, rfl, hname,
    (opensSearch_of_reference hmem hdepth hr argumentGroup rfl).2 hname⟩

end Statement

end SqlTables
