import SqlTables.Proofs.Scan.Group
import SqlTables.Proofs.Scan.Moved
import SqlTables.Proofs.Token.Order

/-!
# Subqueries are opaque

A closed subquery tells nothing of its contents to the rest of its statement: with
another subquery in its place, what is found outside it is the same, at places that
are moved as far as what comes after it (`SubqueryChange.references_outside`).

The two scans differ by such a move up to the subquery, as they cannot look into
it, and again behind it, since a closed group leaves the groups around it as they
were. In between only the words `MERGE` and `USING` could make a difference.
-/

namespace SqlTables

/-- Whether the span lies in the parentheses. -/
def TokenGroup.encloses (g : TokenGroup) (s : Span) : Bool :=
  (g.opener.offset : Int) < s.start && s.stop ≤ g.closer.stop

/-- The tokens of a group lie between those before and those after it. -/
structure TokenGroup.IsBetween (before : List Token) (g : TokenGroup) (after : List Token) :
    Prop where
  opener : g.opener.offset < g.opener.stop
  closer : g.opener.stop ≤ g.closer.offset ∧ g.closer.offset < g.closer.stop
  before : ∀ t ∈ before, t.offset < t.stop ∧ t.stop ≤ g.opener.offset
  content : ∀ t ∈ g.content ++ [g.closer], g.opener.stop ≤ t.offset ∧ t.stop ≤ g.closer.stop
  after : ∀ t ∈ after, g.closer.stop ≤ t.offset ∧ t.offset < t.stop

namespace TokenGroup.IsBetween

open Token

variable {before after : List Token} {g : TokenGroup} {s : Span}

theorem of_ordered (h : Ordered (before ++ g.tokens ++ after)) : g.IsBetween before after := by
  rw [ordered_append, ordered_append] at h
  obtain ⟨⟨hbefore, hgroup, hleft⟩, hafter, hright⟩ := h
  rw [TokenGroup.tokens, List.cons_append, ordered_cons] at hgroup
  obtain ⟨hopener, hinner, hcontent⟩ := hgroup
  have hcloser : g.closer ∈ g.content ++ [g.closer] := by simp
  have hmem : g.opener ∈ g.tokens ∧ g.closer ∈ g.tokens := by simp [TokenGroup.tokens]
  constructor
  · exact hopener
  · exact ⟨hinner g.closer hcloser, hcontent.1 g.closer hcloser⟩
  · intro t ht
    exact ⟨hbefore.1 t ht, hleft t ht g.opener hmem.1⟩
  · intro t ht
    refine ⟨hinner t ht, ?_⟩
    rw [ordered_append, ordered_cons] at hcontent
    rcases List.mem_append.mp ht with ht | ht
    · exact Nat.le_trans (hcontent.2.2 t ht g.closer List.mem_cons_self)
        (Nat.le_of_lt hcontent.2.1.1)
    · exact Nat.le_of_eq (congrArg stop (List.mem_singleton.mp ht))
  · intro t ht
    exact ⟨hright g.closer (List.mem_append_right before hmem.2) t ht, hafter.1 t ht⟩

theorem not_encloses_left (h : g.IsBetween before after)
    (hs : s.IsOver (before ++ [g.opener])) : g.encloses s = false := by
  obtain ⟨⟨t, ht, hstart⟩, -⟩ := hs
  have hle : t.offset ≤ g.opener.offset := by
    rcases List.mem_append.mp ht with ht | ht
    · exact Nat.le_of_lt (Nat.lt_of_lt_of_le (h.before t ht).1 (h.before t ht).2)
    · exact Nat.le_of_eq (congrArg offset (List.mem_singleton.mp ht))
  rw [encloses, hstart, Bool.and_eq_false_iff, decide_eq_false_iff_not]
  omega

theorem encloses_of_isOver (h : g.IsBetween before after)
    (hs : s.IsOver (g.content ++ [g.closer])) : g.encloses s := by
  obtain ⟨⟨t, ht, hstart⟩, u, hu, hstop⟩ := hs
  have hopener := h.opener
  have hle := (h.content t ht).1
  have hle' := (h.content u hu).2
  rw [encloses, hstart, hstop, Bool.and_eq_true, decide_eq_true_eq, decide_eq_true_eq]
  omega

theorem not_encloses_right (h : g.IsBetween before after) (hs : s.IsOver after) :
    g.encloses s = false := by
  obtain ⟨-, u, hu, hstop⟩ := hs
  have hlt := h.after u hu
  rw [encloses, hstop, Bool.and_eq_false_iff, decide_eq_false_iff_not, decide_eq_false_iff_not]
  omega

end TokenGroup.IsBetween

/-- The same token at another place. -/
structure Token.Displaced (shift : Int) (t u : Token) : Prop where
  kind : u.kind = t.kind
  text : u.text = t.text
  offset : (u.offset : Int) = t.offset + shift

theorem Token.Displaced.value {shift : Int} {t u : Token} (h : t.Displaced shift u) :
    u.value = t.value := by
  obtain ⟨kind, text, offset⟩ := t
  obtain ⟨kind', text', offset'⟩ := u
  obtain rfl : kind' = kind := h.kind
  obtain rfl : text' = text := h.text
  rfl

/-- A displaced token is moved by whatever moves the places from its own on that far. -/
theorem Token.Displaced.moved {shift : Int} {t u : Token} (h : t.Displaced shift u)
    {move : Int → Int} (hmove : ∀ n : Nat, t.offset ≤ n → move n = n + shift) :
    t.Moved move u := by
  have hstop : (u.stop : Int) = t.stop + shift := by
    have hlength := congrArg String.length h.text
    have hplace := h.offset
    simp only [Token.stop]
    omega
  refine ⟨h.kind, fun _ => h.value, ?_⟩
  rw [Token.span, Token.span, Change.place, Span.mk.injEq]
  exact ⟨h.offset.trans (hmove _ (Nat.le_refl _)).symm,
    hstop.trans (hmove _ (Nat.le_add_right _ _)).symm⟩

/-- A statement with a closed subquery, and the same statement with another one in
its place. -/
structure SubqueryChange where
  before : List Token
  group : TokenGroup
  group' : TokenGroup
  after : List Token
  after' : List Token
  /-- How far the change moves the tokens after the subquery. -/
  shift : Int
  opener : group'.opener = group.opener
  subquery : group.content.head?.any Scan.startsSubquery
  subquery' : group'.content.head?.any Scan.startsSubquery
  /-- Neither subquery contains a `MERGE` or a `USING`. -/
  steers : ∀ t ∈ group.content, ¬ Scan.steersMerge t
  steers' : ∀ t ∈ group'.content, ¬ Scan.steersMerge t
  displaced : List.Forall₂ (Token.Displaced shift) after after'

namespace SubqueryChange

def tokens (c : SubqueryChange) : List Token := c.before ++ c.group.tokens ++ c.after

def tokens' (c : SubqueryChange) : List Token := c.before ++ c.group'.tokens ++ c.after'

/-- Where a place outside the subquery is after the change. -/
def move (c : SubqueryChange) (place : Int) : Int :=
  if place ≤ c.group.opener.stop then place else place + c.shift

/-- What is found outside the subquery. -/
def outside (c : SubqueryChange) (index : Nat) : List Reference :=
  (Statement.mk index c.tokens).scan.references.filter fun r => !c.group.encloses r.span

/-- What is found outside the other subquery, after the change. -/
def outside' (c : SubqueryChange) (index : Nat) : List Reference :=
  (Statement.mk index c.tokens').scan.references.filter fun r => !c.group'.encloses r.span

end SubqueryChange

namespace Scan

open Token

variable {limit : Nat} {s s' : Scan} {move : Int → Int} {ts us : List Token}

/-! ## Over the subquery -/

theorem startsSubquery_append {xs : List Token} (h : xs.head?.any startsSubquery)
    (ys : List Token) : (xs ++ ys).head?.any startsSubquery := by
  cases xs with
  | nil => cases h
  | cons x xs => exact h

theorem not_steersMerge_of_isMark {t : Token} {c : Char} (h : t.isMark c) :
    ¬ steersMerge t := by
  rw [steersMerge, Bool.or_eq_true]
  rintro (hk | hk)
  · exact not_isMark_of_isKeyword hk c h
  · exact not_isMark_of_isKeyword hk c h

theorem not_steersMerge_of_mem {g : TokenGroup} (h : ∀ t ∈ g.content, ¬ steersMerge t) :
    ∀ t ∈ g.tokens, ¬ steersMerge t := by
  intro t ht
  rw [TokenGroup.tokens, List.cons_append, List.mem_cons, List.mem_append,
    List.mem_singleton] at ht
  rcases ht with rfl | ht | rfl
  · exact not_steersMerge_of_isMark g.isOpening
  · exact h t ht
  · exact not_steersMerge_of_isMark g.isClosing

/-- No join tree is opened before a word that starts a subquery. -/
theorem kind_of_enter {t : Token} {body : Body} (hts : ts.head?.any startsSubquery)
    (h : (s.outcome limit t ts).action = .enter body) : body.kind ≠ .joinTree := by
  cases enters_of_enter h with
  | expression scope => exact Surroundings.kind_expression _ scope
  | subquery scope => exact Surroundings.kind_subquery _ scope
  | operand q =>
      rw [Query.operandGroup, if_pos hts]
      split
      · exact GroupKind.noConfusion
      · exact GroupKind.noConfusion

/-- The group around a closed subquery is as its opening parenthesis left it. -/
theorem advance_subquery (limit : Nat) (ts : List Token) (g : TokenGroup)
    (hs : IsNest s.top s.below) (hg : g.content.head?.any startsSubquery) :
    (s.advance limit ts g.tokens).below = s.below ∧
      (s.advance limit ts g.tokens).top.opener = s.top.opener ∧
      (s.advance limit ts g.tokens).top.body =
        match s.top.body with
        | .flat f => .flat ⟨f.scope, f.depth, false, none⟩
        | _ => (s.outcome limit g.opener (g.content ++ g.closer :: ts)).body := by
  have hgroup (hflat : s.top.body.kind ≠ .flat) :=
    advance_group limit ts hs g.isOpening g.isClosing g.balanced hflat fun body h =>
      kind_of_enter (startsSubquery_append hg _) h
  cases hbody : s.top.body with
  | query q =>
      refine hgroup ?_
      rw [hbody, Body.kind]
      split
      · exact GroupKind.noConfusion
      · exact GroupKind.noConfusion
  | expression scope =>
      refine hgroup ?_
      rw [hbody]
      exact GroupKind.noConfusion
  | flat f => exact advance_group_flat limit ts hbody g.isOpening g.isClosing g.balanced

theorem comparison_group (limit : Nat) (s : Scan) (ts : List Token) (g : TokenGroup) :
    (s.advance limit ts g.tokens).comparison = .none := by
  rw [TokenGroup.tokens, advance_append, advance_cons, advance_nil, comparison_step,
    comparison_next_of_isMark g.isClosing]

/-- Two scans that differ by a move go on to do so over different subqueries. -/
theorem moved_group (limit : Nat) {g g' : TokenGroup} (h : s.Moved move s')
    (hd : s.Orderly (g.tokens ++ ts)) (hs' : IsNest s'.top s'.below)
    (hopener : g.opener.Moved move g'.opener) (halike : Alike ts us)
    (hg : g.content.head?.any startsSubquery) (hg' : g'.content.head?.any startsSubquery)
    (hsteers : ∀ t ∈ g.content, ¬ steersMerge t)
    (hsteers' : ∀ t ∈ g'.content, ¬ steersMerge t) :
    (s.advance limit ts g.tokens).Moved move (s'.advance limit us g'.tokens) := by
  obtain ⟨hbelow, hopen, hbody⟩ := advance_subquery limit ts g hd.nest hg
  obtain ⟨hbelow', hopen', hbody'⟩ := advance_subquery limit us g' hs' hg'
  have hsight : SameSight (g.content ++ g.closer :: ts) (g'.content ++ g'.closer :: us) :=
    sameSight_of_startsSubquery (startsSubquery_append hg _) (startsSubquery_append hg' _)
  have houtcome := outcome_changed limit h hopener hsight fun hcreating => by
    rw [g.tokens_append] at hd
    refine hd.hasQueryBody ?_ hcreating
    rw [← g.tokens_append, ← g'.tokens_append]
    exact .group g g' halike
  constructor
  · refine ⟨by rw [hopen, hopen', h.top.opener], ?_⟩
    rw [hbody, hbody']
    have htop := h.top.body
    have hafter := houtcome.body
    generalize s.top.body = b at htop ⊢
    generalize s'.top.body = b' at htop ⊢
    cases htop with
    | query q hq => exact hafter
    | expression scope => exact hafter
    | flat f hread => exact Body.changed_self rfl
  · rw [hbelow, hbelow']
    exact h.below
  · rw [merging_advance (not_steersMerge_of_mem hsteers),
      merging_advance (not_steersMerge_of_mem hsteers'), h.merging]
  · rw [comparison_group, comparison_group]

/-! ## Outside the subquery -/

/-- What is found around a group, in the order in which it is found. -/
theorem gather_around (limit : Nat) (before after : List Token) (g : TokenGroup) :
    start.gather limit [] (before ++ g.tokens ++ after) =
      start.gather limit (g.content ++ g.closer :: after) (before ++ [g.opener]) ++
        (start.advance limit (g.content ++ g.closer :: after) (before ++ [g.opener])).gather
          limit after (g.content ++ [g.closer]) ++
        (start.advance limit after (before ++ g.tokens)).gather limit [] after := by
  have hsplit : before ++ g.tokens = before ++ [g.opener] ++ (g.content ++ [g.closer]) := by
    simp [TokenGroup.tokens]
  have hafter : g.content ++ [g.closer] ++ after = g.content ++ g.closer :: after := by simp
  rw [gather_append, List.append_nil, hsplit, gather_append, hafter]

theorem pending?_advance_of_isMark (limit : Nat) (after xs : List Token) {t : Token} {c : Char}
    (ht : t.isMark c) (hc : c ≠ '.') :
    (start.advance limit after (xs ++ [t])).pending? = none := by
  rw [advance_append]
  exact pending?_step_of_isMark (isNest_advance limit _ xs isNest_start) ht hc

/-- What is found outside a group is what is found up to it and what is found behind
it. -/
theorem filter_encloses_find (limit : Nat) {before after : List Token} {g : TokenGroup}
    (horder : Ordered (before ++ g.tokens ++ after)) :
    ((find limit (before ++ g.tokens ++ after)).references.filter
        fun r => !g.encloses r.span) =
      start.gather limit (g.content ++ g.closer :: after) (before ++ [g.opener]) ++
        ((start.advance limit after (before ++ g.tokens)).gather limit [] after ++
          ((start.advance limit after (before ++ g.tokens)).advance limit [] after).remainder) := by
  have hbetween := TokenGroup.IsBetween.of_ordered horder
  have hnest (after xs : List Token) := isNest_advance limit after xs isNest_start
  have hpending := pending?_advance_of_isMark limit (g.content ++ g.closer :: after) before
    g.isOpening (by decide)
  have hpending' : (start.advance limit after (before ++ g.tokens)).pending? = none := by
    rw [TokenGroup.tokens, ← List.append_assoc]
    exact pending?_advance_of_isMark limit after _ g.isClosing (by decide)
  rw [find_references, gather_around, advance_append limit [] start (before ++ g.tokens),
    List.append_nil, List.filter_append, List.filter_append, List.filter_append]
  have hleft : (start.gather limit (g.content ++ g.closer :: after)
      (before ++ [g.opener])).filter (fun r => !g.encloses r.span) = _ :=
    List.filter_eq_self.mpr fun r hr => by
      rw [hbetween.not_encloses_left (isOver_of_mem_gather isNest_start rfl hr), Bool.not_false]
  have hinside : ((start.advance limit (g.content ++ g.closer :: after)
      (before ++ [g.opener])).gather limit after (g.content ++ [g.closer])).filter
        (fun r => !g.encloses r.span) = [] :=
    List.filter_eq_nil_iff.mpr fun r hr => by
      rw [hbetween.encloses_of_isOver (isOver_of_mem_gather (hnest _ _) hpending hr)]
      simp
  have hright : ((start.advance limit after (before ++ g.tokens)).gather limit [] after).filter
      (fun r => !g.encloses r.span) = _ :=
    List.filter_eq_self.mpr fun r hr => by
      rw [hbetween.not_encloses_right (isOver_of_mem_gather (hnest _ _) hpending' hr),
        Bool.not_false]
  have hend : ((start.advance limit after (before ++ g.tokens)).advance limit []
      after).remainder.filter (fun r => !g.encloses r.span) = _ :=
    List.filter_eq_self.mpr fun r hr => by
      rw [hbetween.not_encloses_right (isOver_of_mem_remainder (hnest _ _) hpending' hr),
        Bool.not_false]
  rw [hleft, hinside, hright, hend, List.append_nil, List.append_assoc]

end Scan

namespace SubqueryChange

open Scan

theorem moved_of_le {t : Token} (c : SubqueryChange) (hoffset : t.offset ≤ c.group.opener.stop)
    (hstop : t.stop ≤ c.group.opener.stop) : t.Moved c.move t := by
  refine ⟨rfl, fun _ => rfl, ?_⟩
  change t.span = t.span.map c.move
  have hfixed {n : Nat} (h : n ≤ c.group.opener.stop) : c.move n = n :=
    if_pos (Int.ofNat_le.mpr h)
  rw [Token.span, Span.map, hfixed hoffset, hfixed hstop]

/-- The tokens outside the subquery are the same, each at its place moved. -/
theorem moved_tokens (c : SubqueryChange) (h : c.group.IsBetween c.before c.after) :
    List.Forall₂ (Token.Moved c.move) c.before c.before ∧
      c.group.opener.Moved c.move c.group'.opener ∧
      List.Forall₂ (Token.Moved c.move) c.after c.after' := by
  refine ⟨List.forall₂_same.mpr fun t ht => ?_, ?_, ?_⟩
  · have hbefore := h.before t ht
    have hopener := h.opener
    exact c.moved_of_le (by omega) (by omega)
  · rw [c.opener]
    exact c.moved_of_le (Nat.le_of_lt h.opener) (Nat.le_refl _)
  · have hafter := h.after
    have hdisplaced := c.displaced
    generalize c.after = xs at hafter hdisplaced ⊢
    generalize c.after' = ys at hdisplaced ⊢
    induction hdisplaced with
    | nil => exact .nil
    | cons ht _ ih =>
        rw [List.forall_mem_cons] at hafter
        have hcloser := h.closer
        exact .cons (ht.moved fun n hn => if_neg (by omega)) (ih hafter.2)

theorem alike_after (c : SubqueryChange) : Alike c.after c.after' := by
  have halike := Alike.of_forall₂ (c.displaced.imp fun _ _ h => h.kind) .nil
  rwa [List.append_nil, List.append_nil] at halike

/-- Outside the subquery, a scan with any depth limit finds the same. -/
theorem find_outside (c : SubqueryChange) (limit : Nat)
    (horder : Token.Ordered c.tokens) (horder' : Token.Ordered c.tokens')
    (hcloses : (Token.depth? 0 c.tokens).isSome) (hcreates : CreatesOutside 0 c.tokens) :
    ((find limit c.tokens').references.filter fun r => !c.group'.encloses r.span) =
      ((find limit c.tokens).references.filter fun r => !c.group.encloses r.span).map
        (Reference.map c.move) := by
  obtain ⟨hbefore, hopener, hafter⟩ := c.moved_tokens (.of_ordered horder)
  have hstart : start.Orderly (c.before ++ (c.group.tokens ++ c.after)) := by
    rw [← List.append_assoc]
    exact orderly_start hcloses hcreates
  have halike : Alike (c.group.tokens ++ c.after) (c.group'.tokens ++ c.after') :=
    .group _ _ c.alike_after
  have hsight : SameSight (c.group.content ++ c.group.closer :: c.after)
      (c.group'.content ++ c.group'.closer :: c.after') :=
    sameSight_of_startsSubquery (startsSubquery_append c.subquery _)
      (startsSubquery_append c.subquery' _)
  have hopened (g : TokenGroup) (ts : List Token) :
      [g.opener] ++ (g.content ++ g.closer :: ts) = g.tokens ++ ts := (g.tokens_append ts).symm
  have hreached := changed_advance limit hbefore halike (start_moved c.move) hstart
  have horderly := orderly_advance limit hstart
  have hleft : start.gather limit (c.group'.content ++ c.group'.closer :: c.after')
      (c.before ++ [c.group'.opener]) =
      (start.gather limit (c.group.content ++ c.group.closer :: c.after)
        (c.before ++ [c.group.opener])).map (Reference.map c.move) := by
    have hfound := found_moved limit hreached hopener hsight
      (by rwa [c.group.tokens_append, c.group'.tokens_append] at halike)
      (by rwa [c.group.tokens_append] at horderly ⊢)
    rw [gather_append, gather_append, hopened, hopened, gather_singleton, gather_singleton,
      List.map_append, hfound, gather_moved limit hbefore halike (start_moved c.move) hstart]
  have hbehind := moved_group limit hreached horderly (isNest_advance limit _ _ isNest_start)
    hopener c.alike_after c.subquery c.subquery' c.steers c.steers'
  rw [← advance_append, ← advance_append] at hbehind
  have hright : (start.advance limit c.after (c.before ++ c.group.tokens)).Orderly
      (c.after ++ []) := by
    rw [List.append_nil, advance_append]
    exact orderly_advance limit horderly
  rw [tokens, tokens', filter_encloses_find limit horder, filter_encloses_find limit horder',
    hleft, List.map_append, List.map_append, gather_moved limit hafter .nil hbehind hright,
    remainder_moved (changed_advance limit hafter .nil hbehind hright)]

/-- With another subquery in the place of a closed one, a statement finds the same
outside it, moved to where it stands then. No `)` may be unmatched, and no `CREATE`
may stand in parentheses, as it would look for its query past the subquery. The
tokens of a script are always in order (`Statement.ordered_tokens`). -/
theorem references_outside (c : SubqueryChange) (index : Nat)
    (horder : Token.Ordered c.tokens) (horder' : Token.Ordered c.tokens')
    (hcloses : (Token.depth? 0 c.tokens).isSome) (hcreates : CreatesOutside 0 c.tokens) :
    c.outside' index = (c.outside index).map (Reference.map c.move) := by
  have hfind := c.find_outside depthLimit horder horder' hcloses hcreates
  have hscan (tokens : List Token) (g : TokenGroup) :
      ((Statement.mk index tokens).scan.references.filter fun r => !g.encloses r.span) =
        ((find depthLimit tokens).references.filter fun r => !g.encloses r.span).map
          fun r => { r with statement := index } := by
    rw [Statement.scan, List.filter_map]
    rfl
  rw [outside', outside, hscan, hscan, hfind, List.map_map, List.map_map]
  rfl

/-- In `CREATE TABLE n AS SELECT * FROM (SELECT 1) x, a`, the subquery becomes one that
names what it reads `a` as well: `(WITH a AS (SELECT 1) SELECT * FROM a)`. -/
def cte : SubqueryChange where
  before := (Lexer.scanFrom 0 0 "CREATE TABLE n AS SELECT * FROM ".toList).filter
    Token.isSignificant
  group :=
    { opener := ⟨.punctuation '(', "(", 32⟩
      content := (Lexer.scanFrom 33 0 "SELECT 1".toList).filter Token.isSignificant
      closer := ⟨.punctuation ')', ")", 41⟩
      isOpening := by decide
      isClosing := by decide
      balanced := by decide +kernel }
  group' :=
    { opener := ⟨.punctuation '(', "(", 32⟩
      content := (Lexer.scanFrom 33 0 "WITH a AS (SELECT 1) SELECT * FROM a".toList).filter
        Token.isSignificant
      closer := ⟨.punctuation ')', ")", 69⟩
      isOpening := by decide
      isClosing := by decide
      balanced := by decide +kernel }
  after := [⟨.identifier, "x", 43⟩, ⟨.punctuation ',', ",", 44⟩, ⟨.identifier, "a", 46⟩]
  after' := [⟨.identifier, "x", 71⟩, ⟨.punctuation ',', ",", 72⟩, ⟨.identifier, "a", 74⟩]
  shift := 28
  opener := rfl
  subquery := by decide +kernel
  subquery' := by decide +kernel
  steers := by decide +kernel
  steers' := by decide +kernel
  displaced := .cons ⟨rfl, rfl, rfl⟩ (.cons ⟨rfl, rfl, rfl⟩ (.cons ⟨rfl, rfl, rfl⟩ .nil))

/-- A name that is bound in a subquery is that of a table outside it. -/
theorem references_outside_cte :
    Token.Ordered cte.tokens ∧ Token.Ordered cte.tokens' ∧
      (Token.depth? 0 cte.tokens).isSome ∧ CreatesOutside 0 cte.tokens ∧
      cte.outside' 0 = (cte.outside 0).map (Reference.map cte.move) := by
  have horder : Token.Ordered cte.tokens := by decide +kernel
  have horder' : Token.Ordered cte.tokens' := by decide +kernel
  have hcloses : (Token.depth? 0 cte.tokens).isSome := by decide +kernel
  have hcreates : CreatesOutside 0 cte.tokens := by decide +kernel
  exact ⟨horder, horder', hcloses, hcreates,
    cte.references_outside 0 horder horder' hcloses hcreates⟩

end SubqueryChange

end SqlTables
