import SqlTables.Proofs.Plain.State

/-!
# How plain statements are read

The scan names exactly the tables of a plain statement, in the order in which they stand
(`PlainStatement.tableNames_tokens`). `IsRead` says for each kind of phrase from which
states it is read and in which state it leaves the scan; every production of the grammar
keeps it (`Plain.Phrase.isRead`).
-/

namespace SqlTables

namespace Plain

open Scan Token

variable {ctes pool visible : List String} {limit depth : Nat} {site : Site} {s : Scan}
  {t o c : Token} {after xs ys zs : List Token} {found found' : List String} {ms : List Mention}
  {mode : Mode} {names : Names} {ground : Ground} {follow : Follow}

/-- Phrases of a kind are read wherever one may stand, and name the tables `found`. -/
def IsRead (pool : List String) (limit depth : Nat) (visible : List String) (xs : List Token)
    (found : List String) (part : Part) : Prop :=
  ∀ (site : Site) (after : List Token) (s : Scan), site.below.length + depth < limit →
    site.base.Sees pool visible →
    match part with
    | .expression ground =>
      Rests pool visible site ground s →
        Reads limit after s xs (Rests pool visible site ground) found
    | .list =>
      Rests pool visible site .clause s →
        Reads limit after s xs (Rests pool visible site .clause) found
    | .source =>
      ∀ follow, Stands pool visible site (· = .operand follow) s →
        Reads limit after s xs (Stands pool visible site (TableEnd follow)) found
    | .sources =>
      Stands pool visible site (· = .operand .list) s →
        Reads limit after s xs (Stands pool visible site (TableEnd .list)) found
    | .joins | .filter | .branches =>
      Stands pool visible site Ended s →
        Reads limit after s xs (Stands pool visible site Ended) found
    | .clauses =>
      Rests pool visible site .clause s →
        Reads limit after s xs (Stands pool visible site Ended) found
    | .selects =>
      ∀ mode, s.AtQuery site.opener site.below site.base [] mode → Begins mode →
        Reads limit after s xs (Stands pool visible site Ended) found
    | .definitions =>
      ∀ clause first, s.AtQuery site.opener site.below site.base [] (.cteName clause first) →
        Reads limit after s xs (IsDone site) found
    | .query =>
      ∀ mode, s.AtQuery site.opener site.below site.base [] mode → Begins mode →
        Reads limit after s xs (IsDone site) found

/-! ## Expressions -/

theorem reads_idle (h : Stands pool visible site Idles s)
    (ht : isIdle t) :
    Reads limit after s [t]
      (fun s' => Stands pool visible site Idles s' ∧
        s'.comparison = s.comparison.next t) [] := by
  obtain ⟨names, mode, hat, ⟨fresh, rfl⟩, hsees⟩ := h
  have hopen : ¬ t.isMark '(' := by
    simp only [isIdle, Bool.and_eq_true, Bool.not_eq_true'] at ht
    simp [ht.1.1]
  exact (hat.reads_token (hat.step_idle limit after ht) hopen Bool.false_ne_true
    Bool.false_ne_true rfl).mono fun s' h => ⟨⟨names, _, h.1, ⟨false, rfl⟩, hsees⟩, h.2⟩

theorem reads_operand (h : Rests pool visible site ground s) (ht : ground.admits t) :
    Reads limit after s [t] (Rests pool visible site ground) [] := by
  cases ground with
  | clause =>
      obtain ⟨hidle, hdistinct⟩ := isIdle_of_admits ht
      exact (reads_idle h.1 hidle).mono fun s' h' => rests_of_stands h'.1 h'.2 hdistinct
  | parentheses =>
      obtain ⟨hopener, hbelow, scope, hbody, hsees⟩ := h
      simp only [Ground.admits, Bool.and_true, Bool.and_eq_true, Bool.not_eq_true'] at ht
      exact (reads_expression hbody limit after (by simp [ht.1]) (by simp [ht.2])).mono
        fun s' h' => ⟨h'.2.1.trans hopener, h'.2.2.trans hbelow, scope, h'.1, hsees⟩

/-- The word `FROM` of a comparison brings no tables. -/
theorem reads_distinct {word source : Token} (h : Rests pool visible site .clause s)
    (ht : t.isAnyKeyword [.IS, .NOT]) (hword : word.isKeyword .DISTINCT)
    (hsource : source.isKeyword .FROM) :
    Reads limit after s [t, word, source] (Rests pool visible site .clause) [] := by
  have hkind := kind_of_isKeyword hsource
  refine (reads_idle h.1 (isIdle_of_isAnyKeyword ht (by decide))).cons fun s₁ h₁ => ?_
  have hstarted : s₁.comparison = .started := by
    rw [h₁.2, Comparison.next, if_pos ht]
  refine (reads_idle h₁.1 (isIdle_of_isKeyword hword (by decide))).cons fun s₂ h₂ => ?_
  have hcomplete : s₂.comparison = .complete := by
    rw [h₂.2, Comparison.next, if_neg (by simp [isAnyKeyword, kind_of_isKeyword hword]),
      if_pos ⟨hstarted, hword⟩]
  obtain ⟨names, mode, hat, ⟨fresh, rfl⟩, hsees⟩ := h₂.1
  have hstep : (Query.top site.base names (.clauses fresh)).step (s₂.surroundings limit) source
      after = { body := .query (.top site.base names (.clauses false)) } := by
    change Query.clauseStep _ _ fresh source after = _
    simp only [Query.clauseStep, hkind]
    rw [if_pos (show (s₂.surroundings limit).comparison = .complete from hcomplete)]
    rfl
  have hdistinct : ¬ source.isKeyword .DISTINCT := by simp [isKeyword, hkind]
  exact (hat.reads_token (hat.step_of_eq hstep) (not_isMark_of_isKeyword hsource '(')
    Bool.false_ne_true Bool.false_ne_true rfl).mono fun s₃ h₃ =>
      rests_of_stands ⟨names, _, h₃.1, ⟨false, rfl⟩, hsees⟩ h₃.2 hdistinct

/-! ## Groups -/

theorem full_eq_false {below : List Frame} (hbelow : s.below = below)
    (hroom : below.length + 1 < limit) : (s.surroundings limit).full = false := by
  simp only [surroundings, hbelow, decide_eq_false_iff_not]
  omega

/-- A parenthesis in an expression opens a group, and the expression goes on behind it. -/
theorem Rests.outcome_open (h : Rests pool visible site ground s) (ho : o.isMark '(')
    (hroom : site.below.length + 1 < limit) (rest : List Token) :
    ∃ body scope,
      s.outcome limit o rest =
        { body, action := .enter (if rest.head?.any startsSubquery then .query (.inside scope)
            else .expression scope) } ∧
      body.isSuspended ∧ s.pending? = none ∧ scope.Sees pool visible ∧
      s.top.opener = site.opener ∧ s.below = site.below ∧
      ∀ s' : Scan, s'.top.body = body → s'.top.opener = site.opener → s'.below = site.below →
        s'.comparison = .none → Rests pool visible site ground s' := by
  have hkind := kind_of_isMark ho
  cases ground with
  | clause =>
      obtain ⟨⟨names, mode, hat, ⟨fresh, rfl⟩, hsees⟩, -⟩ := h
      have hfull := full_eq_false hat.below hroom
      refine ⟨.query (.top site.base names (.clauses false)), names :: site.base, ?_, rfl,
        hat.pending?, hsees, hat.opener, hat.below, fun s' hbody hopener hbelow hcomparison =>
          ⟨⟨names, _, ⟨hbody, hbelow, hopener⟩, ⟨false, rfl⟩, hsees⟩, ?_⟩⟩
      · rw [outcome_query hat.body]
        change Query.clauseStep _ _ fresh o rest = _
        simp only [Query.clauseStep, hkind, Surroundings.subquery, Surroundings.expression, hfull,
          Bool.false_eq_true, if_false]
        rfl
      · rw [hcomparison]
        exact Comparison.noConfusion
  | parentheses =>
      obtain ⟨hopener, hbelow, scope, hbody, hsees⟩ := h
      have hfull := full_eq_false hbelow hroom
      refine ⟨.expression scope, scope, ?_, rfl, by rw [Scan.pending?, hbody]; rfl, hsees, hopener,
        hbelow, fun s' hbody' hopener' hbelow' _ => ⟨hopener', hbelow', scope, hbody', hsees⟩⟩
      simp only [outcome, hbody, ho, if_true, Surroundings.subquery, Surroundings.expression, hfull,
        Bool.false_eq_true, if_false]

/-- A subquery is read as a query of its own. -/
theorem reads_subquery {body : Body} {scope : Scope} (ho : o.isMark '(') (hc : c.isMark ')')
    (hinner : IsRead pool limit depth visible xs found .query)
    (houtcome : s.outcome limit o (xs ++ c :: after) =
      { body, action := .enter (.query (.inside scope)) })
    (hsuspended : body.isSuspended) (hs : s.pending? = none)
    (hroom : s.below.length + (depth + 1) < limit) (hscope : scope.Sees pool visible) :
    Reads limit after s (o :: xs ++ [c])
      (fun s' => s'.top.body = body ∧ s'.top.opener = s.top.opener ∧ s'.below = s.below ∧
        s'.comparison = .none) found := by
  refine reads_group ho hc houtcome hsuspended hs rfl fun s₁ around hbody hopener hbelow _ => ?_
  have hread := hinner ⟨some o.span, around :: s.below, scope.child⟩ (c :: after) s₁
    (by simp only [List.length_cons]; omega) hscope.child (.clauses true) ⟨hbody, hbelow, hopener⟩
    (.branch (.clauses true))
  refine hread.mono fun s' hdone => ?_
  obtain ⟨base, names, mode, hat, hmode⟩ := hdone
  exact ⟨hat.below, hat.closesAt limit after hc hmode.settled.creating hmode.not_isDefining⟩

/-- A group that is no query is passed over. -/
theorem reads_parens {body : Body} {scope : Scope} (ho : o.isMark '(') (hc : c.isMark ')')
    (hinner : IsRead pool limit depth visible xs found (.expression .parentheses))
    (houtcome : s.outcome limit o (xs ++ c :: after) =
      { body, action := .enter (.expression scope) })
    (hsuspended : body.isSuspended) (hs : s.pending? = none)
    (hroom : s.below.length + (depth + 1) < limit) (hscope : scope.Sees pool visible) :
    Reads limit after s (o :: xs ++ [c])
      (fun s' => s'.top.body = body ∧ s'.top.opener = s.top.opener ∧ s'.below = s.below ∧
        s'.comparison = .none) found := by
  refine reads_group ho hc houtcome hsuspended hs rfl fun s₁ around hbody hopener hbelow _ => ?_
  have hread := hinner ⟨some o.span, around :: s.below, scope⟩ (c :: after) s₁
    (by simp only [List.length_cons]; omega) hscope ⟨hopener, hbelow, scope, hbody, hscope⟩
  refine hread.mono fun s' hrests => ?_
  obtain ⟨-, hbelow', scope', hbody', -⟩ := hrests
  exact ⟨hbelow', closesAt_expression hbody' limit after hc⟩

theorem isRead_subquery (ho : o.isMark '(') (hc : c.isMark ')')
    (hhead : xs.head?.any startsSubquery)
    (hinner : IsRead pool limit depth visible xs found .query)
    (hrest : IsRead pool limit (depth + 1) visible ys found' (.expression ground)) :
    IsRead pool limit (depth + 1) visible (o :: xs ++ [c] ++ ys) (found ++ found')
      (.expression ground) := by
  intro site after s hroom hbase h
  obtain ⟨body, scope, houtcome, hsuspended, hs, hscope, hopener, hbelow, hback⟩ :=
    h.outcome_open ho (show _ + 1 < limit by omega) (xs ++ c :: (ys ++ after))
  rw [if_pos (startsSubquery_append hhead _)] at houtcome
  refine (reads_subquery ho hc hinner houtcome hsuspended hs (by rw [hbelow]; exact hroom)
    hscope).append fun s₁ h₁ => ?_
  exact hrest site after s₁ hroom hbase
    (hback s₁ h₁.1 (h₁.2.1.trans hopener) (h₁.2.2.1.trans hbelow) h₁.2.2.2)

theorem isRead_parens (ho : o.isMark '(') (hc : c.isMark ')')
    (hhead : ¬ xs.head?.any startsSubquery)
    (hinner : IsRead pool limit depth visible xs found (.expression .parentheses))
    (hrest : IsRead pool limit (depth + 1) visible ys found' (.expression ground)) :
    IsRead pool limit (depth + 1) visible (o :: xs ++ [c] ++ ys) (found ++ found')
      (.expression ground) := by
  intro site after s hroom hbase h
  obtain ⟨body, scope, houtcome, hsuspended, hs, hscope, hopener, hbelow, hback⟩ :=
    h.outcome_open ho (show _ + 1 < limit by omega) (xs ++ c :: (ys ++ after))
  have hnot : ¬ (xs ++ c :: (ys ++ after)).head?.any startsSubquery := by
    cases xs with
    | nil => simp [startsSubquery, isAnyKeyword, kind_of_isMark hc]
    | cons x xs => exact hhead
  rw [if_neg hnot] at houtcome
  refine (reads_parens ho hc hinner houtcome hsuspended hs (by rw [hbelow]; exact hroom)
    hscope).append fun s₁ h₁ => ?_
  exact hrest site after s₁ hroom hbase
    (hback s₁ h₁.1 (h₁.2.1.trans hopener) (h₁.2.2.1.trans hbelow) h₁.2.2.2)

/-! ## Tables -/

/-- A name of a table is read to its end, whatever it is read for. -/
theorem reads_tableName {opener : Option Span} {below : List Frame} {base : Scope}
    {purpose : Purpose} {n : TableName} (h : s.AtQuery opener below base names mode)
    (hmode : mode.pending? = none)
    (hfirst : (s.step limit n.first ((n.parts.flatMap fun p => [p.1, p.2]) ++ after)).AtQuery
      opener below base names (.name purpose (.ofToken n.first))) :
    Reads limit after s n.tokens
      (AtQuery opener below base names (.name purpose n.read))
      (Reference.tableNames (Query.top base names (.name purpose n.read)).settle.1) := by
  have hs := h.pending?.trans hmode
  have hread := hfirst.advance_extend limit after n.extendAll?_read
  refine ⟨hread, ?_⟩
  rw [owed_of_pending?_eq_none hs, TableName.tokens, tableNames_gather_cons hs,
    hfirst.gather_extend limit after n.extendAll?_read, advance_cons, owed, hread.body]
  rfl

/-- A name where a table is expected is owed if it is that of a table. -/
theorem reads_name {n : TableName} (h : Stands pool visible site (· = .operand follow) s)
    (hvisible : n.isUse ctes → n.isUse visible) (hfits : (Mention.table n).Fits ctes pool) :
    Reads limit after s n.tokens
      (Stands pool visible site fun mode => mode = .name (.operand follow) n.read)
      (if n.isUse ctes then [] else [n.read.text]) := by
  obtain ⟨names, mode, hat, rfl, hsees⟩ := h
  have hreference := tableNames_reference
    (q := .top site.base names (.name (.operand follow) n.read)) hsees hvisible hfits
  rw [← hreference]
  exact (reads_tableName hat rfl (hat.step_candidate limit _ n.candidate)).mono fun s' h' =>
    ⟨names, _, h', rfl, hsees⟩

theorem reads_alias (h : Stands pool visible site (AwaitsAlias follow) s) (a : TableAlias)
    (hfits : (Mention.aliased a.name).Fits ctes pool) :
    Reads limit after s a.tokens (Stands pool visible site (TableEnd follow)) [] := by
  obtain ⟨names, mode, hat, hmode, hsees⟩ := h
  have hsettled := settled_of_awaitsAlias hmode
  have hsees' : Scope.Sees pool visible (names.define a.name.value .aliasDefinition :: site.base) :=
    hsees.define hfits rfl
  have hname {s' : Scan} {mode' : Mode}
      (hat : s'.AtQuery site.opener site.below site.base names mode')
      (hsettled : Settled mode') (hmode : mode' = .alias follow ∨ AwaitsAlias follow mode') :
      Reads limit after s' [a.name] (Stands pool visible site (TableEnd follow)) [] :=
    (reads_settled hat hsettled (not_isMark_of_isName a.isName '(')
      (not_isMark_of_isName a.isName '.') (hat.step_alias limit after hmode a.isName) rfl).mono
      fun s₁ h₁ => ⟨_, _, h₁.1, .columns, hsees'⟩
  rw [TableAlias.tokens]
  cases hword : a.word with
  | none => exact hname hat hsettled (Or.inr hmode)
  | some word =>
      have has := a.isAs word hword
      refine (reads_settled hat hsettled (not_isMark_of_isKeyword has '(')
        (not_isMark_of_isKeyword has '.') (hat.step_as limit ([a.name] ++ after) hmode has
          (by simpa using a.isName)) rfl).cons fun s₁ h₁ => ?_
      exact hname h₁.1 (settled_of_pending? rfl Bool.false_ne_true) (Or.inl rfl)

theorem isRead_table {r : AliasedTable} (hvisible : r.name.isUse ctes → r.name.isUse visible)
    (hfits : ∀ m ∈ .table r.name :: aliasMention r, m.Fits ctes pool) :
    IsRead pool limit depth visible r.tokens (texts ctes (.table r.name :: aliasMention r))
      .source := by
  intro site after s hroom hbase follow h
  rw [List.forall_mem_cons] at hfits
  have htexts : texts ctes (.table r.name :: aliasMention r) =
      if r.name.isUse ctes then [] else [r.name.read.text] := by
    have hnothing : texts ctes (aliasMention r) = [] := by
      rw [aliasMention]
      cases r.alias <;> rfl
    rw [← List.singleton_append, texts_append, hnothing, List.append_nil, texts, sources, tables]
    cases huse : r.name.isUse ctes <;> simp [huse]
  rw [htexts, AliasedTable.tokens, ← List.append_nil (ite _ _ _)]
  refine (reads_name h hvisible hfits.1).append fun s₁ h₁ => ?_
  obtain ⟨names, mode, hat, rfl, hsees⟩ := h₁
  cases halias : r.alias with
  | none => exact .nil ⟨names, _, hat, .name _ rfl, hsees⟩
  | some a =>
      refine reads_alias ⟨names, _, hat, .name _ rfl, hsees⟩ a (hfits.2 _ ?_)
      simp [aliasMention, halias]

theorem isRead_derived {a : TableAlias} (ho : o.isMark '(') (hc : c.isMark ')')
    (hhead : xs.head?.any startsSubquery)
    (hinner : IsRead pool limit depth visible xs found .query)
    (hfits : (Mention.aliased a.name).Fits ctes pool) :
    IsRead pool limit (depth + 1) visible (o :: xs ++ [c] ++ a.tokens) found .source := by
  intro site after s hroom hbase follow h
  obtain ⟨names, mode, hat, rfl, hsees⟩ := h
  have houtcome : s.outcome limit o (xs ++ c :: (a.tokens ++ after)) =
      { body := .query (.top site.base names (.operandEnd follow)),
        action := .enter (.query (.inside (names :: site.base))) } := by
    rw [outcome_query hat.body]
    change Query.operandStep _ _ follow o _ = _
    rw [Query.operandStep, if_neg fun hk => not_isMark_of_isKeyword hk '(' ho, if_pos ho,
      Query.operandGroup, full_eq_false hat.below (by omega), if_neg Bool.false_ne_true,
      if_pos (startsSubquery_append hhead _)]
    rfl
  rw [← List.append_nil found]
  refine (reads_subquery ho hc hinner houtcome rfl hat.pending? (by rw [hat.below]; exact hroom)
    hsees).append fun s₁ h₁ => ?_
  obtain ⟨hbody, hopener, hbelow, -⟩ := h₁
  exact reads_alias ⟨names, _, ⟨hbody, hbelow.trans hat.below, hopener.trans hat.opener⟩,
    .operandEnd, hsees⟩ a hfits

/-! ## Clauses -/

theorem reads_comma (h : Rests pool visible site .clause s) (ht : t.isMark ',') :
    Reads limit after s [t] (Rests pool visible site .clause) [] := by
  have hdistinct : ¬ t.isKeyword .DISTINCT := fun hk => not_isMark_of_isKeyword hk ',' ht
  exact (reads_idle h.1 (isIdle_of_isMark ht (by decide))).mono fun s' h' =>
    rests_of_stands h'.1 h'.2 hdistinct

theorem reads_listComma (h : Stands pool visible site (TableEnd .list) s) (ht : t.isMark ',') :
    Reads limit after s [t] (Stands pool visible site (· = .operand .list)) [] := by
  obtain ⟨names, mode, hat, hmode, hsees⟩ := h
  have hother {c : Char} (hne : ',' ≠ c) : ¬ t.isMark c := not_isMark_of_isMark ht hne
  exact (reads_settled hat (settled_of_tableEnd hmode) (hother (by decide)) (hother (by decide))
    (hat.step_comma limit after hmode ht) rfl).mono fun s' h' => ⟨names, _, h'.1, rfl, hsees⟩

theorem reads_from (h : Rests pool visible site .clause s) (ht : t.isKeyword .FROM) :
    Reads limit after s [t] (Stands pool visible site (· = .operand .list)) [] := by
  obtain ⟨⟨names, mode, hat, ⟨fresh, rfl⟩, hsees⟩, hcomparison⟩ := h
  exact (hat.reads_token (hat.step_from limit after hcomparison ht)
    (not_isMark_of_isKeyword ht '(') Bool.false_ne_true Bool.false_ne_true rfl).mono
    fun s' h' => ⟨names, _, h'.1, rfl, hsees⟩

theorem reads_join (h : Stands pool visible site Ended s) (ht : t.isKeyword .JOIN) :
    Reads limit after s [t] (Stands pool visible site (· = .operand .clause)) [] := by
  obtain ⟨names, mode, hat, hmode, hsees⟩ := h
  have hkind := kind_of_isKeyword ht
  have hwords : t.isAnyKeyword [.JOIN] := by simp [isAnyKeyword, hkind]
  refine (reads_clauseWord hat hmode hwords (by decide) (fun w fresh => ?_) rfl).mono
    fun s' h' => ⟨names, _, h'.1, rfl, hsees⟩
  simp only [Query.clauseStep, hkind]
  rfl

/-- Behind `ON` or `WHERE` a condition is read. -/
theorem reads_condition (h : Stands pool visible site Ended s) (ht : t.isAnyKeyword [.ON, .WHERE]) :
    Reads limit after s [t] (Rests pool visible site .clause) [] := by
  obtain ⟨names, mode, hat, hmode, hsees⟩ := h
  have hidle := isIdle_of_isAnyKeyword ht (by decide)
  have hdistinct : ¬ t.isKeyword .DISTINCT := fun hk => by
    rw [isAnyKeyword, kind_of_isKeyword hk] at ht
    exact absurd ht (by decide)
  exact (reads_clauseWord hat hmode ht (by decide)
    (fun w fresh => Query.clauseStep_of_isIdle w _ fresh after hidle) rfl).mono
    fun s' h' => rests_of_stands ⟨names, _, h'.1, ⟨false, rfl⟩, hsees⟩ h'.2 hdistinct

theorem isRead_join {word on : Token} {found'' : List String} (hword : word.isKeyword .JOIN)
    (h : IsRead pool limit depth visible xs found .source) (hon : on.isKeyword .ON)
    (hcondition : IsRead pool limit depth visible ys found' (.expression .clause))
    (hrest : IsRead pool limit depth visible zs found'' .joins) :
    IsRead pool limit depth visible (word :: xs ++ on :: ys ++ zs) (found ++ found' ++ found'')
      .joins := by
  intro site after s hroom hbase hstands
  have hwords : on.isAnyKeyword [.ON, .WHERE] := by simp [isAnyKeyword, kind_of_isKeyword hon]
  have htable := ((reads_join hstands hword).cons fun s₁ h₁ =>
    h site (on :: ys ++ (zs ++ after)) s₁ hroom hbase .clause h₁).mono fun s₂ h₂ =>
      h₂.mono fun _ hmode => Ended.table .clause hmode
  have hjoined := htable.append fun s₂ h₂ => (reads_condition h₂ hwords).cons fun s₃ h₃ =>
    hcondition site (zs ++ after) s₃ hroom hbase h₃
  exact hjoined.append fun s₄ h₄ => hrest site after s₄ hroom hbase h₄.1.ended

theorem isRead_filter {word : Token} (hword : word.isKeyword .WHERE)
    (h : IsRead pool limit depth visible xs found (.expression .clause)) :
    IsRead pool limit depth visible (word :: xs) found .filter := by
  intro site after s hroom hbase hstands
  have hwords : word.isAnyKeyword [.ON, .WHERE] := by
    simp [isAnyKeyword, kind_of_isKeyword hword]
  exact (reads_condition hstands hwords).cons fun s₁ h₁ =>
    (h site after s₁ hroom hbase h₁).mono fun s₂ h₂ => h₂.1.ended

theorem isRead_clauses {word : Token} {found'' : List String} (hword : word.isKeyword .FROM)
    (hsources : IsRead pool limit depth visible xs found .sources)
    (hjoins : IsRead pool limit depth visible ys found' .joins)
    (hfilter : IsRead pool limit depth visible zs found'' .filter) :
    IsRead pool limit depth visible (word :: xs ++ ys ++ zs) (found ++ found' ++ found'')
      .clauses := by
  intro site after s hroom hbase hrests
  have htables := (reads_from hrests hword).cons fun s₁ h₁ =>
    hsources site (ys ++ (zs ++ after)) s₁ hroom hbase h₁
  have hjoined := htables.append fun s₂ h₂ =>
    hjoins site (zs ++ after) s₂ hroom hbase (h₂.mono fun _ hmode => .table .list hmode)
  exact hjoined.append fun s₃ h₃ => hfilter site after s₃ hroom hbase h₃

/-! ## Queries -/

/-- A `SELECT` completes the table before it and starts a list. -/
theorem reads_select (h : s.AtQuery site.opener site.below site.base [] mode) (hmode : Begins mode)
    (hbase : site.base.Sees pool visible) (ht : t.isKeyword .SELECT) :
    Reads limit after s [t] (Rests pool visible site .clause) [] := by
  have hkind := kind_of_isKeyword ht
  have hdot := not_isMark_of_isKeyword ht '.'
  have hwords : t.isAnyKeyword [.SELECT] := by simp [isAnyKeyword, hkind]
  obtain ⟨fresh, hstep⟩ := hmode.step (s.surroundings limit) site.base [] after
    (startsClause_of_isAnyKeyword hwords (by decide)) hdot
  rw [Query.clauseStep_of_isIdle _ _ _ _ (isIdle_of_isKeyword ht (by decide))] at hstep
  have hdistinct : ¬ t.isKeyword .DISTINCT := by simp [isKeyword, hkind]
  exact (reads_settled h hmode.settled (not_isMark_of_isKeyword ht '(') hdot
    (h.step_of_eq hstep) rfl).mono fun s' h' =>
      rests_of_stands ⟨[], _, h'.1, ⟨false, rfl⟩, hbase.child⟩ h'.2 hdistinct

theorem isRead_select {word : Token} {found'' : List String} (hword : word.isKeyword .SELECT)
    (hlist : IsRead pool limit depth visible xs found .list)
    (hclauses : IsRead pool limit depth visible ys found' .clauses)
    (hbranches : IsRead pool limit depth visible zs found'' .branches) :
    IsRead pool limit depth visible (word :: xs ++ ys ++ zs) (found ++ found' ++ found'')
      .selects := by
  intro site after s hroom hbase mode hat hmode
  have hselected := (reads_select hat hmode hbase hword).cons fun s₁ h₁ =>
    hlist site (ys ++ (zs ++ after)) s₁ hroom hbase h₁
  have hread := hselected.append fun s₂ h₂ => hclauses site (zs ++ after) s₂ hroom hbase h₂
  exact hread.append fun s₃ h₃ => hbranches site after s₃ hroom hbase h₃

/-- An operator starts another branch, with the common table expressions of the query. -/
theorem isRead_branch {operator : Token} {all : Option Token}
    (hoperator : operator.isAnyKeyword setOperators) (hall : ∀ t ∈ all, t.isKeyword .ALL)
    (h : IsRead pool limit depth visible xs found .selects) :
    IsRead pool limit depth visible (operator :: all.toList ++ xs) found .branches := by
  intro site after s hroom hbase hstands
  obtain ⟨names, mode, hat, hmode, -⟩ := hstands
  refine (reads_clauseWord hat hmode hoperator (by decide)
    (fun w fresh => Query.clauseStep_operator w _ _ _ fresh _ hoperator) rfl).cons fun s₁ h₁ => ?_
  cases all with
  | none => exact h site after s₁ hroom hbase _ h₁.1 (.branch (.clauses false))
  | some t =>
      have ht := hall t rfl
      have hnext := h₁.1.step_idle limit (xs ++ after) (isIdle_of_isKeyword ht (by decide))
      exact (h₁.1.reads_token hnext (not_isMark_of_isKeyword ht '(') Bool.false_ne_true
        Bool.false_ne_true rfl).cons fun s₂ h₂ =>
          h site after s₂ hroom hbase _ h₂.1 (.branch (.clauses false))

/-- The name of a common table expression is visible in its query and behind it. -/
theorem reads_definition {clause : Span} {first : Bool} {name word : Token}
    (hname : name.isName) (hword : word.isKeyword .AS) (ho : o.isMark '(') (hc : c.isMark ')')
    (hinner : IsRead pool limit depth (define name visible) xs found .query)
    (hfits : (Mention.cte name).Fits ctes pool) (hroom : site.below.length + (depth + 1) < limit)
    (hbase : site.base.Sees pool visible)
    (h : s.AtQuery site.opener site.below site.base [] (.cteName clause first)) :
    Reads limit after s (name :: word :: (o :: xs ++ [c]))
      (fun s' => s'.AtQuery site.opener site.below
        (site.base.define name.value .cteDefinition) [] (.cteNext clause)) found := by
  have hsees := hbase.define_cte hfits
  refine (h.reads_token (h.step_cteName limit _ hname) (not_isMark_of_isName hname '(')
    Bool.false_ne_true Bool.false_ne_true rfl).cons fun s₁ h₁ => ?_
  refine (h₁.1.reads_token (h₁.1.step_cteColumns limit _ hword) (not_isMark_of_isKeyword hword '(')
    Bool.false_ne_true Bool.false_ne_true rfl).cons fun s₂ h₂ => ?_
  have hat := h₂.1
  have houtcome : s₂.outcome limit o (xs ++ c :: after) =
      { body := .query (.top (site.base.define name.value .cteDefinition) [] (.cteNext clause)),
        action := .enter (.query (.inside (site.base.define name.value .cteDefinition))) } := by
    rw [outcome_query hat.body]
    change Query.cteBodyStep _ _ clause _ o _ = _
    have hfull : (s₂.surroundings limit).full = false := full_eq_false hat.below (by omega)
    simp only [Query.cteBodyStep, keyword?, kind_of_isMark ho, Option.filter_none, ho, if_true,
      Surroundings.subquery, hfull, Bool.false_eq_true, if_false]
    rfl
  refine (reads_subquery ho hc hinner houtcome rfl hat.pending? (by rw [hat.below]; exact hroom)
    hsees).mono fun s₃ h₃ => ?_
  obtain ⟨hbody, hopener, hbelow, -⟩ := h₃
  exact ⟨hbody, hbelow.trans hat.below, hopener.trans hat.opener⟩

theorem isRead_definition {name word comma : Token} (hname : name.isName)
    (hword : word.isKeyword .AS) (ho : o.isMark '(') (hc : c.isMark ')')
    (hinner : IsRead pool limit depth (define name visible) xs found .query)
    (hcomma : comma.isMark ',')
    (hrest : IsRead pool limit (depth + 1) (define name visible) ys found' .definitions)
    (hfits : (Mention.cte name).Fits ctes pool) :
    IsRead pool limit (depth + 1) visible (name :: word :: (o :: xs ++ [c]) ++ comma :: ys)
      (found ++ found') .definitions := by
  intro site after s hroom hbase clause first h
  refine (reads_definition hname hword ho hc hinner hfits hroom hbase h).append fun s₁ h₁ => ?_
  refine (h₁.reads_token (h₁.step_cteNext limit (ys ++ after) hcomma)
    (not_isMark_of_isMark hcomma (by decide)) Bool.false_ne_true Bool.false_ne_true rfl).cons
    fun s₂ h₂ => ?_
  exact hrest ⟨site.opener, site.below, site.base.define name.value .cteDefinition⟩ after s₂ hroom
    (hbase.define_cte hfits) clause false h₂.1

theorem isRead_lastDefinition {name word : Token} (hname : name.isName)
    (hword : word.isKeyword .AS) (ho : o.isMark '(') (hc : c.isMark ')')
    (hinner : IsRead pool limit depth (define name visible) xs found .query)
    (hrest : IsRead pool limit (depth + 1) (define name visible) ys found' .selects)
    (hfits : (Mention.cte name).Fits ctes pool) :
    IsRead pool limit (depth + 1) visible (name :: word :: (o :: xs ++ [c]) ++ ys)
      (found ++ found') .definitions := by
  intro site after s hroom hbase clause first h
  refine (reads_definition hname hword ho hc hinner hfits hroom hbase h).append fun s₁ h₁ => ?_
  have hread := hrest ⟨site.opener, site.below, site.base.define name.value .cteDefinition⟩ after
    s₁ hroom (hbase.define_cte hfits) _ h₁ (.branch (.cteNext clause))
  exact hread.mono fun s₂ h₂ => h₂.isDone

theorem isRead_with {word : Token} {recursive : Option Token} (hword : word.isKeyword .WITH)
    (hrecursive : ∀ t ∈ recursive, t.isKeyword .RECURSIVE)
    (hlooks : ∀ after, looksLikeCte (xs ++ after))
    (h : IsRead pool limit depth visible xs found .definitions) :
    IsRead pool limit depth visible (word :: recursive.toList ++ xs) found .query := by
  intro site after s hroom hbase mode hat hmode
  have hkind := kind_of_isKeyword hword
  have hdot := not_isMark_of_isKeyword hword '.'
  have hwords : word.isAnyKeyword [.WITH] := by simp [isAnyKeyword, hkind]
  have hrest : looksLikeCte (recursive.toList ++ xs ++ after) := by
    cases hr : recursive with
    | none => exact hlooks after
    | some r => simp [looksLikeCte, hrecursive r hr]
  obtain ⟨fresh, hstep⟩ := hmode.step (s.surroundings limit) site.base []
    (recursive.toList ++ xs ++ after) (startsClause_of_isAnyKeyword hwords (by decide)) hdot
  simp only [Query.clauseStep, hkind, hrest, if_true] at hstep
  have hwith := hat.step_of_eq hstep
  refine (reads_settled hat hmode.settled (not_isMark_of_isKeyword hword '(') hdot hwith rfl).cons
    fun s₁ h₁ => ?_
  cases hr : recursive with
  | none => exact h site after s₁ hroom hbase _ _ h₁.1
  | some r =>
      have hrecursive := hrecursive r hr
      refine (h₁.1.reads_token (h₁.1.step_recursive limit (xs ++ after) hrecursive)
        (not_isMark_of_isKeyword hrecursive '(') Bool.false_ne_true Bool.false_ne_true rfl).cons
        fun s₂ h₂ => ?_
      exact h site after s₂ hroom hbase _ _ h₂.1

/-! ## All phrases -/

/-- A query starts with `SELECT` or `WITH`. -/
theorem Phrase.head_query (h : Phrase ctes depth .query visible xs ms) :
    ∃ t ts, xs = t :: ts ∧ (t.isKeyword .SELECT ∨ t.isKeyword .WITH) := by
  cases h with
  | plain h =>
      cases h with
      | select hword hlist hclauses hbranches => exact ⟨_, _, rfl, Or.inl hword⟩
  | «with» hword hrecursive h => exact ⟨_, _, rfl, Or.inr hword⟩

theorem Phrase.startsSubquery (h : Phrase ctes depth .query visible xs ms) :
    xs.head?.any Scan.startsSubquery := by
  obtain ⟨t, ts, rfl, ht⟩ := h.head_query
  rcases ht with ht | ht <;> simp [Scan.startsSubquery, isAnyKeyword, kind_of_isKeyword ht]

/-- A definition is recognized by its first tokens. -/
theorem Phrase.looksLikeCte (h : Phrase ctes depth .definitions visible xs ms)
    (after : List Token) : Scan.looksLikeCte (xs ++ after) := by
  cases h with
  | definition hname hword ho hc hinner hcomma hrest =>
      simp [Scan.looksLikeCte, hname, hword, ho]
  | lastDefinition hname hword ho hc hinner hrest =>
      simp [Scan.looksLikeCte, hname, hword, ho]

/-- Every phrase is read, and names its tables. -/
theorem Phrase.isRead {part : Part} (h : Phrase ctes depth part visible xs ms)
    (hfits : ∀ m ∈ ms, m.Fits ctes pool) (limit : Nat) :
    IsRead pool limit depth visible xs (texts ctes ms) part := by
  induction h with
  | empty => exact fun site after s hroom hbase h => .nil h
  | operand ht h ih =>
      exact fun site after s hroom hbase hs =>
        (reads_operand hs ht).cons fun s₁ h₁ => ih hfits site after s₁ hroom hbase h₁
  | distinct ht hword hsource h ih =>
      exact fun site after s hroom hbase hs =>
        (reads_distinct hs ht hword hsource).append fun s₁ h₁ =>
          ih hfits site after s₁ hroom hbase h₁
  | parens ho hc hhead hinner h ihinner ih =>
      rw [List.forall_mem_append] at hfits
      rw [texts_append]
      exact isRead_parens ho hc hhead (ihinner hfits.1) (ih hfits.2)
  | subquery ho hc hinner h ihinner ih =>
      rw [List.forall_mem_append] at hfits
      rw [texts_append]
      exact isRead_subquery ho hc hinner.startsSubquery (ihinner hfits.1) (ih hfits.2)
  | one h ih => exact ih hfits
  | more h hcomma hrest ih ihrest =>
      rw [List.forall_mem_append] at hfits
      intro site after s hroom hbase hs
      rw [texts_append]
      refine (ih hfits.1 site _ s hroom hbase hs).append fun s₁ h₁ => ?_
      exact (reads_comma h₁ hcomma).cons fun s₂ h₂ => ihrest hfits.2 site after s₂ hroom hbase h₂
  | table r hwritten hvisible => exact isRead_table hvisible hfits
  | derived ho hc hinner a ih =>
      rw [List.forall_mem_append, List.forall_mem_singleton] at hfits
      rw [texts_aliased]
      exact isRead_derived ho hc hinner.startsSubquery (ih hfits.1) hfits.2
  | source h ih =>
      exact fun site after s hroom hbase hs => ih hfits site after s hroom hbase .list hs
  | comma h hcomma hrest ih ihrest =>
      rw [List.forall_mem_append] at hfits
      intro site after s hroom hbase hs
      rw [texts_append]
      refine (ih hfits.1 site _ s hroom hbase .list hs).append fun s₁ h₁ => ?_
      exact (reads_listComma h₁ hcomma).cons fun s₂ h₂ =>
        ihrest hfits.2 site after s₂ hroom hbase h₂
  | unjoined => exact fun site after s hroom hbase h => .nil h
  | join hword h hon hcondition hrest ih ihcondition ihrest =>
      rw [List.forall_mem_append, List.forall_mem_append] at hfits
      rw [texts_append, texts_append]
      exact isRead_join hword (ih hfits.1.1) hon (ihcondition hfits.1.2) (ihrest hfits.2)
  | unfiltered => exact fun site after s hroom hbase h => .nil h
  | filter hword h ih => exact isRead_filter hword (ih hfits)
  | bare => exact fun site after s hroom hbase h => .nil h.1.ended
  | clauses hword hsources hjoins hfilter ihsources ihjoins ihfilter =>
      rw [List.forall_mem_append, List.forall_mem_append] at hfits
      rw [texts_append, texts_append]
      exact isRead_clauses hword (ihsources hfits.1.1) (ihjoins hfits.1.2) (ihfilter hfits.2)
  | select hword hlist hclauses hbranches ihlist ihclauses ihbranches =>
      rw [List.forall_mem_append, List.forall_mem_append] at hfits
      rw [texts_append, texts_append]
      exact isRead_select hword (ihlist hfits.1.1) (ihclauses hfits.1.2) (ihbranches hfits.2)
  | done => exact fun site after s hroom hbase h => .nil h
  | branch hoperator hall h ih => exact isRead_branch hoperator hall (ih hfits)
  | definition hname hword ho hc hinner hcomma hrest ihinner ihrest =>
      rw [List.forall_mem_append, List.forall_mem_cons] at hfits
      rw [texts_append, texts_cte]
      exact isRead_definition hname hword ho hc (ihinner hfits.1.2) hcomma (ihrest hfits.2)
        hfits.1.1
  | lastDefinition hname hword ho hc hinner hrest ihinner ihrest =>
      rw [List.forall_mem_append, List.forall_mem_cons] at hfits
      rw [texts_append, texts_cte]
      exact isRead_lastDefinition hname hword ho hc (ihinner hfits.1.2) (ihrest hfits.2)
        hfits.1.1
  | plain h ih =>
      exact fun site after s hroom hbase mode hat hmode =>
        (ih hfits site after s hroom hbase mode hat hmode).mono fun s' h' => h'.isDone
  | «with» hword hrecursive h ih => exact isRead_with hword hrecursive h.looksLikeCte (ih hfits)

/-! ## Headings -/

/-- Where nothing is named, every name is that of a table. -/
theorem tableNames_unnamed (mode : Mode) (n : TableName) :
    Reference.tableNames [(Query.top [[]] [] mode).reference n.read] = [n.read.text] := by
  have hsees : Scope.Sees [] [] (Query.top [[]] [] mode).scope :=
    ⟨fun name hname => absurd hname List.not_mem_nil, fun name _ => rfl⟩
  have hvisible : n.isUse [] → n.isUse [] := fun h => h
  have huse : n.isUse [] = false := by
    cases hsingle : n.read.single? <;> simp [TableName.isUse, hsingle]
  rw [tableNames_reference hsees hvisible fun part _ => Or.inr List.not_mem_nil, huse]
  rfl

section Steps

variable {w : Surroundings} {rest : List Token} {base : Scope}

theorem step_into (fresh : Bool) (ht : t.isKeyword .INTO) :
    (Query.top base names (.clauses fresh)).step w t rest =
      { body := .query (.top base names .target) } := by
  change Query.clauseStep _ _ fresh t rest = _
  simp only [Query.clauseStep, kind_of_isKeyword ht]
  rfl

theorem step_target (ht : isCandidate t) :
    (Query.top base names .target).step w t rest =
      { body := .query (.top base names (.name .target (.ofToken t))) } := by
  change Query.targetStep _ _ t rest = _
  rw [Query.targetStep, if_neg (not_isKeyword_of_isCandidate ht (by decide)),
    Query.targetNameStep, if_pos ht]
  rfl

theorem step_create (fresh : Bool) (ht : t.isKeyword .CREATE) :
    (Query.top base names (.clauses fresh)).step w t rest =
      { body := .query (.top base names .create) } := by
  change Query.clauseStep _ _ fresh t rest = _
  simp only [Query.clauseStep, kind_of_isKeyword ht]
  rfl

theorem step_createKind (ht : t.isAnyKeyword [.TABLE, .VIEW]) :
    (Query.top base names .create).step w t rest =
      { body := .query (.top base names (.createName [.IF])) } := by
  have hmodifier : ¬ t.isAnyKeyword Query.createModifiers := fun hmodifier => by
    obtain ⟨word, hword, hk⟩ := isAnyKeyword_iff.mp ht
    have hnot : ∀ word ∈ [Keyword.TABLE, .VIEW], ¬ Query.createModifiers.contains word := by decide
    rw [isAnyKeyword, kind_of_isKeyword hk] at hmodifier
    exact hnot word hword hmodifier
  change Query.createStep _ _ t rest = _
  rw [Query.createStep, if_neg hmodifier, if_pos ht]
  rfl

theorem step_createName (ht : isCandidate t) :
    (Query.top base names (.createName [.IF])).step w t rest =
      { body := .query (.top base names (.name .created (.ofToken t))) } := by
  have hword : t.keyword?.filter [Keyword.IF].contains = none := by
    refine Option.filter_eq_none_iff.mpr fun word hword hmem => ?_
    obtain rfl : word = .IF := by simpa using hmem
    exact not_isKeyword_of_isCandidate ht (by decide) (isKeyword_of_keyword? hword)
  change Query.createNameStep _ _ [.IF] t rest = _
  rw [Query.createNameStep, hword]
  simp only [ht, if_true]
  rfl

theorem step_createModifier (ht : t.isAnyKeyword Query.createModifiers) :
    (Query.top base names .create).step w t rest =
      { body := .query (.top base names .create) } := by
  change Query.createStep _ _ t rest = _
  rw [Query.createStep, if_pos ht]
  rfl

/-- The name of what is created is that of a table if a query follows. -/
theorem step_created {n : DottedName} (hn : n.dangling = false) (ht : ¬ t.isMark '.') :
    (Query.top base names (.name .created n)).step w t rest =
      { Query.clauseStep w (.top base names (.name .created n)) false t rest with
        references := if hasQueryBody 0 (t :: rest) then
          [(Query.top base names (.name .created n)).reference n] else [] } := by
  change Query.nameStep w _ .created n t rest = _
  rw [Query.nameStep, extend?_of_not_dot hn ht]
  simp only [Query.nameEndStep, Outcome.found, Query.references_clauseStep]
  split
  · rfl
  · rw [← Query.references_clauseStep w (.top base names (.name .created n)) false t rest]

end Steps

theorem reads_insert {insert into : Token} (hinsert : insert.isKeyword .INSERT)
    (hinto : into.isKeyword .INTO) (n : TableName) (limit : Nat) (after : List Token) :
    Reads limit after start (insert :: into :: n.tokens) (AtTop [[]] [] (.name .target n.read))
      [n.read.text] := by
  have hidle := isIdle_of_isKeyword hinsert (by decide)
  refine (atTop_start.reads_token (atTop_start.step_idle limit _ hidle)
    (not_isMark_of_isKeyword hinsert '(') Bool.false_ne_true Bool.false_ne_true rfl).cons
    fun s₁ h₁ => ?_
  refine (h₁.1.reads_of_eq (step_into false hinto) rfl rfl).cons fun s₂ h₂ => ?_
  rw [← tableNames_unnamed (.name .target n.read) n]
  exact reads_tableName h₂ rfl (h₂.step_of_eq (step_target n.candidate))

theorem reads_createModifiers {modifiers : List Token}
    (h : ∀ t ∈ modifiers, t.isAnyKeyword Query.createModifiers) (limit : Nat) (after : List Token)
    (hs : s.AtTop [[]] [] .create) :
    Reads limit after s modifiers (AtTop [[]] [] .create) [] := by
  induction modifiers generalizing s with
  | nil => exact .nil hs
  | cons t modifiers ih =>
      rw [List.forall_mem_cons] at h
      exact (hs.reads_of_eq (step_createModifier h.1) rfl rfl).cons fun s₁ h₁ => ih h.2 h₁

theorem reads_createName {create kind : Token} {modifiers : List Token}
    (hcreate : create.isKeyword .CREATE)
    (hmodifiers : ∀ t ∈ modifiers, t.isAnyKeyword Query.createModifiers)
    (hkind : kind.isAnyKeyword [.TABLE, .VIEW]) (n : TableName) (limit : Nat)
    (after : List Token) :
    Reads limit after start (create :: (modifiers ++ kind :: n.tokens))
      (AtTop [[]] [] (.name .created n.read)) [] :=
  (atTop_start.reads_of_eq (step_create true hcreate) rfl rfl).cons fun _ h₁ =>
    (reads_createModifiers hmodifiers limit _ h₁).append fun _ h₂ =>
      (h₂.reads_of_eq (step_createKind hkind) rfl rfl).cons fun _ h₃ =>
        reads_tableName h₃ rfl (h₃.step_of_eq (step_createName n.candidate))

theorem reads_as {n : TableName} {word : Token} (h : s.AtTop [[]] [] (.name .created n.read))
    (hword : word.isKeyword .AS) (limit : Nat) (after : List Token) :
    Reads limit after s [word] (AtTop [[]] [] (.clauses false))
      (if hasQueryBody 0 (word :: after) then [n.read.text] else []) := by
  have hidle := isIdle_of_isKeyword hword (by decide)
  have hstep : (Query.top [[]] [] (.name .created n.read)).step (s.surroundings limit) word after =
      { body := .query (.top [[]] [] (.clauses false)),
        references := if hasQueryBody 0 (word :: after) then
          [(Query.top [[]] [] (.name .created n.read)).reference n.read] else [] } := by
    rw [step_created rfl (not_isMark_of_isKeyword hword '.'),
      Query.clauseStep_of_isIdle _ _ _ _ hidle]
    rfl
  have hread := h.reads_of_eq hstep rfl rfl
  rwa [apply_ite Reference.tableNames, tableNames_unnamed] at hread

theorem reads_create {create kind word : Token} (hcreate : create.isKeyword .CREATE)
    (hkind : kind.isAnyKeyword [.TABLE, .VIEW]) (n : TableName) (hword : word.isKeyword .AS)
    (limit : Nat) {after : List Token} (hafter : after.head?.any startsBody) :
    Reads limit after start (create :: kind :: n.tokens ++ [word])
      (AtTop [[]] [] (.clauses false)) [n.read.text] := by
  have hbody : hasQueryBody 0 (word :: after) := by
    simp [hasQueryBody, not_isMark_of_isKeyword hword, hword, hafter]
  have hread {s : Scan} (h : s.AtTop [[]] [] (.name .created n.read)) :
      Reads limit after s [word] (AtTop [[]] [] (.clauses false)) [n.read.text] := by
    have hread := reads_as h hword limit after
    rwa [if_pos hbody] at hread
  have hname := reads_createName hcreate (List.forall_mem_nil _) hkind n limit ([word] ++ after)
  exact hname.append fun s h => hread h

/-- Behind a heading a query may begin, and the table of the heading is named. -/
theorem Heading.reads {target : Option TableName} {heading : List Token}
    (h : Heading target heading) (limit : Nat) {after : List Token}
    (hafter : after.head?.any startsBody) :
    Reads limit after start heading (fun s => ∃ mode, s.AtTop [[]] [] mode ∧ Begins mode)
      (target.toList.map (·.read.text)) := by
  cases h with
  | none => exact .nil ⟨_, atTop_start, .branch (.clauses true)⟩
  | insert hinsert hinto n =>
      exact (reads_insert hinsert hinto n limit after).mono fun s h => ⟨_, h, .target _ rfl⟩
  | create hcreate hkind n hword =>
      exact (reads_create hcreate hkind n hword limit hafter).mono fun s h =>
        ⟨_, h, .branch (.clauses false)⟩

end Plain

namespace PlainStatement

open Plain Scan

/-- The names of a plain statement fit it. -/
theorem fits (p : PlainStatement) :
    ∀ m ∈ p.mentions, m.Fits p.ctes (p.ctes ++ aliasNames p.mentions) := by
  intro m hm
  cases m with
  | table n =>
      intro part hpart
      by_cases hcte : Unicode.lower part ∈ p.ctes
      · exact Or.inl hcte
      · refine Or.inr fun hmem => (List.mem_append.mp hmem).elim hcte (p.aliases n ?_ part hpart)
        refine List.mem_filter.mpr ⟨List.mem_filterMap.mpr ⟨_, hm, rfl⟩, ?_⟩
        have hnot : n.isUse (cteNames p.mentions) = false := by
          rw [TableName.isUse, hpart]
          simpa [PlainStatement.ctes] using hcte
        simp [hnot]
  | aliased name =>
      exact List.mem_append_right _ (List.mem_filterMap.mpr ⟨_, hm, rfl⟩)
  | cte name => exact List.mem_append_left _ (List.mem_filterMap.mpr ⟨_, hm, rfl⟩)

/-- The scan names the tables of a plain statement, in the order in which they stand. -/
theorem tableNames_tokens (p : PlainStatement) :
    Reference.tableNames (find depthLimit p.tokens).references = p.sources.map (·.read.text) := by
  obtain ⟨t, ts, hquery, ht⟩ := p.isQuery.head_query
  have hbody : p.query.head?.any startsBody := by
    rw [hquery]
    rcases ht with ht | ht <;> simp [startsBody, Token.isAnyKeyword, Token.kind_of_isKeyword ht]
  have hsees : Scope.Sees (p.ctes ++ aliasNames p.mentions) [] [[]] :=
    ⟨fun name hname => absurd hname List.not_mem_nil, fun name _ => rfl⟩
  have hread : Reads depthLimit [] start p.tokens (IsDone ⟨none, [], [[]]⟩)
      (p.target.toList.map (·.read.text) ++ texts p.ctes p.mentions) := by
    rw [← List.append_nil p.query] at hbody
    refine (p.isHeading.reads depthLimit hbody).append fun s h => ?_
    obtain ⟨mode, hat, hmode⟩ := h
    exact p.isQuery.isRead p.fits depthLimit ⟨none, [], [[]]⟩ [] s (by decide) hsees mode hat hmode
  rw [hread.tableNames_find, sources, List.map_append, texts]

end PlainStatement

end SqlTables
