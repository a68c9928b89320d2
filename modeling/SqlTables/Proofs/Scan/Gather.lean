import SqlTables.Proofs.Scan.Stack

/-!
# What a scan finds, in order

The references of a statement are kept with the groups they were found in, and
the demotion of those in a parenthesis that is never closed comes last. Both are
resolved here: `Scan.gather limit after s xs` lists what is found while the tokens
`xs` are read, each reference with the role that it has in the end.

That role is settled as soon as a reference is found. A group around it is
*doomed* when its parenthesis is never closed and it is not a join tree in its
first table list; a doomed group demotes what is found in it. `find_references`
says that the references of a statement are those gathered, and what the end of
the tokens completes.
-/

namespace SqlTables

namespace Scan

/-- Whether some group of the stack, the innermost first, is never closed by the
tokens and demotes what is found in it, when `depth` parentheses are open inside
the innermost one. -/
def isDoomed (depth : Nat) : List Frame → List Token → Bool
  | [], _ => false
  | f :: fs, ts =>
    (f.opener.isSome && !f.body.inFirstList && (afterClosing? depth ts).isNone) ||
      isDoomed (depth + 1) fs ts

/-- The reference as it is in the end. -/
def fate (depth : Nat) (fs : List Frame) (ts : List Token) (r : Reference) : Reference :=
  if isDoomed depth fs ts then r.demote else r

/-- A reference that is found in the innermost group, as it is in the end. -/
def fated (s : Scan) (ts : List Token) : Reference → Reference :=
  fate s.top.body.inner (s.top :: s.below) ts

/-- What is found while the tokens are read, with those of `after` still to come. -/
def gather (limit : Nat) (after : List Token) (s : Scan) : List Token → List Reference
  | [] => []
  | t :: ts =>
    (s.outcome limit t (ts ++ after)).references.map (s.fated (t :: (ts ++ after))) ++
      gather limit after (s.step limit t (ts ++ after)) ts

/-- What the end of the tokens completes in a group. -/
def Body.remainder : Body → List Reference
  | .query q => q.settle.1
  | .expression _ => []
  | .flat f => f.settle

/-- What the end of the tokens completes. -/
def remainder (s : Scan) : List Reference := s.top.body.remainder.map (s.fated [])

/-- What has been found in the groups of a stack, the innermost first, as it is in
the end. -/
def logs (depth : Nat) : List Frame → List Token → List Reference
  | [], _ => []
  | f :: fs, ts =>
    logs (depth + 1) fs ts ++ f.firm.toList.map (fate (depth + 1) fs ts) ++
      f.references.toList.map (fate depth (f :: fs) ts)

variable {limit : Nat} {s : Scan} {t : Token}

@[simp] theorem gather_nil (limit : Nat) (after : List Token) (s : Scan) :
    s.gather limit after [] = [] := rfl

theorem gather_cons (limit : Nat) (after : List Token) (s : Scan) (t : Token)
    (ts : List Token) :
    s.gather limit after (t :: ts) =
      (s.outcome limit t (ts ++ after)).references.map (s.fated (t :: (ts ++ after))) ++
        (s.step limit t (ts ++ after)).gather limit after ts := rfl

theorem gather_append (limit : Nat) (after : List Token) (s : Scan)
    (xs ys : List Token) :
    s.gather limit after (xs ++ ys) =
      s.gather limit (ys ++ after) xs ++
        (s.advance limit (ys ++ after) xs).gather limit after ys := by
  induction xs generalizing s with
  | nil => rfl
  | cons t xs ih =>
      rw [List.cons_append, gather_cons, gather_cons, advance_cons, List.append_assoc,
        ih, List.append_assoc]

theorem gather_singleton (limit : Nat) (after : List Token) (s : Scan) (t : Token) :
    s.gather limit after [t] =
      (s.outcome limit t after).references.map (s.fated (t :: after)) := by
  rw [gather_cons, gather_nil, List.append_nil, List.nil_append]

/-! ## Fates -/

theorem isDoomed_congr {fs gs : List Frame}
    (h : fs.map (fun f => (f.opener.isSome, f.body.inFirstList)) =
      gs.map (fun f => (f.opener.isSome, f.body.inFirstList)))
    {d : Nat} {ts : List Token} : isDoomed d fs ts = isDoomed d gs ts := by
  induction fs generalizing gs d with
  | nil =>
      cases gs with
      | nil => rfl
      | cons g gs => cases h
  | cons f fs ih =>
      cases gs with
      | nil => cases h
      | cons g gs =>
          simp only [List.map_cons, List.cons.injEq, Prod.mk.injEq] at h
          rw [isDoomed, isDoomed, h.1.1, h.1.2, ih h.2]

theorem isDoomed_open (h : t.isMark '(') (fs : List Frame) (ts : List Token) (d : Nat) :
    isDoomed d fs (t :: ts) = isDoomed (d + 1) fs ts := by
  induction fs generalizing d with
  | nil => rfl
  | cons f fs ih => rw [isDoomed, isDoomed, afterClosing?_cons_open h, ih]

theorem isDoomed_close (h : t.isMark ')') (fs : List Frame) (ts : List Token) (d : Nat) :
    isDoomed (d + 1) fs (t :: ts) = isDoomed d fs ts := by
  induction fs generalizing d with
  | nil => rfl
  | cons f fs ih => rw [isDoomed, isDoomed, afterClosing?_cons_close_succ h, ih]

theorem isDoomed_other (hopen : ¬ t.isMark '(') (hclose : ¬ t.isMark ')')
    (fs : List Frame) (ts : List Token) (d : Nat) :
    isDoomed d fs (t :: ts) = isDoomed d fs ts := by
  induction fs generalizing d with
  | nil => rfl
  | cons f fs ih => rw [isDoomed, isDoomed, afterClosing?_cons_other hopen hclose, ih]

/-- A group that the token closes demotes nothing. -/
theorem isDoomed_close_zero (h : t.isMark ')') (f : Frame) (fs : List Frame)
    (ts : List Token) : isDoomed 0 (f :: fs) (t :: ts) = isDoomed 1 fs (t :: ts) := by
  rw [isDoomed, afterClosing?_cons_close_zero h]
  simp

/-- The statement itself demotes nothing, and neither does a join tree in its first
table list. -/
theorem isDoomed_cons_of_spared {f : Frame} (h : f.opener = none ∨ f.body.inFirstList)
    (d : Nat) (fs : List Frame) (ts : List Token) :
    isDoomed d (f :: fs) ts = isDoomed (d + 1) fs ts := by
  rw [isDoomed]
  rcases h with h | h <;> simp [h]

theorem isDoomed_eq_false_iff {fs : List Frame} {d : Nat} {ts : List Token} :
    isDoomed d fs ts = false ↔
      ∀ (level : Nat) (f : Frame), fs[level]? = some f → f.opener.isSome →
        afterClosing? (d + level) ts = none → f.body.inFirstList := by
  induction fs generalizing d with
  | nil => simp [isDoomed]
  | cons f fs ih =>
      rw [isDoomed, Bool.or_eq_false_iff, ih]
      constructor
      · rintro ⟨hhead, htail⟩ level g hg hopener hclosing
        cases level with
        | zero =>
            obtain rfl : f = g := Option.some.inj hg
            rw [Nat.add_zero] at hclosing
            by_contra hfirst
            simp [hopener, hclosing, hfirst] at hhead
        | succ level =>
            refine htail level g hg hopener ?_
            rwa [Nat.add_assoc, Nat.add_comm 1 level]
      · intro h
        refine ⟨?_, fun level g hg hopener hclosing => ?_⟩
        · by_contra hhead
          simp only [Bool.not_eq_false, Bool.and_eq_true, Option.isNone_iff_eq_none,
            Bool.not_eq_true'] at hhead
          have hfirst := h 0 f rfl hhead.1.1 hhead.2
          rw [hhead.1.2] at hfirst
          cases hfirst
        · refine h (level + 1) g hg hopener ?_
          rwa [Nat.add_comm level 1, ← Nat.add_assoc]

theorem fate_of_not_isDoomed {d : Nat} {fs : List Frame} {ts : List Token}
    (h : isDoomed d fs ts = false) : fate d fs ts = id := by
  funext r
  simp [fate, h]

/-- Where the tokens to come close every group, no role changes. -/
theorem fated_of_depth? (hs : IsNest s.top s.below) {ts : List Token}
    (h : Token.depth? s.height ts = some 0) (us : List Token) : s.fated (ts ++ us) = id := by
  refine fate_of_not_isDoomed (isDoomed_eq_false_iff.mpr fun level f hf hopener hnone => ?_)
  have hlevel := (isSome_opener_iff hs hf).mp hopener
  obtain ⟨tail, htail⟩ := exists_afterClosing? h (show s.top.body.inner + level < s.height by
    rw [height]
    omega)
  rw [afterClosing?_append_of_some htail] at hnone
  cases hnone

theorem demote_demote (r : Reference) : r.demote.demote = r.demote := by
  unfold Reference.demote
  split <;> simp_all

/-! ## Groups that are open at the end -/

theorem settle_opener (f : Frame) : f.settle.opener = f.opener := rfl

theorem settle_body (f : Frame) : f.settle.body = f.body := rfl

theorem settle_firm (f : Frame) : f.settle.firm = f.firm := rfl

theorem settle_references (f : Frame) :
    f.settle.references.toList = f.references.toList ++ f.body.remainder := by
  unfold Frame.settle Body.remainder
  cases f.body <;> simp

theorem giveUp_firm (f : Frame) : f.giveUp.firm = f.firm := by
  unfold Frame.giveUp
  split <;> rfl

/-- Giving up a parenthesis demotes what has been found in it, unless the first
table list of a join tree goes on. -/
theorem giveUp_references {f : Frame} (h : f.opener.isSome) :
    f.giveUp.references.toList =
      if f.body.inFirstList then f.references.toList
      else f.references.toList.map Reference.demote := by
  obtain ⟨opener, h⟩ := Option.isSome_iff_exists.mp h
  cases hbody : f.body with
  | query q =>
      have hfirst : (Body.query q).inFirstList = q.inFirstList := rfl
      rw [hfirst]
      by_cases hq : q.inFirstList
      · simp [Frame.giveUp, h, hbody, hq]
      · simp [Frame.giveUp, h, hbody, hq]
  | expression scope => simp [Frame.giveUp, h, hbody, Body.inFirstList]
  | flat g => simp [Frame.giveUp, h, hbody, Body.inFirstList]

theorem giveUp_of_statement {f : Frame} (h : f.opener = none) : f.giveUp = f := by
  simp only [Frame.giveUp, h]

theorem remainder_of_isSuspended {body : Body} (h : body.isSuspended) :
    body.remainder = [] := by
  cases body with
  | query q =>
      unfold Body.remainder Query.settle
      cases hm : q.mode <;> simp_all [Body.isSuspended, Mode.isWaiting]
  | expression scope => rfl
  | flat f => cases h

theorem absorb_firm (f inner : Frame) : (f.absorb inner).firm = f.firm := rfl

theorem absorb_references (f inner : Frame) :
    (f.absorb inner).references.toList =
      f.references.toList ++ (inner.firm.toList ++ inner.references.toList) := by
  simp [Frame.absorb]

theorem remainder_absorb {f inner : Frame} (h : f.body.isSuspended) :
    (f.absorb inner).body.remainder = [] :=
  remainder_of_isSuspended ((Frame.absorb_mode f inner).2.2.1.trans h)

theorem fate_absorb (f inner : Frame) (d : Nat) (fs : List Frame) (ts : List Token) :
    fate d (f.absorb inner :: fs) ts = fate d (f :: fs) ts := by
  have hcongr : isDoomed d (f.absorb inner :: fs) ts = isDoomed d (f :: fs) ts :=
    isDoomed_congr (by
      simp only [List.map_cons, Frame.absorb_opener, (Frame.absorb_mode f inner).2.2.2.1])
  funext r
  rw [fate, fate, hcongr]

/-- Closing the groups that are open at the end gives every reference its fate. -/
theorem found_unwind (f : Frame) (fs : List Frame) (d : Nat) (h : IsNest f fs) :
    (unwind f fs).found.toList =
      logs d (f :: fs) [] ++ f.body.remainder.map (fate d (f :: fs) []) := by
  induction fs generalizing f d with
  | nil =>
      have hid : fate d [f] [] = id :=
        fate_of_not_isDoomed (by rw [isDoomed_cons_of_spared (Or.inl h.1), isDoomed])
      have hid' : fate (d + 1) [] [] = id := fate_of_not_isDoomed rfl
      rw [unwind, giveUp_of_statement (by rw [settle_opener, h.1]), Frame.found,
        Array.toList_append, settle_firm, settle_references]
      simp only [logs, hid, hid', List.map_id, List.nil_append, List.append_assoc]
  | cons g gs ih =>
      have hnest := isNest_congr (Frame.absorb_opener g f.settle.giveUp)
        (Frame.absorb_mode g f.settle.giveUp).1 gs h.2.2
      have hfate : fate d (f :: g :: gs) [] = fun r =>
          fate (d + 1) (g :: gs) [] (if f.body.inFirstList then r else r.demote) := by
        funext r
        by_cases hfirst : f.body.inFirstList
        · rw [fate, fate, isDoomed_cons_of_spared (Or.inr hfirst), if_pos hfirst]
        · have hdoom : isDoomed d (f :: g :: gs) [] = true := by
            rw [isDoomed, h.1, afterClosing?]
            simp [hfirst]
          rw [fate, if_pos hdoom, if_neg hfirst, fate]
          split
          · rw [demote_demote]
          · rfl
      have hinner : f.settle.giveUp.references.toList =
          (f.references.toList ++ f.body.remainder).map
            fun r => if f.body.inFirstList then r else r.demote := by
        rw [giveUp_references (by rw [settle_opener]; exact h.1), settle_body,
          settle_references]
        split <;> simp_all
      rw [unwind, ih _ (d + 1) hnest, remainder_absorb h.2.1, logs, absorb_firm,
        absorb_references, fate_absorb, giveUp_firm, settle_firm, hinner, logs, logs]
      simp only [List.map_nil, List.append_nil, List.map_append, List.map_map,
        Function.comp_def, hfate, List.append_assoc]

/-! ## One token -/

/-- The first table list of a join tree does not begin again. -/
theorem inFirstList_outcome (limit : Nat) (s : Scan) (t : Token) (rest : List Token)
    (h : (s.outcome limit t rest).body.inFirstList) : s.top.body.inFirstList := by
  have hturn := outcome_turn limit s t rest
  generalize s.outcome limit t rest = o at h hturn
  generalize s.top.body = body at hturn ⊢
  cases hturn with
  | extend q purpose hmode hn => exact h
  | query hbefore hturn =>
      cases hturn with
      | goto first mode d g ho hc hf => exact hf h
      | branch first d ho hc hf => exact hf h
      | defineAlias follow =>
          unfold Query.defineAlias at h
          split at h <;> exact h
      | defineCte clause => exact h
      | enter first mode body d ho hf => exact hf h
      | leave first d hc hf => exact hf h
  | flat hbefore hturn => cases hturn <;> cases h
  | _ => cases h

/-- The outcome ends the first table list of a join tree. -/
def EndsFirstList (f : Frame) (o : Outcome) : Prop :=
  f.body.inFirstList ∧ ¬ o.body.inFirstList

theorem take_of_endsFirstList {f : Frame} {o : Outcome} (h : EndsFirstList f o)
    (hkind : o.body.kind = f.body.kind) :
    (f.take o).firm.toList = f.firm.toList ++ f.references.toList ++ o.references ∧
      (f.take o).references.toList = [] := by
  obtain ⟨hf, ho⟩ := h
  cases hbefore : f.body with
  | query before =>
      cases hafter : o.body with
      | query after =>
          rw [hbefore] at hf
          rw [hafter] at ho
          simp only [Body.inFirstList] at hf ho
          simp [Frame.take, hbefore, hafter, hf, ho]
      | expression scope =>
          rw [hbefore, hafter, Body.kind, Body.kind] at hkind
          split at hkind <;> cases hkind
      | flat g =>
          rw [hbefore, hafter, Body.kind, Body.kind] at hkind
          split at hkind <;> cases hkind
  | expression scope =>
      rw [hbefore] at hf
      cases hf
  | flat g =>
      rw [hbefore] at hf
      cases hf

theorem take_of_not_endsFirstList {f : Frame} {o : Outcome} (h : ¬ EndsFirstList f o) :
    (f.take o).firm.toList = f.firm.toList ∧
      (f.take o).references.toList = f.references.toList ++ o.references := by
  cases hbefore : f.body with
  | query before =>
      cases hafter : o.body with
      | query after =>
          have hends : (before.inFirstList && !after.inFirstList) = false := by
            simpa [EndsFirstList, hbefore, hafter, Body.inFirstList] using h
          simp [Frame.take, hbefore, hafter, hends]
      | expression scope => simp [Frame.take, hbefore, hafter]
      | flat g => simp [Frame.take, hbefore, hafter]
  | expression scope => simp [Frame.take, hbefore]
  | flat g => simp [Frame.take, hbefore]

/-- Nothing that a group has found is lost with an outcome. -/
theorem take_log {f : Frame} {o : Outcome} (hkind : o.body.kind = f.body.kind) :
    (f.take o).firm.toList ++ (f.take o).references.toList =
      f.firm.toList ++ f.references.toList ++ o.references := by
  by_cases h : EndsFirstList f o
  · rw [(take_of_endsFirstList h hkind).1, (take_of_endsFirstList h hkind).2,
      List.append_nil]
  · rw [(take_of_not_endsFirstList h).1, (take_of_not_endsFirstList h).2,
      List.append_assoc]

/-- What is found with an outcome has the fate of its group before the outcome: a
join tree spares what ends its first table list. -/
theorem logs_take {f : Frame} {o : Outcome} (hkind : o.body.kind = f.body.kind)
    (h : o.body.inFirstList → f.body.inFirstList)
    (d : Nat) (fs : List Frame) (ts : List Token) :
    logs d (f.take o :: fs) ts =
      logs d (f :: fs) ts ++ o.references.map (fate d (f :: fs) ts) := by
  by_cases hends : EndsFirstList f o
  · obtain ⟨hfirm, hreferences⟩ := take_of_endsFirstList hends hkind
    have hfate : fate d (f :: fs) ts = fate (d + 1) fs ts := by
      funext r
      rw [fate, fate, isDoomed_cons_of_spared (Or.inr hends.1)]
    rw [logs, logs, hfirm, hreferences, hfate]
    simp only [List.map_append, List.map_nil, List.append_nil, List.append_assoc]
  · obtain ⟨hfirm, hreferences⟩ := take_of_not_endsFirstList hends
    have hfirst : (f.take o).body.inFirstList = f.body.inFirstList := by
      rw [Frame.take_body, Bool.eq_iff_iff]
      refine ⟨h, fun hf => ?_⟩
      by_contra ho
      exact hends ⟨hf, ho⟩
    have hfate : fate d (f.take o :: fs) ts = fate d (f :: fs) ts := by
      funext r
      rw [fate, fate, isDoomed, isDoomed, hfirst, Frame.take_opener]
    rw [logs, logs, hfirm, hreferences, hfate]
    simp only [List.map_append, List.append_assoc]

/-- The groups around the innermost one see a token as it changes the depth. -/
theorem logs_congr {fs : List Frame} {ts us : List Token} {d e : Nat}
    (h : ∀ k gs, isDoomed (d + k) gs ts = isDoomed (e + k) gs us) :
    logs d fs ts = logs e fs us := by
  induction fs generalizing d e with
  | nil => rfl
  | cons f fs ih =>
      have hfate (k : Nat) (gs : List Frame) : fate (d + k) gs ts = fate (e + k) gs us := by
        funext r
        rw [fate, fate, h]
      have htail : logs (d + 1) fs ts = logs (e + 1) fs us := ih fun k gs => by
        rw [Nat.add_assoc, Nat.add_assoc]
        exact h (1 + k) gs
      have hhead : fate d (f :: fs) ts = fate e (f :: fs) us := hfate 0 (f :: fs)
      rw [logs, logs, htail, hfate 1 fs, hhead]

theorem isDoomed_nest {d : Nat} (h : t.isMark ')' → 0 < d) (k : Nat) (fs : List Frame)
    (ts : List Token) : isDoomed (d + k) fs (t :: ts) = isDoomed (nest d t + k) fs ts := by
  by_cases hopen : t.isMark '('
  · rw [nest_open hopen, isDoomed_open hopen, Nat.add_right_comm]
  · by_cases hclose : t.isMark ')'
    · obtain ⟨e, rfl⟩ := Nat.exists_eq_succ_of_ne_zero (Nat.ne_of_gt (h hclose))
      rw [nest_close hclose, Nat.succ_eq_add_one, Nat.add_right_comm,
        isDoomed_close hclose, Nat.add_sub_cancel]
    · rw [nest_other hopen hclose, isDoomed_other hopen hclose]

theorem logs_statement {f : Frame} (h : f.opener = none) (d e : Nat) (ts us : List Token) :
    logs d [f] ts = logs e [f] us := by
  have hid (d : Nat) (ts : List Token) : fate d [f] ts = id :=
    fate_of_not_isDoomed (by rw [isDoomed_cons_of_spared (Or.inl h), isDoomed])
  have hid' (d : Nat) (ts : List Token) : fate d [] ts = id := fate_of_not_isDoomed rfl
  rw [logs, logs, logs, logs, hid, hid, hid', hid']

/-- A token adds what it finds to the logs, with its fate. -/
theorem logs_step (limit : Nat) (t : Token) (rest : List Token)
    (hs : IsNest s.top s.below) :
    logs (s.step limit t rest).top.body.inner
        ((s.step limit t rest).top :: (s.step limit t rest).below) rest =
      logs s.top.body.inner (s.top :: s.below) (t :: rest) ++
        (s.outcome limit t rest).references.map (s.fated (t :: rest)) := by
  have hkind := kind_outcome limit s t rest
  rw [fated, ← logs_take hkind (inFirstList_outcome limit s t rest)]
  cases outcome_shift limit t rest hs with
  | stay haction hinner hopen hclose =>
      rw [step_of_stay haction, Frame.take_body, hinner]
      by_cases hbelow : t.isMark ')' ∧ s.below = []
      · rw [hbelow.2] at hs ⊢
        exact logs_statement (f := s.top.take (s.outcome limit t rest)) hs.1 _ _ _ _
      · refine (logs_congr fun k gs => isDoomed_nest (fun hc => ?_) k gs rest).symm
        exact (hclose hc).resolve_right fun hb => hbelow ⟨hc, hb⟩
  | enter body haction hopen hflat hsuspended hinner =>
      have hzero : s.top.body.inner = 0 := inner_of_not_flat hflat
      rw [step_of_enter haction, hinner, hzero, logs]
      simp only [List.map_nil, List.append_nil]
      refine logs_congr fun k gs => ?_
      rw [isDoomed_open hopen, Nat.zero_add, Nat.zero_add, Nat.add_comm]
  | leave haction hclose hinner hbelow =>
      obtain ⟨outer, below, hbelow⟩ := List.exists_cons_of_ne_nil hbelow
      rw [hbelow] at hs
      have houter : outer.body.inner = 0 := inner_of_isSuspended hs.2.1
      have hfate (gs : List Frame) : fate 1 gs (t :: rest) = fate 0 gs rest := by
        funext r
        rw [fate, fate, isDoomed_close hclose]
      have hfate' (gs : List Frame) : fate 2 gs (t :: rest) = fate 1 gs rest := by
        funext r
        rw [fate, fate, isDoomed_close hclose]
      have htop : fate 0 (s.top.take (s.outcome limit t rest) :: outer :: below) (t :: rest) =
          fate 0 (outer :: below) rest := by
        rw [← hfate]
        funext r
        rw [fate, fate, isDoomed_close_zero hclose]
      have hlogs : logs 2 below (t :: rest) = logs 1 below rest :=
        logs_congr fun k gs => by
          rw [Nat.add_right_comm 1 1 k, isDoomed_close hclose]
      have hlog := take_log hkind
      rw [step_of_leave haction hbelow, hbelow, hinner,
        (Frame.absorb_mode _ _).2.1, houter]
      simp only [logs, absorb_firm, absorb_references, fate_absorb, htop, hfate, hfate',
        hlogs, List.map_append, List.append_assoc]

theorem found_gather (limit : Nat) (ts : List Token) (hs : IsNest s.top s.below) :
    (unwind (s.advance limit [] ts).top (s.advance limit [] ts).below).found.toList =
      logs s.top.body.inner (s.top :: s.below) ts ++ s.gather limit [] ts ++
        (s.advance limit [] ts).remainder := by
  induction ts generalizing s with
  | nil =>
      rw [gather_nil, List.append_nil, advance_nil]
      exact found_unwind s.top s.below _ hs
  | cons t ts ih =>
      have hlogs := logs_step limit t ts hs
      rw [advance_cons, gather_cons, List.append_nil, ih (isNest_step limit t ts hs), hlogs]
      simp only [List.append_assoc]

/-- What a scan finds is what it gathers, and what the end of the tokens completes. -/
theorem find_references (limit : Nat) (ts : List Token) :
    (find limit ts).references =
      start.gather limit [] ts ++ (start.advance limit [] ts).remainder := by
  have h := found_gather limit ts isNest_start
  rw [← run_eq_advance] at h ⊢
  exact h

end Scan

end SqlTables
