import SqlTables.Proofs.Found
import SqlTables.Proofs.Token.Lossless
import SqlTables.Proofs.Token.Parenthesis
import SqlTables.Proofs.Token.Truncate

/-!
# Slices of a script

The part of a script that some of its tokens cover is made of the same tokens, so what is
handed on of a script is read as the script itself. The one exception is a slice that ends
between `$` and `{`, where the `${` ends a word: the `$` alone belongs to that word
(`Cut.truncate`, `Cut.head?_of_endsInDollar`). A statement does not end there, as the `{`
belongs to it as well, and its text is that one statement (`Statement.ofScript_text`).
-/

namespace SqlTables

namespace Token

/-- Whether the last of the tokens is a `$` right behind a word. -/
def endsInDollar : List Token → Bool
  | [] => false
  | t :: rest =>
    (t.isWord && rest.length == 1 && rest.head?.any fun u => u.isMark '$') || endsInDollar rest

/-- The token in a text that starts at the given offset. -/
def rebase (start : Nat) (t : Token) : Token := { t with offset := t.offset - start }

theorem exists_getLast?_of_endsInDollar {ts : List Token} (h : endsInDollar ts) :
    ∃ t, ts.getLast? = some t ∧ t.isMark '$' := by
  induction ts with
  | nil => cases h
  | cons t ts ih =>
      rw [endsInDollar, Bool.or_eq_true] at h
      rcases h with h | h
      · simp only [Bool.and_eq_true, beq_iff_eq] at h
        obtain ⟨d, rfl⟩ := List.length_eq_one_iff.mp h.1.2
        exact ⟨d, rfl, h.2⟩
      · obtain ⟨d, hlast, hd⟩ := ih h
        refine ⟨d, ?_, hd⟩
        rw [List.getLast?_cons, hlast]
        rfl

end Token

namespace Lexer

open Token

variable {c : Char} {b r x y more : List Char} {o k : Nat} {ts us : List Token}

theorem scanFrom_add (k o skip : Nat) (xs : List Char) :
    Lexer.scanFrom (o + k) skip xs =
      (Lexer.scanFrom o skip xs).map fun t => { t with offset := t.offset + k } := by
  induction xs generalizing o skip with
  | nil => rfl
  | cons c xs ih =>
      cases skip with
      | zero =>
          rw [Lexer.scanFrom, Lexer.scanFrom, Nat.add_right_comm]
          dsimp only
          rw [ih, List.map_cons]
      | succ skip => rw [Lexer.scanFrom, Lexer.scanFrom, Nat.add_right_comm, ih]

/-! ## The end of a slice -/

/-- What stands before `$` and is no part of a word ends where that `$` starts a `${`. -/
theorem head?_of_word {inside : Bool} (h : word inside (x ++ '$' :: y) = x) :
    y.head? = some '{' := by
  induction x generalizing inside with
  | nil =>
      have hchar : isWordChar '$' := by decide
      rw [List.nil_append, word] at h
      by_contra hy
      by_cases hinside : inside
      · rw [if_pos hinside] at h
        cases h
      · rw [if_neg hinside, if_neg fun hc => hy hc.2, if_pos hchar] at h
        cases h
  | cons c x ih =>
      obtain ⟨next, hnext, -⟩ := word_cons h
      exact ih hnext

theorem exists_word_of_lexeme {kind : TokenKind} {text : String} (h : lexeme c r = (kind, more))
    (hword : (⟨kind, text, o⟩ : Token).isWord) : ∃ inside, word inside r = more := by
  cases rule_of_lexeme h with
  | substitution _ hmore => exact ⟨true, hmore⟩
  | keyword _ hmore _ => exact ⟨false, hmore⟩
  | name _ hmore => exact ⟨false, hmore⟩
  | blank => cases hword
  | line => cases hword
  | block => cases hword
  | string => cases hword
  | quotedName => cases hword
  | number => cases hword
  | mark => cases hword

/-- A mark is one character of the text. -/
theorem Cut.of_mark {t : Token} {m : Char} (h : Cut r o b [t]) (ht : t.isMark m) : b = [m] := by
  cases h with
  | @cons _ c more b kind _ h hb =>
      obtain rfl : kind = .punctuation m := eq_of_beq ht
      obtain ⟨rfl, rfl⟩ := eq_of_lexeme_punctuation h
      cases hb
      rfl

/-- Behind a word and a `$` stands the `{` that ended the word. -/
theorem Cut.head?_of_endsInDollar (h : Cut y o b ts) (hends : endsInDollar ts) :
    y.head? = some '{' := by
  induction h with
  | nil => cases hends
  | @cons o c more b kind ts h hb ih =>
      rw [endsInDollar, Bool.or_eq_true] at hends
      rcases hends with hlast | hends
      · simp only [Bool.and_eq_true, beq_iff_eq] at hlast
        obtain ⟨⟨hword, hlength⟩, hdollar⟩ := hlast
        obtain ⟨d, rfl⟩ := List.length_eq_one_iff.mp hlength
        obtain rfl := hb.of_mark hdollar
        obtain ⟨inside, hword⟩ := exists_word_of_lexeme h hword
        exact head?_of_word hword
      · exact ih hends

/-- Tokens are the same if the text ends behind them, unless it ends after a word and
a `$`. -/
theorem Cut.truncate (h : Cut y o b ts) (hends : ¬ endsInDollar ts) : Cut [] o b ts := by
  induction h with
  | nil o => exact .nil o
  | @cons o c more b kind ts h hb ih =>
      rw [endsInDollar, Bool.or_eq_true, not_or] at hends
      rw [← List.append_assoc] at h
      have hlength : (lexeme c (more ++ b ++ y)).2.length ≤ (more ++ b).length := by
        rw [h, List.length_append]
        exact Nat.le_add_right _ _
      have hsame := lexeme_truncate hlength (fun hy hword hb' => ?_)
      · exact .cons (by rw [List.append_nil, hsame, h]) (ih hends.2)
      · -- The rest is the `$` of a substitution that is not closed.
        rw [h] at hword hb'
        obtain rfl := List.append_cancel_left hb'
        obtain ⟨rest, rfl⟩ := List.head?_eq_some_iff.mp hy
        obtain ⟨more', b', kind', ts', htext, hlex, rfl, hcut⟩ := hb.of_cons
        obtain ⟨rfl, rfl⟩ := List.append_eq_nil_iff.mp htext.symm
        obtain rfl : ts' = [] := by
          cases hcut
          rfl
        refine hends.1 ?_
        rw [List.nil_append] at hlex
        by_cases hclosed : '}' ∈ rest
        · rw [lexeme_dollar_closed hclosed] at hlex
          cases hlex
        · rw [lexeme_dollar hclosed] at hlex
          cases hlex
          simpa [isWord, isMark] using hword

/-- What a cut is made of is read alone, from the start, as it is read in the text, unless
it ends after a word and a `$`. -/
theorem Cut.scanFrom_eq_iff (h : Cut y o b ts) :
    Lexer.scanFrom 0 0 b = ts.map (rebase o) ↔ ¬ endsInDollar ts := by
  have hrebase (xs : List Token) :
      (xs.map fun t : Token => { t with offset := t.offset + o }).map (rebase o) = xs := by
    rw [List.map_map]
    exact (List.map_congr_left fun t _ => by simp [rebase]).trans (List.map_id xs)
  have hshift : Lexer.scanFrom o 0 b =
      (Lexer.scanFrom 0 0 b).map fun t => { t with offset := t.offset + o } := by
    rw [← scanFrom_add, Nat.zero_add]
  constructor
  · intro hscan hends
    have hle : ∀ t ∈ ts, o ≤ t.offset := fun t ht => by
      have hmem : t ∈ Lexer.scanFrom o 0 (b ++ y) := by
        rw [h.scanFrom]
        exact List.mem_append_left _ ht
      have hle := offset_le_of_mem_scanFrom _ _ _ t hmem
      omega
    have hback : (ts.map (rebase o)).map (fun t => { t with offset := t.offset + o }) = ts := by
      rw [List.map_map]
      refine (List.map_congr_left fun t ht => ?_).trans (List.map_id ts)
      simp [rebase, Nat.sub_add_cancel (hle t ht)]
    rw [hscan, hback] at hshift
    have hcut := cut_scanFrom o b
    rw [hshift] at hcut
    cases hcut.head?_of_endsInDollar hends
  · intro hends
    have hscan := (h.truncate hends).scanFrom
    rw [List.append_nil, hshift, Lexer.scanFrom, List.append_nil] at hscan
    rw [← hscan, hrebase]

end Lexer

namespace Token

/-- The tokens of a text before, in and after a run of them, with what they are made of. -/
theorem exists_cuts {text : String} {xs run ys : List Token}
    (h : scan text = xs ++ (run ++ ys)) :
    ∃ b₁ b₂ b₃, text.toList = b₁ ++ (b₂ ++ b₃) ∧ Lexer.Cut b₃ b₁.length b₂ run ∧
      Lexer.Cut [] (b₁.length + b₂.length) b₃ ys := by
  have hcut := Lexer.cut_scanFrom 0 text.toList
  rw [← scan, h] at hcut
  obtain ⟨b₁, b, htext, -, hb⟩ := hcut.of_append
  obtain ⟨b₂, b₃, rfl, hrun, hys⟩ := hb.of_append
  rw [Nat.zero_add, List.append_nil] at hrun
  rw [Nat.zero_add] at hys
  exact ⟨b₁, b₂, b₃, htext, hrun, hys⟩

/-- The part of a text that a run of its tokens covers is made of these tokens, unless it
ends after a word and a `$`. -/
theorem scan_slice_iff {text : String} {xs run ys : List Token} {first last : Token}
    (h : scan text = xs ++ (run ++ ys)) (hfirst : first ∈ run.head?)
    (hlast : last ∈ run.getLast?) :
    scan ((⟨first.offset, last.stop⟩ : Span).slice text) = run.map (rebase first.offset) ↔
      ¬ endsInDollar run := by
  obtain ⟨b₁, b₂, b₃, htext, hrun, -⟩ := exists_cuts h
  have hslice := Span.slice_append b₁ b₂ b₃
  rw [← htext, String.ofList_toList] at hslice
  rw [hrun.offset_head first hfirst, hrun.stop_getLast last hlast, hslice, scan,
    String.toList_ofList]
  exact hrun.scanFrom_eq_iff

/-- Behind a run that ends after a word and a `$` stands a `{`. -/
theorem isMark_of_endsInDollar {text : String} {xs run ys : List Token}
    (h : scan text = xs ++ (run ++ ys)) (hends : endsInDollar run) :
    ∃ t ∈ ys.head?, t.isMark '{' := by
  obtain ⟨b₁, b₂, b₃, -, hrun, hys⟩ := exists_cuts h
  obtain ⟨rest, rfl⟩ := List.head?_eq_some_iff.mp (hrun.head?_of_endsInDollar hends)
  obtain ⟨more, b', kind, ts, -, hlex, rfl, -⟩ := hys.of_cons
  rw [Lexer.lexeme_brace] at hlex
  cases hlex
  exact ⟨_, rfl, rfl⟩

end Token

namespace Statement

open Token

variable {ts g : List Token} {t : Token}

/-! ## The text of a statement -/

theorem exists_groups_eq (ts : List Token) :
    ∃ g gs ys, groups ts = g :: gs ∧ ts = g ++ ys ∧ (∀ t ∈ g, ¬ t.isMark ';') ∧
      ∀ t ∈ ys.head?, t.isMark ';' := by
  induction ts with
  | nil => exact ⟨[], [], [], rfl, rfl, by simp, by simp⟩
  | cons t ts ih =>
      obtain ⟨g, gs, ys, hgroups, hts, hg, hys⟩ := ih
      by_cases ht : t.isMark ';'
      · exact ⟨[], groups ts, t :: ts, groups_cons_mark ht ts, rfl, by simp, by simpa using ht⟩
      · refine ⟨t :: g, gs, ys, ?_, by rw [hts, List.cons_append], ?_, hys⟩
        · rw [groups, if_neg ht, hgroups]
        · exact List.forall_mem_cons.mpr ⟨ht, hg⟩

/-- A group of tokens stands between two semicolons. -/
theorem exists_of_mem_groups (h : g ∈ groups ts) :
    ∃ xs ys, ts = xs ++ (g ++ ys) ∧ (∀ t ∈ g, ¬ t.isMark ';') ∧
      ∀ t ∈ ys.head?, t.isMark ';' := by
  induction ts with
  | nil =>
      obtain rfl := List.mem_singleton.mp h
      exact ⟨[], [], rfl, by simp, by simp⟩
  | cons t ts ih =>
      have hlater (h : g ∈ groups ts) : ∃ xs ys, t :: ts = xs ++ (g ++ ys) ∧
          (∀ t ∈ g, ¬ t.isMark ';') ∧ ∀ t ∈ ys.head?, t.isMark ';' := by
        obtain ⟨xs, ys, rfl, hg, hys⟩ := ih h
        exact ⟨t :: xs, ys, rfl, hg, hys⟩
      by_cases ht : t.isMark ';'
      · rw [groups_cons_mark ht] at h
        rcases List.mem_cons.mp h with rfl | h
        · exact ⟨[], t :: ts, rfl, by simp, by simpa using ht⟩
        · exact hlater h
      · obtain ⟨g', gs, ys, hgroups, hts, hg, hys⟩ := exists_groups_eq ts
        rw [groups, if_neg ht, hgroups] at h
        rcases List.mem_cons.mp h with rfl | h
        · refine ⟨[], ys, ?_, List.forall_mem_cons.mpr ⟨ht, hg⟩, hys⟩
          rw [hts]
          rfl
        · exact hlater (by rw [hgroups]; exact List.mem_cons_of_mem _ h)

/-- Tokens without those before the first and after the last of a kind. -/
theorem exists_trimmed {p : Token → Bool} (h : ts.filter p = g) (hg : g ≠ []) :
    ∃ xs run ys, ts = xs ++ (run ++ ys) ∧ run.filter p = g ∧ run.head? = g.head? ∧
      run.getLast? = g.getLast? ∧ ∀ t ∈ ys, ¬ p t := by
  obtain ⟨first, g, rfl⟩ := List.exists_cons_of_ne_nil hg
  obtain ⟨xs, us, rfl, hxs, hfirst, hus⟩ := List.filter_eq_cons_iff.mp h
  have hreverse : (first :: us).reverse.filter p = (first :: g).reverse := by
    rw [List.filter_reverse, List.filter_cons_of_pos hfirst, hus]
  obtain ⟨last, g', hlast⟩ := List.exists_cons_of_ne_nil
    (List.reverse_ne_nil_iff.mpr (List.cons_ne_nil first g))
  rw [hlast] at hreverse
  obtain ⟨ys, vs, hsplit, hys, hp, hvs⟩ := List.filter_eq_cons_iff.mp hreverse
  have hrun : first :: us = (last :: vs).reverse ++ ys.reverse := by
    rw [← List.reverse_append, ← hsplit, List.reverse_reverse]
  have hnone : ys.reverse.filter p = [] := by
    rw [List.filter_reverse, List.filter_eq_nil_iff.mpr hys, List.reverse_nil]
  refine ⟨xs, (last :: vs).reverse, ys.reverse, by rw [← hrun], ?_, ?_, ?_, ?_⟩
  · have hall := congrArg (List.filter p) hrun
    rw [List.filter_append, hnone, List.append_nil, List.filter_cons_of_pos hfirst, hus] at hall
    exact hall.symm
  · have hhead := congrArg List.head? hrun
    rwa [List.head?_append_of_ne_nil _ (by simp), eq_comm] at hhead
  · rw [List.getLast?_reverse, ← List.head?_reverse, hlast]
    rfl
  · exact fun t ht => hys t (List.mem_reverse.mp ht)

/-- A statement is a run of the tokens of its script, with what counts for nothing in
between, and behind it the next thing that counts is a semicolon. -/
theorem exists_run {script : String} {s : Statement} (h : s ∈ ofScript script) :
    ∃ xs run ys, Token.scan script = xs ++ (run ++ ys) ∧
      run.filter Token.isSignificant = s.tokens ∧ run.head? = s.tokens.head? ∧
      run.getLast? = s.tokens.getLast? ∧ s.tokens ≠ [] ∧ (∀ t ∈ s.tokens, ¬ t.isMark ';') ∧
      ∀ t ∈ ys.head?, ¬ t.isMark '{' := by
  obtain ⟨hgroup, hne⟩ := List.mem_filter.mp (tokens_mem_of_mem_number _ 0 s h)
  have hne : s.tokens ≠ [] := by simpa using hne
  obtain ⟨before, after, hsignificant, hsemicolon, hafter⟩ := exists_of_mem_groups hgroup
  obtain ⟨us, vs, hscan, -, hvs⟩ := List.filter_eq_append_iff.mp hsignificant
  obtain ⟨ms, ws, rfl, hms, hws⟩ := List.filter_eq_append_iff.mp hvs
  obtain ⟨xs, run, ys, rfl, hrun, hhead, hlast, hys⟩ := exists_trimmed hms hne
  refine ⟨us ++ xs, run, ys ++ ws, by rw [hscan]; simp, hrun, hhead, hlast, hne, hsemicolon,
    fun t ht hbrace => ?_⟩
  have hsig : t.isSignificant := by rw [Token.isSignificant, kind_of_isMark hbrace]
  cases ys with
  | cons y ys =>
      obtain rfl : y = t := Option.some.inj ht
      exact hys y List.mem_cons_self hsig
  | nil =>
      cases ws with
      | nil => cases ht
      | cons w ws =>
          obtain rfl : w = t := Option.some.inj ht
          rw [List.filter_cons_of_pos hsig] at hws
          have hmark := hafter w (by rw [← hws]; rfl)
          exact not_isMark_of_isMark hmark (by decide) hbrace

/-- The text of a statement is read as what stands there in the script. -/
theorem exists_scan_text {script : String} {s : Statement} (h : s ∈ ofScript script) :
    ∃ xs run ys, Token.scan script = xs ++ (run ++ ys) ∧
      run.filter Token.isSignificant = s.tokens ∧
      Token.scan (s.text script) = run.map (rebase s.span.start.toNat) := by
  obtain ⟨xs, run, ys, hscan, hrun, hhead, hlast, hne, -, hys⟩ := exists_run h
  have hfirst := List.head?_eq_some_head hne
  have hlast' := List.getLast?_eq_some_getLast hne
  have hends : ¬ endsInDollar run := fun hends => by
    obtain ⟨t, ht, hbrace⟩ := isMark_of_endsInDollar hscan hends
    exact hys t ht hbrace
  have htext := (scan_slice_iff hscan (by rw [hhead, hfirst]; rfl)
    (by rw [hlast, hlast']; rfl)).mpr hends
  have hspan : s.span = ⟨(s.tokens.head hne).offset, (s.tokens.getLast hne).stop⟩ := by
    simp only [span, hfirst, hlast']
  refine ⟨xs, run, ys, hscan, hrun, ?_⟩
  rw [text, hspan, htext]
  rfl

/-- The text of a statement is a script of that one statement. -/
theorem ofScript_text {script : String} {s : Statement} (h : s ∈ ofScript script) :
    ofScript (s.text script) = [⟨0, s.tokens.map (rebase s.span.start.toNat)⟩] := by
  obtain ⟨xs, run, ys, -, hrun, htext⟩ := exists_scan_text h
  obtain ⟨-, -, -, -, -, -, -, hne, hsemicolon, -⟩ := exists_run h
  obtain ⟨first, tokens, htokens⟩ := List.exists_cons_of_ne_nil hne
  have hfilter : (run.map (rebase s.span.start.toNat)).filter isSignificant =
      s.tokens.map (rebase s.span.start.toNat) := by
    rw [List.filter_map, ← hrun]
    rfl
  have hgroups : groups (s.tokens.map (rebase s.span.start.toNat)) =
      [s.tokens.map (rebase s.span.start.toNat)] := by
    refine groups_eq_singleton fun t ht => ?_
    obtain ⟨u, hu, rfl⟩ := List.mem_map.mp ht
    exact hsemicolon u hu
  rw [ofScript, htext, ofTokens, hfilter, hgroups]
  rw [htokens]
  rfl

/-- What some tokens of a script cover is read as those tokens, unless it ends between the
`$` and the `{` of a substitution that ends a word. The text of a statement is read as
that statement in any case. -/
theorem scan_slices (script : String) :
    (∀ run first last, run <:+: Token.scan script → first ∈ run.head? → last ∈ run.getLast? →
      (Token.scan ((⟨first.offset, last.stop⟩ : Span).slice script) =
        run.map (rebase first.offset) ↔ ¬ endsInDollar run)) ∧
    ∀ s ∈ ofScript script,
      ofScript (s.text script) = [⟨0, s.tokens.map (rebase s.span.start.toNat)⟩] := by
  refine ⟨fun run first last hrun hfirst hlast => ?_, fun s hs => ofScript_text hs⟩
  obtain ⟨xs, ys, hscan⟩ := hrun
  rw [List.append_assoc] at hscan
  exact scan_slice_iff hscan.symm hfirst hlast

/-- What looks like the start of an exponent is none, and is cut off in the middle. -/
theorem scan_slices_number :
    let script := "SELECT 1.5e+x"
    let run := ((Token.scan script).drop 2).take 3
    run <:+: Token.scan script ∧ ¬ endsInDollar run ∧
      Token.scan "1.5e+" = run.map (rebase 7) := by
  intro script run
  have hrun : run <:+: Token.scan script :=
    ⟨(Token.scan script).take 2, (Token.scan script).drop 5, by decide +kernel⟩
  have hends : ¬ endsInDollar run := by decide +kernel
  have hslice : (⟨7, 12⟩ : Span).slice script = "1.5e+" := by decide +kernel
  refine ⟨hrun, hends, ?_⟩
  rw [← hslice]
  exact ((scan_slices script).1 run ⟨.number, "1.5", 7⟩ ⟨.punctuation '+', "+", 11⟩ hrun
    (by decide +kernel) (by decide +kernel)).mpr hends

/-- Cut off before the `{` that ends it, a word goes on. -/
theorem not_scan_slices :
    ¬ ∀ (script : String) (run : List Token) (first last : Token),
      run <:+: Token.scan script → first ∈ run.head? → last ∈ run.getLast? →
        Token.scan ((⟨first.offset, last.stop⟩ : Span).slice script) =
          run.map (rebase first.offset) := by
  intro h
  have hscan := h "a$\x7bb" [⟨.identifier, "a", 0⟩, ⟨.punctuation '$', "$", 1⟩]
    ⟨.identifier, "a", 0⟩ ⟨.punctuation '$', "$", 1⟩
    ⟨[], (Token.scan "a$\x7bb").drop 2, by decide +kernel⟩ rfl rfl
  exact absurd hscan (by decide +kernel)

end Statement

end SqlTables
