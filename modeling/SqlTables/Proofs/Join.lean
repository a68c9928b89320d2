import SqlTables.Proofs.Found
import SqlTables.Proofs.Respelling
import SqlTables.Proofs.Slice
import SqlTables.Proofs.Token.Seam

/-!
# Scripts behind one another

`Script.join a b` is the script `a`, a semicolon on a line of its own, and the script `b`. If
nothing of `a` reaches into `b`, its statements are those of `a` and then those of `b`, further
back by as much as stands before them (`Statement.ofScript_join`). The text of a statement
leaves nothing open (`Statement.leaveNone_text`), so a script can be put behind it; and behind
the statements before another one at least a script without `}` can
(`Statement.exists_apart`).
-/

namespace SqlTables

/-- Nothing is left open behind the tokens. -/
structure Token.LeaveNone (ts : List Token) : Prop where
  terminated : ∀ t ∈ ts.getLast?, ¬ t.isUnterminated
  substituted : ¬ Token.opensSubstitution ts

/-- The token, `n` characters further back. -/
def Token.shift (n : Nat) (t : Token) : Token := { t with offset := t.offset + n }

/-- The statement, `k` statements and `n` characters further back. -/
def Statement.shift (k n : Nat) (s : Statement) : Statement :=
  ⟨s.index + k, s.tokens.map (Token.shift n)⟩

/-- The reference, `k` statements and `n` characters further back. -/
def Reference.shift (k n : Nat) (r : Reference) : Reference :=
  { r with span := r.span.map (· + n), statement := r.statement + k }

namespace Script

def join (a b : String) : String := a ++ "\n;\n" ++ b

/-- No token at the end of the script `a` goes on in `b`. -/
structure Apart (a b : String) : Prop where
  terminated : ∀ t ∈ (Token.scan a).getLast?, ¬ t.isUnterminated
  substituted : Token.opensSubstitution (Token.scan a) → '}' ∉ b.toList

/-- Every quote and block comment of the script is closed, and behind every `${` stands a `}`. -/
structure IsClosed (script : String) : Prop where
  terminated : ∀ t ∈ (Token.scan script).getLast?, ¬ t.isUnterminated
  substituted : ∀ rest, '$' :: '{' :: rest <:+ script.toList → '}' ∈ rest

theorem isClosed_iff (script : String) : IsClosed script ↔
    (∀ t ∈ (Token.scan script).getLast?, ¬ t.isUnterminated) ∧
      ∀ rest ∈ script.toList.tails, rest.take 2 = ['$', '{'] → '}' ∈ rest.drop 2 := by
  constructor
  · intro h
    refine ⟨h.terminated, fun rest hrest htake => h.substituted _ ?_⟩
    have hsplit := List.take_append_drop 2 rest
    rw [htake] at hsplit
    rw [List.mem_tails, ← hsplit] at hrest
    exact hrest
  · intro h
    exact ⟨h.1, fun rest hrest => h.2 _ ((List.mem_tails _ _).mpr hrest) rfl⟩

instance (script : String) : Decidable (IsClosed script) :=
  decidable_of_iff' _ (isClosed_iff script)

theorem toList_join (a b : String) :
    (join a b).toList = a.toList ++ '\n' :: ';' :: '\n' :: b.toList := by
  have hmark : ("\n;\n").toList = ['\n', ';', '\n'] := rfl
  rw [join, String.toList_append, String.toList_append, hmark, List.append_assoc]
  rfl

theorem IsClosed.leaveNone {script : String} (h : IsClosed script) :
    Token.LeaveNone (Token.scan script) := by
  refine ⟨h.terminated, fun hopen => ?_⟩
  obtain ⟨x, y, htext, hy⟩ :=
    (Lexer.cut_scanFrom 0 script.toList).exists_of_opensSubstitution hopen
  rw [List.append_nil] at hy
  exact hy (h.substituted y ⟨x, htext.symm⟩)

theorem apart_of_leaveNone {a : String} (h : Token.LeaveNone (Token.scan a)) (b : String) :
    Apart a b := ⟨h.terminated, fun hopen => absurd hopen h.substituted⟩

end Script

namespace Token

open Lexer

variable {a b : String} {ts us : List Token}

theorem opensSubstitution_map {f : Token → Token} (hf : ∀ t, (f t).kind = t.kind)
    (ts : List Token) : opensSubstitution (ts.map f) = opensSubstitution ts := by
  induction ts with
  | nil => rfl
  | cons t ts ih =>
      have hmark (t : Token) (c : Char) : (f t).isMark c = t.isMark c := by
        rw [isMark, isMark, hf]
      have hhead : (ts.map f).head?.any (fun u => u.isMark '{') =
          ts.head?.any fun u => u.isMark '{' := by
        cases ts with
        | nil => rfl
        | cons u ts => exact hmark u '{'
      rw [List.map_cons, opensSubstitution, opensSubstitution, hmark, hhead, ih]

theorem opensSubstitution_append_left (ts : List Token) (h : opensSubstitution us) :
    opensSubstitution (ts ++ us) := by
  induction ts with
  | nil => exact h
  | cons t ts ih =>
      rw [List.cons_append, opensSubstitution, Bool.or_eq_true]
      exact Or.inr ih

theorem opensSubstitution_append_right (us : List Token) (h : opensSubstitution ts) :
    opensSubstitution (ts ++ us) := by
  induction ts with
  | nil => cases h
  | cons t ts ih =>
      rw [List.cons_append, opensSubstitution, Bool.or_eq_true] at *
      rcases h with hpair | h
      · left
        cases ts with
        | nil => simp at hpair
        | cons u ts => exact hpair
      · exact Or.inr (ih h)

/-- What counts in a script that stands behind another one. -/
theorem scanSignificant_join (h : Script.Apart a b) :
    scanSignificant (Script.join a b) = scanSignificant a ++
      ⟨.punctuation ';', ";", a.length + 1⟩ :: (scanSignificant b).map (shift (a.length + 3)) := by
  have hblank : Unicode.isBlank '\n' := by decide
  have hmark : lexeme ';' ('\n' :: b.toList) = (.punctuation ';', []) :=
    lexeme_mark (by decide +kernel) (by decide) _
  have hsemicolon : scanFrom (a.length + 1) 0 (';' :: '\n' :: b.toList) =
      ⟨.punctuation ';', ";", a.length + 1⟩ :: scanFrom (a.length + 2) 0 ('\n' :: b.toList) :=
    scanFrom_cons _ hmark rfl
  have hbrace (hopen : opensSubstitution (scan a)) : '}' ∉ ';' :: '\n' :: b.toList := by
    simpa using h.substituted hopen
  have hlast : (scanFrom (a.length + 3) 0 b.toList).filter isSignificant =
      (scanSignificant b).map (shift (a.length + 3)) := by
    have hshift := scanFrom_add (a.length + 3) 0 0 b.toList
    rw [Nat.zero_add] at hshift
    rw [hshift, List.filter_map]
    rfl
  rw [scanSignificant, scan, Script.toList_join,
    (cut_scanFrom 0 a.toList).filter_append hbrace h.terminated, Nat.zero_add,
    String.length_toList, filter_scanFrom_blank _ hblank, hsemicolon,
    List.filter_cons_of_pos rfl, filter_scanFrom_blank _ hblank, hlast]
  rfl

end Token

namespace Statement

open Token

theorem groups_map {f : Token → Token} (hf : ∀ t : Token, (f t).isMark ';' = t.isMark ';')
    (ts : List Token) : groups (ts.map f) = (groups ts).map (List.map f) := by
  induction ts with
  | nil => rfl
  | cons t ts ih =>
      rw [List.map_cons, groups, groups, hf, ih]
      split
      · rfl
      · cases groups ts with
        | nil => rfl
        | cons g gs => rfl

theorem length_number (index : Nat) (gs : List (List Token)) :
    (number index gs).length = gs.length := by
  induction gs generalizing index with
  | nil => rfl
  | cons g gs ih => rw [number, List.length_cons, ih, List.length_cons]

theorem number_append (index : Nat) (gs hs : List (List Token)) :
    number index (gs ++ hs) = number index gs ++ number (index + gs.length) hs := by
  induction gs generalizing index with
  | nil => rfl
  | cons g gs ih =>
      rw [List.cons_append, number, number, ih, List.cons_append, List.length_cons,
        Nat.add_assoc, Nat.add_comm 1]

theorem number_map (f : Token → Token) (index k : Nat) (gs : List (List Token)) :
    number (index + k) (gs.map (List.map f)) =
      (number index gs).map fun s => ⟨s.index + k, s.tokens.map f⟩ := by
  induction gs generalizing index with
  | nil => rfl
  | cons g gs ih =>
      rw [List.map_cons, number, number, List.map_cons, Nat.add_right_comm, ih]

/-- The groups before one statement and behind it. -/
theorem number_eq_append {gs : List (List Token)} {i : Nat} {ss rest : List Statement}
    {s : Statement} (h : number i gs = ss ++ s :: rest) :
    ∃ before after, gs = before ++ s.tokens :: after ∧ number i before = ss ∧
      s.index = i + ss.length ∧ number (i + ss.length + 1) after = rest := by
  have hsplit := h
  rw [← List.take_append_drop ss.length gs, number_append, List.length_take] at hsplit
  have hlength := congrArg List.length h
  rw [length_number, List.length_append, List.length_cons] at hlength
  have hle : min ss.length gs.length = ss.length := Nat.min_eq_left (by omega)
  rw [hle] at hsplit
  obtain ⟨hbefore, hafter⟩ := List.append_inj hsplit (by rw [length_number, List.length_take, hle])
  cases hdrop : gs.drop ss.length with
  | nil =>
      rw [hdrop] at hafter
      cases hafter
  | cons g after =>
      rw [hdrop, number, List.cons.injEq] at hafter
      obtain ⟨rfl, hrest⟩ := hafter
      exact ⟨gs.take ss.length, after, by rw [← hdrop, List.take_append_drop], hbefore, rfl, hrest⟩

/-- The statements of two scripts behind one another. -/
theorem ofScript_join {a b : String} (h : Script.Apart a b) :
    ofScript (Script.join a b) =
      ofScript a ++ (ofScript b).map (shift (ofScript a).length (a.length + 3)) := by
  have hsignificant := scanSignificant_join h
  have hmark (t : Token) : (Token.shift (a.length + 3) t).isMark ';' = t.isMark ';' := rfl
  have hempty : (fun g : List Token => !g.isEmpty) ∘ List.map (Token.shift (a.length + 3)) =
      fun g => !g.isEmpty := by
    funext g
    cases g <;> rfl
  have hlength : (ofScript a).length =
      ((groups (scanSignificant a)).filter fun g => !g.isEmpty).length := length_number 0 _
  rw [scanSignificant] at hsignificant
  rw [ofScript, ofTokens, hsignificant, groups_append rfl, List.filter_append, number_append,
    groups_map hmark, List.filter_map, hempty, number_map, ← hlength]
  rfl

/-! ## The script before a statement -/

/-- Some of the groups that have tokens stand before a semicolon, unless they are none. -/
theorem exists_groups_before {ts : List Token} {before after : List (List Token)}
    {g : List Token} (h : (groups ts).filter (fun g => !g.isEmpty) = before ++ g :: after) :
    ∃ us vs, ts = us ++ vs ∧ (groups us).filter (fun g => !g.isEmpty) = before ∧
      (us = [] ∨ ∃ t ∈ vs.head?, t.isMark ';') := by
  induction hn : ts.length using Nat.strongRecOn generalizing ts before with
  | ind n ih =>
      cases before with
      | nil => exact ⟨[], ts, rfl, rfl, Or.inl rfl⟩
      | cons first before =>
          obtain ⟨g₀, -, ys, -, rfl, hg₀, hys⟩ := exists_groups_eq ts
          cases ys with
          | nil =>
              have hlength := congrArg List.length h
              rw [List.append_nil, groups_eq_singleton hg₀, List.length_append, List.length_cons,
                List.length_cons] at hlength
              have hle := List.length_filter_le (fun g : List Token => !g.isEmpty) [g₀]
              rw [List.length_singleton] at hle
              omega
          | cons t ys =>
              have ht := hys t rfl
              rw [groups_append ht, groups_eq_singleton hg₀, List.filter_append] at h
              obtain ⟨later, hbefore, hlater⟩ : ∃ later,
                  first :: before = [g₀].filter (fun g => !g.isEmpty) ++ later ∧
                    (groups ys).filter (fun g => !g.isEmpty) = later ++ g :: after := by
                cases g₀ with
                | nil => exact ⟨first :: before, rfl, h⟩
                | cons t₀ g₀ =>
                    rw [List.filter_cons_of_pos rfl, List.filter_nil, List.singleton_append,
                      List.cons_append, List.cons.injEq] at h
                    obtain ⟨rfl, h⟩ := h
                    exact ⟨before, rfl, h⟩
              rw [hbefore]
              obtain ⟨us, vs, hus, hgroups, hvs⟩ :=
                ih ys.length (by simp only [← hn, List.length_append, List.length_cons]; omega)
                  hlater rfl
              rcases hvs with rfl | hvs
              · refine ⟨g₀, t :: ys, rfl, ?_, Or.inr ⟨t, rfl, ht⟩⟩
                rw [groups_eq_singleton hg₀, ← hgroups, groups_nil]
                exact (List.append_nil _).symm
              · refine ⟨g₀ ++ t :: us, vs, by rw [hus, List.append_assoc, List.cons_append], ?_,
                  Or.inr hvs⟩
                rw [groups_append ht, groups_eq_singleton hg₀, List.filter_append, hgroups]

/-- The tokens before another one are those of the text before it, unless a word would go on
there. -/
theorem exists_scan_before {script : String} {xs ys : List Token}
    (hscan : Token.scan script = xs ++ ys) (hne : ys ≠ []) (hends : ¬ endsInDollar xs) :
    ∃ a, Token.scan a = xs ∧ ∀ t ∈ xs.getLast?, ¬ t.isUnterminated := by
  have hcut := Lexer.cut_scanFrom 0 script.toList
  rw [← Token.scan, hscan] at hcut
  obtain ⟨b, z, -, hb, -⟩ := hcut.of_append
  have hread := (hb.truncate hends).scanFrom
  rw [List.append_nil, Lexer.scanFrom, List.append_nil, ← String.toList_ofList (l := b)] at hread
  refine ⟨String.ofList b, hread, fun t ht hopen => ?_⟩
  obtain ⟨xs, rfl⟩ := List.getLast?_eq_some_iff.mp ht
  rw [List.append_assoc, List.singleton_append] at hcut
  exact hne (hcut.eq_nil_of_isUnterminated hopen).1

/-- The statements before another one are those of a script that stands before any script
without `}`. -/
theorem exists_apart {script : String} {ss rest : List Statement} {s : Statement}
    (h : ofScript script = ss ++ s :: rest) :
    ∃ a, ofScript a = ss ∧ ∀ b : String, '}' ∉ b.toList → Script.Apart a b := by
  obtain ⟨before, after, hgroups, hss, -⟩ := number_eq_append h
  obtain ⟨us, vs, hsignificant, hus, hvs⟩ := exists_groups_before hgroups
  obtain ⟨xs, ys, hscan, hxs, hys⟩ := List.filter_eq_append_iff.mp hsignificant
  rcases hvs with rfl | ⟨semicolon, hhead, hmark⟩
  · have hscan : Token.scan "" = [] := rfl
    refine ⟨"", ?_, fun b _ => ⟨?_, ?_⟩⟩
    · rw [← hss, ← hus]
      rfl
    · rw [hscan]
      exact fun t ht => nomatch ht
    · rw [hscan]
      exact fun hopen => nomatch hopen
  have hne : ys ≠ [] := by
    rintro rfl
    rw [← hys] at hhead
    cases hhead
  have hends : ¬ endsInDollar xs := fun hends => by
    have hrun : Token.scan script = [] ++ (xs ++ ys) := hscan
    obtain ⟨t, ht, hbrace⟩ := isMark_of_endsInDollar hrun hends
    obtain ⟨ys, rfl⟩ := List.head?_eq_some_iff.mp ht
    have hsig : t.isSignificant := by rw [Token.isSignificant, kind_of_isMark hbrace]
    rw [List.filter_cons_of_pos hsig] at hys
    rw [← hys] at hhead
    obtain rfl : t = semicolon := Option.some.inj hhead
    exact not_isMark_of_isMark hmark (by decide) hbrace
  obtain ⟨a, ha, hlast⟩ := exists_scan_before hscan hne hends
  refine ⟨a, ?_, fun _ hbrace => ⟨?_, fun _ => hbrace⟩⟩
  · rw [ofScript, ofTokens, ha, hxs, hus, hss]
  · rwa [ha]

/-! ## Statements further back -/

variable {s : Statement}

theorem shift_zero (s : Statement) : s.shift 0 0 = s := by
  have hid : Token.shift 0 = id := rfl
  rw [shift, hid, List.map_id]
  rfl

theorem respelled_shift (s : Statement) (n : Nat) : s.Respelled (· + (n : Int)) (s.shift 0 n) := by
  have htoken (t : Token) : t.Respelled (· + (n : Int)) (t.shift n) := by
    refine ⟨rfl, fun _ => rfl, ?_⟩
    simp only [Token.span, Token.stop, Token.shift, Span.map]
    congr 1
    omega
  refine ⟨rfl, ?_⟩
  rw [shift, List.forall₂_map_right_iff, List.forall₂_same]
  exact fun t _ => htoken t

theorem kind_shift (s : Statement) (k n : Nat) : (s.shift k n).kind = s.kind := by
  have hkind := kind_respelled (respelled_shift s n)
  exact hkind

theorem usedDatabase?_shift (s : Statement) (k n : Nat) :
    (s.shift k n).usedDatabase? = s.usedDatabase? := by
  have hused := usedDatabase?_respelled (respelled_shift s n)
  exact hused

theorem references_scan_shift (s : Statement) (k n : Nat) :
    (s.shift k n).scan.references = s.scan.references.map (Reference.shift k n) := by
  have htokens := (respelled_shift s n).tokens.imp fun _ _ ht => ht.moved
  have hfind := Scan.find_moved Scan.depthLimit htokens
  have hshift : (s.shift k n).tokens = (s.shift 0 n).tokens := rfl
  rw [scan, scan, hshift]
  dsimp only
  rw [hfind, List.map_map, List.map_map]
  rfl

theorem span_shift (hne : s.tokens ≠ []) (k n : Nat) :
    (s.shift k n).span = s.span.map (· + n) := by
  have hfirst := List.head?_eq_some_head hne
  have hlast := List.getLast?_eq_some_getLast hne
  simp only [span, shift, List.head?_map, List.getLast?_map, hfirst, hlast, Option.map_some]
  simp only [Token.stop, Token.shift, Span.map]
  congr 1
  omega

/-! ## Texts of statements -/

/-- A statement spans a part of its script. -/
theorem exists_slice {script : String} {s : Statement} (hs : s ∈ ofScript script) :
    ∃ x y z, script.toList = x ++ (y ++ z) ∧ s.span = ⟨x.length, (x.length + y.length : Nat)⟩ := by
  obtain ⟨xs, run, ys, hscan, -, hhead, hlast, hne, -⟩ := exists_run hs
  obtain ⟨x, y, z, hscript, hrun, -⟩ := exists_cuts hscan
  have hfirst := List.head?_eq_some_head hne
  have hlast' := List.getLast?_eq_some_getLast hne
  have hoffset := hrun.offset_head _ (by rw [hhead, hfirst]; rfl)
  have hstop := hrun.stop_getLast _ (by rw [hlast, hlast']; rfl)
  refine ⟨x, y, z, hscript, ?_⟩
  simp only [span, hfirst, hlast', hoffset, hstop]

/-- A statement that is further back in a longer script has the same text there. -/
theorem text_shift {script : String} {s : Statement} (hs : s ∈ ofScript script) (k : Nat)
    {whole : String} {before after : List Char}
    (hwhole : whole.toList = before ++ (script.toList ++ after)) :
    (s.shift k before.length).text whole = s.text script := by
  obtain ⟨x, y, z, hscript, hspan⟩ := exists_slice hs
  have hlater : (s.shift k before.length).span =
      ⟨(before ++ x).length, ((before ++ x).length + y.length : Nat)⟩ := by
    rw [span_shift (tokens_ne_nil hs), hspan, Span.map, List.length_append]
    dsimp only
    congr 1 <;> omega
  have hscript' : script = String.ofList (x ++ (y ++ z)) := by
    rw [← hscript, String.ofList_toList]
  have hwhole' : whole = String.ofList ((before ++ x) ++ (y ++ (z ++ after))) := by
    rw [← String.ofList_toList (s := whole), hwhole, hscript]
    simp
  rw [text, text, hlater, hspan, hwhole', Span.slice_append, hscript', Span.slice_append]

/-- The text of a statement is a script of that statement, which only stands further back in
the script. -/
theorem exists_ofScript_text {script : String} (hs : s ∈ ofScript script) :
    ∃ s₀ n, ofScript (s.text script) = [s₀] ∧ s₀.shift s.index n = s := by
  have hne := tokens_ne_nil hs
  have hfirst := List.head?_eq_some_head hne
  have hlast := List.getLast?_eq_some_getLast hne
  have hstart : s.span.start.toNat = (s.tokens.head hne).offset := by
    simp only [span, hfirst, hlast, Int.toNat_natCast]
  refine ⟨_, s.span.start.toNat, ofScript_text hs, ?_⟩
  have htokens : (s.tokens.map (rebase s.span.start.toNat)).map
      (Token.shift s.span.start.toNat) = s.tokens := by
    rw [List.map_map]
    refine (List.map_congr_left fun t ht => ?_).trans (List.map_id s.tokens)
    have hle := (ordered_tokens hs).head_le hfirst ht
    simp [rebase, Token.shift, hstart, Nat.sub_add_cancel hle]
  rw [shift, htokens, Nat.zero_add]

/-- The text of a statement leaves nothing open, if its script does not. -/
theorem leaveNone_text {script : String} (h : LeaveNone (Token.scan script))
    (hs : s ∈ ofScript script) : LeaveNone (Token.scan (s.text script)) := by
  obtain ⟨xs, run, ys, hscan, -, htext⟩ := exists_scan_text hs
  rw [htext]
  refine ⟨fun t ht hopen => ?_, fun hopen => ?_⟩
  · rw [List.getLast?_map] at ht
    obtain ⟨u, hu, rfl⟩ := Option.map_eq_some_iff.mp ht
    obtain ⟨run', rfl⟩ := List.getLast?_eq_some_iff.mp hu
    have hcut := Lexer.cut_scanFrom 0 script.toList
    rw [← Token.scan, hscan, List.append_assoc, ← List.append_assoc xs] at hcut
    obtain ⟨rfl, -⟩ := hcut.eq_nil_of_isUnterminated hopen
    refine h.terminated u ?_ hopen
    rw [hscan]
    simp
  · rw [opensSubstitution_map (f := rebase s.span.start.toNat) fun _ => rfl] at hopen
    refine h.substituted ?_
    rw [hscan]
    exact opensSubstitution_append_left xs (opensSubstitution_append_right ys hopen)

end Statement

end SqlTables
