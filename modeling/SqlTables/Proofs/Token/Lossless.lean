import Mathlib.Data.List.Chain
import SqlTables.Proofs.Token.Cut

/-!
# A scan loses nothing

The tokens of a text lie side by side: the first one starts where the text does, each one
starts where the one before it ends, and the last one ends where the text does. None of
them is empty, so the scan ends, and each is the part of the text that its span covers.
-/

namespace SqlTables

namespace Lexer

open Token

variable {r b : List Char} {o : Nat} {ts : List Token} {t : Token}

/-- A text is made of the tokens of its scan. -/
theorem cut_scanFrom (o : Nat) (b : List Char) : Cut [] o b (Lexer.scanFrom o 0 b) := by
  induction hn : b.length using Nat.strongRecOn generalizing o b with
  | ind n ih =>
      cases b with
      | nil => exact .nil o
      | cons c rest =>
          cases hlex : lexeme c rest with
          | mk kind more =>
              have hprefix := isPrefix_lexeme c rest
              rw [hlex] at hprefix
              obtain ⟨b, rfl⟩ := hprefix
              rw [scanFrom_cons o hlex rfl]
              refine .cons (by rwa [List.append_nil]) (ih b.length ?_ _ b rfl)
              rw [← hn, List.length_cons, List.length_append]
              omega

theorem Cut.text_ne_empty (h : Cut r o b ts) : ∀ t ∈ ts, t.text ≠ "" := by
  induction h with
  | nil o => exact List.forall_mem_nil _
  | cons h hb ih =>
      refine List.forall_mem_cons.mpr ⟨fun htext => ?_, ih⟩
      rw [String.ofList_eq_empty_iff] at htext
      cases htext

theorem Cut.length_le (h : Cut r o b ts) : ts.length ≤ b.length := by
  induction h with
  | nil o => exact Nat.le_refl 0
  | cons h hb ih =>
      rw [List.length_cons, List.length_cons, List.length_append]
      omega

theorem Cut.offset_head (h : Cut r o b ts) : ∀ t ∈ ts.head?, t.offset = o := by
  cases h with
  | nil => exact fun t ht => nomatch ht
  | cons h hb =>
      rintro t ⟨⟩
      rfl

theorem stop_ofList (kind : TokenKind) (c : Char) (more : List Char) (o : Nat) :
    (⟨kind, String.ofList (c :: more), o⟩ : Token).stop = o + (more.length + 1) := by
  rw [Token.stop, String.length_ofList, List.length_cons]

/-- Each token of a cut starts where the one before it ends. -/
theorem Cut.isChain (h : Cut r o b ts) : ts.IsChain fun t u => u.offset = t.stop := by
  induction h with
  | nil o => exact .nil
  | cons h hb ih =>
      refine List.isChain_cons.mpr ⟨fun u hu => ?_, ih⟩
      rw [hb.offset_head u hu, stop_ofList]

theorem Cut.stop_getLast (h : Cut r o b ts) : ∀ t ∈ ts.getLast?, t.stop = o + b.length := by
  induction h with
  | nil o => exact fun t ht => nomatch ht
  | @cons o c more b kind ts h hb ih =>
      intro t ht
      rw [List.length_cons, List.length_append]
      cases hb with
      | nil =>
          rw [List.getLast?_singleton, Option.mem_some] at ht
          rw [← ht, stop_ofList, List.length_nil, Nat.add_zero]
      | cons h hb =>
          rw [List.getLast?_cons_cons] at ht
          rw [ih t ht]
          omega

theorem Cut.join (h : Cut r o b ts) : String.join (ts.map Token.text) = String.ofList b := by
  induction h with
  | nil o => rfl
  | cons h hb ih =>
      rw [List.map_cons, String.join_cons, ih, ← String.ofList_append, List.cons_append]

/-- Each token of a cut is one that the lexer reads somewhere. -/
theorem Cut.lexeme_of_mem (h : Cut r o b ts) (ht : t ∈ ts) :
    ∃ c more rest, lexeme c rest = (t.kind, more) ∧ t.text.toList = c :: more := by
  induction h with
  | nil o => cases ht
  | cons h hb ih =>
      rcases List.mem_cons.mp ht with rfl | ht
      · exact ⟨_, _, _, h, String.toList_ofList⟩
      · exact ih ht

/-- A token of a cut is the part of the text that stands at its offset. -/
theorem Cut.exists_of_mem (h : Cut r o b ts) (ht : t ∈ ts) :
    ∃ x y, b = x ++ (t.text.toList ++ y) ∧ t.offset = o + x.length := by
  induction h with
  | nil o => cases ht
  | @cons o c more b kind ts h hb ih =>
      rcases List.mem_cons.mp ht with rfl | ht
      · exact ⟨[], b, by rw [String.toList_ofList]; rfl, rfl⟩
      · obtain ⟨x, y, rfl, hoffset⟩ := ih ht
        refine ⟨c :: (more ++ x), y, by rw [List.cons_append, List.append_assoc], ?_⟩
        rw [hoffset, List.length_cons, List.length_append]
        omega

end Lexer

/-- What stands between its bounds is the part of a text that a span covers. -/
theorem Span.slice_append (x s y : List Char) :
    (⟨x.length, (x.length + s.length : Nat)⟩ : Span).slice (String.ofList (x ++ (s ++ y))) =
      String.ofList s := by
  have hstart : min x.length (x ++ (s ++ y)).length = x.length := by
    rw [List.length_append]; omega
  have hstop : min (x.length + s.length) (x ++ (s ++ y)).length = (x ++ s).length := by
    simp only [List.length_append]; omega
  rw [slice, String.toList_ofList]
  dsimp only
  rw [clamp_natCast, clamp_natCast, hstart, hstop, ← List.append_assoc, List.take_left,
    List.drop_left]

namespace Token

/-- The tokens are all of a text, in its order and without a gap. -/
structure IsLossless (text : String) (tokens : List Token) : Prop where
  length_le : tokens.length ≤ text.length
  text_ne_empty : ∀ t ∈ tokens, t.text ≠ ""
  starts : ∀ t ∈ tokens.head?, t.offset = 0
  continues : tokens.IsChain fun t u => u.offset = t.stop
  ends : ∀ t ∈ tokens.getLast?, t.stop = text.length
  slice : ∀ t ∈ tokens, t.span.slice text = t.text
  join : String.join (tokens.map Token.text) = text

/-- Whatever the text is, none of it is lost. -/
theorem isLossless_scan (text : String) : IsLossless text (scan text) := by
  have hcut : Lexer.Cut [] 0 text.toList (scan text) := Lexer.cut_scanFrom 0 text.toList
  refine ⟨?_, hcut.text_ne_empty, hcut.offset_head, hcut.isChain, fun t ht => ?_,
    fun t ht => ?_, ?_⟩
  · rw [← String.length_toList]
    exact hcut.length_le
  · rw [hcut.stop_getLast t ht, Nat.zero_add, String.length_toList]
  · obtain ⟨x, y, htext, hoffset⟩ := hcut.exists_of_mem ht
    rw [Nat.zero_add] at hoffset
    have hslice := Span.slice_append x t.text.toList y
    rw [← htext, String.ofList_toList, String.ofList_toList, String.length_toList, ← hoffset]
      at hslice
    exact hslice
  · rw [hcut.join, String.ofList_toList]

end Token

end SqlTables
