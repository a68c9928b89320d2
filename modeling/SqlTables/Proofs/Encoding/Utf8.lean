import SqlTables.Encoding.Utf8

/-!
# The bytes of a text read back

`Utf8.encode` writes well-formed UTF-8: decoding its bytes gives the characters again
(`Utf8.decode_encode`). The range of the second byte is what the proof turns on, since
overlong forms and surrogates would fall out of it.
-/

namespace SqlTables

namespace Utf8

/-- A code point is no surrogate and not too large. -/
theorem isScalar_toNat (c : Char) :
    c.toNat < 0xD800 ∨ (0xDFFF < c.toNat ∧ c.toNat < 0x110000) := c.valid

theorem toNat_continuation (n shift : Nat) :
    (continuation n shift).toNat = 0x80 + n / Nat.pow 2 shift % 64 := by
  have hlt : n / Nat.pow 2 shift % 64 < 64 := Nat.mod_lt _ (by decide)
  change (0x80 + n / Nat.pow 2 shift % 64) % 256 = _
  omega

theorem toNat_ofNat {n : Nat} (h : n < 256) : (UInt8.ofNat n).toNat = n :=
  Nat.mod_eq_of_lt h

/-- Bytes are compared as numbers. -/
theorem isBetween_iff (low b high : UInt8) :
    (low ≤ b ∧ b ≤ high) ↔ low.toNat ≤ b.toNat ∧ b.toNat ≤ high.toNat := by
  rw [UInt8.le_iff_toNat_le, UInt8.le_iff_toNat_le]

variable {p : Pending} {b : UInt8}

/-- The last byte of a character. -/
theorem decodeFrom_last (position : Nat) (rest : List UInt8)
    (hrange : p.low.toNat ≤ b.toNat ∧ b.toNat ≤ p.high.toNat) (hmissing : p.missing = 1) :
    decodeFrom position (some p) (b :: rest) =
      (decodeFrom (position + 1) none rest).map
        (Char.ofNat (p.bits * 64 + (b.toNat - 0x80)) :: ·) := by
  rw [decodeFrom]
  simp only
  rw [if_pos ((isBetween_iff _ _ _).mpr hrange), if_pos hmissing]

/-- A byte that others follow in its character. -/
theorem decodeFrom_further (position : Nat) (rest : List UInt8)
    (hrange : p.low.toNat ≤ b.toNat ∧ b.toNat ≤ p.high.toNat) (hmissing : p.missing ≠ 1) :
    decodeFrom position (some p) (b :: rest) =
      decodeFrom (position + 1)
        (some ⟨p.start, p.lead, p.bits * 64 + (b.toNat - 0x80), p.missing - 1, 0x80, 0xBF⟩)
        rest := by
  rw [decodeFrom]
  simp only
  rw [if_pos ((isBetween_iff _ _ _).mpr hrange), if_neg hmissing]

/-- The first byte of a longer character. -/
theorem decodeFrom_lead (position : Nat) (rest : List UInt8) (hb : 0x80 ≤ b.toNat)
    (hp : begin? position b = some p) :
    decodeFrom position none (b :: rest) = decodeFrom (position + 1) (some p) rest := by
  have hnot : ¬ b < 0x80 := by
    rw [UInt8.lt_iff_toNat_lt]
    exact Nat.not_lt.mpr hb
  simp only [decodeFrom, if_neg hnot, hp]

/-- A byte that is tested for one value is so as a number. -/
theorem toNat_ite (b value yes no : UInt8) :
    (if b = value then yes else no).toNat =
      if b.toNat = value.toNat then yes.toNat else no.toNat := by
  rw [apply_ite UInt8.toNat]
  simp only [UInt8.toNat_inj]

theorem begin?_two (position : Nat) (hb : 0xC2 ≤ b.toNat ∧ b.toNat ≤ 0xDF) :
    begin? position b = some ⟨position, b, b.toNat - 0xC0, 1, 0x80, 0xBF⟩ :=
  if_pos ((isBetween_iff 0xC2 b 0xDF).mpr hb)

theorem begin?_three (position : Nat) (hb : 0xE0 ≤ b.toNat ∧ b.toNat ≤ 0xEF) :
    begin? position b = some ⟨position, b, b.toNat - 0xE0, 2, if b = 0xE0 then 0xA0 else 0x80,
      if b = 0xED then 0x9F else 0xBF⟩ := by
  have hnot : ¬ (0xC2 ≤ b ∧ b ≤ 0xDF) := fun h =>
    absurd (Nat.le_trans hb.1 ((isBetween_iff _ _ _).mp h).2) (by decide)
  exact (if_neg hnot).trans (if_pos ((isBetween_iff 0xE0 b 0xEF).mpr hb))

theorem begin?_four (position : Nat) (hb : 0xF0 ≤ b.toNat ∧ b.toNat ≤ 0xF4) :
    begin? position b = some ⟨position, b, b.toNat - 0xF0, 3, if b = 0xF0 then 0x90 else 0x80,
      if b = 0xF4 then 0x8F else 0xBF⟩ := by
  have hnot : ¬ (0xC2 ≤ b ∧ b ≤ 0xDF) := fun h =>
    absurd (Nat.le_trans hb.1 ((isBetween_iff _ _ _).mp h).2) (by decide)
  have hnot' : ¬ (0xE0 ≤ b ∧ b ≤ 0xEF) := fun h =>
    absurd (Nat.le_trans hb.1 ((isBetween_iff _ _ _).mp h).2) (by decide)
  exact (if_neg hnot).trans ((if_neg hnot').trans (if_pos ((isBetween_iff 0xF0 b 0xF4).mpr hb)))

/-! ## The bytes of one character -/

section Character

variable {c : Char} (position : Nat) (rest : List UInt8)

theorem ofNat_of_eq_toNat {n : Nat} (h : n = c.toNat) : Char.ofNat n = c := by
  rw [h]
  exact Char.ofNat_toNat c

theorem decodeFrom_one (h : c.toNat < 0x80) :
    decodeFrom position none (UInt8.ofNat c.toNat :: rest) =
      (decodeFrom (position + 1) none rest).map (c :: ·) := by
  have hb : (UInt8.ofNat c.toNat).toNat = c.toNat := toNat_ofNat (by omega)
  have hlt : UInt8.ofNat c.toNat < 0x80 := by
    rw [UInt8.lt_iff_toNat_lt, hb]
    exact h
  simp only [decodeFrom, if_pos hlt, ofNat_of_eq_toNat hb]

theorem decodeFrom_two (h : 0x80 ≤ c.toNat) (h' : c.toNat < 0x800) :
    decodeFrom position none
      (UInt8.ofNat (0xC0 + c.toNat / 64) :: continuation c.toNat 0 :: rest) =
        (decodeFrom (position + 2) none rest).map (c :: ·) := by
  have hb : (UInt8.ofNat (0xC0 + c.toNat / 64)).toNat = 0xC0 + c.toNat / 64 :=
    toNat_ofNat (by omega)
  have hlow : _ = 0x80 + c.toNat / 1 % 64 := toNat_continuation c.toNat 0
  rw [decodeFrom_lead _ _ (by omega) (begin?_two _ (by omega)), decodeFrom_last _ _ ?_ rfl,
    ofNat_of_eq_toNat ?_]
  · dsimp only
    omega
  · change 0x80 ≤ _ ∧ _ ≤ 0xBF
    omega

theorem decodeFrom_three (h : 0x800 ≤ c.toNat) (h' : c.toNat < 0x10000) :
    decodeFrom position none (UInt8.ofNat (0xE0 + c.toNat / 4096) :: continuation c.toNat 6 ::
      continuation c.toNat 0 :: rest) =
        (decodeFrom (position + 3) none rest).map (c :: ·) := by
  have hscalar := isScalar_toNat c
  have hb : (UInt8.ofNat (0xE0 + c.toNat / 4096)).toNat = 0xE0 + c.toNat / 4096 :=
    toNat_ofNat (by omega)
  have hlow : _ = 0x80 + c.toNat / 1 % 64 := toNat_continuation c.toNat 0
  have hmiddle : _ = 0x80 + c.toNat / 64 % 64 := toNat_continuation c.toNat 6
  rw [decodeFrom_lead _ _ (by omega) (begin?_three _ (by omega)),
    decodeFrom_further _ _ ?_ (by decide : 2 ≠ 1), decodeFrom_last _ _ ?_ rfl,
    ofNat_of_eq_toNat ?_]
  · dsimp only
    omega
  · change 0x80 ≤ _ ∧ _ ≤ 0xBF
    omega
  · dsimp only
    rw [toNat_ite, toNat_ite]
    change (if _ = 0xE0 then 0xA0 else 0x80) ≤ _ ∧ _ ≤ (if _ = 0xED then 0x9F else 0xBF)
    split <;> split <;> omega

theorem decodeFrom_four (h : 0x10000 ≤ c.toNat) :
    decodeFrom position none (UInt8.ofNat (0xF0 + c.toNat / 262144) :: continuation c.toNat 12 ::
      continuation c.toNat 6 :: continuation c.toNat 0 :: rest) =
        (decodeFrom (position + 4) none rest).map (c :: ·) := by
  have hscalar := isScalar_toNat c
  have hb : (UInt8.ofNat (0xF0 + c.toNat / 262144)).toNat = 0xF0 + c.toNat / 262144 :=
    toNat_ofNat (by omega)
  have hlow : _ = 0x80 + c.toNat / 1 % 64 := toNat_continuation c.toNat 0
  have hmiddle : _ = 0x80 + c.toNat / 64 % 64 := toNat_continuation c.toNat 6
  have hhigh : _ = 0x80 + c.toNat / 4096 % 64 := toNat_continuation c.toNat 12
  rw [decodeFrom_lead _ _ (by omega) (begin?_four _ (by omega)),
    decodeFrom_further _ _ ?_ (by decide : 3 ≠ 1), decodeFrom_further _ _ ?_ (by decide : 2 ≠ 1),
    decodeFrom_last _ _ ?_ rfl, ofNat_of_eq_toNat ?_]
  · dsimp only
    omega
  · change 0x80 ≤ _ ∧ _ ≤ 0xBF
    omega
  · change 0x80 ≤ _ ∧ _ ≤ 0xBF
    omega
  · dsimp only
    rw [toNat_ite, toNat_ite]
    change (if _ = 0xF0 then 0x90 else 0x80) ≤ _ ∧ _ ≤ (if _ = 0xF4 then 0x8F else 0xBF)
    split <;> split <;> omega

/-- The bytes of one character are read as that character. -/
theorem decodeFrom_encodeChar (c : Char) :
    decodeFrom position none (encodeChar c ++ rest) =
      (decodeFrom (position + (encodeChar c).length) none rest).map (c :: ·) := by
  unfold encodeChar
  dsimp only
  split
  · next hone => exact decodeFrom_one position rest hone
  · next hone =>
      split
      · next htwo => exact decodeFrom_two position rest (Nat.le_of_not_lt hone) htwo
      · next htwo =>
          split
          · next hthree => exact decodeFrom_three position rest (Nat.le_of_not_lt htwo) hthree
          · next hthree => exact decodeFrom_four position rest (Nat.le_of_not_lt hthree)

end Character

theorem decode_encode (chars : List Char) : decode (encode chars) = .ok chars := by
  have hfrom (position : Nat) : decodeFrom position none (encode chars) = .ok chars := by
    induction chars generalizing position with
    | nil => rfl
    | cons c chars ih =>
        rw [encode, List.flatMap_cons, decodeFrom_encodeChar]
        change Except.map _ (decodeFrom _ none (encode chars)) = _
        rw [ih]
        rfl
  exact hfrom 0

theorem length_encodeChar_pos (c : Char) : 0 < (encodeChar c).length := by
  simp only [encodeChar]
  split
  · simp
  · split
    · simp
    · split <;> simp

/-- Every character takes a byte at least. -/
theorem length_le_length_encode (chars : List Char) : chars.length ≤ (encode chars).length := by
  induction chars with
  | nil => exact Nat.le_refl 0
  | cons c chars ih =>
      have hchar := length_encodeChar_pos c
      have hencode : encode (c :: chars) = encodeChar c ++ encode chars := List.flatMap_cons
      rw [hencode, List.length_cons, List.length_append]
      omega

end Utf8

end SqlTables
