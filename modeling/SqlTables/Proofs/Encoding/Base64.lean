import SqlTables.Encoding.Base64

/-!
# The bytes of a base64 text

`Base64.encode` writes the standard alphabet with padding, four characters for every
three bytes begun (`Base64.length_encode`). Its text reads back as the bytes
(`Base64.decode_encode`).
-/

namespace SqlTables

namespace Base64

/-- The character of the alphabet for six bits. -/
def digit (n : Nat) : Char :=
  if n < 26 then Char.ofNat ('A'.toNat + n)
  else if n < 52 then Char.ofNat ('a'.toNat + (n - 26))
  else if n < 62 then Char.ofNat ('0'.toNat + (n - 52))
  else if n = 62 then '+'
  else '/'

/-- The text of the bytes; a last group that is not full is padded to four characters. -/
def encode : List UInt8 → List Char
  | [] => []
  | [a] => [digit (a.toNat / 4), digit (a.toNat % 4 * 16), '=', '=']
  | [a, b] =>
    [digit (a.toNat / 4), digit (a.toNat % 4 * 16 + b.toNat / 16), digit (b.toNat % 16 * 4), '=']
  | a :: b :: c :: rest =>
    digit (a.toNat / 4) :: digit (a.toNat % 4 * 16 + b.toNat / 16) ::
      digit (b.toNat % 16 * 4 + c.toNat / 64) :: digit (c.toNat % 64) :: encode rest

/-- Whether a character may stand in the text of some bytes. -/
def isTextChar (c : Char) : Bool := c = '=' || (value? c).isSome

theorem value?_digit : ∀ n < 64, value? (digit n) = some n := by
  decide +kernel

theorem digit_ne_padding {n : Nat} (h : n < 64) : digit n ≠ '=' := by
  intro heq
  have hvalue := value?_digit n h
  rw [heq] at hvalue
  cases hvalue

theorem isTextChar_digit {n : Nat} (h : n < 64) : isTextChar (digit n) := by
  rw [isTextChar, value?_digit n h]
  exact Bool.or_true _

theorem length_encode (bytes : List UInt8) :
    (encode bytes).length = 4 * ((bytes.length + 2) / 3) := by
  induction bytes using encode.induct with
  | case1 => rfl
  | case2 a => simp [encode]
  | case3 a b => simp [encode]
  | case4 a b c rest ih =>
      simp only [encode, List.length_cons, ih]
      omega

theorem isTextChar_of_mem_encode {bytes : List UInt8} {c : Char} (h : c ∈ encode bytes) :
    isTextChar c := by
  have hlt (a : UInt8) : a.toNat < 256 := a.toNat_lt
  induction bytes using encode.induct with
  | case1 => cases h
  | case2 a =>
      have ha := hlt a
      simp only [encode, List.mem_cons, List.not_mem_nil, or_false] at h
      rcases h with rfl | rfl | rfl | rfl
      · exact isTextChar_digit (by omega)
      · exact isTextChar_digit (by omega)
      · rfl
      · rfl
  | case3 a b =>
      have ha := hlt a
      have hb := hlt b
      simp only [encode, List.mem_cons, List.not_mem_nil, or_false] at h
      rcases h with rfl | rfl | rfl | rfl
      · exact isTextChar_digit (by omega)
      · exact isTextChar_digit (by omega)
      · exact isTextChar_digit (by omega)
      · rfl
  | case4 a b c rest ih =>
      have ha := hlt a
      have hb := hlt b
      have hc := hlt c
      simp only [encode, List.mem_cons] at h
      rcases h with rfl | rfl | rfl | rfl | h
      · exact isTextChar_digit (by omega)
      · exact isTextChar_digit (by omega)
      · exact isTextChar_digit (by omega)
      · exact isTextChar_digit (by omega)
      · exact ih h

theorem bounds_of_isBetween {c low high : Char} (h : low ≤ c ∧ c ≤ high)
    (hlow : 44 < low.toNat) (hhigh : high.toNat < 128) :
    c.toNat < 128 ∧ 32 < c.toNat ∧ c ≠ ',' := by
  have hle : low.toNat ≤ c.toNat := UInt32.le_iff_toNat_le.mp h.1
  have hle' : c.toNat ≤ high.toNat := UInt32.le_iff_toNat_le.mp h.2
  refine ⟨by omega, by omega, ?_⟩
  rintro rfl
  exact absurd (Nat.lt_of_lt_of_le hlow hle) (by decide)

/-- A text character is ASCII, no blank and no comma. -/
theorem isTextChar_bounds {c : Char} (h : isTextChar c) :
    c.toNat < 128 ∧ 32 < c.toNat ∧ c ≠ ',' := by
  by_cases hupper : 'A' ≤ c ∧ c ≤ 'Z'
  · exact bounds_of_isBetween hupper (by decide) (by decide)
  · by_cases hlower : 'a' ≤ c ∧ c ≤ 'z'
    · exact bounds_of_isBetween hlower (by decide) (by decide)
    · by_cases hdigit : '0' ≤ c ∧ c ≤ '9'
      · exact bounds_of_isBetween hdigit (by decide) (by decide)
      · have hother : c = '=' ∨ c = '+' ∨ c = '/' := by
          rw [isTextChar, value?, if_neg hupper, if_neg hlower, if_neg hdigit] at h
          grind
        rcases hother with rfl | rfl | rfl
        · decide
        · decide
        · decide

/-! ## Reading back -/

variable {n bits v : Nat}

/-- A character of the alphabet brings six bits, which complete a byte unless they start
a group. -/
theorem decodeFrom_digit (hv : v < 64) (rest : List Char) :
    decodeFrom ⟨n, 0, bits⟩ (digit v :: rest) =
      match n % 4 with
      | 0 => decodeFrom ⟨n + 1, 0, v⟩ rest
      | 1 => (decodeFrom ⟨n + 1, 0, v % 16⟩ rest).map (UInt8.ofNat (bits * 4 + v / 16) :: ·)
      | 2 => (decodeFrom ⟨n + 1, 0, v % 4⟩ rest).map (UInt8.ofNat (bits * 16 + v / 4) :: ·)
      | _ => (decodeFrom ⟨n + 1, 0, 0⟩ rest).map (UInt8.ofNat (bits * 64 + v) :: ·) := by
  rw [decodeFrom, if_neg (digit_ne_padding hv), value?_digit v hv]
  rfl

/-- Padding completes a group of two or three characters at the end of the text. -/
theorem decodeFrom_padding (bits : Nat) (hn : 2 ≤ n % 4) :
    decodeFrom ⟨n, 0, bits⟩ (List.replicate (4 - n % 4) '=') = .ok [] := by
  have hlt : n % 4 < 4 := Nat.mod_lt _ (by decide)
  obtain hn | hn : n % 4 = 2 ∨ n % 4 = 3 := by omega
  · have hcount : n ≠ 0 := by omega
    simp [hn, List.replicate, decodeFrom, Progress.place, hcount]
  · simp [hn, decodeFrom, Progress.place]

theorem decodeFrom_encode (k : Nat) (bytes : List UInt8) :
    decodeFrom ⟨4 * k, 0, 0⟩ (encode bytes) = .ok bytes := by
  have hplace (k : Nat) : 4 * k % 4 = 0 ∧ (4 * k + 1) % 4 = 1 ∧ (4 * k + 1 + 1) % 4 = 2 ∧
      (4 * k + 1 + 1 + 1) % 4 = 3 := by omega
  have hbyte {a : UInt8} {n : Nat} (h : n = a.toNat) : UInt8.ofNat n = a := by
    rw [h]
    exact UInt8.ofNat_toNat
  have hlt (a : UInt8) : a.toNat < 256 := a.toNat_lt
  induction bytes using encode.induct generalizing k with
  | case1 => exact if_pos (hplace k).1
  | case2 a =>
      have ha := hlt a
      have hpadding := decodeFrom_padding (a.toNat % 4 * 16 % 16)
        (show 2 ≤ (4 * k + 1 + 1) % 4 by omega)
      simp only [hplace] at hpadding
      simp only [encode, decodeFrom_digit (show a.toNat / 4 < 64 by omega),
        decodeFrom_digit (show a.toNat % 4 * 16 < 64 by omega), hplace]
      rw [hbyte (a := a) (by omega)]
      exact congrArg (Except.map (a :: ·)) hpadding
  | case3 a b =>
      have ha := hlt a
      have hb := hlt b
      have hpadding := decodeFrom_padding (b.toNat % 16 * 4 % 4)
        (show 2 ≤ (4 * k + 1 + 1 + 1) % 4 by omega)
      simp only [hplace] at hpadding
      simp only [encode, decodeFrom_digit (show a.toNat / 4 < 64 by omega),
        decodeFrom_digit (show a.toNat % 4 * 16 + b.toNat / 16 < 64 by omega),
        decodeFrom_digit (show b.toNat % 16 * 4 < 64 by omega), hplace]
      rw [hbyte (a := a) (by omega), hbyte (a := b) (by omega)]
      exact congrArg (fun r => Except.map (a :: ·) (Except.map (b :: ·) r)) hpadding
  | case4 a b c rest ih =>
      have ha := hlt a
      have hb := hlt b
      have hc := hlt c
      simp only [encode, decodeFrom_digit (show a.toNat / 4 < 64 by omega),
        decodeFrom_digit (show a.toNat % 4 * 16 + b.toNat / 16 < 64 by omega),
        decodeFrom_digit (show b.toNat % 16 * 4 + c.toNat / 64 < 64 by omega),
        decodeFrom_digit (show c.toNat % 64 < 64 by omega), hplace]
      rw [hbyte (a := a) (by omega), hbyte (a := b) (by omega), hbyte (a := c) (by omega)]
      exact congrArg
        (fun r => Except.map (a :: ·) (Except.map (b :: ·) (Except.map (c :: ·) r))) (ih (k + 1))

theorem decode_encode (bytes : List UInt8) : decode (encode bytes) = .ok bytes := by
  have hascii : (encode bytes).all fun c => c.toNat < 128 :=
    List.all_eq_true.mpr fun c hc =>
      decide_eq_true (isTextChar_bounds (isTextChar_of_mem_encode hc)).1
  rw [decode, if_pos hascii]
  exact decodeFrom_encode 0 bytes

end Base64

end SqlTables
