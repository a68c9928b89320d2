import SqlTables.Datum

/-!
# UTF-8

`Utf8.decode` reads well-formed UTF-8. It goes through the bytes once; inside a character it keeps
what has been read of it, how many bytes are to come, and the range of the next one. That range is
narrower for the second byte after some lead bytes, which keeps out overlong forms, surrogates and
code points that are too large. The first byte that does not fit ends the decoding. `Utf8.encode` is
the inverse.
-/

namespace SqlTables

namespace Utf8

inductive Reason
  | invalidStart
  | invalidContinuation
  | unexpectedEnd
deriving DecidableEq

/-- The bytes from `start` up to `stop` are no character; `lead` is the first of them. -/
structure Error where
  reason : Reason
  lead : UInt8
  start : Nat
  stop : Nat
deriving DecidableEq

namespace Reason

def text : Reason → String
  | invalidStart => "invalid start byte"
  | invalidContinuation => "invalid continuation byte"
  | unexpectedEnd => "unexpected end of data"

end Reason

namespace Error

def message (e : Error) : String :=
  let place :=
    if e.stop = e.start + 1 then
      "byte 0x" ++ String.ofList (Datum.hex 2 e.lead.toNat) ++ " in position " ++ toString e.start
    else "bytes in position " ++ toString e.start ++ "-" ++ toString (e.stop - 1)
  "'utf-8' codec can't decode " ++ place ++ ": " ++ e.reason.text

end Error

/-- A character that has been read in part: where it starts, its lead byte, the bits so far, the
number of bytes to come, and the range of the next one. -/
structure Pending where
  start : Nat
  lead : UInt8
  bits : Nat
  missing : Nat
  low : UInt8
  high : UInt8
deriving DecidableEq

/-- What a lead byte of a longer character begins. -/
def begin? (position : Nat) (b : UInt8) : Option Pending :=
  let bits := b.toNat
  if 0xC2 ≤ b ∧ b ≤ 0xDF then some ⟨position, b, bits - 0xC0, 1, 0x80, 0xBF⟩
  else if 0xE0 ≤ b ∧ b ≤ 0xEF then
    some ⟨position, b, bits - 0xE0, 2, if b = 0xE0 then 0xA0 else 0x80,
      if b = 0xED then 0x9F else 0xBF⟩
  else if 0xF0 ≤ b ∧ b ≤ 0xF4 then
    some ⟨position, b, bits - 0xF0, 3, if b = 0xF0 then 0x90 else 0x80,
      if b = 0xF4 then 0x8F else 0xBF⟩
  else none

/-- The characters of the bytes from `position` on, in the middle of a character if `read` holds
one. -/
def decodeFrom (position : Nat) (read : Option Pending) : List UInt8 → Except Error (List Char)
  | [] =>
    match read with
    | none => .ok []
    | some p => .error ⟨.unexpectedEnd, p.lead, p.start, position⟩
  | b :: rest =>
    match read with
    | none =>
      if b < 0x80 then (decodeFrom (position + 1) none rest).map (Char.ofNat b.toNat :: ·)
      else
        match begin? position b with
        | some p => decodeFrom (position + 1) (some p) rest
        | none => .error ⟨.invalidStart, b, position, position + 1⟩
    | some p =>
      if p.low ≤ b ∧ b ≤ p.high then
        let bits := p.bits * 64 + (b.toNat - 0x80)
        if p.missing = 1 then (decodeFrom (position + 1) none rest).map (Char.ofNat bits :: ·)
        else
          decodeFrom (position + 1)
            (some { p with bits, missing := p.missing - 1, low := 0x80, high := 0xBF }) rest
      else .error ⟨.invalidContinuation, p.lead, p.start, position⟩

/-- The characters that the bytes encode. -/
def decode (bytes : List UInt8) : Except Error (List Char) := decodeFrom 0 none bytes

/-- A byte that continues a character, with the six bits of `n` above `2 ^ shift`. -/
def continuation (n shift : Nat) : UInt8 := UInt8.ofNat (0x80 + n / Nat.pow 2 shift % 64)

/-- The bytes of one character. -/
def encodeChar (c : Char) : List UInt8 :=
  let n := c.toNat
  if n < 0x80 then [UInt8.ofNat n]
  else if n < 0x800 then [UInt8.ofNat (0xC0 + n / 64), continuation n 0]
  else if n < 0x10000 then
    [UInt8.ofNat (0xE0 + n / 4096), continuation n 6, continuation n 0]
  else
    [UInt8.ofNat (0xF0 + n / 262144), continuation n 12, continuation n 6, continuation n 0]

def encode (chars : List Char) : List UInt8 := chars.flatMap encodeChar

end Utf8

end SqlTables
