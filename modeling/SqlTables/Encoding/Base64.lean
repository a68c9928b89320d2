/-!
# Base64

`Base64.decode` reads the standard alphabet, four characters for three bytes. It is strict about
what it reads and lenient about how a text ends: data must not go on after padding, a group that has
been padded to four characters must be the last, and the bits that a last group leaves over are not
looked at. Padding after a complete group is passed over.
-/

namespace SqlTables

namespace Base64

inductive Error
  | notAscii
  | leadingPadding
  | discontinuousPadding
  | excessData
  | notAlphabet
  | incorrectPadding
  /-- One data character is left over; `count` is the number of all. -/
  | incompleteGroup (count : Nat)
deriving DecidableEq

namespace Error

def message : Error → String
  | notAscii => "string argument should contain only ASCII characters"
  | leadingPadding => "Leading padding not allowed"
  | discontinuousPadding => "Discontinuous padding not allowed"
  | excessData => "Excess data after padding"
  | notAlphabet => "Only base64 data is allowed"
  | incorrectPadding => "Incorrect padding"
  | incompleteGroup count =>
    "Invalid base64-encoded string: number of data characters (" ++ toString count
      ++ ") cannot be 1 more than a multiple of 4"

end Error

/-- The six bits that a character of the alphabet stands for. -/
def value? (c : Char) : Option Nat :=
  if 'A' ≤ c ∧ c ≤ 'Z' then some (c.toNat - 'A'.toNat)
  else if 'a' ≤ c ∧ c ≤ 'z' then some (c.toNat - 'a'.toNat + 26)
  else if '0' ≤ c ∧ c ≤ '9' then some (c.toNat - '0'.toNat + 52)
  else if c = '+' then some 62
  else if c = '/' then some 63
  else none

/-- Where the decoding stands: the number of data characters, the padding since the last of them,
and the bits of the current group that are not part of a byte yet. -/
structure Progress where
  count : Nat
  padding : Nat
  bits : Nat
deriving DecidableEq

/-- The place in the current group of four. -/
def Progress.place (p : Progress) : Nat := p.count % 4

def decodeFrom (p : Progress) : List Char → Except Error (List UInt8)
  | [] =>
    if p.place = 0 then .ok []
    else if p.place = 1 then .error (.incompleteGroup p.count)
    else .error .incorrectPadding
  | c :: rest =>
    if c = '=' then
      let padding := p.padding + 1
      if 2 ≤ p.place ∧ 4 ≤ p.place + padding then
        if rest.isEmpty then .ok [] else .error .excessData
      else if p.count = 0 ∧ p.padding = 0 then .error .leadingPadding
      else decodeFrom { p with padding } rest
    else
      match value? c with
      | none => .error .notAlphabet
      | some v =>
        if p.padding ≠ 0 then .error .discontinuousPadding
        else
          let next (bits : Nat) : Progress := ⟨p.count + 1, 0, bits⟩
          let emit (byte bits : Nat) : Except Error (List UInt8) :=
            (decodeFrom (next bits) rest).map (UInt8.ofNat byte :: ·)
          match p.place with
          | 0 => decodeFrom (next v) rest
          | 1 => emit (p.bits * 4 + v / 16) (v % 16)
          | 2 => emit (p.bits * 16 + v / 4) (v % 4)
          | _ => emit (p.bits * 64 + v) 0

/-- The bytes that a text encodes. -/
def decode (text : List Char) : Except Error (List UInt8) :=
  if text.all fun c => c.toNat < 128 then decodeFrom ⟨0, 0, 0⟩ text else .error .notAscii

end Base64

end SqlTables
