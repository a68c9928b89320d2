/-!
# Double-precision values

`Binary64` holds the values of the binary interchange format with 64 bits as exact data, so that
reading and printing are integer arithmetic. `ofDecimal` rounds a decimal to the nearest value, ties
to the even mantissa; `shortest` gives the fewest digits that read back as the same value.
-/

namespace SqlTables

/-- A finite value is `± mantissa · 2 ^ exponent`, with `mantissa < 2 ^ 53` and
`-1074 ≤ exponent ≤ 971`. -/
inductive Binary64
  | finite (negative : Bool) (mantissa : Nat) (exponent : Int)
  | infinite (negative : Bool)
  | nan
deriving DecidableEq

namespace Binary64

/-- The quotient rounded to the nearest integer, ties to even. -/
def roundedQuotient (num den : Nat) : Nat :=
  let q := num / den
  let twice := 2 * (num % den)
  if twice < den ∨ (twice = den ∧ q % 2 = 0) then q else q + 1

/-- The ratio of two numbers times a power of the base, as a ratio. -/
def scaled (base num den : Nat) (power : Int) : Nat × Nat :=
  if 0 ≤ power then (num * Nat.pow base power.toNat, den)
  else (num, den * Nat.pow base (-power).toNat)

/-- The nearest value to a positive ratio. -/
def ofRatio (negative : Bool) (num den : Nat) : Binary64 :=
  let guess : Int := (num.log2 : Int) - den.log2 - 53
  let mantissaAt (e : Int) : Nat :=
    let (n, d) := scaled 2 num den (-e)
    roundedQuotient n d
  let floorAt (e : Int) : Nat :=
    let (n, d) := scaled 2 num den (-e)
    n / d
  let e := max (-1074) (if floorAt guess < Nat.pow 2 53 then guess else guess + 1)
  let m := mantissaAt e
  let (m, e) := if m = Nat.pow 2 53 then (Nat.pow 2 52, e + 1) else (m, e)
  if 971 < e then infinite negative else finite negative m e

/-- The nearest value to `digits · 10 ^ power`. -/
def ofDecimal (negative : Bool) (digits : Nat) (power : Int) : Binary64 :=
  let size : Int := (Nat.toDigits 10 digits).length
  if digits = 0 ∨ size + power < -330 then finite negative 0 (-1074)
  else if 310 < size + power then infinite negative
  else
    let (n, d) := scaled 10 digits 1 power
    ofRatio negative n d

/-- The decimal `digits · 10 ^ power` next to `mantissa · 2 ^ exponent` that reads back, if one of
the two neighbours on the grid of that power does; of two, the nearer. -/
def readsBack? (mantissa : Nat) (exponent : Int) (power : Int) : Option (Nat × Int) :=
  let (num, den) := scaled 2 mantissa 1 exponent
  let (num, den) := scaled 10 num den (-power)
  let low := num / den
  let nearest := roundedQuotient num den
  let other := if nearest = low then low + 1 else low
  [nearest, other].findSome? fun d =>
    if d ≠ 0 ∧ ofDecimal false d power = finite false mantissa exponent then some (d, power)
    else none

/-- A power of ten above `mantissa · 2 ^ exponent` that exceeds it by a factor of at most a
hundred. -/
def magnitude (mantissa : Nat) (exponent : Int) : Int :=
  let (num, den) := scaled 2 mantissa 1 exponent
  let guess : Int := (Nat.toDigits 10 num).length - (Nat.toDigits 10 den).length + 1
  let (n, d) := scaled 10 num den (-guess)
  if n * 10 < d then guess - 1 else guess

/-- The fewest decimal digits, as a number with a power of ten, that read back as the value. -/
def shortest (mantissa : Nat) (exponent : Int) : Nat × Int :=
  let top := magnitude mantissa exponent
  let shortest? := (List.range 19).findSome? fun (n : Nat) =>
    readsBack? mantissa exponent (top - (n : Int))
  match shortest? with
  | some decimal => decimal
  | none => (mantissa, exponent)

/-- Where the decimal point stands: positional notation is used for decimal exponents from `-4` to
`15`, and keeps a zero after the point of a whole number; an exponent has at least two digits. -/
def layout (digits : List Char) (power : Int) : List Char :=
  let count : Int := digits.length
  let point := count + power
  if -4 < point ∧ point ≤ 16 then
    if point ≤ 0 then '0' :: '.' :: List.replicate (-point).toNat '0' ++ digits
    else if count ≤ point then digits ++ List.replicate (point - count).toNat '0' ++ ['.', '0']
    else digits.take point.toNat ++ '.' :: digits.drop point.toNat
  else
    let e := point - 1
    let size := Nat.toDigits 10 e.natAbs
    digits.take 1 ++ (if digits.length = 1 then [] else '.' :: digits.drop 1)
      ++ ['e', if e < 0 then '-' else '+'] ++ List.replicate (2 - size.length) '0' ++ size

/-- The digits without the zeros at their end, which the power takes over. -/
def trimmed (digits : Nat) (power : Int) : List Char × Int :=
  let chars := Nat.toDigits 10 digits
  let zeros := (chars.reverse.takeWhile (· = '0')).length
  if digits = 0 then (chars, power) else (chars.take (chars.length - zeros), power + zeros)

def text : Binary64 → String
  | nan => "nan"
  | infinite negative => if negative then "-inf" else "inf"
  | finite negative mantissa exponent =>
    let (digits, power) :=
      if mantissa = 0 then (['0'], 0)
      else
        let (d, p) := shortest mantissa exponent
        trimmed d p
    String.ofList ((if negative then ['-'] else []) ++ layout digits power)

end Binary64

end SqlTables
