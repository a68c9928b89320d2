import SqlTables.Unicode.Interval

/-!
# Runs of case mappings

A case mapping is a list of runs, in increasing order of their first code point, together with the
few code points whose image has several characters. In a run, every `stride`-th code point from
`first` to `last` maps to the code point at the same distance from `image`.
-/

namespace SqlTables

namespace Unicode

/-- The first and the last code point of a run, its stride, and the image of the first. -/
abbrev CaseRun := Nat × Nat × Nat × Nat

namespace CaseRun

/-- The image of a code point under the first run that holds it. -/
def find? : List CaseRun → Nat → Option Nat
  | [], _ => none
  | (first, last, stride, image) :: rest, n =>
    if n < first then none
    else if n ≤ last && (n - first) % stride = 0 then some (image + (n - first))
    else find? rest n

/-- The image of a character: its expansion, else its place in a run, else itself. -/
def image (runs : List CaseRun) (expansions : List (Nat × List Nat)) (c : Char) : List Char :=
  match find? runs c.toNat with
  | some n => [Char.ofNat n]
  | none =>
    match expansions.lookup c.toNat with
    | some ns => ns.map Char.ofNat
    | none => [c]

end CaseRun

end Unicode

end SqlTables
