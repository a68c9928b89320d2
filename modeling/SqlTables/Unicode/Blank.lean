import SqlTables.Unicode.Interval

/-!
# Blanks

`isBlank c` holds for the characters that separate words: the space separators, the bidirectional
classes of whitespace, paragraph and segment separators.
-/

namespace SqlTables

namespace Unicode

/-- The code points that count as whitespace. -/
def blanks : List Interval :=
  [(0x0009, 0x000D), (0x001C, 0x0020), (0x0085, 0x0085), (0x00A0, 0x00A0), (0x1680, 0x1680),
   (0x2000, 0x200A), (0x2028, 0x2029), (0x202F, 0x202F), (0x205F, 0x205F), (0x3000, 0x3000)]

def isBlank (c : Char) : Bool :=
  Interval.covers blanks c.toNat

end Unicode

end SqlTables
