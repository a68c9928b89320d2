import SqlTables.Unicode.Blank

/-!
# Blanks and line ends

Trimming and the removal of blanks, for the blanks of every script, and one kind of line end for
all.
-/

namespace SqlTables

namespace Text

def trimLeft (chars : List Char) : List Char := chars.dropWhile Unicode.isBlank

def trimRight (chars : List Char) : List Char :=
  (chars.reverse.dropWhile Unicode.isBlank).reverse

/-- The text without the blanks at its ends. -/
def trim (s : String) : String := String.ofList (trimRight (trimLeft s.toList))

/-- The text without any blanks. -/
def squeeze (chars : List Char) : List Char := chars.filter fun c => !Unicode.isBlank c

/-- The characters with line feeds for line ends of all kinds. -/
def unifyLineEnds : List Char → List Char
  | '\r' :: '\n' :: rest => '\n' :: unifyLineEnds rest
  | '\r' :: rest => '\n' :: unifyLineEnds rest
  | c :: rest => c :: unifyLineEnds rest
  | [] => []

end Text

end SqlTables
