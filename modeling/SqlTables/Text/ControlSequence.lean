/-!
# Control sequences

A control sequence tells a terminal how to show what follows, such as its colour: an escape
character, a bracket, parameters and a letter. `ControlSequence.strip` drops the sequences of a
text, which mean nothing outside a terminal.
-/

namespace SqlTables

namespace ControlSequence

/-- Whether a character may stand between the bracket and the letter. -/
def isParameter (c : Char) : Bool := c.isDigit || c = ';' || c = '?'

/-- The number of characters of the control sequence that the text starts with. -/
def length? (chars : List Char) : Option Nat :=
  match chars with
  | '\x1b' :: '[' :: rest =>
    let parameters := rest.takeWhile isParameter
    if (rest.drop parameters.length).head?.any Char.isAlpha then some (parameters.length + 3)
    else none
  | _ => none

/-- The characters that are shown, the first `hidden` of which belong to a control sequence. -/
def shown : (hidden : Nat) → List Char → List Char
  | _, [] => []
  | hidden + 1, _ :: rest => shown hidden rest
  | 0, c :: rest =>
    match length? (c :: rest) with
    | some size => shown (size - 1) rest
    | none => c :: shown 0 rest

/-- The text without its control sequences. -/
def strip (s : String) : String := String.ofList (shown 0 s.toList)

end ControlSequence

end SqlTables
