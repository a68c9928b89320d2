import SqlTables.Token

/-!
# Dotted names

A name in a table position is read token by token: parts separated by dots, of which every part
after the first may be a keyword. A `DottedName` is what has been read so far; `extend?` takes one
more token, and a name that `extend?` refuses to go on with is complete. A name that ends in a dot
is dangling.
-/

namespace SqlTables

structure DottedName where
  parts : List String
  start : Nat
  stop : Nat
  /-- Whether a dot has been read after the last part. -/
  dangling : Bool
deriving DecidableEq

namespace DottedName

def ofToken (t : Token) : DottedName := ⟨[t.value], t.offset, t.stop, false⟩

/-- The name with one more token, if the token continues it. -/
def extend? (n : DottedName) (t : Token) : Option DottedName :=
  if n.dangling then
    if t.isName || t.keyword?.isSome then
      some ⟨n.parts ++ [t.value], n.start, t.stop, false⟩
    else none
  else if t.isMark '.' then some { n with stop := t.stop, dangling := true }
  else none

def span (n : DottedName) : Span := ⟨n.start, n.stop⟩

def text (n : DottedName) : String := ".".intercalate n.parts

/-- The part of a name that has one part only. -/
def single? (n : DottedName) : Option String :=
  match n.parts with
  | [part] => some part
  | _ => none

end DottedName

end SqlTables
