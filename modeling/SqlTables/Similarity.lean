/-!
# Similar words

Two words are compared by the characters that they share in order: those of the longest common
block, and those that the parts before the block and the parts after it share in turn.
`Similarity.closest` and `Similarity.closest?` suggest words of a list that are close to a given
one.
-/

namespace SqlTables

namespace Similarity

/-- The length of the longest common beginning. -/
def common : List Char → List Char → Nat
  | a :: as, b :: bs => if a = b then common as bs + 1 else 0
  | _, _ => 0

/-- A block that occurs in two words, at the place `left` of the one and `right` of the other. -/
structure Block where
  left : Nat
  right : Nat
  size : Nat
deriving DecidableEq

/-- The longest block that begins the first word, starting from the best one so far. -/
def longestFrom (as : List Char) (left : Nat) : (bs : List Char) → (right : Nat) → Block → Block
  | [], _, best => best
  | b :: bs, right, best =>
    let size := common as (b :: bs)
    longestFrom as left bs (right + 1) (if best.size < size then ⟨left, right, size⟩ else best)

/-- The longest block of two words, of several the first. -/
def longest (bs : List Char) : (as : List Char) → (left : Nat) → Block → Block
  | [], _, best => best
  | a :: as, left, best => longest bs as (left + 1) (longestFrom (a :: as) left bs 0 best)

/-- The number of characters that two words share. -/
def shared (as bs : List Char) : Nat :=
  match longest bs as 0 ⟨0, 0, 0⟩ with
  | ⟨left, right, size⟩ =>
    if _h : 0 < size ∧ left < as.length then
      size + shared (as.take left) (bs.take right)
        + shared (as.drop (left + size)) (bs.drop (right + size))
    else 0
termination_by as.length
decreasing_by
  all_goals
    simp only [List.length_take, List.length_drop]
    omega

/-- A word with its likeness to another: twice the shared characters, and all characters. -/
structure Likeness where
  word : String
  twiceShared : Nat
  total : Nat
deriving DecidableEq

namespace Likeness

def of (given word : String) : Likeness :=
  ⟨word, 2 * shared word.toList given.toList, word.length + given.length⟩

/-- Whether at least six of ten characters are shared. -/
def isClose (l : Likeness) : Bool := 3 * l.total ≤ 5 * l.twiceShared

/-- Whether the first is more alike, or comes later in the alphabet and is as much alike. -/
def precedes (a b : Likeness) : Bool :=
  let left := a.twiceShared * b.total
  let right := b.twiceShared * a.total
  right < left || (left == right && b.word ≤ a.word)

end Likeness

/-- The words that are close to a given one, the most alike first. -/
def ranked (given : String) (words : List String) : List String :=
  let close := (words.map (Likeness.of given)).filter Likeness.isClose
  (close.mergeSort Likeness.precedes).map Likeness.word

/-- The number of words that are suggested at most. -/
def maxSuggestions : Nat := 3

/-- The words that are closest to a given one, in alphabetical order. -/
def closest (given : String) (words : List String) : List String :=
  ((ranked given words).take maxSuggestions).mergeSort fun a b => decide (a ≤ b)

/-- The one word that is closest to a given one. -/
def closest? (given : String) (words : List String) : Option String := (ranked given words).head?

end Similarity

end SqlTables
