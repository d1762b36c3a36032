/-!
# Classes of characters

A class of characters is given by the sorted list of its ranges of code points. The tables of the
standard properties are in the modules beside this one.

## Main definitions

* `CharClass` — the ranges of a class.
* `CharClass.contains` — membership, which stops at the first range that starts above the character.
-/

namespace CallAtlas

/-- A class of characters, as ranges of code points `(first, last)` in increasing order. -/
structure CharClass where
  /-- First and last code point of each range. -/
  ranges : List (Nat × Nat)

namespace CharClass

/-- Membership of a code point in sorted ranges. -/
def inRanges (n : Nat) : List (Nat × Nat) → Bool
  | [] => false
  | (first, last) :: rest => if n < first then false else n ≤ last || inRanges n rest

/-- Does the class hold this character? -/
def contains (k : CharClass) (c : Char) : Bool :=
  inRanges c.toNat k.ranges

end CharClass

end CallAtlas
