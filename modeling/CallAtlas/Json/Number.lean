import CallAtlas.Json.Reader

/-!
# Numbers within range

A reader that keeps numbers in double precision refuses one that is too large for it. Which numbers
are too large is settled here by whole numbers alone.

The reader takes as many digits as fit in 64 bits, and the others only move the point. It rounds
those digits and the power of ten, each to 53 binary places, and then their product. The product
has no place in double precision if it is at least `2 ^ 1024 - 2 ^ 970`, where rounding would carry
to `2 ^ 1024`. Small numbers become zero and are never refused.

## Main definitions

* `Json.Number.isFinite` — is a number, as it is written, within range?
* `Json.Written.isFinite` — are all numbers of a value within range?
-/

namespace CallAtlas

namespace Json

namespace Number

/-- Rounds to 53 binary places; of two nearest numbers the even one is taken. -/
def round (n : Nat) : Nat :=
  if n < Nat.pow 2 53 then n
  else
    let unit := Nat.pow 2 (n.log2 - 52)
    let down := n / unit
    let rest := 2 * (n % unit)
    (if rest > unit || rest == unit && down % 2 == 1 then down + 1 else down) * unit

/-- Digits as a number of 64 bits, times a power of ten. -/
structure Scaled where
  /-- The digits that fit. -/
  digits : Nat
  /-- The power of ten. -/
  exponent : Int

/-- The value of a digit. -/
def digit (c : Char) : Nat :=
  c.toNat - '0'.toNat

/-- The digits in front of the point. From the first one on that does not fit, each moves the
point. -/
def whole (digits : Nat) : List Char → Scaled
  | [] => ⟨digits, 0⟩
  | c :: rest =>
    let next := digits * 10 + digit c
    if next < 2 ^ 64 then whole next rest else ⟨digits, (rest.length + 1 : Nat)⟩

/-- The digits behind the point. From the first one on that does not fit, they are dropped. -/
def fraction (n : Scaled) : List Char → Scaled
  | [] => n
  | c :: rest =>
    let next := n.digits * 10 + digit c
    if next < 2 ^ 64 then fraction ⟨next, n.exponent - 1⟩ rest else n

/-- The power of ten that an exponent gives. -/
def power : List Char → Int
  | '-' :: digits => -Nat.ofDigitChars 10 digits 0
  | '+' :: digits => Nat.ofDigitChars 10 digits 0
  | digits => Nat.ofDigitChars 10 digits 0

/-- The largest power of ten in double precision. -/
def largestPower : Nat := 308

/-- Is a number within range? -/
def Scaled.isFinite (n : Scaled) : Bool :=
  n.digits == 0 || n.exponent < 0 || n.exponent ≤ largestPower &&
    round n.digits * round (Nat.pow 10 n.exponent.toNat) < Nat.pow 2 1024 - Nat.pow 2 970

/-- Is a number, as it is written, within range? -/
def isFinite (text : List Char) : Bool :=
  let text := if text.head? == some '-' then text.tail else text
  let (before, rest) := text.span (·.isDigit)
  let (after, rest) := if rest.head? == some '.' then rest.tail.span (·.isDigit) else ([], rest)
  let n := fraction (whole 0 before) after
  Scaled.isFinite { n with exponent := n.exponent + power rest.tail }

end Number

namespace Written

/-- Are all numbers of a value that nests at most so deep within range? -/
def isFinite : Nat → Written → Bool
  | _, .number text => Number.isFinite text
  | depth + 1, .array items => items.all (isFinite depth)
  | depth + 1, .object members => members.all fun (_, value) => isFinite depth value
  | _, _ => true

end Written

end Json

end CallAtlas
