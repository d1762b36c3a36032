import CallAtlas.Json

/-!
# JSON as it is written

Between a JSON text and its value stands the value as it is written. A string may give characters
by 16-bit units, and a unit of a surrogate pair means nothing without the other one. So a text may
be well formed and still have no value. Where a part of a document is skipped, it only has to be
well formed; where it is read, it needs a value.

## Main definitions

* `Json.Piece`, `Json.Piece.join?` — the parts of a string as it is written, and its text.
* `Json.Written`, `Json.Written.value?` — a value as it is written, and the value.
-/

namespace CallAtlas

namespace Json

/-! ### Strings -/

/-- A part of a string. -/
inductive Piece where
  /-- A character that stands for itself, or one that a short escape stands for. -/
  | char (c : Char)
  /-- A 16-bit unit, as `\u` gives it. -/
  | unit (n : Nat)
  deriving DecidableEq

namespace Piece

/-- Is a unit the first one of a surrogate pair? -/
def isHigh (n : Nat) : Bool :=
  0xD800 ≤ n && n ≤ 0xDBFF

/-- Is a unit the second one of a surrogate pair? -/
def isLow (n : Nat) : Bool :=
  0xDC00 ≤ n && n ≤ 0xDFFF

/-- The character of a surrogate pair. -/
def ofPair (high low : Nat) : Char :=
  Char.ofNat (0x10000 + 0x400 * (high - 0xD800) + (low - 0xDC00))

/-- The characters of a string. There are none if a unit of a surrogate pair stands alone. -/
def chars? : List Piece → Option (List Char)
  | [] => some []
  | .char c :: rest => (chars? rest).map (c :: ·)
  | .unit high :: .unit low :: rest =>
    if isHigh high then
      if isLow low then (chars? rest).map (ofPair high low :: ·) else none
    else if isLow high then none
    else (chars? (.unit low :: rest)).map (Char.ofNat high :: ·)
  | .unit n :: rest =>
    if isHigh n || isLow n then none else (chars? rest).map (Char.ofNat n :: ·)

/-- The text of a string. -/
def join? (pieces : List Piece) : Option String :=
  (chars? pieces).map String.ofList

end Piece

/-! ### Values -/

/-- A value as it is written. -/
inductive Written where
  | null
  | bool (value : Bool)
  | number (text : List Char)
  | string (text : List Piece)
  | array (items : List Written)
  | object (members : List (List Piece × Written))

namespace Written

/-- The value of what is written, if it has one and does not nest deeper than the number says. -/
def value? : Nat → Written → Option Json
  | _, .null => some .null
  | _, .bool b => some (.bool b)
  | _, .number text => some (.number (String.ofList text))
  | _, .string text => (Piece.join? text).map .string
  | 0, .array _ => none
  | depth + 1, .array items => (items.mapM (value? depth)).map .array
  | 0, .object _ => none
  | depth + 1, .object members =>
    (members.mapM fun (key, value) => do
      return (← Piece.join? key, ← value? depth value)).map .object

end Written

end Json

end CallAtlas
