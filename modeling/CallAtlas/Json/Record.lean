import CallAtlas.Json.Number

/-!
# Reading records

A reader for values of a kind gives the value that something written stands for, if it is of that
kind.

A record has fields in a fixed order. It is written as an object, whose members may stand in any
order, or as an array of the values of its fields. In an object a field stands at most once, and
members that are no fields are skipped. In an array every field stands in its place, and only fields
that have a default may be missing at the end.

## Main definitions

* `Reads` and the readers `text?`, `flag?`, `size?`, `list?`, `table?`, `choice?`.
* `FieldReader`, its primitives `required`, `optional`, `defaulted`, and `record?`.
-/

namespace CallAtlas

namespace Json

/-- A reader for values of a kind. -/
abbrev Reads (α : Type) := Written → Option α

namespace Reads

/-- A text. -/
def text? : Reads String
  | .string text => Piece.join? text
  | _ => none

/-- A text for which a test holds. -/
def textThat? (test : String → Bool) : Reads String := fun w =>
  (text? w).filter test

/-- A truth value. -/
def flag? : Reads Bool
  | .bool b => some b
  | _ => none

/-- A number without sign, point and exponent that fits in 64 bits. -/
def size? : Reads Nat
  | .number text =>
    let n := Nat.ofDigitChars 10 text 0
    if text.all (·.isDigit) && n < Nat.pow 2 64 then some n else none
  | _ => none

/-- `null`, or a value of a kind. -/
def nullable? {α : Type} (read : Reads α) : Reads (Option α)
  | .null => some none
  | w => (read w).map some

/-- A list of values of a kind. -/
def list? {α : Type} (read : Reads α) : Reads (List α)
  | .array items => items.mapM read
  | _ => none

/-- A table of values of a kind. -/
def table? {α : Type} (read : Reads α) : Reads (List (String × α))
  | .object members => members.mapM fun (key, value) => do
    return (← Piece.join? key, ← read value)
  | _ => none

/-- A word for which a test holds, alone or as the key of `null`. -/
def choice? (test : String → Bool) : Reads String
  | .object [(key, .null)] => (Piece.join? key).filter test
  | w => textThat? test w

/-- Any value with numbers within range that nests at most so deep. -/
def any? (depth : Nat) : Reads Json := fun w =>
  if w.isFinite depth then w.value? depth else none

end Reads

/-! ### Records -/

/-- What is left to read of a record. -/
inductive Fields where
  /-- The members of an object. -/
  | members (members : List (String × Written))
  /-- The items of an array that have not been read. -/
  | items (items : List Written)

/-- A reader for the fields of a record, in their order. -/
abbrev FieldReader := StateT Fields Option

namespace FieldReader

/-- Does the record stand in an array? -/
def isArray : FieldReader Bool := do
  match ← get with
  | .members _ => return false
  | .items _ => return true

/-- What stands for the next field, whose key is given. -/
def next (key : String) : FieldReader (Option Written) := do
  match ← get with
  | .members members =>
    match members.filter (·.1 == key) with
    | [] => return none
    | [(_, value)] => return some value
    | _ => failure
  | .items [] => return none
  | .items (item :: rest) =>
    set (Fields.items rest)
    return some item

/-- A field that has to be there. -/
def required {α : Type} (key : String) (read : Reads α) : FieldReader α := do
  match ← next key with
  | some w => read w
  | none => failure

/-- A field that may be `null`, or be missing from an object. -/
def optional {α : Type} (key : String) (read : Reads α) : FieldReader (Option α) := do
  match ← next key with
  | some w => Reads.nullable? read w
  | none => if ← isArray then failure else return none

/-- A field that may be missing. -/
def defaulted {α : Type} (key : String) (read : Reads α) : FieldReader (Option α) := do
  match ← next key with
  | some w => return some (← read w)
  | none => return none

end FieldReader

/-- A record whose fields are read by a reader. -/
def Reads.record? {α : Type} (fields : FieldReader α) : Reads α
  | .object members => do
    let members ← members.mapM fun (key, value) => do return (← Piece.join? key, value)
    return (← fields.run (.members members)).1
  | .array items => do
    match ← fields.run (.items items) with
    | (a, .items []) => return a
    | _ => none
  | _ => none

end Json

end CallAtlas
