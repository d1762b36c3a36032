/-!
# JSON values

A JSON document as a value. Numbers are kept as they are written, and the members of an object in
the order in which they stand.
-/

namespace CallAtlas

/-- A JSON value. -/
inductive Json where
  | null
  | bool (value : Bool)
  /-- A number, as it is written. -/
  | number (text : String)
  | string (value : String)
  | array (items : List Json)
  | object (members : List (String × Json))
  deriving Inhabited

namespace Json

/-- The number `n`. -/
def ofNat (n : Nat) : Json :=
  .number (toString n)

/-- A text, or `null`. -/
def ofOptionString : Option String → Json
  | some s => .string s
  | none => .null

end Json

end CallAtlas
