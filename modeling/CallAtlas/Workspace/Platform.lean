import CallAtlas.Text.Alphanumeric

/-!
# Platforms

A dependency may be for some platforms only. They are given by the name of a platform, or by a
condition `cfg(...)` on what a platform offers: a name, a name with a text, or `all`, `any` and
`not` of other conditions.

Each level of a condition takes a token, and a list of conditions reads its first one without taking
any, so twice the number of tokens bounds the depth.

## Main definitions

* `Platform.Token`, `Platform.tokens?` — the parts of a condition.
* `Platform.isPlatform` — is a text the name of a platform or a condition?
-/

namespace CallAtlas

namespace Platform

/-! ### Parts of conditions -/

/-- A part of a condition. -/
inductive Token where
  | opening
  | closing
  | comma
  | equals
  /-- A text in quotes. -/
  | text
  | name (text : String)
  deriving DecidableEq

/-- The part that a single character is. -/
def single? (c : Char) : Option Token :=
  if c = '(' then some .opening
  else if c = ')' then some .closing
  else if c = ',' then some .comma
  else if c = '=' then some .equals
  else none

/-- May a name start with this character? -/
def startsName (c : Char) : Bool :=
  c == '_' || c.isAlpha

/-- May a name go on with this character? -/
def continuesName (c : Char) : Bool :=
  startsName c || c.isDigit

/-- The parts of a condition. There are none if a text is not closed, or if a character is no
part. -/
def tokens? (cs : List Char) : Option (List Token) :=
  match cs with
  | [] => some []
  | c :: rest =>
    if c = ' ' then tokens? rest
    else if c = '"' then
      let length := (rest.takeWhile (· != '"')).length
      if length < rest.length then (tokens? (rest.drop (length + 1))).map (.text :: ·) else none
    else if startsName c then
      let name := rest.takeWhile continuesName
      (tokens? (rest.drop name.length)).map (.name (String.ofList (c :: name)) :: ·)
    else
      match single? c with
      | some token => (tokens? rest).map (token :: ·)
      | none => none
termination_by cs.length
decreasing_by
  all_goals
    simp only [List.length_drop, List.length_cons]
    omega

/-! ### Conditions -/

mutual
/-- The parts behind a condition. -/
def condition? : Nat → List Token → Option (List Token)
  | depth + 1, .name "all" :: rest | depth + 1, .name "any" :: rest =>
    match rest with
    | .opening :: rest => conditions? depth rest
    | _ => none
  | depth + 1, .name "not" :: rest =>
    match rest with
    | .opening :: rest =>
      match condition? depth rest with
      | some (.closing :: rest) => some rest
      | _ => none
    | _ => none
  | _, .name _ :: .equals :: .text :: rest => some rest
  | _, .name _ :: .equals :: _ => none
  | _, .name _ :: rest => some rest
  | _, _ => none

/-- The parts behind a list of conditions and its closing parenthesis. A comma may come last. -/
def conditions? : Nat → List Token → Option (List Token)
  | 0, _ => none
  | _, .closing :: rest => some rest
  | depth + 1, ts =>
    match condition? depth ts with
    | some (.comma :: rest) => conditions? depth rest
    | some (.closing :: rest) => some rest
    | _ => none
end

/-- Is this a condition? -/
def isCondition (cs : List Char) : Bool :=
  match tokens? cs with
  | some ts => condition? (2 * ts.length) ts == some []
  | none => false

/-! ### Platforms -/

/-- May a character stand in the name of a platform? -/
def isNameChar (c : Char) : Bool :=
  CharClass.alphanumeric.contains c || c == '_' || c == '-' || c == '.'

/-- Is a text the name of a platform, or a condition in `cfg(...)`? -/
def isPlatform (text : String) : Bool :=
  let cs := text.toList
  if "cfg(".toList.isPrefixOf cs && cs.getLast? == some ')' then isCondition (cs.drop 4).dropLast
  else cs.all isNameChar

end Platform

end CallAtlas
