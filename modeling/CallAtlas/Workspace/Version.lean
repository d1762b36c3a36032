import CallAtlas.Text.Split

/-!
# Version numbers

A version is three numbers with dots between, perhaps with the identifiers of a pre-release behind
`-` and those of a build behind `+`. A requirement is a list of comparators, which may leave out the
last numbers of a version or put a wildcard for them.

A part of a version is given by the text behind it: `some rest` if a text starts with such a part,
and `none` if it does not.

## Main definitions

* `Version.isVersion`, `Version.isRequirement`.
* `Version.isToolchain` — versions of the language that a package asks for.
-/

namespace CallAtlas

namespace Version

/-! ### Parts of versions -/

/-- The text behind the spaces in front. -/
def skipSpaces (cs : List Char) : List Char :=
  cs.dropWhile (· == ' ')

/-- A number that fits in 64 bits. Only zero starts with a zero. -/
def number? (cs : List Char) : Option (List Char) :=
  let digits := cs.takeWhile (·.isDigit)
  let isPlain := digits.length == 1 || digits.head? != some '0'
  if !digits.isEmpty && isPlain && Nat.ofDigitChars 10 digits 0 < Nat.pow 2 64 then
    some (cs.drop digits.length)
  else none

/-- A dot. -/
def dot? : List Char → Option (List Char)
  | '.' :: rest => some rest
  | _ => none

/-- May a character stand in an identifier? -/
def isIdentifierChar (c : Char) : Bool :=
  c.isAlphanum || c == '-'

/-- Does an identifier look like a number with a zero in front? -/
def hasLeadingZero (identifier : List Char) : Bool :=
  identifier.all (·.isDigit) && identifier.length > 1 && identifier.head? == some '0'

/-- Identifiers with dots between. -/
def identifiers? (test : List Char → Bool) (cs : List Char) : Option (List Char) :=
  let taken := cs.takeWhile fun c => isIdentifierChar c || c == '.'
  if (splitOnChar '.' taken).all fun identifier => !identifier.isEmpty && test identifier then
    some (cs.drop taken.length)
  else none

/-- The identifiers of a pre-release, if there are some. Numbers among them have no zero in
front. -/
def preRelease? : List Char → Option (List Char)
  | '-' :: rest => identifiers? (!hasLeadingZero ·) rest
  | cs => some cs

/-- The identifiers of a build, if there are some. -/
def build? : List Char → Option (List Char)
  | '+' :: rest => identifiers? (fun _ => true) rest
  | cs => some cs

/-! ### Versions -/

/-- Is this a version? -/
def isVersion (text : String) : Bool :=
  let rest := do
    let cs ← dot? (← number? text.toList)
    let cs ← dot? (← number? cs)
    build? (← preRelease? (← number? cs))
  rest == some []

/-- Is this a version of the language that a package may ask for? The last number may be missing,
and there is no pre-release and no build. -/
def isToolchain (text : String) : Bool :=
  let isShort := text.toList.count '.' == 1
  !text.contains '-' && !text.contains '+' && isVersion (if isShort then text ++ ".0" else text)

/-! ### Requirements -/

/-- The text behind a wildcard. -/
def wildcard? : List Char → Option (List Char)
  | c :: rest => if c = '*' ∨ c = 'x' ∨ c = 'X' then some rest else none
  | [] => none

/-- The text behind an operator, if there is one. -/
def skipOperator : List Char → List Char
  | '>' :: '=' :: rest | '<' :: '=' :: rest => rest
  | c :: rest => if "=><~^".toList.contains c then rest else c :: rest
  | [] => []

/-- What has been read of the numbers of a comparator. -/
inductive Precision where
  /-- The number is there. -/
  | exact
  /-- A wildcard stands for it. -/
  | wildcard
  /-- It is missing. -/
  | missing
  deriving DecidableEq

/-- The next number of a comparator, behind a dot, or a wildcard for it. -/
def part? : List Char → Option (Precision × List Char)
  | '.' :: cs =>
    match wildcard? cs with
    | some rest => some (.wildcard, rest)
    | none => (number? cs).map (.exact, ·)
  | cs => some (.missing, cs)

/-- A comparator. No number stands behind a wildcard, and only a full version has a pre-release or a
build. -/
def comparator? (cs : List Char) : Option (List Char) := do
  let cs ← number? (skipSpaces (skipOperator cs))
  let (minor, cs) ← part? cs
  let (patch, cs) ← part? cs
  if minor = .wildcard ∧ patch = .exact then none
  else if patch = .exact then return skipSpaces (← build? (← preRelease? cs))
  else return skipSpaces cs

/-- At most so many comparators, with commas between. -/
def areComparators : Nat → List Char → Bool
  | 0, _ => false
  | count + 1, cs =>
    match comparator? cs with
    | some [] => true
    | some (',' :: rest) => areComparators count (skipSpaces rest)
    | _ => false

/-- The largest number of comparators. -/
def maxComparators : Nat := 32

/-- Is this a requirement on a version? A wildcard alone allows every version. -/
def isRequirement (text : String) : Bool :=
  let cs := skipSpaces text.toList
  match wildcard? cs with
  | some rest => (skipSpaces rest).isEmpty
  | none => areComparators maxComparators cs

end Version

end CallAtlas
