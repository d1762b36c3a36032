import CallAtlas.Json.Written

/-!
# Reading JSON

A JSON text as a value that is written. Between its parts stand blanks, tabs and line ends; after
the value nothing else may follow.

A value reads its parts with one level less, and each part takes at least one character away, so the
length of the text is enough for any value in it.

## Main definitions

* `Json.Written.parse?` — what a text writes.
-/

namespace CallAtlas

namespace Json

/-! ### Parts of values -/

/-- Text without the blanks in front. -/
def skipBlanks (cs : List Char) : List Char :=
  cs.dropWhile fun c => c == ' ' || c == '\t' || c == '\n' || c == '\r'

/-- The text behind a word that has to stand in front. -/
def behind? (word : String) (cs : List Char) : Option (List Char) :=
  if word.toList.isPrefixOf cs then some (cs.drop word.length) else none

/-- The digits in front, of which there has to be one, and the text behind them. -/
def digits? (cs : List Char) : Option (List Char × List Char) :=
  match cs.span (·.isDigit) with
  | ([], _) => none
  | (digits, rest) => some (digits, rest)

/-- The whole part of a number. A leading zero stands alone. -/
def whole? : List Char → Option (List Char × List Char)
  | '0' :: rest => some (['0'], rest)
  | cs => digits? cs

/-- The part of a number behind its point, if it has one. -/
def fraction? : List Char → Option (List Char × List Char)
  | '.' :: rest => (digits? rest).map fun (digits, rest) => ('.' :: digits, rest)
  | cs => some ([], cs)

/-- The exponent of a number, if it has one. -/
def exponent? : List Char → Option (List Char × List Char)
  | cs@(mark :: rest) =>
    if mark = 'e' ∨ mark = 'E' then
      match rest with
      | sign :: behind =>
        if sign = '+' ∨ sign = '-' then
          (digits? behind).map fun (digits, rest) => (mark :: sign :: digits, rest)
        else (digits? rest).map fun (digits, rest) => (mark :: digits, rest)
      | [] => none
    else some ([], cs)
  | [] => some ([], [])

/-- A number, as it is written. -/
def number? (cs : List Char) : Option (List Char × List Char) := do
  let (sign, cs) := match cs with
    | '-' :: rest => (['-'], rest)
    | cs => ([], cs)
  let (whole, cs) ← whole? cs
  let (fraction, cs) ← fraction? cs
  let (exponent, cs) ← exponent? cs
  return (sign ++ whole ++ fraction ++ exponent, cs)

/-- The value of a hexadecimal digit. -/
def hexDigit? (c : Char) : Option Nat :=
  if c.isDigit then some (c.toNat - '0'.toNat)
  else if 'a' ≤ c ∧ c ≤ 'f' then some (c.toNat - 'a'.toNat + 10)
  else if 'A' ≤ c ∧ c ≤ 'F' then some (c.toNat - 'A'.toNat + 10)
  else none

/-- The value of hexadecimal digits. -/
def hexNumber? (cs : List Char) : Option Nat :=
  (cs.mapM hexDigit?).map fun digits => digits.foldl (fun n digit => 16 * n + digit) 0

/-- The character that a backslash and this character stand for. -/
def shortEscape? (c : Char) : Option Char :=
  if c = '"' ∨ c = '\\' ∨ c = '/' then some c
  else if c = 'b' then some '\x08'
  else if c = 'f' then some '\x0c'
  else if c = 'n' then some '\n'
  else if c = 'r' then some '\r'
  else if c = 't' then some '\t'
  else none

/-- The parts of a string up to its closing quote, and the text behind it. Control characters have
to be escaped. -/
def pieces? : List Char → Option (List Piece × List Char)
  | [] => none
  | '"' :: rest => some ([], rest)
  | '\\' :: 'u' :: a :: b :: c :: d :: rest => do
    let n ← hexNumber? [a, b, c, d]
    let (pieces, rest) ← pieces? rest
    return (.unit n :: pieces, rest)
  | '\\' :: e :: rest => do
    let c ← shortEscape? e
    let (pieces, rest) ← pieces? rest
    return (.char c :: pieces, rest)
  | c :: rest => do
    if c.toNat < 32 ∨ c = '\\' then none
    let (pieces, rest) ← pieces? rest
    return (.char c :: pieces, rest)

/-- A string in quotes. -/
def quoted? : List Char → Option (List Piece × List Char)
  | '"' :: rest => pieces? rest
  | _ => none

/-! ### Values -/

namespace Written

mutual
/-- A value and the text behind it. -/
def scanValue? : Nat → List Char → Option (Written × List Char)
  | 0, _ => none
  | depth + 1, cs =>
    match skipBlanks cs with
    | 'n' :: rest => (behind? "ull" rest).map (.null, ·)
    | 't' :: rest => (behind? "rue" rest).map (.bool true, ·)
    | 'f' :: rest => (behind? "alse" rest).map (.bool false, ·)
    | '[' :: rest =>
      match skipBlanks rest with
      | ']' :: rest => some (.array [], rest)
      | rest => (scanItems? depth rest).map fun (items, rest) => (.array items, rest)
    | '\x7b' :: rest =>
      match skipBlanks rest with
      | '\x7d' :: rest => some (.object [], rest)
      | rest => (scanMembers? depth rest).map fun (members, rest) => (.object members, rest)
    | '"' :: rest => (pieces? rest).map fun (text, rest) => (.string text, rest)
    | rest => (number? rest).map fun (text, rest) => (.number text, rest)

/-- The items of an array, from the first on. -/
def scanItems? : Nat → List Char → Option (List Written × List Char)
  | 0, _ => none
  | depth + 1, cs => do
    let (item, rest) ← scanValue? depth cs
    match skipBlanks rest with
    | ',' :: rest =>
      let (more, rest) ← scanItems? depth rest
      return (item :: more, rest)
    | ']' :: rest => return ([item], rest)
    | _ => none

/-- The members of an object, from the first on. -/
def scanMembers? : Nat → List Char → Option (List (List Piece × Written) × List Char)
  | 0, _ => none
  | depth + 1, cs => do
    let (key, rest) ← quoted? (skipBlanks cs)
    let rest ← behind? ":" (skipBlanks rest)
    let (value, rest) ← scanValue? depth rest
    match skipBlanks rest with
    | ',' :: rest =>
      let (more, rest) ← scanMembers? depth rest
      return ((key, value) :: more, rest)
    | '\x7d' :: rest => return ([(key, value)], rest)
    | _ => none
end

/-- What a text writes. -/
def parse? (s : String) : Option Written := do
  let (value, rest) ← scanValue? (s.length + 1) s.toList
  if (skipBlanks rest).isEmpty then return value else none

end Written

end Json

end CallAtlas
