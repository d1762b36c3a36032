import CallAtlas.Ident
import CallAtlas.Text.Blank

/-!
# Lexemes

What a token may look like. Each kind of lexeme is given by the length of the one that a text starts
with: `some n` if the first `n` characters form such a lexeme, `none` if there is none.

An escape in a quoted text is checked where its backslash stands, by looking ahead; its characters
then count as ordinary ones. So the scan of a quoted text is a recursion on the text.

## Main definitions

* `Lexeme.blank?` — white space and comments.
* `Lexeme.docComment?` — documentation comments, which are attributes.
* `Lexeme.literal?`, `Lexeme.word?`, `Lexeme.lifetime?`, `Lexeme.isMark` — the tokens.
-/

namespace CallAtlas

namespace Lexeme

/-! ## Words -/

/-- A word. -/
def plainWord? : List Char → Option Nat
  | [] => none
  | c :: rest => if startsWord c then some (1 + (rest.takeWhile continuesWord).length) else none

/-- Words that have no raw form. -/
def neverRaw : List String :=
  ["_", "super", "self", "Self", "crate"]

/-- A word or a raw word. -/
def anyWord? : List Char → Option Nat
  | 'r' :: '#' :: rest =>
    match plainWord? rest with
    | some n => if neverRaw.contains (String.ofList (rest.take n)) then none else some (n + 2)
    | none => none
  | cs => plainWord? cs

/-- Starts of literals. A text that starts so and is no literal is no word either. -/
def literalStarts : List (List Char) :=
  ["r\"", "r#\"", "r##", "b\"", "b'", "br\"", "br#", "c\"", "cr\"", "cr#"].map String.toList

/-- Does a text start like a literal? -/
def startsLiteral (cs : List Char) : Bool :=
  literalStarts.any (·.isPrefixOf cs)

/-- A word that is not the start of a broken literal. -/
def word? (cs : List Char) : Option Nat :=
  if startsLiteral cs then none else anyWord? cs

/-! ## Quoted text -/

/-- A hexadecimal digit. -/
def hexDigit? (c : Char) : Option Nat :=
  if '0' ≤ c ∧ c ≤ '9' then some (c.toNat - 48)
  else if 'a' ≤ c ∧ c ≤ 'f' then some (c.toNat - 87)
  else if 'A' ≤ c ∧ c ≤ 'F' then some (c.toNat - 55)
  else none

/-- The value of the digits of `\u{...}` up to the closing brace: one to six digits, with
underscores anywhere but in front. -/
def unicodeDigits? (value count : Nat) : List Char → Option Nat
  | [] => none
  | c :: rest =>
    match hexDigit? c with
    | some d => if count = 6 then none else unicodeDigits? (value * 16 + d) (count + 1) rest
    | none =>
      if count = 0 then none
      else if c = '_' then unicodeDigits? value count rest
      else if c = '\x7d' then some value
      else none

/-- Is this the number of a character? -/
def isScalar (n : Nat) : Bool :=
  n < 0xD800 || (0xDFFF < n && n < 0x110000)

/-- The character that `\u{...}` names, from behind the `u`. -/
def unicodeEscape? : List Char → Option Nat
  | '\x7b' :: rest => (unicodeDigits? 0 0 rest).filter isScalar
  | _ => none

/-- The kinds of quoted text. -/
inductive Quoted where
  /-- Text. -/
  | text
  /-- Bytes: no character above the first 128. -/
  | bytes
  /-- Text for another language: it holds no zero. -/
  | cText
  deriving DecidableEq

/-- The number that `\xHH` names, from behind the `x`. -/
def byteEscape? : List Char → Option Nat
  | a :: b :: _ =>
    match hexDigit? a, hexDigit? b with
    | some x, some y => some (16 * x + y)
    | _, _ => none
  | _ => none

/-- May `\c` stand in a quoted text of this kind, with `rest` behind it? -/
def isEscape (kind : Quoted) (c : Char) (rest : List Char) : Bool :=
  if c = 'n' ∨ c = 'r' ∨ c = 't' ∨ c = '\\' ∨ c = '\'' ∨ c = '"' then true
  else if c = '0' then kind != .cText
  else if c = 'x' then
    match kind, byteEscape? rest with
    | .text, some n => n < 128
    | .bytes, some _ => true
    | .cText, some n => n != 0
    | _, none => false
  else if c = 'u' then
    match kind, unicodeEscape? rest with
    | .text, some _ => true
    | .cText, some n => n != 0
    | _, _ => false
  else if c = '\n' then true
  else if c = '\r' then rest.head? == some '\n'
  else false

/-- May a character stand for itself in a quoted text of this kind? -/
def isQuotable (kind : Quoted) (c : Char) : Bool :=
  match kind with
  | .text => true
  | .bytes => c.toNat < 128
  | .cText => c != '\x00'

/-- From behind an opening quote up to and with the closing one. A carriage return stands only
before a newline. -/
def quotedTail? (kind : Quoted) : List Char → Option Nat
  | [] => none
  | c :: rest =>
    if c = '"' then some 1
    else if c = '\\' then
      match rest with
      | [] => none
      | e :: rest => if isEscape kind e rest then (quotedTail? kind rest).map (· + 2) else none
    else if c = '\r' && rest.head? != some '\n' then none
    else if isQuotable kind c then (quotedTail? kind rest).map (· + 1)
    else none

/-- From behind the opening quote of a raw text up to and with the closing quote and its `#`s. -/
def rawTail? (kind : Quoted) (hashes : Nat) : List Char → Option Nat
  | [] => none
  | c :: rest =>
    if c = '"' ∧ (rest.takeWhile (· == '#')).length ≥ hashes then some (1 + hashes)
    else if c = '\r' && rest.head? != some '\n' then none
    else if isQuotable kind c then (rawTail? kind hashes rest).map (· + 1)
    else none

/-- A raw text, from behind its `r`: up to 255 `#`s, a quote, and the text. -/
def rawText? (kind : Quoted) (cs : List Char) : Option Nat :=
  let hashes := (cs.takeWhile (· == '#')).length
  match cs.drop hashes with
  | '"' :: rest =>
    if hashes ≤ 255 then (rawTail? kind hashes rest).map (· + (hashes + 1)) else none
  | _ => none

/-- The length of the suffix of a literal. -/
def suffix (cs : List Char) : Nat :=
  (plainWord? cs).getD 0

/-- A literal with the suffix that follows it. -/
def withSuffix (cs : List Char) (length : Option Nat) : Option Nat :=
  length.map fun n => n + suffix (cs.drop n)

/-- Quoted text of all kinds, raw or not. -/
def quoted? (cs : List Char) : Option Nat :=
  match cs with
  | '"' :: rest => (quotedTail? .text rest).map (· + 1)
  | 'r' :: rest => (rawText? .text rest).map (· + 1)
  | 'b' :: '"' :: rest => (quotedTail? .bytes rest).map (· + 2)
  | 'b' :: 'r' :: rest => (rawText? .bytes rest).map (· + 2)
  | 'c' :: '"' :: rest => (quotedTail? .cText rest).map (· + 2)
  | 'c' :: 'r' :: rest => (rawText? .cText rest).map (· + 2)
  | _ => none

/-- The length of an escape or of a single character, for a quoted character. -/
def charBody? (kind : Quoted) : List Char → Option Nat
  | [] => none
  | '\\' :: e :: rest =>
    if e = '\n' ∨ e = '\r' then none
    else if isEscape kind e rest then
      if e = 'x' then some 4
      else if e = 'u' then some (3 + (rest.takeWhile (· != '\x7d')).length)
      else some 2
    else none
  | '\\' :: [] => none
  | c :: _ => if isQuotable kind c then some 1 else none

/-- A quoted character or byte. -/
def quotedChar? (cs : List Char) : Option Nat :=
  let tail (kind : Quoted) (rest : List Char) : Option Nat :=
    (charBody? kind rest).bind fun n =>
      if (rest.drop n).head? == some '\'' then some (n + 1) else none
  match cs with
  | 'b' :: '\'' :: rest => (tail .bytes rest).map (· + 2)
  | '\'' :: rest => (tail .text rest).map (· + 1)
  | _ => none

/-! ## Numbers -/

/-- A decimal digit. -/
def isDigit (c : Char) : Bool :=
  '0' ≤ c && c ≤ '9'

/-- A decimal digit or an underscore. -/
def isDigitOrGap (c : Char) : Bool :=
  isDigit c || c == '_'

/-- The length of an exponent, from behind its `e`: a sign at most, and digits. `none` if there is
no digit. -/
def exponent? (cs : List Char) : Option Nat :=
  let gaps := (cs.takeWhile (· == '_')).length
  let signed := match cs.drop gaps with
    | c :: _ => if c = '+' ∨ c = '-' then gaps + 1 else gaps
    | [] => gaps
  let digits := (cs.drop signed).takeWhile isDigitOrGap
  if digits.any isDigit then some (signed + digits.length) else none

/-- The digits of a number with a fraction or an exponent, without its suffix. -/
def floatDigits? (cs : List Char) : Option Nat :=
  match cs with
  | [] => none
  | c :: _ =>
    if !isDigit c then none
    else
      let whole := (cs.takeWhile isDigitOrGap).length
      let isExponent (o : Option Char) : Bool := o == some 'e' || o == some 'E'
      match cs.drop whole with
      | '.' :: rest =>
        if (rest.head?.map fun c => c == '.' || startsWord c).getD false then none
        else
          let fraction := (rest.takeWhile isDigitOrGap).length
          let bare := whole + 1 + fraction
          if isExponent (rest.drop fraction).head? then
            match exponent? (rest.drop (fraction + 1)) with
            | some n => some (bare + 1 + n)
            | none => some bare
          else some bare
      | e :: rest =>
        if isExponent (some e) then (exponent? rest).map (· + (whole + 1)) else none
      | [] => none

/-- A number is followed by its suffix, and then by no character of a word. -/
def number? (cs : List Char) (digits : Option Nat) : Option Nat :=
  digits.bind fun n =>
    let total := n + suffix (cs.drop n)
    if (((cs.drop total).head?).map continuesWord).getD false then none else some total

/-- A number with a fraction or an exponent. -/
def float? (cs : List Char) : Option Nat :=
  number? cs (floatDigits? cs)

/-- The digits of a whole number in a base, with underscores. A decimal digit too large for the base
breaks the number off as no number at all. -/
def digits? (base : Nat) (started : Bool) : List Char → Option Nat
  | [] => if started then some 0 else none
  | c :: rest =>
    if c = '_' then
      if !started && base == 10 then none else (digits? base started rest).map (· + 1)
    else
      match hexDigit? c with
      | some d =>
        if d < base then (digits? base true rest).map (· + 1)
        else if isDigit c then none
        else if started then some 0
        else none
      | none => if started then some 0 else none

/-- The digits of a whole number with the mark of its base. -/
def intDigits? : List Char → Option Nat
  | '0' :: 'x' :: rest => (digits? 16 false rest).map (· + 2)
  | '0' :: 'o' :: rest => (digits? 8 false rest).map (· + 2)
  | '0' :: 'b' :: rest => (digits? 2 false rest).map (· + 2)
  | cs => digits? 10 false cs

/-- A whole number. -/
def int? (cs : List Char) : Option Nat :=
  number? cs (intDigits? cs)

/-- The text that stands for a literal which could not be made. -/
def errorText : List Char :=
  "(/*ERROR*/)".toList

/-- The literal that stands for one which could not be made. It looks like a comment in
parentheses. -/
def error? (cs : List Char) : Option Nat :=
  if errorText.isPrefixOf cs then some errorText.length else none

/-- A literal. -/
def literal? (cs : List Char) : Option Nat :=
  withSuffix cs (quoted? cs) <|> withSuffix cs (quotedChar? cs) <|> float? cs <|> int? cs <|>
    error? cs

/-! ## Marks and lifetimes -/

/-- The punctuation marks. -/
def marks : List Char :=
  "~!@#$%^&*-=+|;:,<.>/?'".toList

/-- Does a text start with a punctuation mark? The start of a comment is none. -/
def isMark : List Char → Bool
  | '/' :: '/' :: _ => false
  | '/' :: '*' :: _ => false
  | c :: _ => marks.contains c
  | [] => false

/-- An apostrophe and a word, with no further apostrophe behind it. -/
def lifetime? : List Char → Option Nat
  | '\'' :: rest =>
    (anyWord? rest).bind fun n =>
      let next := (rest.drop n).head?
      let raw := ['r', '#'].isPrefixOf rest
      if next == some '\'' || (next == some '#' && !raw) then none else some (n + 1)
  | _ => none

/-! ## Blanks and comments -/

/-- White space, and the marks that set the direction of writing. -/
def isBlank (c : Char) : Bool :=
  CharClass.blank.contains c || c == '\u200e' || c == '\u200f'

/-- The length of the rest of a line, up to its end. -/
def line (cs : List Char) : Nat :=
  (cs.takeWhile (· != '\n')).length

/-- The rest of a block comment with `depth` comments open. Block comments nest. -/
def commentTail? (depth : Nat) : List Char → Option Nat
  | [] => none
  | c :: rest =>
    if c = '/' ∧ rest.head? = some '*' then
      match rest with
      | _ :: rest => (commentTail? (depth + 1) rest).map (· + 2)
      | [] => none
    else if c = '*' ∧ rest.head? = some '/' then
      match rest with
      | _ :: rest => if depth = 1 then some 2 else (commentTail? (depth - 1) rest).map (· + 2)
      | [] => none
    else (commentTail? depth rest).map (· + 1)

/-- A block comment. -/
def blockComment? : List Char → Option Nat
  | '/' :: '*' :: rest => (commentTail? 1 rest).map (· + 2)
  | _ => none

/-- A blank character, or a comment that is no documentation. -/
def blank? (cs : List Char) : Option Nat :=
  match cs with
  | '/' :: '/' :: '/' :: '/' :: _ => some (line cs)
  | '/' :: '/' :: '/' :: _ => none
  | '/' :: '/' :: '!' :: _ => none
  | '/' :: '/' :: _ => some (line cs)
  | '/' :: '*' :: '*' :: '/' :: _ => some 4
  | '/' :: '*' :: '*' :: '*' :: _ => blockComment? cs
  | '/' :: '*' :: '*' :: _ => none
  | '/' :: '*' :: '!' :: _ => none
  | '/' :: '*' :: _ => blockComment? cs
  | c :: _ => if isBlank c then some 1 else none
  | [] => none

/-- Does every carriage return stand before a newline? -/
def returnsPaired : List Char → Bool
  | [] => true
  | c :: rest => (c != '\r' || rest.head? == some '\n') && returnsPaired rest

/-- A line that documents, up to its end. A carriage return before the newline is not part of it. -/
def docLine? (cs : List Char) : Option Nat :=
  let n := line cs
  let text := cs.take n
  let ended := n < cs.length
  let text := if ended && text.getLast? == some '\r' then text.dropLast else text
  if returnsPaired text then some n else none

/-- A documentation comment, and whether it documents what it stands in. -/
def docComment? (cs : List Char) : Option (Bool × Nat) :=
  let block (inner : Bool) : Option (Bool × Nat) :=
    (blockComment? cs).bind fun n =>
      if returnsPaired (cs.take n) then some (inner, n) else none
  match cs with
  | '/' :: '/' :: '!' :: _ => (docLine? cs).map (true, ·)
  | '/' :: '*' :: '!' :: _ => block true
  | '/' :: '/' :: '/' :: '/' :: _ => none
  | '/' :: '/' :: '/' :: _ => (docLine? cs).map (false, ·)
  | '/' :: '*' :: '*' :: '*' :: _ => none
  | '/' :: '*' :: '*' :: _ => block false
  | _ => none

end Lexeme

end CallAtlas
