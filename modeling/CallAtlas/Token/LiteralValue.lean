import CallAtlas.Token.Lexeme

/-!
# The values of literals

The text that a string literal stands for, and the number that an index such as the `0` of `pair.0`
stands for. A string literal has been checked by the lexer, so a faulty escape does not occur in it;
one would end the text here.
-/

namespace CallAtlas

namespace LiteralValue

/-- The character that `\c` stands for, where it is a simple escape. -/
def simpleEscape? (c : Char) : Option Char :=
  if c = 'n' then some '\n'
  else if c = 'r' then some '\r'
  else if c = 't' then some '\t'
  else if c = '0' then some '\x00'
  else if c = '\\' ∨ c = '\'' ∨ c = '"' then some c
  else none

/-- What is being read of an escape. -/
inductive Mode where
  | plain
  /-- A backslash and a line break have been read: white space is skipped. -/
  | skipping
  /-- Characters of an escape whose value is known already. -/
  | ignoring (count : Nat)
  /-- The digits of `\u{...}`, whose value is known already. -/
  | ignoringToBrace
  deriving DecidableEq

/-- Is a character skipped behind a backslash and a line break? -/
def isSkipped (c : Char) : Bool :=
  c == ' ' || c == '\t' || c == '\n' || c == '\r'

/-- The text between the quotes of a literal, up to the closing quote. Of a line break with a
carriage return only the newline counts. -/
def unescape (mode : Mode) : List Char → List Char
  | [] => []
  | c :: rest =>
    match mode with
    | .ignoring (n + 1) => unescape (if n = 0 then .plain else .ignoring n) rest
    | .ignoringToBrace => unescape (if c = '\x7d' then .plain else .ignoringToBrace) rest
    | mode =>
      if mode = .skipping ∧ isSkipped c = true then unescape .skipping rest
      else if c = '"' then []
      else if c = '\\' then
        match rest with
        | [] => []
        | e :: rest =>
          match simpleEscape? e with
          | some d => d :: unescape .plain rest
          | none =>
            if e = '\n' ∨ e = '\r' then unescape .skipping rest
            else if e = 'x' then
              match Lexeme.byteEscape? rest with
              | some n => Char.ofNat n :: unescape (.ignoring 2) rest
              | none => []
            else if e = 'u' then
              match Lexeme.unicodeEscape? rest with
              | some n => Char.ofNat n :: unescape .ignoringToBrace rest
              | none => []
            else []
      else if c = '\r' then unescape .plain rest
      else c :: unescape .plain rest

/-- The text of a raw literal, from its first `#` or quote on. -/
def rawText (cs : List Char) : List Char :=
  let hashes := (cs.takeWhile (· == '#')).length
  let body := cs.drop (hashes + 1)
  match Lexeme.rawTail? .text hashes body with
  | some n => body.take (n - (hashes + 1))
  | none => []

/-- The text that a literal stands for, if it is a string literal. -/
def text? (literal : String) : Option String :=
  match literal.toList with
  | '"' :: rest => some (String.ofList (unescape .plain rest))
  | 'r' :: rest => some (String.ofList (rawText rest))
  | _ => none

/-! ## Numbers -/

/-- The value of digits of a base, underscores apart. -/
def digits? (base : Nat) (value : Nat) : List Char → Option Nat
  | [] => some value
  | '_' :: rest => digits? base value rest
  | c :: rest =>
    match Lexeme.hexDigit? c with
    | some d => if d < base then digits? base (value * base + d) rest else none
    | none => none

/-- The value of a whole number without a suffix. -/
def number? : List Char → Option Nat
  | '0' :: 'x' :: rest => digits? 16 0 rest
  | '0' :: 'o' :: rest => digits? 8 0 rest
  | '0' :: 'b' :: rest => digits? 2 0 rest
  | c :: rest => if c.isDigit then digits? 10 0 (c :: rest) else none
  | [] => none

/-- Can a literal be the index of a field? It is a whole number below 2^32. -/
def isIndex (literal : List Char) : Bool :=
  (number? literal).any (· < Nat.pow 2 32)

end LiteralValue

end CallAtlas
