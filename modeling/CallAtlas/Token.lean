import CallAtlas.Ident
import CallAtlas.Location

/-!
# Token trees

Source text after lexing: words, lifetimes, literals and punctuation marks, with everything between
a pair of brackets gathered into one tree. Each tree knows where it starts, and a group also where
its closing bracket stands.
-/

namespace CallAtlas

/-- The kinds of brackets. -/
inductive Delimiter where
  | paren
  | bracket
  | brace
  deriving DecidableEq, Repr

namespace Delimiter

/-- The kind that a character opens. -/
def ofOpening? (c : Char) : Option Delimiter :=
  if c = '(' then some .paren
  else if c = '[' then some .bracket
  else if c = '\x7b' then some .brace
  else none

/-- The kind that a character closes. -/
def ofClosing? (c : Char) : Option Delimiter :=
  if c = ')' then some .paren
  else if c = ']' then some .bracket
  else if c = '\x7d' then some .brace
  else none

end Delimiter

/-- A token, or a bracketed group of them. -/
inductive Tree where
  /-- An identifier or a keyword. -/
  | word (place : Place) (name : Ident)
  /-- A lifetime or a label, without its apostrophe. -/
  | lifetime (place : Place) (name : Ident)
  /-- A literal, as it is written. -/
  | literal (place : Place) (text : String)
  /-- A punctuation mark. It is joint if another mark follows without a gap. -/
  | mark (place : Place) (char : Char) (joint : Bool)
  /-- The trees between two brackets. -/
  | group (place : Place) (delimiter : Delimiter) (inner : List Tree) (close : Place)

namespace Tree

/-- Where a tree starts. -/
def place : Tree → Place
  | .word p _ | .lifetime p _ | .literal p _ | .mark p _ _ | .group p _ _ _ => p

mutual
/-- The number of tokens of a tree, a pair of brackets being one. -/
def size : Tree → Nat
  | .group _ _ inner _ => sizeList inner + 1
  | _ => 1

/-- The number of tokens of several trees. -/
def sizeList : List Tree → Nat
  | [] => 0
  | t :: rest => t.size + sizeList rest
end

end Tree

end CallAtlas
