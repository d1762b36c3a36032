import CallAtlas.Token
import CallAtlas.Token.Lexeme

/-!
# From text to token trees

The lexer cuts a text into lexemes and gathers what stands between brackets. A documentation comment
becomes the attribute `#[doc = ""]`, all of whose tokens stand where the comment starts.

A text has no token trees if some part of it is no token, if a closing bracket does not fit the one
that is open, or if a bracket is not closed. The place reported is that of the bad token or bracket;
of several brackets that are not closed it is the last one.
-/

namespace CallAtlas

namespace Place

/-- The place behind a character. -/
def next (p : Place) (c : Char) : Place :=
  if c = '\n' then ⟨p.line + 1, 1⟩ else ⟨p.line, p.column + 1⟩

/-- The place behind several characters. -/
def after (p : Place) (cs : List Char) : Place :=
  cs.foldl next p

end Place

namespace Lexer

/-- What a text starts with. -/
inductive Piece where
  | blank
  /-- A documentation comment; it is inner if it documents what it stands in. -/
  | doc (inner : Bool)
  | opening (delimiter : Delimiter)
  | closing (delimiter : Delimiter)
  | word (name : Ident)
  | lifetime (name : Ident)
  | literal (text : String)
  | mark (char : Char) (joint : Bool)

/-- The first `n` characters, as an identifier. -/
def identOf? (cs : List Char) (n : Nat) : Option Ident :=
  Ident.ofString? (String.ofList (cs.take n))

/-- The token that a text starts with, and its length. Literals come first, because some of them
start like a word, and lifetimes before marks. An apostrophe in front of a literal is a mark by
itself. -/
def token? (cs : List Char) : Option (Piece × Nat) :=
  match Lexeme.literal? cs with
  | some n => some (.literal (String.ofList (cs.take n)), n)
  | none =>
    match cs with
    | [] => none
    | '\'' :: rest => do
      let n ← Lexeme.lifetime? cs
      if Lexeme.startsLiteral rest then return (.mark '\'' true, 1)
      let name ← identOf? rest (n - 1)
      return (.lifetime name, n)
    | c :: rest =>
      if Lexeme.isMark cs then some (.mark c (Lexeme.isMark rest), 1)
      else do
        let n ← Lexeme.word? cs
        let name ← identOf? cs n
        return (.word name, n)

/-- The piece that a text starts with, and its length. A parenthesis opens a group unless a literal
starts with it. -/
def piece? (cs : List Char) : Option (Piece × Nat) :=
  match Lexeme.blank? cs with
  | some n => some (.blank, n)
  | none =>
    match Lexeme.docComment? cs with
    | some (inner, n) => some (.doc inner, n)
    | none =>
      match cs.head?.bind Delimiter.ofOpening?, cs.head?.bind Delimiter.ofClosing? with
      | some d, _ => if (Lexeme.error? cs).isSome then token? cs else some (.opening d, 1)
      | none, some d => some (.closing d, 1)
      | none, none => token? cs

/-- A bracket that is open, and the trees in front of it, the last one first. -/
structure Frame where
  /-- The kind of bracket. -/
  delimiter : Delimiter
  /-- Where the bracket stands. -/
  place : Place
  /-- The trees in front of it. -/
  before : List Tree

/-- The word of documentation attributes. -/
def docWord (place : Place) : List Tree :=
  match Ident.ofString? "doc" with
  | some name => [.word place name]
  | none => []

/-- The attribute that a documentation comment stands for, the last tree first. -/
def docTrees (place : Place) (inner : Bool) : List Tree :=
  let content := docWord place ++ [.mark place '=' false, .literal place "\"\""]
  .group place .bracket content place ::
    ((if inner then [.mark place '!' false] else []) ++ [.mark place '#' false])

/-- Scans a text, with the open brackets and the trees behind the last of them, last one first. -/
def scan (stack : List Frame) (trees : List Tree) (place : Place) (cs : List Char) :
    Except Place (List Tree) :=
  match cs with
  | [] =>
    match stack with
    | [] => .ok trees.reverse
    | frame :: _ => .error frame.place
  | c :: rest =>
    match piece? (c :: rest) with
    | none => .error place
    | some (piece, n) =>
      let next := place.after ((c :: rest).take n)
      let rest := rest.drop (n - 1)
      match piece with
      | .blank => scan stack trees next rest
      | .doc inner => scan stack (docTrees place inner ++ trees) next rest
      | .opening d => scan (⟨d, place, trees⟩ :: stack) [] next rest
      | .closing d =>
        match stack with
        | [] => .error place
        | frame :: stack =>
          if frame.delimiter = d then
            scan stack (.group frame.place d trees.reverse place :: frame.before) next rest
          else .error place
      | .word name => scan stack (.word place name :: trees) next rest
      | .lifetime name => scan stack (.lifetime place name :: trees) next rest
      | .literal text => scan stack (.literal place text :: trees) next rest
      | .mark char joint => scan stack (.mark place char joint :: trees) next rest
termination_by cs.length
decreasing_by
  all_goals
    simp only [List.length_drop, List.length_cons]
    omega

/-- The token trees of a text. A byte order mark in front is skipped. -/
def trees (place : Place) (cs : List Char) : Except Place (List Tree) :=
  match cs with
  | '\ufeff' :: rest => scan [] [] (place.next '\ufeff') rest
  | cs => scan [] [] place cs

end Lexer

end CallAtlas
