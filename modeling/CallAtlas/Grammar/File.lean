import CallAtlas.Grammar.Item
import CallAtlas.Token.Lexer

/-!
# Source files

The grammar is tied together: what nests at a depth is read by the productions over what nests one
level less deep. Between two levels a token is read, up to a few levels that do nothing but call
each other, so a small multiple of the number of tokens is deep enough for every text.

A text may start with a line `#!...` that names an interpreter. It is skipped, unless `#!` opens an
attribute.

## Main definitions

* `Grammar.ofDepth` — the grammar for nesting up to a depth.
* `SourceFile.parse` — the syntax tree of a text, or the place where it is not one.
-/

namespace CallAtlas

namespace Grammar

/-- The grammar for nesting one level deeper. -/
def deepen (g : Grammar) : Grammar where
  expr := Production.expr g
  unary := Production.unary g
  climb := Production.climb g
  early := Production.early g
  type := Production.type g
  bound := Production.bound g
  pattern := Production.pattern g
  statements := Production.statements g (Production.item g)
  item := do Production.item g (← Production.outerAttributes g)
  useTree := Production.useTree g

/-- The grammar for nesting up to a depth. -/
def ofDepth (depth : Nat) : Grammar :=
  depth.repeat deepen empty

/-- The grammar for any nesting of some trees. -/
def ofTrees (trees : List Tree) : Grammar :=
  ofDepth (4 * Tree.sizeList trees + 16)

end Grammar

namespace SourceFile

open CallAtlas.Parser

/-- The content of a file: its attributes and its items. -/
def content (g : Grammar) : Parser SourceFile := do
  let attributes ← Production.innerAttributes g
  return ⟨Production.values attributes, ← repeatWhile (!·.isEmpty) g.item⟩

/-- Skips blanks and comments. -/
def skipBlanks : Nat → List Char → List Char
  | 0, cs => cs
  | fuel + 1, cs =>
    match Lexeme.blank? cs with
    | some (n + 1) => skipBlanks fuel (cs.drop (n + 1))
    | _ => cs

/-- The text behind a first line that names an interpreter, from the end of that line on. -/
def skipInterpreter : List Char → List Char
  | '#' :: '!' :: rest =>
    if (skipBlanks rest.length rest).head? == some '[' then '#' :: '!' :: rest
    else rest.dropWhile (· != '\n')
  | cs => cs

/-- The text behind a byte order mark. -/
def skipByteOrderMark : List Char → List Char
  | '\ufeff' :: rest => rest
  | cs => cs

/-- The syntax tree of a text, or the place of what cannot be read. -/
def parse (text : String) : Except Place SourceFile := do
  let trees ← Lexer.trees .start (skipInterpreter (skipByteOrderMark text.toList))
  runAll (content (.ofTrees trees)) trees .start

end SourceFile

end CallAtlas
