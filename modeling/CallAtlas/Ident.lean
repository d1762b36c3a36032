import CallAtlas.Text.Identifier

/-!
# Identifiers

An identifier is a word, or a raw word that starts with `r#`. Keywords and the lone underscore are
words too; an identifier that is none of these is a `Name`. Which identifiers may stand somewhere is a
matter of the grammar; a function that is declared has a name.

An `Ident` carries the proof that its text is of this form. So no name in a syntax tree holds a dot
or a colon, wherever it came from.
-/

namespace CallAtlas

/-- May a word start with this character? -/
def startsWord (c : Char) : Bool :=
  c == '_' || CharClass.identifierStart.contains c

/-- May a word go on with this character? -/
def continuesWord (c : Char) : Bool :=
  CharClass.identifierContinue.contains c

/-- A character that starts a word and characters that go on with it. -/
def isWord : List Char → Bool
  | [] => false
  | c :: rest => startsWord c && rest.all continuesWord

/-- A word, or `r#` and a word. -/
def isIdent : List Char → Bool
  | 'r' :: '#' :: word => isWord word
  | word => isWord word

/-- An identifier, as it is written. -/
structure Ident where
  /-- The text, with `r#` if it is raw. -/
  text : String
  /-- The text is a word or a raw word. -/
  wellFormed : isIdent text.toList = true
  deriving DecidableEq

namespace Ident

/-- The identifier of a text, if it is one. -/
def ofString? (text : String) : Option Ident :=
  if h : isIdent text.toList = true then some ⟨text, h⟩ else none

instance : ToString Ident := ⟨text⟩

end Ident

/-- The words that are no names. -/
def reservedWords : List String :=
  ["_", "abstract", "as", "async", "await", "become", "box", "break", "const", "continue", "crate",
    "do", "dyn", "else", "enum", "extern", "false", "final", "fn", "for", "if", "impl", "in", "let",
    "loop", "macro", "match", "mod", "move", "mut", "override", "priv", "pub", "ref", "return",
    "Self", "self", "static", "struct", "super", "trait", "true", "try", "type", "typeof", "unsafe",
    "unsized", "use", "virtual", "where", "while", "yield"]

/-- A name: an identifier that is no reserved word. -/
structure Name extends Ident where
  /-- The text is no reserved word. -/
  unreserved : reservedWords.contains text = false
  deriving DecidableEq

namespace Name

/-- The name that an identifier is, if it is one. -/
def ofIdent? (ident : Ident) : Option Name :=
  if h : reservedWords.contains ident.text = false then some ⟨ident, h⟩ else none

instance : Coe Name Ident := ⟨toIdent⟩

end Name

end CallAtlas
