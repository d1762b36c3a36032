import CallAtlas.Grammar.Parser
import CallAtlas.Token.LiteralValue

/-!
# Grammars

Expressions, types, patterns and items nest in each other. So a production is a parser that is given
a `Grammar`: the parsers for what may stand inside. `Grammar` is tied to the productions at the end,
by recursion on the depth of nesting.

Attributes may stand nearly everywhere and come first: of an attribute, the expressions in it count,
and what the attributes of a module say about its file.

## Main definitions

* `Grammar`, and what its parsers take and give: `Precedence`, `TypeSyntax`, `BoundSyntax`,
  `PatternSyntax`.
* `Attribute`, `outerAttributes`, `innerAttributes`.
-/

namespace CallAtlas

/-- How tightly an operator binds. -/
inductive Precedence where
  | lowest
  | assign
  | range
  | or
  | and
  | compare
  | bitOr
  | bitXor
  | bitAnd
  | shift
  | sum
  | product
  | cast
  deriving DecidableEq

namespace Precedence

/-- The rank of a precedence; a higher one binds more tightly. -/
def rank : Precedence → Nat
  | .lowest => 0
  | .assign => 1
  | .range => 2
  | .or => 3
  | .and => 4
  | .compare => 5
  | .bitOr => 6
  | .bitXor => 7
  | .bitAnd => 8
  | .shift => 9
  | .sum => 10
  | .product => 11
  | .cast => 12

end Precedence

/-- What kind of type has been read, as far as the grammar asks. -/
inductive TypeKind where
  /-- A path of one name. -/
  | name
  /-- Any other path that does not start with a type in angle brackets. -/
  | path
  /-- A single bound without `dyn`. -/
  | bound
  | other
  deriving DecidableEq

/-- A type that has been read. -/
structure TypeSyntax where
  /-- Its kind. -/
  kind : TypeKind
  /-- Its form. -/
  form : TypeForm
  /-- The expressions in it. -/
  parts : List Expr

namespace TypeSyntax

/-- A type of which only the expressions in it count. -/
def ofParts (parts : List Expr) : TypeSyntax :=
  ⟨.other, .other, parts⟩

end TypeSyntax

/-- A bound on a type that has been read. -/
structure BoundSyntax where
  /-- Is it a trait, rather than a lifetime or a list of captures? -/
  isTrait : Bool
  /-- The expressions in it. -/
  parts : List Expr

/-- What may stand among bounds besides lifetimes and traits. -/
structure BoundRules where
  /-- Captures, as in `use<'a, T>`. -/
  captures : Bool
  /-- Traits with `const` or `[const]` in front. -/
  constTraits : Bool

/-- A pattern that has been read. -/
structure PatternSyntax where
  /-- The pattern. -/
  pattern : Pattern
  /-- Where the dots of a range stand that has only one end. -/
  openRange : Option Place
  /-- Is it looked into? What is not looked into has no attributes either. -/
  transparent : Bool

namespace PatternSyntax

/-- A pattern that is no range. -/
def of (pattern : Pattern) : PatternSyntax :=
  ⟨pattern, none, true⟩

/-- A range of these ends, whose dots stand at the place if it has only one. -/
def range (ends : List Expr) (openAt : Option Place) : PatternSyntax :=
  ⟨.ofExprs ends, openAt, true⟩

/-- A pattern that is not looked into. -/
def unseen : PatternSyntax :=
  ⟨.empty, none, false⟩

end PatternSyntax

/-- The parsers for what nests. -/
structure Grammar where
  /-- An expression; the flag says whether a struct literal may stand there. -/
  expr : Bool → Parser Expr
  /-- An expression up to the first binary operator. -/
  unary : Bool → Parser Expr
  /-- The operators of at least a precedence that follow an operand. -/
  climb : Bool → Precedence → Expr → Parser Expr
  /-- An expression that ends behind a block. -/
  early : Parser Expr
  /-- A type; the flag says whether bounds may be added to it by `+`. -/
  type : Bool → Parser TypeSyntax
  /-- A bound. -/
  bound : BoundRules → Parser BoundSyntax
  /-- A pattern without alternatives at its top. -/
  pattern : Parser PatternSyntax
  /-- Statements up to the end of a block. -/
  statements : Parser (List Stmt)
  /-- An item. -/
  item : Parser Item
  /-- The tree of an import. It is `none` if a part starts with `::`, which the flag allows. -/
  useTree : Bool → Parser (Option UseTree)

/-- The grammar of nothing. -/
def Grammar.empty : Grammar where
  expr _ := Parser.fail
  unary _ := Parser.fail
  climb _ _ _ := Parser.fail
  early := Parser.fail
  type _ := Parser.fail
  bound _ := Parser.fail
  pattern := Parser.fail
  statements := Parser.fail
  item := Parser.fail
  useTree _ := Parser.fail

namespace Tokens

/-- The number of trees of the literal that the trees start with, or zero. The words `true` and
`false` are literals, and a minus sign belongs to the number behind it. -/
def literalLength : Tokens → Nat
  | .literal .. :: _ => 1
  | .word _ name :: _ => if name.text == "true" || name.text == "false" then 1 else 0
  | .mark _ '-' _ :: .literal _ text :: _ => if text.toList.head?.any Char.isDigit then 2 else 0
  | _ => 0

/-- Do the trees start with a literal? -/
def literal (ts : Tokens) : Bool :=
  ts.literalLength != 0

/-- Do the trees start with a word that a path may start with, other than a name? -/
def pathWord (ts : Tokens) : Bool :=
  ts.oneOf ["super", "self", "Self", "crate"]

end Tokens

namespace Production

open CallAtlas.Parser

/-- A literal. -/
def literal : Parser Unit := do
  match (← ahead).literalLength with
  | 0 => fail
  | n => advance n

/-- The name or the index of a field; it is `none` for an index. -/
def member : Parser (Option Ident) := do
  let ts ← ahead
  if ts.name then some <$> name
  else if ts.literal?.any fun text => LiteralValue.isIndex text.toList then
    advance 1
    return none
  else fail

/-- The limits of a range: is its end part of it? The dots of old, `...`, are taken if the flag says
so. -/
def rangeLimits (old : Bool) : Parser Bool := do
  if ← mark? "..=" then return true
  else if (← ahead).mark "..." then
    if old then
      mark "..."
      return true
    else fail
  else
    mark ".."
    return false

/-! ### Built-in forms -/

/-- Does a form stand here that the compiler defines, such as `builtin # offset_of(T, f)`? -/
def opensBuiltin (ts : Tokens) : Bool :=
  ts.word "builtin" && (ts.skip 1).mark "#"

/-- A form that the compiler defines. Its arguments are not looked into. -/
def builtin : Parser Unit := do
  word "builtin"
  mark "#"
  let _ ← name
  if (← ahead).group .paren then advance 1 else fail

/-! ### Paths of bare names -/

/-- A path of names without arguments; it is rooted if it starts with `::`. -/
def barePath : Parser (Bool × List Ident) := do
  let rooted ← mark? "::"
  let names ← collect do
    let ts ← ahead
    if ts.name || ts.pathWord then
      let name ← anyWord
      return some (name, ← mark? "::")
    else fail
  return (rooted, names)

/-! ### Attributes -/

/-- An attribute that has been read. -/
structure Attribute where
  /-- Where it starts. -/
  place : Place
  /-- Its path, if it is a single name. -/
  name : Option Ident
  /-- The string literal that it gives to its path. -/
  text : Option String
  /-- The expressions in it. -/
  values : List Expr

/-- The value of an attribute: a literal alone, or any expression, which may have no attributes
itself. -/
def attributeValue (g : Grammar) : Parser (Option String × List Expr) := do
  let ts ← ahead
  if ts.literalLength != 0 && ts.length == ts.literalLength then
    literal
    return (ts.literal?.bind LiteralValue.text?, [])
  else if ts.mark "#" && (ts.skip 1).group .bracket then fail
  else return (none, [← g.expr true])

/-- What stands between the brackets of an attribute. -/
def attributeBody (g : Grammar) (place : Place) : Parser Attribute := do
  let name ← if ← word? "unsafe" then pure none else do
    let (rooted, names) ← barePath
    pure <| match rooted, names with
      | false, [name] => some name
      | _, _ => none
  let ts ← ahead
  if ts.group?.isSome then
    advance 1
    return ⟨place, name, none, []⟩
  else if ts.mark "=" && !ts.mark "==" && !ts.mark "=>" then
    mark "="
    let (text, values) ← attributeValue g
    return ⟨place, name, text, values⟩
  else return ⟨place, name, none, []⟩

/-- Attributes in front of what they belong to. -/
def outerAttributes (g : Grammar) : Parser (List Attribute) :=
  repeatWhile (·.mark "#") do
    let place ← here
    mark "#"
    group .bracket (attributeBody g place)

/-- Attributes inside of what they belong to. -/
def innerAttributes (g : Grammar) : Parser (List Attribute) :=
  repeatWhile (fun ts => ts.mark "#" && (ts.skip 1).mark "!") do
    let place ← here
    mark "#"
    mark "!"
    group .bracket (attributeBody g place)

/-- The expressions in some attributes. -/
def values (attributes : List Attribute) : List Expr :=
  attributes.flatMap (·.values)

/-- The statements between braces. -/
def block (g : Grammar) : Parser (List Stmt) :=
  group .brace g.statements

/-- The inner attributes and the statements between braces. -/
def attributedBlock (g : Grammar) : Parser (List Expr × List Stmt) :=
  group .brace do
    let attributes ← innerAttributes g
    return (values attributes, ← g.statements)

/-- What the attributes of a module say about its file. -/
def moduleAttributes (attributes : List Attribute) : ModuleAttributes where
  gated := attributes.any fun a => a.name.any (·.text == "cfg")
  path := attributes.findSome? fun a => if a.name.any (·.text == "path") then a.text else none

/-- An expression with attributes in front. A call then starts where they start. Attributes in front
of an operator belong to its first operand, and what is not looked into has none. -/
def attach (attributes : List Attribute) : Expr → Expr
  | .path attrs head names args => .path (values attributes ++ attrs) head names args
  | .call place attrs callee args =>
    .call ((attributes.head?.map (·.place)).getD place) (values attributes ++ attrs) callee args
  | .methodCall place attrs receiver name args =>
    .methodCall ((attributes.head?.map (·.place)).getD place) (values attributes ++ attrs) receiver
      name args
  | .block attrs body => .block (values attributes ++ attrs) body
  | .binding attrs pattern value => .binding (values attributes ++ attrs) pattern value
  | .branch attrs condition body otherwise =>
    .branch (values attributes ++ attrs) condition body otherwise
  | .whileLoop attrs condition body => .whileLoop (values attributes ++ attrs) condition body
  | .forLoop attrs pattern source body =>
    .forLoop (values attributes ++ attrs) pattern source body
  | .closure attrs params output body => .closure (values attributes ++ attrs) params output body
  | .choice attrs subject arms => .choice (values attributes ++ attrs) subject arms
  | .invocation attrs defines delimiter args =>
    .invocation (values attributes ++ attrs) defines delimiter args
  | .node .operator (left :: rest) => .node .operator (attach attributes left :: rest)
  | .node .comparison (left :: rest) => .node .comparison (attach attributes left :: rest)
  | .node .bare parts => .node .bare parts
  | .node form parts => .node form (values attributes ++ parts)

end Production

end CallAtlas
