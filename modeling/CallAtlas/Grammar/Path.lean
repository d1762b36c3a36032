import CallAtlas.Grammar.Basic

/-!
# Paths

Paths come in two styles. In a type, `<` behind a name opens its generic arguments; in an expression
it is an operator, and the arguments need `::` in front.

## Main definitions

* `Path`, and the parsers `path` and `qualifiedPath`.
* `genericArguments`, `parenthesizedArguments` — what follows a name of a path.
* `invocation` — a path, `!` and the tokens for a macro.
-/

namespace CallAtlas

namespace Production

open CallAtlas.Parser

/-- A path that has been read. -/
structure Path where
  /-- What stands in front of its names. -/
  head : PathHead
  /-- Its names. -/
  names : List Ident
  /-- The expressions in its arguments. -/
  args : List Expr
  /-- Has none of its names arguments? -/
  bare : Bool
  /-- Has the last name no arguments, or an empty list of them? -/
  takesArguments : Bool

namespace Path

/-- Is the path this single word? -/
def isWord (path : Path) (text : String) : Bool :=
  match path.head, path.names with
  | .plain false, [name] => path.bare && name.text == text
  | _, _ => false

/-- Does the path start with a type in angle brackets? -/
def isQualified (path : Path) : Bool :=
  match path.head with
  | .plain _ => false
  | _ => true

/-- A path followed by the names of another one. -/
def append (path more : Path) : Path where
  head := path.head
  names := path.names ++ more.names
  args := path.args ++ more.args
  bare := path.bare && more.bare
  takesArguments := more.takesArguments

/-- The path as an expression. -/
def toExpr (path : Path) : Expr :=
  .path [] path.head path.names path.args

end Path

/-! ### Arguments -/

/-- A literal, a name or a block as a constant argument. -/
def constantArgument (g : Grammar) : Parser (List Expr) := do
  let ts ← ahead
  if ts.literal then
    literal
    return []
  else if ts.name then
    let name ← name
    return [.path [] (.plain false) [name] []]
  else if ts.group .brace then
    let (attrs, body) ← attributedBlock g
    return [.block attrs body]
  else fail

/-- Is a constant argument ahead that cannot be a type? -/
def opensConstant (ts : Tokens) : Bool :=
  ts.literal || ts.group .brace

/-- One generic argument: a lifetime, a constant, a type, or a name with `=` or `:` behind it. -/
def genericArgument (g : Grammar) : Parser (List Expr) := do
  let ts ← ahead
  if ts.lifetime && !(ts.skip 1).mark "+" then
    advance 1
    return []
  else if opensConstant ts then constantArgument g
  else
    let type ← g.type true
    if type.kind != .name then return type.parts
    else if ← mark? "=" then
      if opensConstant (← ahead) then return type.parts ++ (← constantArgument g)
      else return type.parts ++ (← g.type true).parts
    else if ← mark? ":" then
      let bounds ← separated (fun ts => ts.mark "," || ts.mark ">") "+" (g.bound ⟨false, true⟩)
      return type.parts ++ bounds.flatMap (·.parts)
    else return type.parts

/-- Generic arguments in angle brackets: the expressions in each of them. -/
def genericArguments (g : Grammar) : Parser (List (List Expr)) := do
  mark "<"
  let args ← terminated (·.mark ">") "," (genericArgument g)
  mark ">"
  return args

/-- The expressions in the type behind `->`, if there is one. -/
def returnType (g : Grammar) (plus : Bool) : Parser (List Expr) := do
  if ← mark? "->" then return (← g.type plus).parts else return []

/-- Do parenthesised arguments follow, perhaps behind `::`? -/
def opensArguments (ts : Tokens) : Bool :=
  ts.group .paren || ts.mark "::" && (ts.skip 2).group .paren

/-- Arguments such as `(A, B) -> C`: the expressions in them. -/
def parenthesizedArguments (g : Grammar) : Parser (List Expr) := do
  let _ ← mark? "::"
  let inputs ← group .paren (commaList (g.type true))
  return inputs.flatMap (·.parts) ++ (← returnType g false)

/-! ### Paths -/

/-- The styles of paths. -/
inductive PathStyle where
  | expression
  | type
  deriving DecidableEq

/-- One name of a path, with its generic arguments. -/
def pathSegment (g : Grammar) (style : PathStyle) : Parser Path := do
  if (← ahead).oneOf ["super", "self", "crate", "try"] then
    return ⟨.plain false, [← anyWord], [], true, true⟩
  else
    let name ← nameOr ["Self"]
    let ts ← ahead
    let opens := ts.mark "<" && !ts.mark "<=" && !ts.mark "<<="
    if style == .type && opens || ts.mark "::" && (ts.skip 2).mark "<" then
      let _ ← mark? "::"
      let args ← genericArguments g
      return ⟨.plain false, [name], args.flatten, false, args.isEmpty⟩
    else return ⟨.plain false, [name], [], true, true⟩

/-- The names that follow in a path. It ends where `::` stands before parenthesised arguments. -/
def pathRest (g : Grammar) (style : PathStyle) (path : Path) : Parser Path :=
  iterate (fun path => do
    let ts ← ahead
    if ts.mark "::" && !(ts.skip 2).group .paren then
      mark "::"
      return some (path.append (← pathSegment g style))
    else return none) path

/-- A path. -/
def path (g : Grammar) (style : PathStyle) : Parser Path := do
  let rooted ← mark? "::"
  let first ← pathSegment g style
  pathRest g style { first with head := .plain rooted }

/-- A path that may start with a type in angle brackets. -/
def qualifiedPath (g : Grammar) (style : PathStyle) : Parser Path := do
  if ← mark? "<" then
    let type ← g.type true
    let ofTrait ← if ← word? "as" then some <$> path g .type else pure none
    mark ">"
    mark "::"
    let segments ← collect do
      let segment ← pathSegment g style
      return some (segment, ← mark? "::")
    let start : Path := match ofTrait with
      | some path => { path with head := .asTrait, args := type.parts ++ path.args }
      | none => ⟨.ofType type.form, [], type.parts, true, true⟩
    return segments.foldl Path.append start
  else path g style

/-! ### Macros -/

/-- The expressions that the tokens of a macro list: all of them are expressions with commas
between, or nothing is looked into. -/
def macroArguments (g : Grammar) (tokens : Tokens) (close : Place) : List Expr :=
  match runAll (commaList (g.expr true)) tokens close with
  | .ok args => args
  | .error _ => []

/-- The tokens of a macro whose path and `!` have been read. -/
def invocationOf (g : Grammar) (path : Path) : Parser Expr := do
  let (delimiter, tokens, close) ← anyGroup
  return .invocation [] (path.isWord "macro_rules") delimiter (macroArguments g tokens close)

/-- Does `!` follow, and not `!=`? -/
def opensInvocation (ts : Tokens) : Bool :=
  ts.mark "!" && !ts.mark "!="

end Production

end CallAtlas
