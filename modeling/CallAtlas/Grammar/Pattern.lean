import CallAtlas.Grammar.Path

/-!
# Patterns

A pattern binds names and may hold expressions: constants, the ends of ranges, the arguments of
macros. Alternatives may stand wherever brackets or a keyword delimit the pattern, which `patterns`
reads; elsewhere there is room for one alternative, which `pattern` reads.
-/

namespace CallAtlas

namespace Production

open CallAtlas.Parser

/-! ### Alternatives -/

/-- Does another alternative follow? -/
def opensAlternative (ts : Tokens) : Bool :=
  ts.mark "|" && !ts.mark "||" && !ts.mark "|="

/-- Alternatives with `|` between. -/
def alternatives (g : Grammar) (leading : Bool) : Parser PatternSyntax := do
  let first ← g.pattern
  let more ← repeatWhile opensAlternative do
    mark "|"
    g.pattern
  if leading || !more.isEmpty then return .of (.group ((first :: more).map (·.pattern)))
  else return first

/-- Alternatives with `|` between, and perhaps one in front. -/
def patternsSyntax (g : Grammar) : Parser PatternSyntax := do
  alternatives g (← mark? "|")

/-- A pattern with alternatives. -/
def patterns (g : Grammar) : Parser Pattern := do
  return (← patternsSyntax g).pattern

/-! ### Ranges and constants -/

/-- A constant block. -/
def constantBlock (g : Grammar) : Parser Expr := do
  word "const"
  let (attrs, body) ← attributedBlock g
  return .block attrs body

/-- Does a range end without an upper bound here? -/
def endsRange (ts : Tokens) : Bool :=
  ts.isEmpty || ts.mark "|" || ts.mark "=" || ts.mark ":" && !ts.mark "::" || ts.mark "," ||
    ts.mark ";" || ts.word "if"

/-- An end of a range, or a constant. -/
def rangeBound (g : Grammar) : Parser (List Expr) := do
  let ts ← ahead
  if ts.literal then
    literal
    return []
  else if ts.name || ts.mark "::" || ts.mark "<" || ts.pathWord then
    return [(← qualifiedPath g .expression).toExpr]
  else if ts.word "const" then return [← constantBlock g]
  else fail

/-- The upper bound of a range, if it is there. -/
def upperBound? (g : Grammar) : Parser (Option (List Expr)) := do
  if endsRange (← ahead) then return none else some <$> rangeBound g

/-- The dots of a range and its upper bound, behind its lower bound. -/
def rangeFrom (g : Grammar) (lower : List Expr) : Parser PatternSyntax := do
  let place ← here
  let closed ← rangeLimits true
  let upper ← upperBound? g
  if closed && upper.isNone then fail
  return .range (lower ++ upper.getD []) (if upper.isNone then some place else none)

/-- A range without a lower bound, or `..` for the rest of a sequence. -/
def rangeTo (g : Grammar) : Parser PatternSyntax := do
  let place ← here
  let closed ← rangeLimits false
  match ← upperBound? g with
  | some upper => return .range upper (some place)
  | none => if closed then fail else return .of .empty

/-- A constant, or a range that starts with one. -/
def constantOrRange (g : Grammar) : Parser PatternSyntax := do
  let lower ← rangeBound g
  if (← ahead).mark ".." then rangeFrom g lower else return .of (.ofExprs lower)

/-! ### Compound patterns -/

/-- A pattern for a field of a struct: a name for it with a pattern, or a name alone. -/
def fieldPattern (g : Grammar) : Parser Pattern := do
  let boxed ← word? "box"
  let byRef ← word? "ref"
  let mutable ← word? "mut"
  let plain := !boxed && !byRef && !mutable
  let member ← if plain then member else some <$> name
  match member with
  | none =>
    mark ":"
    patterns g
  | some name =>
    if plain && (← ahead).mark ":" then
      mark ":"
      patterns g
    else if boxed then return .empty
    else return .binder [] name .empty

/-- The fields of a struct pattern, up to `..` or the end. -/
def fieldPatterns (g : Grammar) : Parser (List Pattern) :=
  collect do
    if ← atEnd then return none
    let attrs := Pattern.ofExprs (values (← outerAttributes g))
    if (← ahead).mark ".." then
      mark ".."
      return some (attrs, false)
    let field ← fieldPattern g
    let pattern := Pattern.group [attrs, field]
    if ← atEnd then return some (pattern, false)
    mark ","
    return some (pattern, true)

/-- The elements of a slice pattern. An open range needs parentheses there. -/
def slicePatterns (g : Grammar) : Parser (List Pattern) :=
  commaList do
    let element ← patternsSyntax g
    match element.openRange with
    | some place => throw place
    | none => return element.pattern

/-- A pattern that starts with a path. -/
def pathPattern (g : Grammar) : Parser PatternSyntax := do
  let path ← qualifiedPath g .expression
  let head := Pattern.ofExprs path.args
  let ts ← ahead
  if !path.isQualified && opensInvocation ts && path.bare then
    mark "!"
    return .of (.embedded (← invocationOf g path))
  else if ts.group .brace then
    return .of (.group (head :: (← group .brace (fieldPatterns g))))
  else if ts.group .paren then
    return .of (.group (head :: (← group .paren (commaList (patterns g)))))
  else if ts.mark ".." then rangeFrom g [path.toExpr]
  else return .of (.embedded path.toExpr)

/-- A name, perhaps with `@` and a pattern. -/
def binderPattern (g : Grammar) : Parser Pattern := do
  let _ ← word? "ref"
  let _ ← word? "mut"
  let name ← nameOr ["self"]
  let inner ← if ← mark? "@" then (·.pattern) <$> g.pattern else pure .empty
  return .binder [] name inner

/-- Does a pattern that starts with a path stand here? -/
def opensPathPattern (ts : Tokens) : Bool :=
  let next := ts.skip 1
  ts.name && (next.mark "::" || next.mark "!" || next.group .brace || next.group .paren ||
      next.mark "..") ||
    ts.word "self" && next.mark "::" || ts.mark "::" || ts.mark "<" ||
    ts.oneOf ["Self", "super", "crate"]

/-- A pattern without alternatives at its top. -/
def pattern (g : Grammar) : Parser PatternSyntax := do
  let ts ← ahead
  if opensPathPattern ts then pathPattern g
  else if ts.word "_" then
    advance 1
    return .of .empty
  else if ts.word "box" then
    advance 1
    let _ ← g.pattern
    return .unseen
  else if ts.mark "-" || ts.literal || ts.word "const" then constantOrRange g
  else if ts.oneOf ["ref", "mut", "self"] || ts.name then return .of (← binderPattern g)
  else if ts.mark "&" then
    mark "&"
    let _ ← word? "mut"
    return .of (← g.pattern).pattern
  else if ts.group .paren then return .of (.group (← group .paren (commaList (patterns g))))
  else if ts.group .bracket then return .of (.group (← group .bracket (slicePatterns g)))
  else if ts.mark ".." && !ts.mark "..." then rangeTo g
  else fail

end Production

end CallAtlas
