import CallAtlas.Grammar.Pattern
import CallAtlas.Grammar.Type
import CallAtlas.Text.Split

/-!
# Expressions

An expression is an operand, with calls, fields and indices behind it, and operators between
operands. Operators are read by climbing over their precedences.

In a condition, a brace behind a path opens the body and not a struct literal. The flag `literals`
says whether a struct literal may stand; every kind of bracket allows them again.

A statement, or the body of a `match` arm, ends behind a block where an expression elsewhere would
go on (`if a { b } - c` are two statements). `early` reads by that rule.

## Main definitions

* `atom`, `trailers`, `unary`, `climb`, `expr` — expressions from the inside out.
* `early` — expressions that end behind a block.
-/

namespace CallAtlas

namespace Production

open CallAtlas.Parser

/-! ### Operators -/

/-- The binary operators, those with more characters first where one starts like another. -/
def binaryOperators : List (String × Precedence) :=
  [("+=", .assign), ("-=", .assign), ("*=", .assign), ("/=", .assign), ("%=", .assign),
    ("^=", .assign), ("&=", .assign), ("|=", .assign), ("<<=", .assign), (">>=", .assign),
    ("&&", .and), ("||", .or), ("<<", .shift), (">>", .shift), ("==", .compare), ("<=", .compare),
    ("!=", .compare), (">=", .compare), ("+", .sum), ("-", .sum), ("*", .product), ("/", .product),
    ("%", .product), ("^", .bitXor), ("&", .bitAnd), ("|", .bitOr), ("<", .compare),
    (">", .compare)]

/-- The binary operator ahead. -/
def binaryOperator? (ts : Tokens) : Option (String × Precedence) :=
  binaryOperators.find? fun op => ts.mark op.1

/-- Does `=` follow, and not `=>`? A binary operator that starts so has been ruled out before. -/
def opensAssignment (ts : Tokens) : Bool :=
  ts.mark "=" && !ts.mark "=>"

/-- The precedence of the operator ahead, or the lowest if there is none. -/
def nextPrecedence (ts : Tokens) : Precedence :=
  match binaryOperator? ts with
  | some (_, precedence) => precedence
  | none =>
    if opensAssignment ts then .assign
    else if ts.mark ".." then .range
    else if ts.word "as" then .cast
    else .lowest

/-- The right operand of an operator: what binds more tightly belongs to it, and assignments group
to the right. -/
def operand (unary : Parser Expr) (climb : Precedence → Expr → Parser Expr)
    (precedence : Precedence) : Parser Expr := do
  iterate (fun right => do
    let ts ← ahead
    let next := nextPrecedence ts
    if precedence.rank < next.rank || next == precedence && precedence == .assign then
      let more ← climb next right
      if (← ahead).length == ts.length then return none else return some more
    else return none) (← unary)

/-- Does a range without an upper bound end here? -/
def endsOpenRange (literals : Bool) (ts : Tokens) : Bool :=
  ts.isEmpty || ts.mark "," || ts.mark ";" || ts.mark "." && !ts.mark ".." || ts.mark "?" ||
    ts.mark "=>" || !literals && ts.group .brace ||
    ["=", "+", "/", "%", "^", ">", "<=", "!=", "-=", "*=", "&=", "|=", "<<="].any ts.mark ||
    ts.word "as"

/-- The dots of a range and its upper bound. -/
def rangeTail (unary : Parser Expr) (climb : Precedence → Expr → Parser Expr) (literals : Bool) :
    Parser (List Expr) := do
  let closed ← rangeLimits false
  if !closed && endsOpenRange literals (← ahead) then return []
  else return [← operand unary climb .range]

/-! ### Blocks and control flow -/

/-- `if` with its chain of `else if`, and the last `else`. -/
def branches (g : Grammar) : Parser Expr := do
  let (clauses, otherwise, _) ← iterate (fun (clauses, otherwise, more) => do
    if !more then return none
    word "if"
    let condition ← g.expr false
    let body ← block g
    let clauses := (condition, body) :: clauses
    if ← word? "else" then
      let ts ← ahead
      if ts.word "if" then return some (clauses, otherwise, true)
      else if ts.group .brace then return some (clauses, .block [] (← block g), false)
      else fail
    else return some (clauses, otherwise, false)) (([] : List (Expr × List Stmt)), .nothing, true)
  return clauses.foldl (fun rest (condition, body) => .branch [] condition body rest) otherwise

/-- `while`. -/
def whileExpr (g : Grammar) : Parser Expr := do
  word "while"
  let condition ← g.expr false
  let (attrs, body) ← attributedBlock g
  return .whileLoop attrs condition body

/-- `for`. -/
def forExpr (g : Grammar) : Parser Expr := do
  word "for"
  let pattern ← patterns g
  word "in"
  let source ← g.expr false
  let (attrs, body) ← attributedBlock g
  return .forLoop attrs pattern source body

/-- A block with a word in front, such as `loop` or `unsafe`. -/
def wordBlock (g : Grammar) (text : String) : Parser Expr := do
  word text
  let (attrs, body) ← attributedBlock g
  return .block attrs body

/-- A block. -/
def blockExpr (g : Grammar) : Parser Expr := do
  let (attrs, body) ← attributedBlock g
  return .block attrs body

/-- A `try` block. -/
def tryBlock (g : Grammar) : Parser Expr := do
  word "try"
  return .block [] (← block g)

/-- An `async` block. -/
def asyncBlock (g : Grammar) : Parser Expr := do
  word "async"
  let _ ← word? "move"
  return .node .plain [.block [] (← block g)]

/-- A label, and the loop or block that it names. -/
def labeled (g : Grammar) : Parser Expr := do
  lifetime
  mark ":"
  let ts ← ahead
  if ts.word "while" then whileExpr g
  else if ts.word "for" then forExpr g
  else if ts.word "loop" then wordBlock g "loop"
  else if ts.group .brace then blockExpr g
  else fail

/-- Is this the `for` of a closure, which binds lifetimes, and not that of a loop? -/
def opensBinder (ts : Tokens) : Bool :=
  ts.word "for" && opensGenerics (ts.skip 1)

/-! ### Closures -/

/-- A parameter of a closure. Its attributes belong to the pattern unless there is a type. -/
def closureParameter (g : Grammar) : Parser Pattern := do
  let attrs := values (← outerAttributes g)
  let found ← g.pattern
  if ← mark? ":" then
    return .group [.ofExprs attrs, found.pattern, .ofExprs (← g.type true).parts]
  else if found.transparent then return .group [.ofExprs attrs, found.pattern]
  else return found.pattern

/-- A closure. With a result type, its body is a block. -/
def closure (g : Grammar) (literals : Bool) : Parser Expr := do
  let bound ← binder g
  let _ ← word? "const"
  let _ ← word? "static"
  let _ ← word? "async"
  let _ ← word? "move"
  mark "|"
  let params ← terminated (·.mark "|") "," (closureParameter g)
  mark "|"
  if ← mark? "->" then
    let output ← g.type true
    return .closure bound params output.parts (.block [] (← block g))
  else return .closure bound params [] (← g.expr literals)

/-- Does a closure stand here? -/
def opensClosure (ts : Tokens) : Bool :=
  let next := ts.skip 1
  ts.mark "|" || ts.word "move" || opensBinder ts || ts.word "const" && !next.group .brace ||
    ts.word "static" || ts.word "async" && (next.mark "|" || next.word "move")

/-! ### Brackets -/

/-- A field of a struct literal. A name alone stands for the value of that name. -/
def fieldValue (g : Grammar) : Parser (List Expr) := do
  let attrs := values (← outerAttributes g)
  let member ← member
  match member, (← ahead).mark ":" with
  | some name, false => return attrs ++ [.path [] (.plain false) [name] []]
  | _, _ =>
    mark ":"
    return attrs ++ [← g.expr true]

/-- The fields of a struct literal, up to `..` with a base or the end. -/
def fieldValues (g : Grammar) : Parser (List (List Expr)) :=
  collect do
    if ← atEnd then return none
    if ← mark? ".." then
      if ← atEnd then return some ([], false)
      return some ([← g.expr true], false)
    let field ← fieldValue g
    if ← atEnd then return some (field, false)
    mark ","
    return some (field, true)

/-- A path, a macro or a struct literal. -/
def pathExpr (g : Grammar) (literals : Bool) : Parser Expr := do
  let path ← qualifiedPath g .expression
  let ts ← ahead
  if !path.isQualified && opensInvocation ts && path.bare then
    mark "!"
    invocationOf g path
  else if literals && ts.group .brace then
    return .node .plain (path.args ++ (← group .brace (fieldValues g)).flatten)
  else return path.toExpr

/-- Expressions in parentheses. -/
def parenthesized (g : Grammar) : Parser Expr := do
  return .node .plain (← group .paren (commaList (g.expr true)))

/-- An array of elements, or of copies of one element. -/
def array (g : Grammar) : Parser Expr :=
  group .bracket do
    if ← atEnd then return .node .plain []
    let first ← g.expr true
    if (← atEnd) || (← ahead).mark "," then
      let _ ← mark? ","
      return .node .plain (first :: (← commaList (g.expr true)))
    else
      mark ";"
      return .node .plain [first, ← g.expr true]

/-! ### Jumps -/

/-- Does an expression stand here? Asked where a value may be missing. -/
def opensExpr (ts : Tokens) : Bool :=
  ts.anyWord && !ts.word "as" || ts.group?.isSome || ts.literal || ts.lifetime ||
    ts.mark "!" && !ts.mark "!=" || ts.mark "-" && !ts.mark "-=" && !ts.mark "->" ||
    ts.mark "*" && !ts.mark "*=" || ts.mark "|" && !ts.mark "|=" || ts.mark "&" && !ts.mark "&=" ||
    ts.mark ".." || ts.mark "<" && !ts.mark "<=" && !ts.mark "<<=" || ts.mark "::" || ts.mark "#"

/-- The value of `return` and the like, if there is one. -/
def jumpValue (g : Grammar) : Parser Expr := do
  if opensExpr (← ahead) then return .node .plain [← g.expr true] else return .node .plain []

/-- `break` with its label and its value. A labelled loop as the value needs parentheses. -/
def breakExpr (g : Grammar) (literals : Bool) : Parser Expr := do
  word "break"
  let ts ← ahead
  if ts.lifetime && (ts.skip 1).mark ":" then
    let place ← here
    let _ ← g.expr true
    throw place
  if ts.lifetime then advance 1
  if literals || !(← ahead).group .brace then jumpValue g else return .node .plain []

/-! ### `match` -/

/-- An arm of a `match`. A comma may be missing behind the last one, or behind a block. -/
def arm (g : Grammar) : Parser Arm := do
  let attrs := values (← outerAttributes g)
  let pattern ← patterns g
  let guard ← if ← word? "if" then g.expr true else pure .nothing
  mark "=>"
  let body ← g.early
  if body.isBlockLike || (← atEnd) then
    let _ ← mark? ","
  else mark ","
  return .mk attrs pattern guard body

/-- `match`. -/
def matchExpr (g : Grammar) : Parser Expr := do
  word "match"
  let subject ← g.expr false
  group .brace do
    let attrs := values (← innerAttributes g)
    return .choice attrs subject (← repeatWhile (!·.isEmpty) (arm g))

/-! ### Operands -/

/-- Elements of tuples behind a dot, written like a fraction: `a.0.1`. The flag says whether the
fraction ends in a dot, so that more has to follow. -/
def elements? : Parser (Option Bool) := do
  let text := (((← ahead).literal?).map String.toList).getD []
  if text.contains '.' && text.head?.any Char.isDigit then
    let dot := text.getLast? == some '.'
    let parts := splitOnChar '.' (if dot then text.dropLast else text)
    if parts.all LiteralValue.isIndex then
      advance 1
      return some dot
    else fail
  else return none

/-- A field or a method call, whose dot has been read. -/
def fieldOrCall (g : Grammar) (start : Place) (receiver : Expr) : Parser Expr := do
  if ← word? "await" then return .node .plain [receiver]
  match ← member with
  | none => return .node .plain [receiver]
  | some name =>
    let generics ← if ← mark? "::" then some <$> genericArguments g else pure none
    if generics.isSome || (← ahead).group .paren then
      let args ← group .paren (commaList (g.expr true))
      return .methodCall start [] receiver name ((generics.getD []).flatten ++ args)
    else return .node .plain [receiver]

/-- What follows a receiver behind a dot: elements of a tuple, a field or a method call. -/
def dotted (g : Grammar) (start : Place) (receiver : Expr) : Parser Expr := do
  mark "."
  match ← elements? with
  | none => fieldOrCall g start receiver
  | some false => return .node .plain [receiver]
  | some true => fieldOrCall g start (.node .plain [receiver])

/-- What follows an operand that starts at a place: calls, fields, indices and `?`. -/
def trailers (g : Grammar) (start : Place) (first : Expr) : Parser Expr :=
  iterate (fun e => do
    let ts ← ahead
    if ts.group .paren then
      return some (.call start [] e (← group .paren (commaList (g.expr true))))
    else if ts.mark "." && !ts.mark ".." && !e.isRange then return some (← dotted g start e)
    else if ts.group .bracket then
      return some (.node .plain [e, ← group .bracket (g.expr true)])
    else if ts.mark "?" && !e.isRange then
      mark "?"
      return some (.node .plain [e])
    else return none) first

/-- Does a path, or what starts with one, stand here? -/
def opensPath (ts : Tokens) : Bool :=
  ts.name || ts.mark "::" || ts.mark "<" || ts.pathWord ||
    ts.word "try" && ((ts.skip 1).mark "!" || (ts.skip 1).mark "::")

/-- `let pattern = value` as a condition. The value ends before `&&` and `||`. -/
def bindingExpr (g : Grammar) (literals : Bool) : Parser Expr := do
  word "let"
  let pattern ← patterns g
  mark "="
  let first ← g.unary literals
  return .binding [] pattern (← g.climb literals .compare first)

/-- An operand by itself. -/
def atom (g : Grammar) (literals : Bool) : Parser Expr := do
  let ts ← ahead
  let next := ts.skip 1
  if ts.literal then
    literal
    return .node .plain []
  else if ts.word "async" &&
      (next.group .brace || next.word "move" && (ts.skip 2).group .brace) then asyncBlock g
  else if ts.word "try" && next.group .brace then tryBlock g
  else if opensClosure ts then closure g literals
  else if opensBuiltin ts then
    builtin
    return .nothing
  else if opensPath ts then pathExpr g literals
  else if ts.group .paren then parenthesized g
  else if ts.word "break" then breakExpr g literals
  else if ts.word "continue" then
    advance 1
    if (← ahead).lifetime then advance 1
    return .node .plain []
  else if ts.word "return" || ts.word "yield" then
    advance 1
    jumpValue g
  else if ts.word "become" then
    advance 1
    let _ ← g.expr true
    return .nothing
  else if ts.group .bracket then array g
  else if ts.word "let" then bindingExpr g literals
  else if ts.word "if" then branches g
  else if ts.word "while" then whileExpr g
  else if ts.word "for" then forExpr g
  else if ts.word "loop" then wordBlock g "loop"
  else if ts.word "match" then matchExpr g
  else if ts.word "unsafe" then wordBlock g "unsafe"
  else if ts.word "const" then wordBlock g "const"
  else if ts.group .brace then blockExpr g
  else if ts.mark ".." then
    return .node .range (← rangeTail (g.unary literals) (g.climb literals) literals)
  else if ts.word "_" then
    advance 1
    return .node .plain []
  else if ts.lifetime then labeled g
  else fail

/-- An operand with what follows it, behind attributes. A range without a lower bound has none. -/
def attributedOperand (g : Grammar) (literals : Bool) (attributes : List Attribute) :
    Parser Expr := do
  let start ← here
  let e ← trailers g start (← atom g literals)
  if e.isRange && !attributes.isEmpty then throw start
  return attach attributes e

/-- An expression up to the first binary operator. -/
def unary (g : Grammar) (literals : Bool) : Parser Expr := do
  let attributes ← outerAttributes g
  let ts ← ahead
  if ts.mark "&" then
    advance 1
    let ts ← ahead
    let raw := ts.word "raw" && ((ts.skip 1).word "mut" || (ts.skip 1).word "const")
    if raw then advance 2
    else
      let _ ← word? "mut"
    return .node .plain (values attributes ++ [← g.unary literals])
  else if ts.mark "*" || ts.mark "!" || ts.mark "-" then
    advance 1
    return .node .plain (values attributes ++ [← g.unary literals])
  else attributedOperand g literals attributes

/-! ### Binary operators -/

/-- Fails if something follows a cast that would belong to an operand. -/
def checkCast : Parser Unit := do
  let ts ← ahead
  if ts.mark "." && !ts.mark ".." || ts.mark "?" || ts.group .bracket || ts.group .paren then fail

/-- The operators of at least a precedence that follow a left operand. A range is no left operand,
and comparisons do not chain. -/
def climb (g : Grammar) (literals : Bool) (base : Precedence) (left : Expr) : Parser Expr :=
  iterate (fun left => do
    let ts ← ahead
    if left.isRange then return none
    match binaryOperator? ts with
    | some (text, precedence) =>
      if precedence.rank < base.rank then return none
      if precedence == .compare && left.isComparison then fail
      mark text
      let right ← operand (unary g literals) (g.climb literals) precedence
      let form : Form := if precedence == .compare then .comparison else .operator
      return some (.node form [left, right])
    | none =>
      if base.rank ≤ Precedence.assign.rank && opensAssignment ts then
        mark "="
        let right ← operand (unary g literals) (g.climb literals) .assign
        return some (.node .operator [left, right])
      else if base.rank ≤ Precedence.range.rank && ts.mark ".." then
        let tail ← rangeTail (unary g literals) (g.climb literals) literals
        return some (.node .range (left :: tail))
      else if ts.word "as" then
        advance 1
        let type ← g.type false
        checkCast
        return some (.node .operator (left :: type.parts))
      else return none) left

/-- An expression. -/
def expr (g : Grammar) (literals : Bool) : Parser Expr := do
  climb g literals .lowest (← unary g literals)

/-! ### Expressions that end behind a block -/

/-- The expression that ends with its block, if one stands here. -/
def blockLike? (ts : Tokens) : Option (Grammar → Parser Expr) :=
  let next := ts.skip 1
  if ts.word "if" then some branches
  else if ts.word "while" then some whileExpr
  else if ts.word "for" && !opensBinder ts then some forExpr
  else if ts.word "loop" then some (wordBlock · "loop")
  else if ts.word "match" then some matchExpr
  else if ts.word "try" && next.group .brace then some tryBlock
  else if ts.word "unsafe" then some (wordBlock · "unsafe")
  else if ts.word "const" && next.group .brace then some (wordBlock · "const")
  else if ts.group .brace then some blockExpr
  else if ts.lifetime then some labeled
  else none

/-- An expression that ends behind a block, unless a dot or `?` goes on with it. -/
def early (g : Grammar) : Parser Expr := do
  let attributes ← outerAttributes g
  let start ← here
  match blockLike? (← ahead) with
  | none => climb g true .lowest (attach attributes (← unary g true))
  | some production =>
    let e ← production g
    let ts ← ahead
    if ts.mark "." && !ts.mark ".." || ts.mark "?" then
      climb g true .lowest (attach attributes (← trailers g start e))
    else return attach attributes e

end Production

end CallAtlas
