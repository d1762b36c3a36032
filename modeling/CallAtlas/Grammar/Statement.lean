import CallAtlas.Grammar.Expression

/-!
# Statements

A block is a sequence of bindings, items and expressions. An expression other than the last one
needs a semicolon behind it unless it ends with a block, or is a macro with braces. An item may
start like an expression (`unsafe fn` and `unsafe { }`, `const N` and `const { }`), so some words
are looked at with what follows them.
-/

namespace CallAtlas

namespace Production

open CallAtlas.Parser

/-! ### Bindings -/

/-- Is a bound not looked into, because `const` stands in front of its trait? -/
def isConstBound (g : Grammar) (bound : Tokens) : Bool :=
  match (binder? g).run .start ⟨bound, none⟩ with
  | .ok (_, s) => s.rest.group .bracket || s.rest.word "const"
  | .error _ => false

/-- Do the trees of an expression end with a brace? The parentheses around the bound of a type are
passed over, as in `x as impl (Fn() -> m! { })`. The number bounds the depth of such types. -/
def endsWithBrace (g : Grammar) : Nat → Tokens → Bool
  | 0, _ => false
  | depth + 1, ts =>
    match ts.reverse with
    | .group _ .brace _ _ :: _ => true
    | .group _ .paren bound _ :: .word _ name :: _ =>
      (name.text == "impl" || name.text == "dyn") && !isConstBound g bound &&
        endsWithBrace g depth bound
    | _ => false

/-- The value of a binding, and its `else` block. Behind a brace there is no `else`. -/
def bindingValue (g : Grammar) : Parser (Expr × Expr) := do
  if ← mark? "=" then
    let before ← ahead
    let value ← g.expr true
    let after ← ahead
    let taken := before.take (before.length - after.length)
    if after.word "else" && !endsWithBrace g (Tree.sizeList taken) taken then
      word "else"
      return (value, .block [] (← block g))
    else return (value, .nothing)
  else return (.nothing, .nothing)

/-- A `let` statement. -/
def binding (g : Grammar) (attributes : List Attribute) : Parser Stmt := do
  word "let"
  let pattern := (← g.pattern).pattern
  let type ← if ← mark? ":" then (·.parts) <$> g.type true else pure []
  let (value, otherwise) ← bindingValue g
  mark ";"
  return .binding (values attributes) (.group [pattern, .ofExprs type]) value otherwise

/-! ### Macros and items among statements -/

/-- What a path and `!` at the start of a statement stand for. -/
inductive MacroUse where
  /-- A macro that defines an item with a name. -/
  | item
  /-- A macro with braces, which is a statement. -/
  | statement (path : Path)
  /-- Anything else: an expression. -/
  | expression

/-- What a path and `!` at the start of a statement stand for. A macro for a statement is read up to
its `!`, and nothing is read otherwise. -/
def macroUse : Parser MacroUse := do
  let start ← get
  match ← attempt barePath with
  | none => return .expression
  | some (rooted, names) =>
    let ts ← ahead
    let next := ts.skip 1
    let third := ts.skip 2
    if ts.mark "!" && (next.name || next.word "try") then
      set start
      return .item
    else if ts.mark "!" && next.group .brace &&
        !(third.mark "." && !third.mark ".." || third.mark "?") then
      return .statement ⟨.plain rooted, names, [], true, true⟩
    else
      set start
      return .expression

/-- Does an item stand here, where a statement may stand? -/
def opensItem (ts : Tokens) : Bool :=
  let next := ts.skip 1
  let third := ts.skip 2
  ts.oneOf ["pub", "extern", "use", "fn", "mod", "type", "struct", "enum", "trait", "impl",
      "macro"] ||
    ts.word "crate" && !next.mark "::" ||
    ts.word "static" && (next.word "mut" || next.name) ||
    ts.word "const" && !(next.group .brace || next.word "static" ||
      next.word "async" && !third.oneOf ["unsafe", "extern", "fn"] || next.word "move" ||
      next.mark "|") ||
    ts.word "unsafe" && !next.group .brace ||
    ts.word "async" && next.oneOf ["unsafe", "extern", "fn"] ||
    ts.word "union" && next.name || ts.word "auto" && next.word "trait" ||
    ts.word "default" && next.oneOf ["unsafe", "impl"]

/-! ### Statements -/

/-- Has an expression to be ended by a semicolon if more follows? -/
def needsSemicolon : Expr → Bool
  | .invocation _ _ delimiter _ => delimiter != .brace
  | e => !e.isBlockLike

/-- A statement. The flag says whether it still needs a semicolon. -/
def statement (g : Grammar) (item : List Attribute → Parser Item) : Parser (Stmt × Bool) := do
  let attributes ← outerAttributes g
  match ← macroUse with
  | .statement path =>
    mark "!"
    let e ← invocationOf g path
    let _ ← mark? ";"
    return (.expr (attach attributes e), false)
  | .item => return (.item (← item attributes), false)
  | .expression =>
    let ts ← ahead
    if ts.word "let" then return (← binding g attributes, false)
    else if opensItem ts then return (.item (← item attributes), false)
    else
      let e ← early g
      let ended ← mark? ";"
      return (.expr (attach attributes e), !ended && needsSemicolon e)

/-- Statements up to the end of a block. Semicolons may stand between them. -/
def statements (g : Grammar) (item : List Attribute → Parser Item) : Parser (List Stmt) :=
  collect do
    let _ ← repeatWhile (·.mark ";") (mark ";")
    if ← atEnd then return none
    let (stmt, unended) ← statement g item
    if unended && !(← atEnd) then fail
    return some (stmt, true)

end Production

end CallAtlas
