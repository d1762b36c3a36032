import CallAtlas.Token

/-!
# Syntax trees

A syntax tree of Rust source, kept to what a call analysis can use: calls, binders, the constructs
that open a scope, and declarations. Every other construct is a node with its parts in the order in
which they are written. What a type, an attribute or a generic argument contributes is the list of
expressions in it, such as array lengths.

A part that may be missing, such as the `else` of an `if`, is the expression `Expr.nothing` where it
is missing.

## Main definitions

* `Expr`, `Stmt`, `Arm`, `Pattern` — code inside functions.
* `Item`, `Member`, `Function`, `UseTree` — declarations.
* `SourceFile` — a whole file.
-/

namespace CallAtlas

/-- The part of a type's form that names it. -/
inductive TypeForm where
  /-- A path. It is qualified if it starts with a type in angle brackets. -/
  | path (qualified : Bool) (names : List Ident)
  /-- A type behind a reference or in parentheses. -/
  | enclosed (inner : TypeForm)
  | other
  deriving DecidableEq

namespace TypeForm

/-- The last name of a path, also behind references and parentheses. -/
def lastName? : TypeForm → Option Ident
  | .path _ names => names.getLast?
  | .enclosed inner => inner.lastName?
  | .other => none

/-- The names of a path that is not enclosed. -/
def names? : TypeForm → Option (List Ident)
  | .path _ names => some names
  | _ => none

/-- The names of a path that is neither enclosed nor qualified. -/
def plainNames? : TypeForm → Option (List Ident)
  | .path false names => some names
  | _ => none

end TypeForm

/-- What stands in front of the names of a path expression. -/
inductive PathHead where
  /-- Nothing, or a leading `::`. -/
  | plain (rooted : Bool)
  /-- A type, as in `<T>::f`. -/
  | ofType (form : TypeForm)
  /-- A type and a trait, as in `<T as U>::f`. The names of the trait belong to the path. -/
  | asTrait
  deriving DecidableEq

/-- The form of an expression that is kept as a node. -/
inductive Form where
  | plain
  /-- A binary operator, an assignment or a cast: its first part stands to the left. -/
  | operator
  /-- An operator that compares. -/
  | comparison
  | range
  /-- Tokens that are accepted but not looked into. -/
  | bare
  deriving DecidableEq

/-- What the tree of an import names. -/
inductive UseTree where
  | name (name : Ident)
  | rename (name newName : Ident)
  | glob
  | path (name : Ident) (tree : UseTree)
  | group (trees : List UseTree)

/-- What the attributes of a module declaration say about its file. -/
structure ModuleAttributes where
  /-- Is the module there only under a condition? -/
  gated : Bool
  /-- The path that an attribute gives. -/
  path : Option String
  deriving DecidableEq

mutual

/-- An expression. -/
inductive Expr where
  /-- A path, with the expressions in its generic arguments. -/
  | path (attrs : List Expr) (head : PathHead) (names : List Ident) (args : List Expr)
  /-- `callee(args)`, starting at a place. -/
  | call (place : Place) (attrs : List Expr) (callee : Expr) (args : List Expr)
  /-- `receiver.name(args)`, starting at a place. Generic arguments come before the others. -/
  | methodCall (place : Place) (attrs : List Expr) (receiver : Expr) (name : Ident)
      (args : List Expr)
  /-- A block, also of a `loop` or with a word such as `unsafe` in front. -/
  | block (attrs : List Expr) (body : List Stmt)
  /-- `let pattern = value` as a condition. -/
  | binding (attrs : List Expr) (pattern : Pattern) (value : Expr)
  /-- `if condition { body } else otherwise`. -/
  | branch (attrs : List Expr) (condition : Expr) (body : List Stmt) (otherwise : Expr)
  /-- `while condition { body }`. -/
  | whileLoop (attrs : List Expr) (condition : Expr) (body : List Stmt)
  /-- `for pattern in source { body }`. -/
  | forLoop (attrs : List Expr) (pattern : Pattern) (source : Expr) (body : List Stmt)
  /-- `|params| -> output { body }`. -/
  | closure (attrs : List Expr) (params : List Pattern) (output : List Expr) (body : Expr)
  /-- `match subject { arms }`. -/
  | choice (attrs : List Expr) (subject : Expr) (arms : List Arm)
  /-- The use of a macro. `args` are the expressions that its tokens list, if they list expressions;
  `defines` holds for `macro_rules!`. -/
  | invocation (attrs : List Expr) (defines : Bool) (delimiter : Delimiter) (args : List Expr)
  /-- Any other form, with its parts. -/
  | node (form : Form) (parts : List Expr)

/-- A pattern, as far as it binds names. -/
inductive Pattern where
  /-- A name, perhaps with `@` and a pattern. -/
  | binder (attrs : List Expr) (name : Ident) (inner : Pattern)
  /-- A pattern made of others. -/
  | group (parts : List Pattern)
  /-- An expression inside a pattern: in a type, a bound of a range, a constant. -/
  | embedded (value : Expr)

/-- An arm of a `match`. -/
inductive Arm where
  | mk (attrs : List Expr) (pattern : Pattern) (guard body : Expr)

/-- A statement. -/
inductive Stmt where
  /-- `let pattern = value else { otherwise };` -/
  | binding (attrs : List Expr) (pattern : Pattern) (value otherwise : Expr)
  | item (item : Item)
  | expr (value : Expr)

/-- A function with a body. The header holds the expressions of its attributes and its signature;
the parameters are patterns without their types. -/
inductive Function where
  | mk (name : Name) (header : List Expr) (params : List Pattern) (body : List Stmt)

/-- A member of a trait or an `impl`. -/
inductive Member where
  | function (isPublic : Bool) (function : Function)
  /-- A function without a body. -/
  | required (name : Ident) (parts : List Expr)
  | other (parts : List Expr)

/-- A declaration. -/
inductive Item where
  | function (isPublic : Bool) (function : Function)
  /-- A struct, an enum, a union, a type alias or a trait alias. -/
  | type (name : Ident) (parts : List Expr)
  | trait (isPublic : Bool) (name : Ident) (parts : List Expr) (members : List Member)
  /-- `impl T for S { members }`, where `form` is the form of `S`. -/
  | impl (form : TypeForm) (ofTrait : Bool) (parts : List Expr) (members : List Member)
  /-- `mod name { items }`. -/
  | module (attributes : ModuleAttributes) (name : Ident) (parts : List Expr) (items : List Item)
  /-- `mod name;`. -/
  | moduleFile (attributes : ModuleAttributes) (name : Ident) (parts : List Expr)
  | use (tree : UseTree) (parts : List Expr)
  /-- `extern crate name as alias;`. -/
  | externCrate (name : Ident) (newName : Option Ident) (parts : List Expr)
  | other (parts : List Expr)

end

namespace Expr

/-- A part that is missing, and what is accepted but not looked into. -/
def nothing : Expr :=
  .node .bare []

instance : Inhabited Expr := ⟨nothing⟩

/-- Is the expression a range? -/
def isRange : Expr → Bool
  | .node .range _ => true
  | _ => false

/-- Is the expression a comparison? -/
def isComparison : Expr → Bool
  | .node .comparison _ => true
  | _ => false

/-- Does the expression end with its block, so that nothing has to divide it from what follows? -/
def isBlockLike : Expr → Bool
  | .block .. | .branch .. | .whileLoop .. | .forLoop .. | .choice .. => true
  | _ => false

/-- Is this the path `self`? -/
def isSelf : Expr → Bool
  | .path _ (.plain false) [name] _ => name.text == "self"
  | _ => false

end Expr

namespace Pattern

/-- A pattern that binds nothing. -/
def empty : Pattern :=
  .group []

instance : Inhabited Pattern := ⟨empty⟩

/-- A pattern that holds expressions only. -/
def ofExprs (parts : List Expr) : Pattern :=
  .group (parts.map .embedded)

mutual
/-- The expressions in a pattern. -/
def exprs : Pattern → List Expr
  | .binder attrs _ inner => attrs ++ inner.exprs
  | .group parts => exprsList parts
  | .embedded value => [value]

/-- The expressions in several patterns. -/
def exprsList : List Pattern → List Expr
  | [] => []
  | p :: rest => p.exprs ++ exprsList rest
end

end Pattern

namespace Function

/-- The name of a function. -/
def name : Function → Name
  | .mk name .. => name

/-- The expressions of its attributes and signature. -/
def header : Function → List Expr
  | .mk _ header .. => header

/-- Its parameters. -/
def params : Function → List Pattern
  | .mk _ _ params _ => params

/-- Its body. -/
def body : Function → List Stmt
  | .mk _ _ _ body => body

end Function

/-- A source file. -/
structure SourceFile where
  /-- The expressions in the attributes of the file. -/
  attrs : List Expr
  /-- Its declarations. -/
  items : List Item

end CallAtlas
