import CallAtlas.CallGraph
import CallAtlas.Index.Resolve
import CallAtlas.Walk.Binders

/-!
# From syntax to calls

The calls of a program are found by one walk over its syntax, in source order. The walk knows the
module and the function that it is in, and which names are bound to local values, since a call
through a local value names no function. A call is listed before the calls in its arguments.

A closure belongs to the function around it. Local names of a function are unknown in a function
inside it.

## Main definitions

* `Event` — what the walk finds.
* `Walk` — a part of the walk: it goes from the local names before it to those behind it, and finds
  events.
* `Walk.unit` — the walk over a source file.
-/

namespace CallAtlas

/-- What a walk finds. -/
inductive Event where
  /-- A function, which may call others. -/
  | declare (caller : String)
  /-- A call in a function. -/
  | call (caller : String) (site : CallSite)
  deriving DecidableEq

/-- The names bound to local values, the innermost scope first. -/
abbrev Locals := List (List String)

/-- A part of a walk. -/
abbrev Walk := Locals → Locals × List Event

namespace Walk

/-- The walk over nothing. -/
def nothing : Walk := fun locals =>
  (locals, [])

/-- One walk and then another. -/
def andThen (first second : Walk) : Walk := fun locals =>
  let (locals, found) := first locals
  let (locals, more) := second locals
  (locals, found ++ more)

instance : AndThen Walk := ⟨fun first second => first.andThen (second ())⟩

/-- A walk in a scope of its own. -/
def inScope (walk : Walk) : Walk := fun locals =>
  let (locals, found) := walk ([] :: locals)
  (locals.tail, found)

/-- Binds names in the innermost scope. Outside of any scope nothing is bound. -/
def bind (names : List String) : Walk
  | [] => ([], [])
  | scope :: outer => ((names ++ scope) :: outer, [])

/-! ### Calls -/

/-- Where a walk is. -/
structure Context where
  /-- The declarations of the program. -/
  index : Index
  /-- Are the arguments of macros walked? -/
  macros : Bool
  /-- The file. -/
  file : String
  /-- The module. -/
  module : List String
  /-- The type of the `impl` block or trait around. -/
  selfType : Option (List String)
  /-- The function around. -/
  caller : Option String

namespace Context

/-- The scope of a call. -/
def scope (c : Context) : Scope :=
  ⟨c.module, c.selfType⟩

end Context

/-- The names of a path as texts. -/
def texts (names : List Ident) : List String :=
  names.map (·.text)

/-- How a call names its function. -/
inductive Target where
  /-- By one name, which may be that of a local value. -/
  | direct (name : String)
  | path (names : List String)
  | method (onSelf : Bool) (name : String)

/-- How a callee names its function. A callee that is no path, or a path of a type without a name,
names none. -/
def target? : Expr → Option Target
  | .path _ (.plain false) [name] _ => some (.direct name.text)
  | .path _ (.plain _) names _ => some (.path (texts names))
  | .path _ (.ofType form) names _ =>
    form.names?.map fun typeNames => .path (texts typeNames ++ texts names)
  | .path _ .asTrait names _ => some (.path (texts names))
  | _ => none

/-- The function that a call names. -/
def resolve (c : Context) (locals : Locals) : Target → Option Symbol
  | .direct name =>
    if locals.any (·.contains name) then none else c.index.resolvePath c.scope [name]
  | .path names => c.index.resolvePath c.scope names
  | .method onSelf name => c.index.resolveMethod c.scope onSelf name

/-- Lists a call, if it stands in a function and names one. -/
def record (c : Context) (place : Place) (target : Target) : Walk := fun locals =>
  match c.caller, resolve c locals target with
  | some caller, some symbol =>
    if symbol.qualifiedName = "" then (locals, [])
    else (locals, [.call caller ⟨symbol.qualifiedName, .ofPlace c.file place⟩])
  | _, _ => (locals, [])

/-- Lists the call of a callee, if it names a function. -/
def recordCall (c : Context) (place : Place) (callee : Expr) : Walk :=
  match target? callee with
  | some target => record c place target
  | none => nothing

/-- Walks a function as the caller, with its parameters as the only local names. -/
def enter (c : Context) (name : String) (params : List String) (walk : Context → Walk) : Walk :=
  fun locals =>
    let caller := (Symbol.inPackage (modulePath c.module) name).qualifiedName
    let (_, found) := walk { c with caller := some caller } [params]
    (locals, .declare caller :: found)

/-! ### Syntax -/

mutual
/-- The walk over an expression. -/
def expr (c : Context) : Expr → Walk
  | .path attrs _ _ args => exprs c attrs >> exprs c args
  | .call place attrs callee args =>
    recordCall c place callee >> exprs c attrs >> expr c callee >> exprs c args
  | .methodCall place attrs receiver name args =>
    record c place (.method receiver.isSelf name.text) >> exprs c attrs >> expr c receiver >>
      exprs c args
  | .block attrs body => exprs c attrs >> inScope (stmts c body)
  | .binding _ pattern value => expr c value >> bind (Binders.ofPattern pattern)
  | .branch _ condition body otherwise =>
    inScope (expr c condition >> inScope (stmts c body)) >> expr c otherwise
  | .whileLoop _ condition body => inScope (expr c condition >> inScope (stmts c body))
  | .forLoop _ pattern source body =>
    expr c source >> inScope (bind (Binders.ofPattern pattern) >> inScope (stmts c body))
  | .closure _ params _ body => inScope (bind (Binders.ofPatterns params) >> expr c body)
  | .choice attrs subject choices => exprs c attrs >> expr c subject >> arms c choices
  | .invocation attrs defines _ args =>
    exprs c attrs >> if c.macros && !defines then exprs c args else nothing
  | .node _ parts => exprs c parts

/-- The walk over several expressions. -/
def exprs (c : Context) : List Expr → Walk
  | [] => nothing
  | e :: rest => expr c e >> exprs c rest

/-- The walk over the arms of a `match`. -/
def arms (c : Context) : List Arm → Walk
  | [] => nothing
  | .mk _ pattern guard body :: rest =>
    inScope (bind (Binders.ofPattern pattern) >> expr c guard >> expr c body) >> arms c rest

/-- The walk over statements. A name is bound behind its value. -/
def stmts (c : Context) : List Stmt → Walk
  | [] => nothing
  | .binding _ pattern value otherwise :: rest =>
    expr c value >> expr c otherwise >> bind (Binders.ofPattern pattern) >> stmts c rest
  | .item found :: rest => item c found >> stmts c rest
  | .expr value :: rest => expr c value >> stmts c rest

/-- The walk over a function. -/
def function (c : Context) : Function → Walk
  | .mk name header params body =>
    enter c name.text (Binders.ofPatterns params) fun c =>
      exprs c header >> inScope (stmts c body)

/-- The walk over an item. -/
def item (c : Context) : Item → Walk
  | .function _ found => function c found
  | .type _ parts => exprs c parts
  | .trait _ name parts found =>
    let c := { c with selfType := some [name.text] }
    exprs c parts >> members c found
  | .impl form _ parts found =>
    let c := { c with selfType := form.plainNames?.map texts }
    exprs c parts >> members c found
  | .module _ name parts found =>
    let c := { c with module := c.module ++ [name.text] }
    exprs c parts >> items c found
  | .moduleFile _ _ parts => exprs c parts
  | .use _ parts => exprs c parts
  | .externCrate _ _ parts => exprs c parts
  | .other parts => exprs c parts

/-- The walk over several items. -/
def items (c : Context) : List Item → Walk
  | [] => nothing
  | found :: rest => item c found >> items c rest

/-- The walk over the members of a trait or an `impl` block. -/
def members (c : Context) : List Member → Walk
  | [] => nothing
  | .function _ found :: rest => function c found >> members c rest
  | .required _ parts :: rest => exprs c parts >> members c rest
  | .other parts :: rest => exprs c parts >> members c rest
end

/-- What is found in a source file. -/
def unit (index : Index) (macros : Bool) (u : SourceUnit) : List Event :=
  let c : Context := ⟨index, macros, u.path, u.module, none, none⟩
  ((exprs c u.file.attrs >> items c u.file.items) []).2

end Walk

namespace CallGraph

/-- Adds what a walk has found. -/
def apply (g : CallGraph) : Event → CallGraph
  | .declare caller => g.declare caller
  | .call caller site => g.addCall caller site

/-- The call graph of a program. -/
def ofProgram (p : Program) (macros : Bool) : CallGraph :=
  let index := Index.ofProgram p
  (p.units.flatMap (Walk.unit index macros)).foldl apply empty

end CallGraph

end CallAtlas
