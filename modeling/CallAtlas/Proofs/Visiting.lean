import CallAtlas.Proofs.Attribution

/-!
# Visits with a state

A walk is told the module, the type and the function that it is in, so it cannot leave a trace on
them. A walker that keeps them as a state of its own, next to the scopes and to the graph that it
fills, can: it pushes a module and has to pop it, and it replaces the type, the caller and the
scopes and has to put them back, or all that is visited later is attributed to the wrong place.
`Visit` is such a walker, over all of the syntax.

It does what the walk does. `Visit.Performs` says so for one visit: it ends in the state that it
started in, but for the scopes that the walk leaves and for the events of the walk, which have been
added to the graph. Every way of putting visits together keeps this, and so do the visits of all
syntax. That the state is restored follows, and so does that nothing depends on the graph: a file
contributes the same to every graph, node by node.

## Main definitions

* `Walker` — the state.
* `Visit` — what changes it, with `Visit.expr` and its companions for the syntax.
* `Visit.Performs` — a visit that does what a walk does.
* `Visit.Restores` — a visit that leaves the state as it was.

## Main results

* `Visit.expr_performs` and its companions — the visits of syntax perform the walks over it.
* `Walk.unit_attributed_by_position` — what a visit of a file records, with what each node
  contributes and what every visit restores.
* `CallGraph.ofProgram_eq_foldl_visits` — the graph of a program is filled by visits of its files.
-/

namespace CallAtlas

/-- The state of a walker. -/
structure Walker where
  /-- The graph that is filled. -/
  graph : CallGraph
  /-- The module. -/
  module : List String
  /-- The type of the `impl` block or trait around. -/
  selfType : Option (List String)
  /-- The function around. -/
  caller : Option String
  /-- The names bound to local values, the innermost scope first. -/
  scopes : Locals

/-- What a walker does not change in a file. -/
structure FileSetting where
  /-- The declarations of the program. -/
  index : Index
  /-- Are the arguments of macros visited? -/
  macros : Bool
  /-- The file. -/
  file : String

namespace Walker

/-- The walker at the start of a source file. -/
def start (u : SourceUnit) (g : CallGraph) : Walker :=
  ⟨g, u.module, none, none, []⟩

/-- Where a walker is. -/
def context (w : Walker) (s : FileSetting) : Walk.Context :=
  ⟨s.index, s.macros, s.file, w.module, w.selfType, w.caller⟩

/-- A walker with the scopes that a walk leaves, and with its events in the graph. -/
def after (w : Walker) (result : Locals × List Event) : Walker :=
  { w with scopes := result.1, graph := result.2.foldl CallGraph.apply w.graph }

theorem after_after (w : Walker) (first second : Locals × List Event) :
    (w.after first).after second = w.after (second.1, first.2 ++ second.2) := by
  simp [after, List.foldl_append]

end Walker

/-- A part of a visit. -/
abbrev Visit := Walker → Walker

namespace Visit

/-! ### Changes of the state -/

/-- The visit of nothing. -/
def nothing : Visit := fun w => w

/-- One visit and then another. -/
def andThen (first second : Visit) : Visit := fun w => second (first w)

instance : AndThen Visit := ⟨fun first second => first.andThen (second ())⟩

/-- Pushes a scope, visits, and pops it. -/
def inScope (visit : Visit) : Visit := fun w =>
  let w := visit { w with scopes := [] :: w.scopes }
  { w with scopes := w.scopes.tail }

/-- Adds names to the innermost scope, if there is one. -/
def bind (names : List String) : Visit := fun w =>
  match w.scopes with
  | [] => w
  | scope :: outer => { w with scopes := (names ++ scope) :: outer }

/-- Pushes a module, visits, and pops it. -/
def inModule (name : String) (visit : Visit) : Visit := fun w =>
  let w := visit { w with module := w.module ++ [name] }
  { w with module := w.module.dropLast }

/-- Replaces the type, visits, and puts the old one back. -/
def withSelfType (selfType : Option (List String)) (visit : Visit) : Visit := fun w =>
  let outer := w.selfType
  let w := visit { w with selfType := selfType }
  { w with selfType := outer }

/-- Declares a function, replaces the caller by it and all scopes by its parameters, visits, and
puts the old ones back. -/
def enterFunction (name : String) (params : List String) (visit : Visit) : Visit := fun w =>
  let caller := (Symbol.inPackage (modulePath w.module) name).qualifiedName
  let w := { w with graph := w.graph.declare caller }
  let outerCaller := w.caller
  let outerScopes := w.scopes
  let w := visit { w with caller := some caller, scopes := [params] }
  let w := { w with scopes := outerScopes }
  { w with caller := outerCaller }

/-- Adds a call to the graph, if there is a caller and if the call names a function. -/
def record (s : FileSetting) (place : Place) (target : Walk.Target) : Visit := fun w =>
  match w.caller, Walk.resolve (w.context s) w.scopes target with
  | some caller, some symbol =>
    if symbol.qualifiedName = "" then w
    else
      { w with graph := w.graph.addCall caller ⟨symbol.qualifiedName, .ofPlace s.file place⟩ }
  | _, _ => w

/-- Adds the call of a callee, if it names a function. -/
def recordCall (s : FileSetting) (place : Place) (callee : Expr) : Visit :=
  match Walk.target? callee with
  | some target => record s place target
  | none => nothing

/-! ### Syntax -/

mutual
/-- The visit of an expression. -/
def expr (s : FileSetting) : Expr → Visit
  | .path attrs _ _ args => exprs s attrs >> exprs s args
  | .call place attrs callee args =>
    recordCall s place callee >> exprs s attrs >> expr s callee >> exprs s args
  | .methodCall place attrs receiver name args =>
    record s place (.method receiver.isSelf name.text) >> exprs s attrs >> expr s receiver >>
      exprs s args
  | .block attrs body => exprs s attrs >> inScope (stmts s body)
  | .binding _ pattern value => expr s value >> bind (Binders.ofPattern pattern)
  | .branch _ condition body otherwise =>
    inScope (expr s condition >> inScope (stmts s body)) >> expr s otherwise
  | .whileLoop _ condition body => inScope (expr s condition >> inScope (stmts s body))
  | .forLoop _ pattern source body =>
    expr s source >> inScope (bind (Binders.ofPattern pattern) >> inScope (stmts s body))
  | .closure _ params _ body => inScope (bind (Binders.ofPatterns params) >> expr s body)
  | .choice attrs subject choices => exprs s attrs >> expr s subject >> arms s choices
  | .invocation attrs defines _ args =>
    exprs s attrs >> if s.macros && !defines then exprs s args else nothing
  | .node _ parts => exprs s parts

/-- The visit of several expressions. -/
def exprs (s : FileSetting) : List Expr → Visit
  | [] => nothing
  | e :: rest => expr s e >> exprs s rest

/-- The visit of the arms of a `match`. -/
def arms (s : FileSetting) : List Arm → Visit
  | [] => nothing
  | .mk _ pattern guard body :: rest =>
    inScope (bind (Binders.ofPattern pattern) >> expr s guard >> expr s body) >> arms s rest

/-- The visit of statements. -/
def stmts (s : FileSetting) : List Stmt → Visit
  | [] => nothing
  | .binding _ pattern value otherwise :: rest =>
    expr s value >> expr s otherwise >> bind (Binders.ofPattern pattern) >> stmts s rest
  | .item found :: rest => item s found >> stmts s rest
  | .expr value :: rest => expr s value >> stmts s rest

/-- The visit of a function. -/
def function (s : FileSetting) : Function → Visit
  | .mk name header params body =>
    enterFunction name.text (Binders.ofPatterns params) (exprs s header >> inScope (stmts s body))

/-- The visit of an item. -/
def item (s : FileSetting) : Item → Visit
  | .function _ found => function s found
  | .type _ parts => exprs s parts
  | .trait _ name parts found =>
    withSelfType (some [name.text]) (exprs s parts >> members s found)
  | .impl form _ parts found =>
    withSelfType (form.plainNames?.map Walk.texts) (exprs s parts >> members s found)
  | .module _ name parts found => inModule name.text (exprs s parts >> items s found)
  | .moduleFile _ _ parts => exprs s parts
  | .use _ parts => exprs s parts
  | .externCrate _ _ parts => exprs s parts
  | .other parts => exprs s parts

/-- The visit of several items. -/
def items (s : FileSetting) : List Item → Visit
  | [] => nothing
  | found :: rest => item s found >> items s rest

/-- The visit of the members of a trait or an `impl` block. -/
def members (s : FileSetting) : List Member → Visit
  | [] => nothing
  | .function _ found :: rest => function s found >> members s rest
  | .required _ parts :: rest => exprs s parts >> members s rest
  | .other parts :: rest => exprs s parts >> members s rest
end

/-- The visit of a source file. -/
def unit (index : Index) (macros : Bool) (u : SourceUnit) : Visit :=
  let s : FileSetting := ⟨index, macros, u.path⟩
  exprs s u.file.attrs >> items s u.file.items

/-! ### Visits and walks -/

/-- Does a visit do what a walk does? In every state it leaves the scopes as the walk does and adds
what the walk finds to the graph; all else is as it was. -/
def Performs (s : FileSetting) (visit : Visit) (walk : Walk.Context → Walk) : Prop :=
  ∀ w : Walker, visit w = w.after (walk (w.context s) w.scopes)

namespace Performs

variable {s : FileSetting} {visit second : Visit} {walk next : Walk.Context → Walk}

theorem nothing (s : FileSetting) : Performs s Visit.nothing fun _ => Walk.nothing :=
  fun _ => rfl

theorem andThen (h : Performs s visit walk) (hsecond : Performs s second next) :
    Performs s (visit >> second) fun c => walk c >> next c := by
  intro w
  calc second (visit w) = second (w.after (walk (w.context s) w.scopes)) := by rw [h w]
    _ = (w.after (walk (w.context s) w.scopes)).after
          (next (w.context s) (walk (w.context s) w.scopes).1) := hsecond _
    _ = w.after ((walk (w.context s) >> next (w.context s)) w.scopes) := by
      rw [Walker.after_after, Walk.andThen_eq]

theorem inScope (h : Performs s visit walk) :
    Performs s (visit.inScope) fun c => Walk.inScope (walk c) := by
  intro w
  rw [Visit.inScope, h]
  rfl

theorem bind (s : FileSetting) (names : List String) :
    Performs s (Visit.bind names) fun _ => Walk.bind names := by
  rintro ⟨graph, module, selfType, caller, scopes⟩
  cases scopes <;> rfl

/-- The module that is popped is the one that was pushed. -/
theorem inModule (h : Performs s visit walk) (name : String) :
    Performs s (visit.inModule name) fun c => walk { c with module := c.module ++ [name] } := by
  intro w
  rw [Visit.inModule, h]
  simp [Walker.after, Walker.context]

theorem withSelfType (h : Performs s visit walk) (selfType : Option (List String)) :
    Performs s (visit.withSelfType selfType) fun c => walk { c with selfType := selfType } := by
  intro w
  rw [Visit.withSelfType, h]
  rfl

theorem enterFunction (h : Performs s visit walk) (name : String) (params : List String) :
    Performs s (visit.enterFunction name params) fun c => Walk.enter c name params walk := by
  intro w
  rw [Visit.enterFunction, h]
  rfl

theorem record (s : FileSetting) (place : Place) (target : Walk.Target) :
    Performs s (Visit.record s place target) fun c => Walk.record c place target := by
  rintro ⟨graph, module, selfType, caller, scopes⟩
  simp only [Visit.record, Walk.record, Walker.context]
  generalize
    Walk.resolve ⟨s.index, s.macros, s.file, module, selfType, caller⟩ scopes target = found
  cases caller with
  | none => rfl
  | some caller =>
    cases found with
    | none => rfl
    | some symbol =>
      dsimp only
      split <;> rfl

theorem recordCall (s : FileSetting) (place : Place) (callee : Expr) :
    Performs s (Visit.recordCall s place callee) fun c => Walk.recordCall c place callee := by
  unfold Visit.recordCall Walk.recordCall
  cases Walk.target? callee with
  | none => exact .nothing s
  | some target => exact .record s place target

/-- Whether the arguments of a macro are visited depends on what a walker does not change. -/
theorem arguments (h : Performs s visit walk) (defines : Bool) :
    Performs s (if s.macros && !defines then visit else Visit.nothing) fun c =>
      if c.macros && !defines then walk c else Walk.nothing := by
  intro w
  show _ = w.after ((if s.macros && !defines then walk (w.context s) else Walk.nothing) w.scopes)
  split
  · exact h w
  · rfl

end Performs

mutual
/-- The visit of an expression performs the walk over it. -/
theorem expr_performs (s : FileSetting) :
    ∀ e : Expr, Performs s (expr s e) fun c => Walk.expr c e
  | .path attrs head names args => by
    simp only [expr, Walk.expr]
    exact (exprs_performs s attrs).andThen (exprs_performs s args)
  | .call place attrs callee args => by
    simp only [expr, Walk.expr]
    exact (Performs.recordCall s place callee).andThen ((exprs_performs s attrs).andThen
      ((expr_performs s callee).andThen (exprs_performs s args)))
  | .methodCall place attrs receiver name args => by
    simp only [expr, Walk.expr]
    exact (Performs.record s place _).andThen ((exprs_performs s attrs).andThen
      ((expr_performs s receiver).andThen (exprs_performs s args)))
  | .block attrs body => by
    simp only [expr, Walk.expr]
    exact (exprs_performs s attrs).andThen (stmts_performs s body).inScope
  | .binding attrs pattern value => by
    simp only [expr, Walk.expr]
    exact (expr_performs s value).andThen (.bind s _)
  | .branch attrs condition body otherwise => by
    simp only [expr, Walk.expr]
    exact ((expr_performs s condition).andThen (stmts_performs s body).inScope).inScope.andThen
      (expr_performs s otherwise)
  | .whileLoop attrs condition body => by
    simp only [expr, Walk.expr]
    exact ((expr_performs s condition).andThen (stmts_performs s body).inScope).inScope
  | .forLoop attrs pattern source body => by
    simp only [expr, Walk.expr]
    exact (expr_performs s source).andThen
      ((Performs.bind s _).andThen (stmts_performs s body).inScope).inScope
  | .closure attrs params output body => by
    simp only [expr, Walk.expr]
    exact ((Performs.bind s _).andThen (expr_performs s body)).inScope
  | .choice attrs subject choices => by
    simp only [expr, Walk.expr]
    exact (exprs_performs s attrs).andThen
      ((expr_performs s subject).andThen (arms_performs s choices))
  | .invocation attrs defines delimiter args => by
    simp only [expr, Walk.expr]
    exact (exprs_performs s attrs).andThen ((exprs_performs s args).arguments defines)
  | .node form parts => by
    simp only [expr, Walk.expr]
    exact exprs_performs s parts

theorem exprs_performs (s : FileSetting) :
    ∀ es : List Expr, Performs s (exprs s es) fun c => Walk.exprs c es
  | [] => by
    simp only [exprs, Walk.exprs]
    exact .nothing s
  | e :: rest => by
    simp only [exprs, Walk.exprs]
    exact (expr_performs s e).andThen (exprs_performs s rest)

theorem arms_performs (s : FileSetting) :
    ∀ as : List Arm, Performs s (arms s as) fun c => Walk.arms c as
  | [] => by
    simp only [arms, Walk.arms]
    exact .nothing s
  | .mk attrs pattern guard body :: rest => by
    simp only [arms, Walk.arms]
    exact ((Performs.bind s _).andThen
      ((expr_performs s guard).andThen (expr_performs s body))).inScope.andThen
        (arms_performs s rest)

theorem stmts_performs (s : FileSetting) :
    ∀ body : List Stmt, Performs s (stmts s body) fun c => Walk.stmts c body
  | [] => by
    simp only [stmts, Walk.stmts]
    exact .nothing s
  | .binding attrs pattern value otherwise :: rest => by
    simp only [stmts, Walk.stmts]
    exact (expr_performs s value).andThen ((expr_performs s otherwise).andThen
      ((Performs.bind s _).andThen (stmts_performs s rest)))
  | .item found :: rest => by
    simp only [stmts, Walk.stmts]
    exact (item_performs s found).andThen (stmts_performs s rest)
  | .expr value :: rest => by
    simp only [stmts, Walk.stmts]
    exact (expr_performs s value).andThen (stmts_performs s rest)

theorem function_performs (s : FileSetting) :
    ∀ f : Function, Performs s (function s f) fun c => Walk.function c f
  | .mk name header params body => by
    simp only [function, Walk.function]
    exact ((exprs_performs s header).andThen (stmts_performs s body).inScope).enterFunction _ _

theorem item_performs (s : FileSetting) :
    ∀ i : Item, Performs s (item s i) fun c => Walk.item c i
  | .function isPublic found => by
    simp only [item, Walk.item]
    exact function_performs s found
  | .trait isPublic name parts found => by
    simp only [item, Walk.item]
    exact ((exprs_performs s parts).andThen (members_performs s found)).withSelfType _
  | .impl form ofTrait parts found => by
    simp only [item, Walk.item]
    exact ((exprs_performs s parts).andThen (members_performs s found)).withSelfType _
  | .module isPublic name parts found => by
    simp only [item, Walk.item]
    exact ((exprs_performs s parts).andThen (items_performs s found)).inModule _
  | .type name parts => by
    simp only [item, Walk.item]
    exact exprs_performs s parts
  | .moduleFile isPublic name parts => by
    simp only [item, Walk.item]
    exact exprs_performs s parts
  | .use tree parts => by
    simp only [item, Walk.item]
    exact exprs_performs s parts
  | .externCrate name rename parts => by
    simp only [item, Walk.item]
    exact exprs_performs s parts
  | .other parts => by
    simp only [item, Walk.item]
    exact exprs_performs s parts

theorem items_performs (s : FileSetting) :
    ∀ found : List Item, Performs s (items s found) fun c => Walk.items c found
  | [] => by
    simp only [items, Walk.items]
    exact .nothing s
  | i :: rest => by
    simp only [items, Walk.items]
    exact (item_performs s i).andThen (items_performs s rest)

theorem members_performs (s : FileSetting) :
    ∀ found : List Member, Performs s (members s found) fun c => Walk.members c found
  | [] => by
    simp only [members, Walk.members]
    exact .nothing s
  | .function isPublic found :: rest => by
    simp only [members, Walk.members]
    exact (function_performs s found).andThen (members_performs s rest)
  | .required name parts :: rest => by
    simp only [members, Walk.members]
    exact (exprs_performs s parts).andThen (members_performs s rest)
  | .other parts :: rest => by
    simp only [members, Walk.members]
    exact (exprs_performs s parts).andThen (members_performs s rest)
end

/-! ### What is restored -/

/-- Does a visit leave the walker as it was? The graph may have grown, and the innermost scope may
have gained names. -/
structure Restores (visit : Visit) : Prop where
  /-- The module is the same. -/
  module : ∀ w, (visit w).module = w.module
  /-- So is the type. -/
  selfType : ∀ w, (visit w).selfType = w.selfType
  /-- So is the caller. -/
  caller : ∀ w, (visit w).caller = w.caller
  /-- So are the scopes, but for what the innermost one has gained. -/
  scopes : ∀ w, ∃ gained : List String, (visit w).scopes =
    match w.scopes with
    | [] => []
    | scope :: outer => (gained ++ scope) :: outer

/-- A visit that performs a walk restores what the walk cannot change. -/
theorem Performs.restores {s : FileSetting} {visit : Visit} {walk : Walk.Context → Walk}
    (h : Performs s visit walk) (hgains : ∀ c, (walk c).OnlyGains) : visit.Restores where
  module w := by rw [h w]; rfl
  selfType w := by rw [h w]; rfl
  caller w := by rw [h w]; rfl
  scopes w := by
    obtain ⟨gained, hgained⟩ := hgains (w.context s)
    exact ⟨gained, by rw [h w]; exact hgained w.scopes⟩

/-- The visit of a source file ends as it started, but for the graph, to which all that the walk
over the file finds has been added. -/
theorem unit_start (index : Index) (macros : Bool) (u : SourceUnit) (g : CallGraph) :
    unit index macros u (.start u g) =
      .start u ((Walk.unit index macros u).foldl CallGraph.apply g) := by
  let s : FileSetting := ⟨index, macros, u.path⟩
  let c : Walk.Context := ⟨index, macros, u.path, u.module, none, none⟩
  have hperforms := (exprs_performs s u.file.attrs).andThen (items_performs s u.file.items)
  obtain ⟨gained, hgained⟩ := Walk.file_onlyGains c u.file
  calc unit index macros u (.start u g)
      = (Walker.start u g).after ((Walk.exprs c u.file.attrs >> Walk.items c u.file.items) []) :=
        hperforms _
    _ = .start u ((Walk.unit index macros u).foldl CallGraph.apply g) := by
      rw [Walker.after, hgained]
      rfl

end Visit

open Outline

/-- **Attribution by position.** A walker that visits a source file ends in the state that it
started in, with a graph to which the nodes of the file have added what each contributes by its own
ancestors: a function is declared, and a call is listed for the innermost function around it, as
resolved in the module and for the type around it. This is what the walk over the file finds. A node
contributes one event at most, and a call in no function none. Every visit leaves the module, the
type and the caller as they were, and the scopes but for names that the innermost one may have
gained; a walk leaves the local names so. -/
theorem Walk.unit_attributed_by_position (index : Index) (macros : Bool) (u : SourceUnit) :
    (∀ g : CallGraph, Visit.unit index macros u (.start u g) =
      .start u (((nodesOf macros u).flatMap fun x => x.2.label.events index u x.1).foldl
        CallGraph.apply g)) ∧
      Walk.unit index macros u =
        ((nodesOf macros u).flatMap fun x => x.2.label.events index u x.1) ∧
      (∀ (trail : Trail) (label : Label), (label.events index u trail).length ≤ 1) ∧
      (∀ (trail : Trail) (place : Place) (target : Option Target),
        trail.caller u.module = none → (Label.call place target).events index u trail = []) ∧
      (∀ s : FileSetting, (∀ e, (Visit.expr s e).Restores) ∧ (∀ es, (Visit.exprs s es).Restores) ∧
        (∀ as, (Visit.arms s as).Restores) ∧ (∀ body, (Visit.stmts s body).Restores) ∧
        (∀ f, (Visit.function s f).Restores) ∧ (∀ i, (Visit.item s i).Restores) ∧
        (∀ is, (Visit.items s is).Restores) ∧ ∀ ms, (Visit.members s ms).Restores) ∧
      ∀ c : Context, (∀ e, (expr c e).OnlyGains) ∧ (∀ as, (arms c as).OnlyGains) ∧
        (∀ body, (stmts c body).OnlyGains) ∧ (∀ f, (function c f).OnlyGains) ∧
        (∀ i, (item c i).OnlyGains) ∧ ∀ ms, (members c ms).OnlyGains := by
  refine ⟨fun g => ?_, unit_eq_flatMap_nodes index macros u, Label.length_events_le index u, ?_,
    fun s => ?_, fun c => ?_⟩
  · rw [Visit.unit_start, unit_eq_flatMap_nodes]
  · exact fun trail place target h => Label.events_call_of_caller_eq_none h index place target
  · exact ⟨fun e => (Visit.expr_performs s e).restores (expr_onlyGains · e),
      fun es => (Visit.exprs_performs s es).restores (exprs_onlyGains · es),
      fun as => (Visit.arms_performs s as).restores (arms_onlyGains · as),
      fun body => (Visit.stmts_performs s body).restores (stmts_onlyGains · body),
      fun f => (Visit.function_performs s f).restores (function_onlyGains · f),
      fun i => (Visit.item_performs s i).restores (item_onlyGains · i),
      fun is => (Visit.items_performs s is).restores (items_onlyGains · is),
      fun ms => (Visit.members_performs s ms).restores (members_onlyGains · ms)⟩
  · exact ⟨expr_onlyGains c, arms_onlyGains c, stmts_onlyGains c, function_onlyGains c,
      item_onlyGains c, members_onlyGains c⟩

/-- **Programs.** The graph of a program is filled by visits of its files, one after the other: each
starts with the graph that the last one has left, and what it adds does not depend on that. -/
theorem CallGraph.ofProgram_eq_foldl_visits (p : Program) (macros : Bool) :
    ofProgram p macros =
      p.units.foldl (fun g u => (Visit.unit (Index.ofProgram p) macros u (.start u g)).graph)
        empty := by
  simp only [Visit.unit_start]
  rw [ofProgram, List.foldl_flatMap]
  rfl

end CallAtlas
