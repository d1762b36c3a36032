import CallAtlas.Proofs.Outline

/-!
# Attribution by position

A walk carries the module, the type around it, the caller and the local names along, and changes
them as it enters and leaves constructs. All four are a matter of position: each node of a file's
outline has a trail of ancestors, and what a walk knows when it reaches the node is what the trail
says. So a walk finds, node by node and in source order, what `Outline.Label.events` reads off the
trails.

The invariant behind this is `Outline.Agrees`: a walk at a node knows what the trail of the node
says. Of the local names only membership counts, and only inside of a function, since nothing is
listed outside.

## Main definitions

* `Outline.Trail.module`, `selfType`, `caller`, `binders` — what a trail says.
* `Outline.Label.events` — what a node contributes, by its trail.
* `Outline.walk` — the walk over an outline.

## Main results

* `Outline.ofExpr_walk` and its companions — a walk over syntax is the walk over its outline.
* `Outline.walk_gains` — what a walk leaves bound behind it.
* `Walk.unit_eq_flatMap_nodes` — what is found in a file, node by node.
* `Walk.expr_onlyGains` and its companions — what a walk leaves unchanged.
-/

namespace CallAtlas

/-! ### Sequences of walks -/

namespace Walk

theorem andThen_eq (first second : Walk) (locals : Locals) :
    (first >> second) locals =
      ((second (first locals).1).1, (first locals).2 ++ (second (first locals).1).2) := rfl

@[simp] theorem nothing_andThen (w : Walk) : nothing >> w = w := rfl

@[simp] theorem andThen_nothing (w : Walk) : w >> nothing = w := by
  funext locals
  simp [andThen_eq, nothing]

theorem andThen_assoc (a b c : Walk) : (a >> b) >> c = a >> b >> c := by
  funext locals
  simp [andThen_eq]

@[simp] theorem bind_nil : bind [] = nothing := by
  funext locals
  cases locals <;> rfl

@[simp] theorem bind_cons_fst (names scope : List String) (outer : Locals) :
    (bind names (scope :: outer)).1 = (names ++ scope) :: outer := rfl

@[simp] theorem bind_snd (names : List String) (locals : Locals) : (bind names locals).2 = [] := by
  cases locals <;> rfl

/-- The names that are bound after some have been bound in the innermost scope. -/
theorem exists_mem_bind {names : List String} {locals : Locals} (h : locals ≠ []) (name : String) :
    (∃ scope ∈ (bind names locals).1, name ∈ scope) ↔
      name ∈ names ∨ ∃ scope ∈ locals, name ∈ scope := by
  cases locals with
  | nil => exact absurd rfl h
  | cons scope outer => simp [or_assoc]

theorem bind_fst_ne_nil {names : List String} {locals : Locals} (h : locals ≠ []) :
    (bind names locals).1 ≠ [] := by
  cases locals with
  | nil => exact absurd rfl h
  | cons scope outer => simp

theorem inScope_snd (w : Walk) (locals : Locals) :
    (inScope w locals).2 = (w ([] :: locals)).2 := rfl

@[simp] theorem record_fst (c : Context) (place : Place) (target : Target) (locals : Locals) :
    (record c place target locals).1 = locals := by
  unfold record
  split
  · split <;> rfl
  · rfl

/-- A function is walked in one context only. -/
theorem enter_congr {c : Context} {name : String} {params : List String} {w v : Context → Walk}
    (h : ∀ caller, w { c with caller := caller } = v { c with caller := caller }) :
    enter c name params w = enter c name params v := by
  funext locals
  simp only [enter, h]

end Walk

namespace Outline

open Walk (Context)

/-! ### The walk over an outline -/

/-- The names that some patterns bind. -/
def namesOf (patterns : List Pattern) : List String :=
  patterns.flatMap Binders.ofPattern

@[simp] theorem namesOf_nil : namesOf [] = [] := rfl

@[simp] theorem namesOf_append (before after : List Pattern) :
    namesOf (before ++ after) = namesOf before ++ namesOf after :=
  List.flatMap_append

@[simp] theorem namesOf_singleton (pattern : Pattern) :
    namesOf [pattern] = Binders.ofPattern pattern := by
  simp [namesOf]

theorem ofPatterns_eq_namesOf (patterns : List Pattern) :
    Binders.ofPatterns patterns = namesOf patterns := by
  induction patterns with
  | nil => rfl
  | cons p rest ih => rw [Binders.ofPatterns, ih, namesOf, namesOf, List.flatMap_cons]

namespace Label

/-- Lists the call at a node, if it is one and names a function. -/
def record (c : Context) : Label → Walk
  | .call place (some target) => Walk.record c place target
  | _ => Walk.nothing

/-- The context of the parts of a node, functions apart. -/
def context (c : Context) : Label → Context
  | .trait name => { c with selfType := some [name.text] }
  | .impl form => { c with selfType := form.plainNames?.map Walk.texts }
  | .module name => { c with module := c.module ++ [name.text] }
  | _ => c

/-- What a walk does at a node, around the walk over its parts. -/
def walk (c : Context) (inner : Context → Walk) : Label → Walk
  | .function name params => Walk.enter c name.text (namesOf params) inner
  | label =>
    if label.opensScope then Walk.inScope (Walk.bind (namesOf label.params) >> inner c)
    else label.record c >> inner (label.context c) >> Walk.bind (namesOf label.leaves)

theorem walk_of_opensScope {label : Label} (h : label.opensScope = true) (c : Context)
    (inner : Context → Walk) :
    label.walk c inner = Walk.inScope (Walk.bind (namesOf label.params) >> inner c) := by
  cases label <;> simp_all [walk, opensScope]

theorem walk_of_plain {label : Label} (hs : label.opensScope = false)
    (hf : label.isFunction = false) (c : Context) (inner : Context → Walk) :
    label.walk c inner =
      (label.record c >> inner (label.context c) >> Walk.bind (namesOf label.leaves)) := by
  cases label <;> simp_all [walk, opensScope, isFunction]

end Label

mutual
/-- The walk over an outline. -/
def walk : Outline → Context → Walk
  | .node label parts, c => label.walk c fun c => walkParts parts c

/-- The walk over several outlines. -/
def walkParts : List Outline → Context → Walk
  | [], _ => Walk.nothing
  | part :: rest, c => part.walk c >> walkParts rest c
end

theorem walkParts_append (before after : List Outline) (c : Context) :
    walkParts (before ++ after) c = (walkParts before c >> walkParts after c) := by
  induction before with
  | nil => rfl
  | cons part rest ih => rw [List.cons_append, walkParts, walkParts, ih, Walk.andThen_assoc]

@[simp] theorem walkParts_singleton (part : Outline) (c : Context) :
    walkParts [part] c = part.walk c := by
  rw [walkParts, walkParts, Walk.andThen_nothing]

section Labels

variable (parts : List Outline) (c : Context)

@[simp] theorem walk_call_some (place : Place) (target : Walk.Target) :
    (Outline.node (.call place (some target)) parts).walk c =
      (Walk.record c place target >> walkParts parts c) := by
  simp [walk, Label.walk, Label.opensScope, Label.record, Label.context, Label.leaves]

@[simp] theorem walk_call_none (place : Place) :
    (Outline.node (.call place none) parts).walk c = walkParts parts c := by
  simp [walk, Label.walk, Label.opensScope, Label.record, Label.context, Label.leaves]

@[simp] theorem walk_condition (pattern : Pattern) :
    (Outline.node (.condition pattern) parts).walk c =
      (walkParts parts c >> Walk.bind (Binders.ofPattern pattern)) := by
  simp [walk, Label.walk, Label.opensScope, Label.record, Label.context, Label.leaves]

@[simp] theorem walk_binding (pattern : Pattern) :
    (Outline.node (.binding pattern) parts).walk c =
      (walkParts parts c >> Walk.bind (Binders.ofPattern pattern)) := by
  simp [walk, Label.walk, Label.opensScope, Label.record, Label.context, Label.leaves]

@[simp] theorem walk_block :
    (Outline.node .block parts).walk c = Walk.inScope (walkParts parts c) := by
  simp [walk, Label.walk, Label.opensScope, Label.params]

@[simp] theorem walk_branch :
    (Outline.node .branch parts).walk c = Walk.inScope (walkParts parts c) := by
  simp [walk, Label.walk, Label.opensScope, Label.params]

@[simp] theorem walk_whileLoop :
    (Outline.node .whileLoop parts).walk c = Walk.inScope (walkParts parts c) := by
  simp [walk, Label.walk, Label.opensScope, Label.params]

@[simp] theorem walk_forBody (pattern : Pattern) :
    (Outline.node (.forBody pattern) parts).walk c =
      Walk.inScope (Walk.bind (Binders.ofPattern pattern) >> walkParts parts c) := by
  simp [walk, Label.walk, Label.opensScope, Label.params]

@[simp] theorem walk_closure (params : List Pattern) :
    (Outline.node (.closure params) parts).walk c =
      Walk.inScope (Walk.bind (Binders.ofPatterns params) >> walkParts parts c) := by
  simp [walk, Label.walk, Label.opensScope, Label.params, ofPatterns_eq_namesOf]

@[simp] theorem walk_arm (pattern : Pattern) :
    (Outline.node (.arm pattern) parts).walk c =
      Walk.inScope (Walk.bind (Binders.ofPattern pattern) >> walkParts parts c) := by
  simp [walk, Label.walk, Label.opensScope, Label.params]

@[simp] theorem walk_function (name : Ident) (params : List Pattern) :
    (Outline.node (.function name params) parts).walk c =
      Walk.enter c name.text (Binders.ofPatterns params) (walkParts parts) := by
  simp [walk, Label.walk, ofPatterns_eq_namesOf]

@[simp] theorem walk_trait (name : Ident) :
    (Outline.node (.trait name) parts).walk c =
      walkParts parts { c with selfType := some [name.text] } := by
  simp [walk, Label.walk, Label.opensScope, Label.record, Label.context, Label.leaves]

@[simp] theorem walk_impl (form : TypeForm) :
    (Outline.node (.impl form) parts).walk c =
      walkParts parts { c with selfType := form.plainNames?.map Walk.texts } := by
  simp [walk, Label.walk, Label.opensScope, Label.record, Label.context, Label.leaves]

@[simp] theorem walk_module (name : Ident) :
    (Outline.node (.module name) parts).walk c =
      walkParts parts { c with module := c.module ++ [name.text] } := by
  simp [walk, Label.walk, Label.opensScope, Label.record, Label.context, Label.leaves]

@[simp] theorem walk_other : (Outline.node .other parts).walk c = walkParts parts c := by
  simp [walk, Label.walk, Label.opensScope, Label.record, Label.context, Label.leaves]

end Labels

mutual
/-- The walk over an expression is the walk over its outline. -/
theorem ofExpr_walk {macros : Bool} : ∀ (e : Expr) {c : Context}, c.macros = macros →
    (ofExpr macros e).walk c = Walk.expr c e
  | .path attrs head names args, c, h => by
    simp only [ofExpr, Walk.expr, walk_other, walkParts_append, ofExprs_walk _ h]
  | .call place attrs callee args, c, h => by
    rw [ofExpr, Walk.expr, Walk.recordCall]
    cases Walk.target? callee <;>
      simp only [walk_call_some, walk_call_none, walkParts_append, walkParts, ofExprs_walk _ h,
        ofExpr_walk _ h, Walk.nothing_andThen]
  | .methodCall place attrs receiver name args, c, h => by
    simp only [ofExpr, Walk.expr, walk_call_some, walkParts_append, walkParts, ofExprs_walk _ h,
      ofExpr_walk _ h]
  | .block attrs body, c, h => by
    simp only [ofExpr, Walk.expr, walk_other, walkParts_append, walkParts_singleton, walk_block,
      ofExprs_walk _ h, ofStmts_walk _ h]
  | .binding attrs pattern value, c, h => by
    simp only [ofExpr, Walk.expr, walk_condition, walkParts_singleton, ofExpr_walk _ h]
  | .branch attrs condition body otherwise, c, h => by
    simp only [ofExpr, Walk.expr, walk_other, walk_branch, walk_block, walkParts,
      Walk.andThen_nothing, ofExpr_walk _ h, ofStmts_walk _ h]
  | .whileLoop attrs condition body, c, h => by
    simp only [ofExpr, Walk.expr, walk_whileLoop, walk_block, walkParts, Walk.andThen_nothing,
      ofExpr_walk _ h, ofStmts_walk _ h]
  | .forLoop attrs pattern source body, c, h => by
    simp only [ofExpr, Walk.expr, walk_other, walk_forBody, walk_block, walkParts,
      Walk.andThen_nothing, ofExpr_walk _ h, ofStmts_walk _ h]
  | .closure attrs params output body, c, h => by
    simp only [ofExpr, Walk.expr, walk_closure, walkParts_singleton, ofExpr_walk _ h]
  | .choice attrs subject arms, c, h => by
    simp only [ofExpr, Walk.expr, walk_other, walkParts_append, walkParts, ofExprs_walk _ h,
      ofExpr_walk _ h, ofArms_walk _ h]
  | .invocation attrs defines delimiter args, c, h => by
    subst h
    simp only [ofExpr, Walk.expr, walk_other, walkParts_append, ofExprs_walk _ rfl]
    split
    · rw [ofExprs_walk _ rfl]
    · rw [walkParts]
  | .node form parts, c, h => by
    simp only [ofExpr, Walk.expr, walk_other, ofExprs_walk _ h]

theorem ofExprs_walk {macros : Bool} : ∀ (es : List Expr) {c : Context}, c.macros = macros →
    walkParts (ofExprs macros es) c = Walk.exprs c es
  | [], c, _ => by rw [ofExprs, walkParts, Walk.exprs]
  | e :: rest, c, h => by
    rw [ofExprs, walkParts, Walk.exprs, ofExpr_walk e h, ofExprs_walk rest h]

theorem ofArms_walk {macros : Bool} : ∀ (arms : List Arm) {c : Context}, c.macros = macros →
    walkParts (ofArms macros arms) c = Walk.arms c arms
  | [], c, _ => by rw [ofArms, walkParts, Walk.arms]
  | .mk attrs pattern guard body :: rest, c, h => by
    simp only [ofArms, Walk.arms, walk_arm, walkParts, Walk.andThen_nothing, ofExpr_walk _ h,
      ofArms_walk rest h]

theorem ofStmts_walk {macros : Bool} : ∀ (stmts : List Stmt) {c : Context}, c.macros = macros →
    walkParts (ofStmts macros stmts) c = Walk.stmts c stmts
  | [], c, _ => by rw [ofStmts, walkParts, Walk.stmts]
  | .binding attrs pattern value otherwise :: rest, c, h => by
    simp only [ofStmts, Walk.stmts, walk_binding, walkParts, Walk.andThen_nothing, ofExpr_walk _ h,
      ofStmts_walk rest h, Walk.andThen_assoc]
  | .item found :: rest, c, h => by
    rw [ofStmts, walkParts, Walk.stmts, ofItem_walk found h, ofStmts_walk rest h]
  | .expr value :: rest, c, h => by
    rw [ofStmts, walkParts, Walk.stmts, ofExpr_walk value h, ofStmts_walk rest h]

theorem ofFunction_walk {macros : Bool} : ∀ (f : Function) {c : Context}, c.macros = macros →
    (ofFunction macros f).walk c = Walk.function c f
  | .mk name header params body, c, h => by
    rw [ofFunction, Walk.function, walk_function]
    -- the parts are walked in another context, which has the same setting for macros
    refine Walk.enter_congr fun caller => ?_
    rw [walkParts_append, walkParts_singleton, walk_block, ofExprs_walk header (by exact h),
      ofStmts_walk body (by exact h)]

theorem ofItem_walk {macros : Bool} : ∀ (item : Item) {c : Context}, c.macros = macros →
    (ofItem macros item).walk c = Walk.item c item
  | .function isPublic found, c, h => by rw [ofItem, Walk.item, ofFunction_walk found h]
  | .type name parts, c, h => by rw [ofItem, Walk.item, walk_other, ofExprs_walk parts h]
  | .trait isPublic name parts found, c, h => by
    rw [ofItem, Walk.item, walk_trait, walkParts_append]
    rw [ofExprs_walk parts (by exact h), ofMembers_walk found (by exact h)]
  | .impl form ofTrait parts found, c, h => by
    rw [ofItem, Walk.item, walk_impl, walkParts_append]
    rw [ofExprs_walk parts (by exact h), ofMembers_walk found (by exact h)]
  | .module attributes name parts found, c, h => by
    rw [ofItem, Walk.item, walk_module, walkParts_append]
    rw [ofExprs_walk parts (by exact h), ofItems_walk found (by exact h)]
  | .moduleFile attributes name parts, c, h => by
    rw [ofItem, Walk.item, walk_other, ofExprs_walk parts h]
  | .use tree parts, c, h => by rw [ofItem, Walk.item, walk_other, ofExprs_walk parts h]
  | .externCrate name newName parts, c, h => by
    rw [ofItem, Walk.item, walk_other, ofExprs_walk parts h]
  | .other parts, c, h => by rw [ofItem, Walk.item, walk_other, ofExprs_walk parts h]

theorem ofItems_walk {macros : Bool} : ∀ (items : List Item) {c : Context}, c.macros = macros →
    walkParts (ofItems macros items) c = Walk.items c items
  | [], c, _ => by rw [ofItems, walkParts, Walk.items]
  | found :: rest, c, h => by
    rw [ofItems, walkParts, Walk.items, ofItem_walk found h, ofItems_walk rest h]

theorem ofMembers_walk {macros : Bool} : ∀ (members : List Member) {c : Context},
    c.macros = macros → walkParts (ofMembers macros members) c = Walk.members c members
  | [], c, _ => by rw [ofMembers, walkParts, Walk.members]
  | .function isPublic found :: rest, c, h => by
    rw [ofMembers, walkParts, Walk.members, ofFunction_walk found h, ofMembers_walk rest h]
  | .required name parts :: rest, c, h => by
    rw [ofMembers, walkParts, Walk.members, walk_other, ofExprs_walk parts h, ofMembers_walk rest h]
  | .other parts :: rest, c, h => by
    rw [ofMembers, walkParts, Walk.members, walk_other, ofExprs_walk parts h, ofMembers_walk rest h]
end

/-! ### What a walk leaves bound -/

mutual
/-- The patterns that an outline leaves bound in the scope around it: those of its `let`s that stand
in no scope of their own. -/
def left : Outline → List Pattern
  | .node label parts => if label.confines then [] else leftOfParts parts ++ label.leaves

/-- The patterns that several outlines leave bound. -/
def leftOfParts : List Outline → List Pattern
  | [] => []
  | part :: rest => part.left ++ leftOfParts rest
end

theorem leftOfParts_eq_flatMap (parts : List Outline) :
    leftOfParts parts = parts.flatMap left := by
  induction parts with
  | nil => rfl
  | cons part rest ih => rw [leftOfParts, ih, List.flatMap_cons]

end Outline

/-- Does a walk do nothing to the local names but bind some more in the innermost scope, namely
these? -/
def Walk.Gains (w : Walk) (names : List String) : Prop :=
  ∃ gained : List String, (∀ name, name ∈ gained ↔ name ∈ names) ∧
    ∀ locals, (w locals).1 = (Walk.bind gained locals).1

namespace Walk.Gains

theorem nothing : Gains nothing [] :=
  ⟨[], by simp, fun locals => by rw [bind_nil]⟩

theorem bind (names : List String) : Gains (bind names) names :=
  ⟨names, by simp, fun _ => rfl⟩

theorem record (c : Context) (place : Place) (target : Target) : Gains (record c place target) [] :=
  ⟨[], by simp, fun locals => by rw [bind_nil, record_fst]; rfl⟩

theorem enter (c : Context) (name : String) (params : List String) (w : Context → Walk) :
    Gains (enter c name params w) [] :=
  ⟨[], by simp, fun locals => by rw [bind_nil]; rfl⟩

theorem andThen {w v : Walk} {first second : List String} (hw : w.Gains first)
    (hv : v.Gains second) : (w >> v).Gains (first ++ second) := by
  obtain ⟨a, ha, hwa⟩ := hw
  obtain ⟨b, hb, hvb⟩ := hv
  refine ⟨b ++ a, fun name => by simp [ha, hb, or_comm], fun locals => ?_⟩
  rw [andThen_eq, hvb, hwa]
  cases locals with
  | nil => rfl
  | cons scope outer => simp

/-- A scope of its own keeps all that is bound in it. -/
theorem inScope {w : Walk} {names : List String} (hw : w.Gains names) : (inScope w).Gains [] := by
  obtain ⟨gained, -, h⟩ := hw
  refine ⟨[], by simp, fun locals => ?_⟩
  have hfst : (w.inScope locals).1 = (w ([] :: locals)).1.tail := rfl
  rw [hfst, h, bind_cons_fst, bind_nil]
  rfl

end Walk.Gains

namespace Outline

open Walk (Context)

theorem Label.record_gains (c : Context) (label : Label) : (label.record c).Gains [] := by
  unfold Label.record
  split
  · exact .record ..
  · exact .nothing

mutual
/-- What a walk over an outline leaves bound. -/
theorem walk_gains : ∀ (o : Outline) (c : Context), (o.walk c).Gains (namesOf o.left)
  | .node label parts, c => by
    have inner : ∀ c, (walkParts parts c).Gains (namesOf (leftOfParts parts)) :=
      walkParts_gains parts
    rw [walk, left]
    rcases label.opensScope_or_function_or_plain with hs | ⟨name, params, rfl⟩ | ⟨hs, hf⟩
    · rw [Label.walk_of_opensScope hs, Label.confines, hs]
      exact ((Walk.Gains.bind _).andThen (inner c)).inScope
    · exact .enter ..
    · rw [Label.walk_of_plain hs hf, Label.confines, hs, hf]
      simpa using (label.record_gains c).andThen ((inner (label.context c)).andThen (.bind _))

theorem walkParts_gains : ∀ (parts : List Outline) (c : Context),
    (walkParts parts c).Gains (namesOf (leftOfParts parts))
  | [], c => Walk.Gains.nothing
  | part :: rest, c => by
    rw [walkParts, leftOfParts, namesOf_append]
    exact (walk_gains part c).andThen (walkParts_gains rest c)
end

/-! ### What a trail says -/

namespace Frame

/-- The patterns that are bound where the trail goes on: those that the ancestor binds itself, and
those that its earlier parts have left bound. -/
def binders (f : Frame) : List Pattern :=
  f.label.params ++ leftOfParts f.earlier

end Frame

namespace Trail

/-- The module at a node: the module of the file and all modules around the node in it. -/
def module (base : List String) : Trail → List String
  | [] => base
  | ⟨.module name, _⟩ :: outer => module base outer ++ [name.text]
  | _ :: outer => module base outer

/-- The type of the innermost trait or `impl` block around a node. -/
def selfType : Trail → Option (List String)
  | [] => none
  | ⟨.trait name, _⟩ :: _ => some [name.text]
  | ⟨.impl form, _⟩ :: _ => form.plainNames?.map Walk.texts
  | _ :: outer => selfType outer

/-- The name of a function as a caller, where its declaration stands at a trail. -/
def key (base : List String) (trail : Trail) (name : Ident) : String :=
  (Symbol.inPackage (modulePath (trail.module base)) name.text).qualifiedName

/-- The innermost function around a node, by its name as a caller. -/
def caller (base : List String) : Trail → Option String
  | [] => none
  | ⟨.function name _, _⟩ :: outer => some (key base outer name)
  | _ :: outer => caller base outer

/-- The patterns that are bound at a node by the innermost function around it, and in it. -/
def binders : Trail → List Pattern
  | [] => []
  | f :: outer => f.binders ++ if f.label.isFunction then [] else binders outer

/-- A name is bound at the next step by the ancestor, by its earlier parts or, unless the ancestor is
a function, further out. -/
theorem mem_names_cons {name : String} {f : Frame} {outer : Trail} :
    name ∈ namesOf (binders (f :: outer)) ↔
      name ∈ namesOf f.label.params ∨ name ∈ namesOf (leftOfParts f.earlier) ∨
        f.label.isFunction = false ∧ name ∈ namesOf (binders outer) := by
  cases hf : f.label.isFunction <;> simp [binders, Frame.binders, hf]

theorem module_earlier (base : List String) (label : Label) (before after : List Outline)
    (outer : Trail) : module base (⟨label, before⟩ :: outer) = module base (⟨label, after⟩ :: outer) := by
  cases label <;> rfl

theorem selfType_earlier (label : Label) (before after : List Outline) (outer : Trail) :
    selfType (⟨label, before⟩ :: outer) = selfType (⟨label, after⟩ :: outer) := by
  cases label <;> rfl

theorem caller_earlier (base : List String) (label : Label) (before after : List Outline)
    (outer : Trail) : caller base (⟨label, before⟩ :: outer) = caller base (⟨label, after⟩ :: outer) := by
  cases label <;> rfl

theorem caller_cons_of_not_function {f : Frame} (h : f.label.isFunction = false)
    (base : List String) (outer : Trail) : caller base (f :: outer) = caller base outer := by
  obtain ⟨label, earlier⟩ := f
  cases label with
  | function name params => simp [Label.isFunction] at h
  | _ => rfl

/-- The function that a call at a node names. -/
def callee (index : Index) (base : List String) (trail : Trail) : Walk.Target → Option Symbol
  | .direct name =>
    if name ∈ namesOf trail.binders then none
    else index.resolvePath ⟨trail.module base, trail.selfType⟩ [name]
  | .path names => index.resolvePath ⟨trail.module base, trail.selfType⟩ names
  | .method onSelf name =>
    index.resolveMethod ⟨trail.module base, trail.selfType⟩ onSelf name

end Trail

/-- What a node of a file contributes, by its trail alone. A function is declared; a call is listed
for the innermost function around it, if there is one and if the call names a function. -/
def Label.events (index : Index) (u : SourceUnit) (trail : Trail) : Label → List Event
  | .function name _ => [.declare (trail.key u.module name)]
  | .call place (some target) =>
    match trail.caller u.module, trail.callee index u.module target with
    | some caller, some symbol =>
      if symbol.qualifiedName = "" then []
      else [.call caller ⟨symbol.qualifiedName, .ofPlace u.path place⟩]
    | _, _ => []
  | _ => []

/-! ### A walk knows what the trail says -/

/-- Does a walk that is at a trail of a file know what the trail says? -/
structure Agrees (u : SourceUnit) (trail : Trail) (c : Context) (locals : Locals) : Prop where
  /-- It knows the file. -/
  file : c.file = u.path
  /-- It knows the module. -/
  module : c.module = trail.module u.module
  /-- It knows the type around it. -/
  selfType : c.selfType = trail.selfType
  /-- It knows the function around it. -/
  caller : c.caller = trail.caller u.module
  /-- Inside of a function there is a scope to bind names in. -/
  hasScope : c.caller.isSome → locals ≠ []
  /-- Inside of a function it knows the local names. -/
  names : c.caller.isSome → ∀ name, (∃ scope ∈ locals, name ∈ scope) ↔ name ∈ namesOf trail.binders

namespace Agrees

variable {u : SourceUnit} {trail : Trail} {c : Context} {locals : Locals}

theorem callee (h : Agrees u trail c locals) (hc : c.caller.isSome) (target : Walk.Target) :
    Walk.resolve c locals target = trail.callee c.index u.module target := by
  have hany : ∀ name, locals.any (·.contains name) = true ↔ name ∈ namesOf trail.binders := by
    intro name
    rw [← h.names hc name]
    simp
  cases target with
  | direct name =>
    simp only [Walk.resolve, Trail.callee, Context.scope, hany, h.module, h.selfType]
  | path names => simp [Walk.resolve, Trail.callee, Context.scope, h.module, h.selfType]
  | method onSelf name => simp [Walk.resolve, Trail.callee, Context.scope, h.module, h.selfType]

/-- Listing a call gives what the trail says. -/
theorem record (h : Agrees u trail c locals) (label : Label) (hf : label.isFunction = false) :
    (label.record c locals).2 = label.events c.index u trail := by
  cases label with
  | function name params => simp [Label.isFunction] at hf
  | call place target =>
    cases target with
    | none => rfl
    | some target =>
      rw [Label.record, Label.events, Walk.record, ← h.caller, h.file]
      cases hc : c.caller with
      | none => rfl
      | some caller =>
        rw [h.callee (by simp [hc])]
        cases trail.callee c.index u.module target with
        | none => rfl
        | some symbol => exact apply_ite Prod.snd _ _ _
  | _ => rfl

/-- What a part has left bound is known in the next one. -/
theorem next {label : Label} {earlier : List Outline} {part : Outline} {w : Walk}
    (h : Agrees u (⟨label, earlier⟩ :: trail) c locals) (hw : w.Gains (namesOf part.left)) :
    Agrees u (⟨label, earlier ++ [part]⟩ :: trail) c (w locals).1 := by
  obtain ⟨gained, hgained, hw⟩ := hw
  rw [hw]
  refine ⟨h.file, ?_, ?_, ?_, fun hc => Walk.bind_fst_ne_nil (h.hasScope hc), fun hc name => ?_⟩
  · rw [h.module, Trail.module_earlier]
  · rw [h.selfType, Trail.selfType_earlier]
  · rw [h.caller, Trail.caller_earlier]
  · have hleft : leftOfParts (earlier ++ [part]) = leftOfParts earlier ++ part.left := by
      simp [leftOfParts_eq_flatMap]
    rw [Walk.exists_mem_bind (h.hasScope hc), h.names hc, hgained, Trail.mem_names_cons,
      Trail.mem_names_cons, hleft, namesOf_append, List.mem_append]
    grind

/-- Entering a construct that opens no scope. -/
theorem enterPlain {label : Label} (h : Agrees u trail c locals) (hs : label.opensScope = false)
    (hf : label.isFunction = false) :
    Agrees u (⟨label, []⟩ :: trail) (label.context c) locals := by
  have hcaller : (label.context c).caller = c.caller := by cases label <;> rfl
  have hparams : label.params = [] := by cases label <;> simp_all [Label.opensScope, Label.isFunction, Label.params]
  refine ⟨?_, ?_, ?_, ?_, fun hc => h.hasScope (hcaller ▸ hc), fun hc name => ?_⟩
  · rw [← h.file]
    cases label <;> rfl
  · cases label <;> simp [Label.context, Trail.module, h.module]
  · cases label <;> simp [Label.context, Trail.selfType, h.selfType]
  · rw [hcaller, h.caller, Trail.caller_cons_of_not_function hf]
  · rw [h.names (hcaller ▸ hc), Trail.mem_names_cons, hparams, hf]
    simp [leftOfParts]

/-- Entering a construct that opens a scope. -/
theorem enterScope {label : Label} (h : Agrees u trail c locals) (hs : label.opensScope = true) :
    Agrees u (⟨label, []⟩ :: trail) c (Walk.bind (namesOf label.params) ([] :: locals)).1 := by
  have hf : label.isFunction = false := by
    cases label <;> simp_all [Label.opensScope, Label.isFunction]
  refine ⟨h.file, ?_, ?_, ?_, fun hc => by simp, fun hc name => ?_⟩
  · rw [h.module]
    cases label <;> simp_all [Trail.module, Label.opensScope]
  · rw [h.selfType]
    cases label <;> simp_all [Trail.selfType, Label.opensScope]
  · rw [h.caller, Trail.caller_cons_of_not_function hf]
  · rw [Walk.exists_mem_bind (by simp), Trail.mem_names_cons, hf, ← h.names hc]
    simp [leftOfParts]

/-- Entering a function. -/
theorem enterFunction (h : Agrees u trail c locals) (name : Ident) (params : List Pattern) :
    Agrees u (⟨.function name params, []⟩ :: trail)
      { c with caller := some (trail.key u.module name) } [namesOf params] := by
  refine ⟨h.file, h.module, h.selfType, rfl, fun _ => by simp, fun _ name => ?_⟩
  rw [Trail.mem_names_cons]
  simp [Label.params, Label.isFunction, leftOfParts]

end Agrees

/-- What a walk finds at a node: what the node itself contributes, and what its parts do. -/
theorem nodes_events (index : Index) (u : SourceUnit) (trail : Trail) (label : Label)
    (parts : List Outline) :
    (nodes trail (.node label parts)).flatMap (fun x => x.2.label.events index u x.1) =
      label.events index u trail ++
        (partNodes trail label [] parts).flatMap (fun x => x.2.label.events index u x.1) := by
  rw [nodes, List.flatMap_cons]
  rfl

mutual
/-- A walk finds what the trails say, node by node. -/
theorem walk_events {u : SourceUnit} : ∀ (o : Outline) {trail : Trail} {c : Context}
    {locals : Locals}, Agrees u trail c locals →
    (o.walk c locals).2 = (o.nodes trail).flatMap fun x => x.2.label.events c.index u x.1
  | .node label parts, trail, c, locals, h => by
    rw [walk, nodes_events]
    rcases label.opensScope_or_function_or_plain with hs | ⟨name, params, rfl⟩ | ⟨hs, hf⟩
    · have hevents : label.events c.index u trail = [] := by
        cases label <;> simp_all [Label.events, Label.opensScope]
      rw [Label.walk_of_opensScope hs, Walk.inScope_snd, Walk.andThen_eq, hevents]
      simpa using walkParts_events parts (h.enterScope hs)
    · have hkey : (Symbol.inPackage (modulePath c.module) name.text).qualifiedName =
          trail.key u.module name := by rw [h.module, Trail.key]
      simp only [Label.walk, Walk.enter, Label.events, hkey]
      rw [walkParts_events parts (h.enterFunction name params)]
      rfl
    · have hindex : (label.context c).index = c.index := by cases label <;> rfl
      have hlocals : (label.record c locals).1 = locals := by
        cases label with
        | call place target => cases target <;> simp [Label.record, Walk.nothing]
        | _ => rfl
      rw [Label.walk_of_plain hs hf, Walk.andThen_eq, Walk.andThen_eq, hlocals, h.record label hf,
        walkParts_events parts (h.enterPlain hs hf), hindex, Walk.bind_snd, List.append_nil]

theorem walkParts_events {u : SourceUnit} : ∀ (parts : List Outline) {earlier : List Outline}
    {label : Label} {trail : Trail} {c : Context} {locals : Locals},
    Agrees u (⟨label, earlier⟩ :: trail) c locals →
    (walkParts parts c locals).2 =
      (partNodes trail label earlier parts).flatMap fun x => x.2.label.events c.index u x.1
  | [], earlier, label, trail, c, locals, _ => rfl
  | part :: rest, earlier, label, trail, c, locals, h => by
    rw [walkParts, Walk.andThen_eq, partNodes, List.flatMap_append, walk_events part h,
      walkParts_events rest (h.next (walk_gains part c))]
end

/-- The nodes of a source file that a walk reaches, with their trails, in source order. -/
def nodesOf (macros : Bool) (u : SourceUnit) : List (Trail × Outline) :=
  (ofFile macros u.file).nodes []

/-- A node contributes one event at most. -/
theorem Label.length_events_le (index : Index) (u : SourceUnit) (trail : Trail) (label : Label) :
    (label.events index u trail).length ≤ 1 := by
  unfold Label.events
  split
  · exact Nat.le_refl 1
  · split
    · split
      · exact Nat.zero_le 1
      · exact Nat.le_refl 1
    · exact Nat.zero_le 1
  · exact Nat.zero_le 1

/-- A call that stands in no function contributes nothing. -/
theorem Label.events_call_of_caller_eq_none {u : SourceUnit} {trail : Trail}
    (h : trail.caller u.module = none) (index : Index) (place : Place)
    (target : Option Walk.Target) : (Label.call place target).events index u trail = [] := by
  cases target with
  | none => rfl
  | some target => rw [Label.events, h]

/-- What a function that is declared says about its node. -/
theorem Label.exists_of_declare_mem_events {index : Index} {u : SourceUnit} {trail : Trail}
    {label : Label} {caller : String} (h : .declare caller ∈ label.events index u trail) :
    ∃ name params, label = .function name params ∧ caller = trail.key u.module name := by
  unfold Label.events at h
  split at h
  · next name params => exact ⟨name, params, rfl, by simpa using h⟩
  · split at h
    · split at h <;> simp at h
    · simp at h
  · simp at h

/-- What a call that is listed says about its node. -/
theorem Label.exists_of_call_mem_events {index : Index} {u : SourceUnit} {trail : Trail}
    {label : Label} {caller : String} {site : CallSite}
    (h : .call caller site ∈ label.events index u trail) :
    ∃ place target symbol, label = .call place (some target) ∧
      trail.caller u.module = some caller ∧ trail.callee index u.module target = some symbol ∧
      site = ⟨symbol.qualifiedName, .ofPlace u.path place⟩ := by
  unfold Label.events at h
  split at h
  · simp at h
  · next place target =>
    split at h
    · next caller' symbol hcaller hcallee =>
      split at h
      · simp at h
      · obtain ⟨rfl, rfl⟩ : caller = caller' ∧ site = _ := by simpa using h
        exact ⟨place, target, symbol, rfl, hcaller, hcallee, rfl⟩
    · simp at h
  · simp at h

end Outline

namespace Walk

open Outline

/-- The walk over a source file is the walk over its outline. -/
theorem ofFile_walk (file : SourceFile) (c : Context) :
    (ofFile c.macros file).walk c = (exprs c file.attrs >> items c file.items) := by
  have hattrs : walkParts (ofExprs c.macros file.attrs) c = exprs c file.attrs :=
    ofExprs_walk _ rfl
  have hitems : walkParts (ofItems c.macros file.items) c = items c file.items :=
    ofItems_walk _ rfl
  rw [ofFile, walk_other, walkParts_append, hattrs, hitems]

/-- What is found in a source file is what its nodes contribute, one after the other. -/
theorem unit_eq_flatMap_nodes (index : Index) (macros : Bool) (u : SourceUnit) :
    Walk.unit index macros u =
      (nodesOf macros u).flatMap fun x => x.2.label.events index u x.1 := by
  let c : Context := ⟨index, macros, u.path, u.module, none, none⟩
  have h : Agrees u [] c [] :=
    ⟨rfl, rfl, rfl, rfl, fun hc => by simp [c] at hc, fun hc => by simp [c] at hc⟩
  rw [nodesOf, ← walk_events (ofFile macros u.file) h, ofFile_walk u.file c]
  rfl

/-! ### What walks leave unchanged -/

/-- Does a walk leave the local names as they were, but for names that the innermost scope may have
gained? -/
def OnlyGains (w : Walk) : Prop :=
  ∃ gained : List String, ∀ locals, (w locals).1 =
    match locals with
    | [] => []
    | scope :: outer => (gained ++ scope) :: outer

theorem Gains.onlyGains {w : Walk} {names : List String} (h : w.Gains names) : w.OnlyGains := by
  obtain ⟨gained, -, h⟩ := h
  refine ⟨gained, fun locals => ?_⟩
  rw [h]
  cases locals <;> rfl

theorem expr_onlyGains (c : Context) (e : Expr) : (expr c e).OnlyGains :=
  ofExpr_walk e (c := c) rfl ▸ (walk_gains _ c).onlyGains

theorem exprs_onlyGains (c : Context) (es : List Expr) : (exprs c es).OnlyGains :=
  ofExprs_walk es (c := c) rfl ▸ (walkParts_gains _ c).onlyGains

theorem arms_onlyGains (c : Context) (as : List Arm) : (arms c as).OnlyGains :=
  ofArms_walk as (c := c) rfl ▸ (walkParts_gains _ c).onlyGains

theorem stmts_onlyGains (c : Context) (body : List Stmt) : (stmts c body).OnlyGains :=
  ofStmts_walk body (c := c) rfl ▸ (walkParts_gains _ c).onlyGains

theorem function_onlyGains (c : Context) (f : Function) : (function c f).OnlyGains :=
  ofFunction_walk f (c := c) rfl ▸ (walk_gains _ c).onlyGains

theorem item_onlyGains (c : Context) (i : Item) : (item c i).OnlyGains :=
  ofItem_walk i (c := c) rfl ▸ (walk_gains _ c).onlyGains

theorem items_onlyGains (c : Context) (is : List Item) : (items c is).OnlyGains :=
  ofItems_walk is (c := c) rfl ▸ (walkParts_gains _ c).onlyGains

theorem members_onlyGains (c : Context) (ms : List Member) : (members c ms).OnlyGains :=
  ofMembers_walk ms (c := c) rfl ▸ (walkParts_gains _ c).onlyGains

theorem file_onlyGains (c : Context) (file : SourceFile) :
    (exprs c file.attrs >> items c file.items).OnlyGains :=
  ofFile_walk file c ▸ (walk_gains _ c).onlyGains

end Walk

end CallAtlas
