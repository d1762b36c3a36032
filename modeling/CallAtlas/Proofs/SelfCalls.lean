import CallAtlas.Proofs.KnownCallers

/-!
# Calls on self

A call `self.scale()` stands in a trait or in an `impl` block, and the block often declares the method
itself. Then the call leads to the module of the block, whatever other types, traits and crates have
methods of that name.

The type of a block is found twice. The index takes the last name of its path, also behind references
and parentheses. The walk knows the type only if it is a plain path. But where it knows the type, the
last name is the same (`Outline.last_selfType_eq`), and the method is looked up for that type. Where it
does not, all methods of the name are looked at, and those of the module come first.

## Main definitions

* `Outline.Trail.selfBlock?` — the innermost trait or `impl` block around a node.

## Main results

* `Index.resolveMethod_self` — calls on self of a method that the module declares for the type.
* `CallGraph.self_call_stays` — calls on self lead to the module of the block.
-/

namespace CallAtlas

namespace Outline

/-! ### The block around a node -/

/-- Is it a construct in which `self` can stand for a value? -/
def Label.hasSelf : Label → Bool
  | .trait _ | .impl _ => true
  | _ => false

/-- The type of a trait or an `impl` block, if it is a plain path. -/
def Label.selfType : Label → Option (List String)
  | .trait name => some [name.text]
  | .impl form => form.plainNames?.map Walk.texts
  | _ => none

/-- The innermost trait or `impl` block around a node. -/
def Trail.selfBlock? (trail : Trail) : Option Label :=
  (trail.map Frame.label).find? Label.hasSelf

/-- The type around a node is that of the innermost block. -/
theorem Trail.selfType_eq (trail : Trail) :
    trail.selfType = trail.selfBlock?.bind Label.selfType := by
  induction trail with
  | nil => rfl
  | cons frame outer ih =>
    obtain ⟨label, earlier⟩ := frame
    cases label with
    | trait name | impl form => rfl
    | _ => exact ih

/-- A block in which the walk knows the type is one of the type that the index takes it for. -/
theorem last_selfType_eq {macros : Bool} {item : Item} {type : Ident}
    (htype : item.typeName? = some type) {last : String}
    (hlast : (ofItem macros item).label.selfType.bind List.getLast? = some last) :
    last = type.text := by
  cases item with
  | trait isPublic name parts members =>
    rw [ofItem] at hlast
    cases htype
    exact (Option.some.inj hlast).symm
  | impl form ofTrait parts members =>
    rw [ofItem] at hlast
    rw [Item.typeName?] at htype
    cases form with
    | path qualified names =>
      cases qualified with
      | false =>
        have hnames : (Walk.texts names).getLast? = some type.text := by
          rw [Walk.texts, List.getLast?_map, ← TypeForm.lastName?, htype, Option.map_some]
        exact Option.some.inj (hlast.symm.trans hnames)
      | true => cases hlast
    | enclosed inner => cases hlast
    | other => cases htype
  | _ => cases htype

/-- The functions in a block belong to a type with a name. -/
theorem exists_typeName? {macros : Bool} {item : Item} (h : (ofItem macros item).label.hasSelf = true)
    {name : Ident} (hname : name ∈ item.functionNames) : ∃ type, item.typeName? = some type := by
  cases item with
  | trait isPublic type parts members => exact ⟨type, rfl⟩
  | impl form ofTrait parts members =>
    rw [Item.typeName?]
    cases hform : form.lastName? with
    | some type => exact ⟨type, rfl⟩
    | none => simp [Item.functionNames, Item.functions, Item.required, hform] at hname
  | function isPublic f =>
    obtain ⟨name, header, params, body⟩ := f
    simp [ofItem, ofFunction, label, Label.hasSelf] at h
  | _ => simp [Item.functionNames, Item.functions, Item.required] at hname

end Outline

open Outline

/-! ### Looking up the method -/

/-- A method that the module declares for a type is what a call on self leads to, unless the call
stands in a block of another type. -/
theorem Index.resolveMethod_self {i : Index} {module : List String} {type name : String}
    {isPublic : Bool} (h : .method (modulePath module) type name isPublic ∈ i.declarations)
    {selfType : Option (List String)}
    (hself : ∀ last, selfType.bind List.getLast? = some last → last = type) :
    i.resolveMethod ⟨module, selfType⟩ true name = some (.inPackage (modulePath module) name) := by
  cases hlast : selfType.bind List.getLast? with
  | none =>
    -- No type to look for: the method is one of many with its name, and in this module.
    have hhere : modulePath module ∈ i.methodModules name :=
      mem_methodModules_iff.mpr ⟨type, isPublic, h⟩
    simp [resolveMethod, hlast, leastText?, hhere]
  | some last =>
    obtain rfl := hself last hlast
    have hhere : modulePath module ∈ (i.methodsOf last name).map Prod.fst :=
      List.mem_map.mpr ⟨(modulePath module, isPublic), mem_methodsOf_iff.mpr h, rfl⟩
    simp only [resolveMethod, hlast, List.contains_iff_mem, hhere, if_true]

/-- **Calls on self stay with the block.** A call on self, of a function that the innermost trait or
`impl` block around it declares, leads to that function in the module of the block, and it is an edge
for the function around it. A block is told by its form here: it makes no difference which of several
blocks of a type in the module declares the function. -/
theorem CallGraph.self_call_stays (p : Program) (macros : Bool) (u : SourceUnit) (hu : u ∈ p.units)
    (item : Item) (trail : Trail) (hindexed : p.Indexed (trail.module u.module) item)
    (hblock : trail.selfBlock? = some (ofItem macros item).label) (name : Ident)
    (hname : name ∈ item.functionNames) (place : Place) (parts : List Outline)
    (hnode : (trail, .node (.call place (some (.method true name.text))) parts) ∈ nodesOf macros u) :
    trail.callee (Index.ofProgram p) u.module (.method true name.text) =
        some (.inPackage (modulePath (trail.module u.module)) name.text) ∧
      ∀ caller, trail.caller u.module = some caller →
        (caller, ⟨(Symbol.inPackage (modulePath (trail.module u.module)) name.text).qualifiedName,
          .ofPlace u.path place⟩) ∈ (CallGraph.ofProgram p macros).edges := by
  have hlabel : (ofItem macros item).label.hasSelf = true := List.find?_some hblock
  obtain ⟨type, htype⟩ := exists_typeName? hlabel hname
  obtain ⟨isPublic, hmethod⟩ := Index.exists_method_of_typeName? hindexed htype hname
  have hself : ∀ last, trail.selfType.bind List.getLast? = some last → last = type.text := by
    intro last hlast
    rw [trail.selfType_eq, hblock, Option.bind_some] at hlast
    exact last_selfType_eq htype hlast
  have hcallee : trail.callee (Index.ofProgram p) u.module (.method true name.text) =
      some (.inPackage (modulePath (trail.module u.module)) name.text) :=
    Index.resolveMethod_self hmethod hself
  refine ⟨hcallee, fun caller hcaller => ?_⟩
  exact mem_edges_of_node hu hnode hcaller hcallee name.text_ne_empty

namespace Disc

def selfWord : Ident := ⟨"self", rfl⟩

def disc : Ident := ⟨"Disc", by decide⟩

def figures : Ident := ⟨"figures", by decide⟩

def grow : Name := ⟨⟨"grow", by decide⟩, by decide⟩

def scale : Name := ⟨⟨"scale", by decide⟩, by decide⟩

/-- `impl Resize for &Disc { fn grow() { self.scale() } fn scale() {} }`. -/
def resize : Item :=
  .impl (.enclosed (.path false [disc])) true []
    [.function false (.mk grow [] []
        [.expr (.methodCall ⟨1, 40⟩ [] (.path [] (.plain false) [selfWord] []) scale.toIdent [])]),
      .function false (.mk scale [] [] [])]

/-- A crate with `mod figures { ... }` around the block, and one with
`impl Disc { pub fn scale() {} }`, whose name comes first in the order of texts. -/
def program : Program where
  units := [Index.crateRoot "demo" [.module ⟨false, none⟩ figures [] [resize]],
    Index.crateRoot "alpha"
      [.impl (.path false [disc]) false [] [.function true (.mk scale [] [] [])]]]
  externs := []

/-- The trail of the call. -/
def trail : Trail :=
  [⟨.block, []⟩, ⟨.function grow.toIdent [], []⟩, ⟨.impl (.enclosed (.path false [disc])), []⟩,
    ⟨.module figures, []⟩, ⟨.other, []⟩]

theorem indexed : program.Indexed ["demo", "figures"] resize :=
  .inside (x := (["demo", "figures"], resize)) (.ofUnit List.mem_cons_self List.mem_cons_self)
    List.mem_cons_self

end Disc

theorem CallGraph.self_call_stays_disc :
    Disc.program.Indexed ["demo", "figures"] Disc.resize ∧
      Disc.scale.toIdent ∈ Disc.resize.functionNames ∧
      (Index.ofProgram Disc.program).methodModules "scale" = ["demo::figures", "alpha"] ∧
      ("demo::figures.grow", ⟨"demo::figures.scale", .ofPlace "lib.rs" ⟨1, 40⟩⟩) ∈
        (CallGraph.ofProgram Disc.program true).edges := by
  have hname : Disc.scale.toIdent ∈ Disc.resize.functionNames := .tail _ (.head _)
  have hnode : (Disc.trail, .node (.call ⟨1, 40⟩ (some (.method true Disc.scale.text)))
      [.node .other []]) ∈
      nodesOf true (Index.crateRoot "demo" [.module ⟨false, none⟩ Disc.figures [] [Disc.resize]]) :=
    .tail _ (.tail _ (.tail _ (.tail _ (.tail _ (.head _)))))
  obtain ⟨-, hedge⟩ := self_call_stays Disc.program true _ List.mem_cons_self Disc.resize Disc.trail
    Disc.indexed rfl Disc.scale.toIdent hname ⟨1, 40⟩ _ hnode
  exact ⟨Disc.indexed, hname, by decide, hedge _ rfl⟩

end CallAtlas
