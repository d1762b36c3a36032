import CallAtlas.Proofs.Crates
import CallAtlas.Proofs.Spelling

/-!
# Which callers are known

A caller is a function that the walk has come across. It is known if the index lists it in its
module under its name: then a call can lead to it, under the name that it has as a caller.

A caller is known if all around it is looked into (`Outline.Trail.Open`), and what is known is such a
caller or a function of a trait that has no body (`Index.lists_iff_open`). A function in a block
inside of a body is not known, nor is a function in an `impl` block of a type without a name, such
as `[u8]`. Both are callers all the same (`Index.callers_not_listed`).

## Main definitions

* `Item.typeName?`, `Item.functionNames` — the methods of an item, and the type they belong to.
* `Index.Lists` — a function that the index lists in a module.

## Main results

* `Index.exists_method_of_typeName?` — the methods that an indexed item declares.
* `Index.resolveMethod_here`, `Index.resolvePath_here` — calls of what is listed, in its module.
* `Index.lists_iff_open` — which functions are listed.
-/

namespace CallAtlas

open Outline

/-- A node without ancestors is the file. -/
theorem Outline.eq_ofFile_of_mem_nodesOf {macros : Bool} {u : SourceUnit} {o : Outline}
    (h : ([], o) ∈ nodesOf macros u) : o = ofFile macros u.file := by
  refine nodes_induction (P := fun trail o => trail = [] → o = ofFile macros u.file) ?_
    (fun _ => rfl) h rfl
  intro trail label parts earlier part _ _ hnil
  simp at hnil

/-- A function is not a file. -/
theorem Outline.open_of_function {macros : Bool} {u : SourceUnit} {trail : Trail} {name : Ident}
    {params : List Pattern} {parts : List Outline}
    (h : (trail, .node (.function name params) parts) ∈ nodesOf macros u) (hopen : trail.Open) :
    Open macros u (trail.module u.module) trail (.node (.function name params) parts) := by
  refine ⟨h, ?_, hopen, rfl⟩
  rintro rfl
  have hfile := eq_ofFile_of_mem_nodesOf h
  rw [ofFile] at hfile
  cases hfile

namespace Item

/-- The type that the functions of an item are methods of, by its last name. -/
def typeName? : Item → Option Ident
  | .trait _ name _ _ => some name
  | .impl form _ _ _ => form.lastName?
  | _ => none

/-- The names of the functions of an item, with a body and without. -/
def functionNames (item : Item) : List Ident :=
  item.functions.map (·.name.toIdent) ++ item.required

end Item

namespace Index

/-- Does the index list a function in a module, among the functions or among the methods? -/
def Lists (i : Index) (m name : String) : Prop :=
  (∃ isPublic, (name, isPublic) ∈ i.functions m) ∨ m ∈ i.methodModules name

instance (i : Index) (m name : String) : Decidable (i.Lists m name) :=
  decidable_of_iff (name ∈ (i.functions m).map Prod.fst ∨ m ∈ i.methodModules name)
    (by simp [Lists])

/-! ### What indexed items declare -/

variable {p : Program} {path : List String} {item : Item}

/-- A function around which all is looked into belongs to an indexed item. -/
theorem exists_indexed_of_open {macros : Bool} {u : SourceUnit} (hu : u ∈ p.units) {trail : Trail}
    {name : Ident} {params : List Pattern} {parts : List Outline}
    (h : (trail, .node (.function name params) parts) ∈ nodesOf macros u) (hopen : trail.Open) :
    ∃ item, p.Indexed (trail.module u.module) item ∧
      ∃ f ∈ item.functions, f.name.toIdent = name := by
  have hfound := found_of_open hu (open_of_function h hopen) rfl
  have hname : ∀ {f : Function}, ofFunction macros f = .node (.function name params) parts →
      f.name.toIdent = name := by
    rintro ⟨name', header, params', body⟩ ho
    rw [ofFunction] at ho
    cases ho
    rfl
  generalize ho : Outline.node (.function name params) parts = o at hfound
  cases hfound with
  | @item item hindexed =>
    cases item with
    | function isPublic f =>
      rw [ofItem] at ho
      exact ⟨_, hindexed, f, List.mem_cons_self, hname ho.symm⟩
    | _ =>
      rw [ofItem] at ho
      cases ho
  | @function item f hindexed hf => exact ⟨item, hindexed, f, hf, hname ho.symm⟩
  | body => cases ho

theorem exists_member_of_mem_function? {members : List Member} {f : Function}
    (h : f ∈ members.filterMap Member.function?) : ∃ isPublic, .function isPublic f ∈ members := by
  obtain ⟨member, hmember, hf⟩ := List.mem_filterMap.mp h
  cases member with
  | function isPublic found =>
    obtain rfl : found = f := by simpa [Member.function?] using hf
    exact ⟨isPublic, hmember⟩
  | _ => simp [Member.function?] at hf

theorem exists_member_of_mem_required? {members : List Member} {name : Ident}
    (h : name ∈ members.filterMap Member.required?) : ∃ parts, .required name parts ∈ members := by
  obtain ⟨member, hmember, hname⟩ := List.mem_filterMap.mp h
  cases member with
  | required found parts =>
    obtain rfl : found = name := by simpa [Member.required?] using hname
    exact ⟨parts, hmember⟩
  | _ => simp [Member.required?] at hname

/-- What an indexed trait or `impl` block holds is declared as methods of its type. -/
theorem exists_method_of_typeName? (h : p.Indexed path item) {type name : Ident}
    (htype : item.typeName? = some type) (hname : name ∈ item.functionNames) :
    ∃ isPublic, .method (modulePath path) type.text name.text isPublic ∈
      (ofProgram p).declarations := by
  have hmem : ∀ {d}, d ∈ Declaration.own path item → d ∈ (ofProgram p).declarations :=
    fun hd => Declaration.mem_ofProgram_iff.mpr (Or.inr (Or.inr ⟨path, item, h, hd⟩))
  have hcases : (∃ f ∈ item.functions, f.name.toIdent = name) ∨ name ∈ item.required := by
    simpa [Item.functionNames] using hname
  cases item with
  | trait isPublic found parts members =>
    obtain rfl : found = type := Option.some.inj htype
    refine ⟨isPublic, hmem (List.mem_cons_of_mem _ ?_)⟩
    rcases hcases with ⟨f, hf, rfl⟩ | hrequired
    · obtain ⟨isPublic', hmember⟩ := exists_member_of_mem_function? hf
      exact List.mem_flatMap.mpr ⟨_, hmember, List.mem_cons_self⟩
    · obtain ⟨parts', hmember⟩ := exists_member_of_mem_required? hrequired
      exact List.mem_flatMap.mpr ⟨_, hmember, List.mem_cons_self⟩
  | impl form ofTrait parts members =>
    rw [Item.typeName?] at htype
    rcases hcases with ⟨f, hf, rfl⟩ | hrequired
    · obtain ⟨isPublic, hmember⟩ :=
        exists_member_of_mem_function? (by simpa [Item.functions, htype] using hf)
      refine ⟨ofTrait || isPublic, hmem ?_⟩
      rw [Declaration.own, htype]
      exact List.mem_flatMap.mpr ⟨_, hmember, List.mem_cons_self⟩
    · simp [Item.required] at hrequired
  | _ => simp [Item.typeName?] at htype

theorem lists_of_typeName? (h : p.Indexed path item) {type name : Ident}
    (htype : item.typeName? = some type) (hname : name ∈ item.functionNames) :
    (ofProgram p).Lists (modulePath path) name.text := by
  obtain ⟨isPublic, hd⟩ := exists_method_of_typeName? h htype hname
  exact Or.inr (mem_methodModules_iff.mpr ⟨type.text, isPublic, hd⟩)

/-- The functions of an indexed item are listed. -/
theorem lists_of_mem_functions (h : p.Indexed path item) {f : Function} (hf : f ∈ item.functions) :
    (ofProgram p).Lists (modulePath path) f.name.text := by
  have hname : f.name.toIdent ∈ item.functionNames :=
    List.mem_append_left _ (List.mem_map.mpr ⟨f, hf, rfl⟩)
  cases item with
  | function isPublic found =>
    obtain rfl : f = found := by simpa [Item.functions] using hf
    have hd : .function (modulePath path) f.name.text isPublic ∈ (ofProgram p).declarations :=
      Declaration.mem_ofProgram_iff.mpr (Or.inr (Or.inr ⟨path, _, h, List.mem_cons_self⟩))
    exact Or.inl ⟨isPublic, mem_functions_iff.mpr hd⟩
  | trait isPublic type parts members => exact lists_of_typeName? h rfl hname
  | impl form ofTrait parts members =>
    rw [Item.functions] at hf
    split at hf
    · next hform =>
      obtain ⟨type, htype⟩ := Option.isSome_iff_exists.mp hform
      exact lists_of_typeName? h htype hname
    · simp at hf
  | _ => simp [Item.functions] at hf

/-- The functions of a trait without a body are listed, too. -/
theorem lists_of_mem_required (h : p.Indexed path item) {name : Ident}
    (hname : name ∈ item.required) :
    (ofProgram p).Lists (modulePath path) name.text := by
  cases item with
  | trait isPublic type parts members =>
    exact lists_of_typeName? h rfl (List.mem_append_right _ hname)
  | _ => simp [Item.required] at hname

/-- What is listed is a function of an indexed item, with a body or without. -/
theorem exists_indexed_of_lists {m name : String} (h : (ofProgram p).Lists m name) :
    (∃ path item, p.Indexed path item ∧ modulePath path = m ∧
      ∃ f ∈ item.functions, f.name.text = name) ∨
    ∃ path item, p.Indexed path item ∧ modulePath path = m ∧
      ∃ required ∈ item.required, required.text = name := by
  rcases h with ⟨isPublic, h⟩ | h
  · obtain ⟨path, item, hindexed, hm, f, hf, hname⟩ :=
      Declaration.exists_indexed_of_function (mem_functions_iff.mp h)
    exact Or.inl ⟨path, item, hindexed, hm.symm, f, hf, hname.symm⟩
  · obtain ⟨type, isPublic, hd⟩ := mem_methodModules_iff.mp h
    rcases Declaration.exists_owned hd with ⟨path, item, hindexed, howned⟩ | ⟨_, h⟩ | ⟨_, h⟩ | ⟨_, h⟩
    · cases howned with
      | @method f _ _ hf => exact Or.inl ⟨path, item, hindexed, rfl, f, hf, rfl⟩
      | @required name _ _ hname => exact Or.inr ⟨path, item, hindexed, rfl, name, hname, rfl⟩
      | imports himport => cases himport
    all_goals cases h

/-! ### Calls in the module -/

/-- A method is called by its name in a module that declares it. -/
theorem resolveMethod_here {i : Index} {module : List String} {name : String}
    (h : modulePath module ∈ i.methodModules name) (selfType : Option (List String)) :
    i.resolveMethod ⟨module, selfType⟩ false name = some (.inPackage (modulePath module) name) := by
  simp [resolveMethod, leastText?, h]

/-- A function is called by its name in its module, if the module is where paths lead. -/
theorem resolvePath_here {i : Index} {module : List String} (hreaches : i.Reaches module)
    {name : Name} {isPublic : Bool} (h : (name.text, isPublic) ∈ i.functions (modulePath module))
    (selfType : Option (List String)) :
    i.resolvePath ⟨module, selfType⟩ [name.text] =
      some (.inPackage (modulePath module) name.text) := by
  rw [hreaches.inPackage]
  exact resolvePath_function hreaches h rfl (Or.inl rfl)
    (absolutize_function hreaches.hasModule h)

/-- **Which callers are known.** If all around a function is looked into, it is listed in its module
under its name, and a call in the module leads to it under the name that it has as a caller: by a
method call, or by its bare name if the module is where paths lead. Whatever else is listed is a
function of a trait without a body. -/
theorem lists_iff_open (p : Program) (macros : Bool) :
    (∀ u ∈ p.units, ∀ trail name params parts,
      (trail, .node (.function name params) parts) ∈ nodesOf macros u → trail.Open →
      trail.key u.module name ∈ (CallGraph.ofProgram p macros).callers ∧
      (ofProgram p).Lists (modulePath (trail.module u.module)) name.text ∧
      ∃ symbol : Symbol, symbol.qualifiedName = trail.key u.module name ∧
        (modulePath (trail.module u.module) ∈ (ofProgram p).methodModules name.text →
          ∀ selfType, (ofProgram p).resolveMethod ⟨trail.module u.module, selfType⟩ false name.text =
            some symbol) ∧
        (∀ isPublic,
          (name.text, isPublic) ∈ (ofProgram p).functions (modulePath (trail.module u.module)) →
          (ofProgram p).Reaches (trail.module u.module) →
          ∀ selfType, (ofProgram p).resolvePath ⟨trail.module u.module, selfType⟩ [name.text] =
            some symbol)) ∧
    ∀ m name, (ofProgram p).Lists m name ↔
      (∃ u ∈ p.units, ∃ trail ident params parts,
        (trail, .node (.function ident params) parts) ∈ nodesOf macros u ∧ trail.Open ∧
        modulePath (trail.module u.module) = m ∧ ident.text = name) ∨
      ∃ path item, p.Indexed path item ∧ modulePath path = m ∧
        ∃ required ∈ item.required, required.text = name := by
  constructor
  · intro u hu trail name params parts hnode hopen
    obtain ⟨item, hindexed, f, hf, rfl⟩ := exists_indexed_of_open hu hnode hopen
    refine ⟨hindexed.mem_callers macros hf, lists_of_mem_functions hindexed hf,
      .inPackage (modulePath (trail.module u.module)) f.name.text, rfl, ?_, ?_⟩
    · exact fun hmethod selfType => resolveMethod_here hmethod selfType
    · exact fun isPublic hfunction hreaches selfType => resolvePath_here hreaches hfunction selfType
  · intro m name
    constructor
    · intro hlists
      refine (exists_indexed_of_lists hlists).imp_left ?_
      rintro ⟨path, item, hindexed, rfl, ⟨ident, header, params, body⟩, hf, rfl⟩
      obtain ⟨u, hu, outer, hitem⟩ := hindexed.exists_open macros
      obtain ⟨trail, hnode, -, hopen, rfl⟩ := exists_function_node hitem hf
      rw [ofFunction] at hnode
      exact ⟨u, hu, trail, ident, params, _, hnode, hopen, rfl, rfl⟩
    · rintro (⟨u, hu, trail, ident, params, parts, hnode, hopen, rfl, rfl⟩ |
        ⟨path, item, hindexed, rfl, required, hrequired, rfl⟩)
      · obtain ⟨item, hindexed, f, hf, rfl⟩ := exists_indexed_of_open hu hnode hopen
        exact lists_of_mem_functions hindexed hf
      · exact lists_of_mem_required hindexed hrequired

namespace Nested

def square : Ident := ⟨"Square", by decide⟩

def shapes : Ident := ⟨"shapes", by decide⟩

def bytes : Ident := ⟨"bytes", by decide⟩

def display : Name := ⟨⟨"display", by decide⟩, by decide⟩

def helper : Name := ⟨⟨"helper", by decide⟩, by decide⟩

/-- `fn helper() {}` in the body of a function. -/
def body : List Stmt := [.item (.function false (.mk helper [] [] []))]

/-- `mod shapes { impl Display for &Square { fn display() { fn helper() {} } } }`. -/
def shapesModule : Item :=
  .module ⟨false, none⟩ shapes []
    [.impl (.enclosed (.path false [square])) true [] [.function false (.mk display [] [] body)]]

def inImpl : Program where
  units := [crateRoot "demo" [shapesModule]]
  externs := []

/-- `fn display() { { fn helper() {} helper() } }`. -/
def inBlock : Program where
  units := [crateRoot "demo" [.function false (.mk display [] []
    [.expr (.block [] (body ++
      [.expr (.call ⟨1, 33⟩ [] (.path [] (.plain false) [helper.toIdent] []) [])]))])]]
  externs := []

/-- `impl Display for [u8] { fn display() {} } fn helper(bytes: &[u8]) { bytes.display() }`. -/
def ofSlice : Program where
  units := [crateRoot "demo"
    [.impl .other true [] [.function false (.mk display [] [] [])],
      .function false (.mk helper [] [.binder [] bytes .empty]
        [.expr (.methodCall ⟨1, 69⟩ [] (.path [] (.plain false) [bytes] []) display.toIdent [])])]]
  externs := []

/-- The trail of `helper` in `inImpl`. -/
def trail : Trail :=
  [⟨.block, []⟩, ⟨.function display.toIdent [], []⟩, ⟨.impl (.enclosed (.path false [square])), []⟩,
    ⟨.module shapes, []⟩, ⟨.other, []⟩]

end Nested

theorem lists_iff_open_inImpl :
    ∃ u ∈ Nested.inImpl.units, ∃ parts,
      (Nested.trail, .node (.function Nested.helper.toIdent []) parts) ∈ nodesOf true u ∧
      Nested.trail.Open ∧
      Nested.trail.key u.module Nested.helper.toIdent = "demo::shapes.helper" ∧
      "demo::shapes.helper" ∈ (CallGraph.ofProgram Nested.inImpl true).callers ∧
      (ofProgram Nested.inImpl).Lists "demo::shapes" "helper" := by
  have hnode : (Nested.trail, .node (.function Nested.helper.toIdent []) [.node .block []]) ∈
      nodesOf true (crateRoot "demo" [Nested.shapesModule]) :=
    .tail _ (.tail _ (.tail _ (.tail _ (.tail _ (.head _)))))
  have hopen : Nested.trail.Open := by decide
  obtain ⟨hcaller, hlists, -⟩ :=
    (lists_iff_open Nested.inImpl true).1 _ List.mem_cons_self _ _ _ _ hnode hopen
  exact ⟨_, List.mem_cons_self, _, hnode, hopen, by decide +kernel, hcaller, hlists⟩

/-- Callers that are not known: in a block inside of a body, and in an `impl` block of a type without
a name. Calls of them lead nowhere. -/
theorem callers_not_listed :
    ((CallGraph.ofProgram Nested.inBlock true).callers = ["demo.display", "demo.helper"] ∧
      (CallGraph.ofProgram Nested.inBlock true).edges = [] ∧
      ¬ (ofProgram Nested.inBlock).Lists "demo" "helper") ∧
    (CallGraph.ofProgram Nested.ofSlice true).callers = ["demo.display", "demo.helper"] ∧
      (CallGraph.ofProgram Nested.ofSlice true).edges = [] ∧
      ¬ (ofProgram Nested.ofSlice).Lists "demo" "display" := by
  decide +kernel

end Index

end CallAtlas
