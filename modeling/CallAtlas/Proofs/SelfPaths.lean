import CallAtlas.Proofs.Reexports
import CallAtlas.Proofs.SelfCalls

/-!
# Paths from Self

Inside of a block, `Self::scale()` and `self.scale()` are two spellings of a call, and they are resolved
in two ways. A call on self leads to the module of the block, if the block declares the method. In a
path, `Self` stands for the type of the block as it is written, and the path is followed from there like
any other: through modules and imports to the module that declares the type, and then to a module that
declares the method for a type of this name, where the module of the type comes first.

So the two agree where the type is declared next to the block, and in a trait. Elsewhere they need
not, though both spellings mean one function, so that one of the two calls is listed wrongly or lost.
Three defects are behind this.

* The path of a type from a crate without sources leads out of the program, also for a method that a
  block of the program declares. The function then has a second name in the graph.
* Methods are found by the bare name of a type. Where the module of the type has no such method, the
  first module by name that has one is taken, even if it has it for another type of that name.
* The methods of a block for a reference are listed for the type behind the reference, but the walk
  takes no type from such a block. A path from `Self` is lost there.

## Main definitions

* `Index.FindsType` — where a path from a crate root leads to a type.

## Main results

* `Index.FindsType.locate` — the methods behind such a path.
* `Index.associated_eq_iff` — which module is found for a method of a type.
* `CallGraph.self_path_agrees` — what the two spellings lead to.
-/

namespace CallAtlas

namespace Index

variable {i : Index} {fromCrate root name method : String} {inner : List String} {steps : Nat}

/-! ### From a path to a type -/

/-- In so many steps, a path from a crate root leads to a type that a module declares. On the way,
imports by name come first, then glob imports; a submodule of the name hides a type. -/
inductive FindsType (i : Index) : Nat → List String → List String → String → Prop where
  | declared {steps : Nat} {root name : String} {inner : List String} :
    i.hasCrate root = true → i.Leads [root] inner →
      name ∉ i.submodules (modulePath (root :: inner)) → name ∈ i.types (modulePath (root :: inner)) →
      FindsType i (steps + 1) (root :: (inner ++ [name])) (root :: inner) name
  | imported {steps : Nat} {root bound name : String} {inner target path module : List String} :
    i.hasCrate root = true → i.Leads [root] inner →
      bound ∉ i.submodules (modulePath (root :: inner)) → bound ∉ i.types (modulePath (root :: inner)) →
      lookupLast bound (i.imports (modulePath (root :: inner))) = some target →
      i.absolutize steps (root :: inner) none true target = some path →
      FindsType i steps path module name →
      FindsType i (steps + 1) (root :: (inner ++ [bound])) module name
  | handedOn {steps : Nat} {root bound name : String} {inner base module : List String} :
    i.hasCrate root = true → i.Leads [root] inner →
      bound ∉ i.submodules (modulePath (root :: inner)) → bound ∉ i.types (modulePath (root :: inner)) →
      lookupLast bound (i.imports (modulePath (root :: inner))) = none →
      (i.globs (modulePath (root :: inner))).findSome? (i.supplied steps (root :: inner) bound) =
        some base →
      FindsType i steps (base ++ [bound]) module name →
      FindsType i (steps + 1) (root :: (inner ++ [bound])) module name

/-- A path of modules is followed to the last one, and to the methods of its types from there. -/
theorem locate_method (hcrate : i.hasCrate root = true) (hleads : i.Leads [root] inner)
    (hsubmodule : name ∉ i.submodules (modulePath (root :: inner)))
    (htype : name ∈ i.types (modulePath (root :: inner))) :
    i.locate fromCrate (steps + 1) (root :: (inner ++ [name, method])) =
      i.associated (modulePath (root :: inner)) name method fromCrate := by
  have hmodule : i.hasModule (modulePath (root :: inner)) = true := hleads.hasModule
  rw [locate, if_pos hcrate, follow_append_of_leads (by simp) hleads, List.singleton_append, follow,
    scope?_of_hasModule hmodule]
  simp [hsubmodule, htype]

/-- **The methods of a type** that a path leads to are those of its name, seen from its module. -/
theorem FindsType.locate {path module : List String} (h : i.FindsType steps path module name) :
    i.locate fromCrate steps (path ++ [method]) =
      i.associated (modulePath module) name method fromCrate := by
  induction h with
  | declared hcrate hleads hsubmodule htype =>
    rw [List.cons_append, List.append_assoc]
    exact locate_method hcrate hleads hsubmodule htype
  | imported hcrate hleads hsubmodule htype himport htarget _ ih =>
    rw [List.cons_append, List.append_assoc]
    refine (locate_import hcrate hleads (not_keeps_cons.mpr ⟨hsubmodule, htype⟩) himport).trans ?_
    rw [htarget]
    exact ih
  | handedOn hcrate hleads hsubmodule htype himport hbase _ ih =>
    rw [List.cons_append, List.append_assoc]
    refine (locate_glob hcrate hleads (not_keeps_cons.mpr ⟨hsubmodule, htype⟩) himport).trans ?_
    rw [hbase]
    simpa using ih

/-! ### From a type to a method -/

theorem exists_leastText? {text : String} {texts : List String} (h : text ∈ texts) :
    ∃ least, leastText? texts = some least := by
  cases texts with
  | nil => cases h
  | cons first rest => exact ⟨_, rfl⟩

/-- A module whose method can be called from a crate is found if it is that of the type, or else if it
is the first of those that declare the method. -/
theorem associated_eq_iff {module here : String}
    (hhere : here ∈ (i.methodsOf name method).map Prod.fst)
    (hcrate : crateOfModule here = fromCrate) :
    i.associated module name method fromCrate = some (.inPackage here method) ↔
      module = here ∨ module ∉ (i.methodsOf name method).map Prod.fst ∧
        ∀ other ∈ (i.methodsOf name method).map Prod.fst, here ≤ other := by
  -- the module that is found, and what is left to ask of it
  have hfound {found : String} (hmem : found ∈ (i.methodsOf name method).map Prod.fst) :
      ((lookupLast found (i.methodsOf name method)).bind fun isPublic =>
        if isPublic || crateOfModule found == fromCrate then some (Symbol.inPackage found method)
        else none) = some (.inPackage here method) ↔ found = here := by
    obtain ⟨⟨_, isPublic⟩, hmethod, rfl⟩ := List.mem_map.mp hmem
    obtain ⟨last, hlast⟩ := exists_lookupLast hmethod
    rw [hlast, Option.bind_some]
    constructor
    · intro h
      obtain ⟨-, heq⟩ := Option.ite_none_right_eq_some.mp h
      have hpackage := congrArg (fun symbol => symbol.package.getD "") (Option.some.inj heq)
      simpa [Symbol.getD_package_inPackage] using hpackage
    · rintro rfl
      rw [if_pos (by simp [hcrate])]
  rw [associated]
  by_cases hmodule : module ∈ (i.methodsOf name method).map Prod.fst
  · rw [if_pos (List.contains_iff_mem.mpr hmodule), Option.bind_some, hfound hmodule]
    simp [hmodule]
  · have hne : module ≠ here := fun heq => hmodule (heq ▸ hhere)
    obtain ⟨least, hleast⟩ := exists_leastText? hhere
    obtain ⟨hmem, hle⟩ := leastText?_eq_some_iff.mp hleast
    rw [if_neg (by simpa using hmodule), hleast, Option.bind_some, hfound hmem]
    constructor
    · rintro rfl
      exact .inr ⟨hmodule, hle⟩
    · rintro (heq | ⟨-, hfirst⟩)
      · exact absurd heq hne
      · exact String.le_antisymm (hle here hhere) (hfirst least hmem)

/-! ### Paths that start with `Self` -/

/-- `Self` stands for the type around it, as it is written, and for nothing where there is none. -/
theorem resolvePath_selfType (module : List String) (type? : Option (List String)) (method : String) :
    i.resolvePath ⟨module, type?⟩ ["Self", method] =
      (type?.bind (i.absolutize 16 module none false)).bind fun path =>
        i.locate (module.headD "") stepLimit (path ++ [method]) := by
  have hprimitive : primitiveTypes.contains "Self" = false := by decide
  have hself : i.absolutize stepLimit module type? false ["Self", method] =
      (type?.bind (i.absolutize 16 module none false)).map (· ++ [method]) := by
    rw [show stepLimit = 16 + 1 from rfl, absolutize_succ_cons]
    cases type? <;> rfl
  rw [resolvePath]
  dsimp only
  rw [hprimitive, Bool.false_and, if_neg Bool.false_ne_true, hself, Option.bind_map]
  rfl

/-- A type that a module declares is found from the module itself, if its crate leads to it. -/
theorem findsType_here (hcrate : i.hasCrate root = true) (hleads : i.Leads [root] inner)
    (hkeyword : name ∉ pathKeywords) (htype : name ∈ i.types (modulePath (root :: inner)))
    (hsubmodule : name ∉ i.submodules (modulePath (root :: inner))) :
    i.absolutize 16 (root :: inner) none false [name] = some (root :: (inner ++ [name])) ∧
      i.FindsType stepLimit (root :: (inner ++ [name])) (root :: inner) name := by
  refine ⟨?_, .declared hcrate hleads hsubmodule htype⟩
  have hmodule : i.hasModule (modulePath (root :: inner)) = true := hleads.hasModule
  rw [absolutize_of_not_keyword hkeyword, fromModule, scope?_of_hasModule hmodule, Option.bind_some,
    if_pos (by simp [ModuleScope.defines, htype])]
  rfl

/-- The crate of a module is told by its text, if there is no colon in the name of the crate. -/
theorem crateOfModule_modulePath_headD {module : List String} (h : ':' ∉ (module.headD "").toList) :
    crateOfModule (modulePath module) = module.headD "" := by
  cases module with
  | nil => rfl
  | cons root rest =>
    rw [List.headD_cons] at h ⊢
    rw [crateOfModule, toList_modulePath_cons, crateOfModule_go_append_pathTail h,
      String.ofList_toList]

/-- Where the type is found in the program, the method is that of the module itself if the module is
the one of the type, or else the first that declares it. -/
theorem resolvePath_selfType_eq_iff {here type path module : List String} {isPublic : Bool}
    (hmethod : .method (modulePath here) name method isPublic ∈ i.declarations)
    (hcrate : ':' ∉ (here.headD "").toList)
    (habsolute : i.absolutize 16 here none false type = some path)
    (hfinds : i.FindsType stepLimit path module name) :
    i.resolvePath ⟨here, some type⟩ ["Self", method] = some (.inPackage (modulePath here) method) ↔
      modulePath module = modulePath here ∨
        modulePath module ∉ (i.methodsOf name method).map Prod.fst ∧
          ∀ other ∈ (i.methodsOf name method).map Prod.fst, modulePath here ≤ other := by
  have hhere : modulePath here ∈ (i.methodsOf name method).map Prod.fst :=
    List.mem_map.mpr ⟨(modulePath here, isPublic), mem_methodsOf_iff.mpr hmethod, rfl⟩
  rw [resolvePath_selfType, Option.bind_some, habsolute, Option.bind_some, hfinds.locate]
  exact associated_eq_iff hhere (crateOfModule_modulePath_headD hcrate)

/-- Where the type is one of a crate without sources, the method is looked for in that crate. -/
theorem resolvePath_selfType_external {here type rest : List String}
    (habsolute : i.absolutize 16 here none false type = some (root :: rest))
    (hcrate : i.hasCrate root = false) :
    i.resolvePath ⟨here, some type⟩ ["Self", method] =
      if looksLikeType method then none
      else some (.inPackage (modulePath ((root :: rest).takeWhile (!looksLikeType ·))) method) := by
  rw [resolvePath_selfType, Option.bind_some, habsolute, Option.bind_some, List.cons_append,
    show stepLimit = 16 + 1 from rfl, locate, hcrate, if_neg Bool.false_ne_true, externalSymbol,
    ← List.cons_append, List.getLast?_concat, List.dropLast_concat]
  simp

/-- A trait is listed among the types of its module. -/
theorem mem_types_of_trait {p : Program} {path : List String} {isPublic : Bool} {type : Ident}
    {parts : List Expr} {members : List Member}
    (h : p.Indexed path (.trait isPublic type parts members)) :
    type.text ∈ (ofProgram p).types (modulePath path) :=
  mem_types_iff.mpr (Declaration.mem_ofProgram_iff.mpr
    (Or.inr (Or.inr ⟨path, _, h, List.mem_cons_self⟩)))

end Index

open Outline

/-- What a block declares is a method of one type, which is the type around its nodes where that is
known. -/
theorem Outline.Trail.exists_method {p : Program} {macros : Bool} {base : List String} {item : Item}
    {trail : Trail} (hindexed : p.Indexed (trail.module base) item)
    (hblock : trail.selfBlock? = some (ofItem macros item).label) {name : Ident}
    (hname : name ∈ item.functionNames) :
    ∃ type isPublic, .method (modulePath (trail.module base)) type name.text isPublic ∈
        (Index.ofProgram p).declarations ∧
      ∀ last, trail.selfType.bind List.getLast? = some last → last = type := by
  have hlabel : (ofItem macros item).label.hasSelf = true := List.find?_some hblock
  obtain ⟨type, htype⟩ := exists_typeName? hlabel hname
  obtain ⟨isPublic, hmethod⟩ := Index.exists_method_of_typeName? hindexed htype hname
  refine ⟨type.text, isPublic, hmethod, fun last hlast => ?_⟩
  rw [trail.selfType_eq, hblock, Option.bind_some] at hlast
  exact last_selfType_eq htype hlast

/-! ### The two spellings -/

/-- **The two spellings of a call in a block.** A call on self of a function that the innermost trait or
`impl` block around it declares leads to the module of the block. For the path from `Self`, there are
four cases.

* The block is a trait, or its type is declared in the module of the block, and this module is where its
  path from the crate leads. Then both lead to the same function.
* The type is found in some module of the program under the name that it has in the block. Then both
  lead to the same function if this is the module of the block, or if it has no method of that name for
  the type and the module of the block is the first, in the order of texts, of those that have one. In
  all other cases they differ. That the order of texts decides is a defect: the first module by name
  may have the method for another type of the same name.
* The type belongs to a crate without sources. Then the path leads into that crate. This is a defect
  too, since the block declares the function, and none of that crate is called.
* The type is not a plain path, or a path that leads nowhere. Then the path from `Self` does so too.
  For a type behind a reference this is a defect: the index does list the methods of the block for it.

Where the two agree, a call by the path is an edge to the function in the module of the block. Crates
with a colon in their names are left out of the first two cases: such a name reads as a module of
another crate, whose methods have to be public. -/
theorem CallGraph.self_path_agrees (p : Program) (macros : Bool) (u : SourceUnit) (item : Item)
    (trail : Trail) (hindexed : p.Indexed (trail.module u.module) item)
    (hblock : trail.selfBlock? = some (ofItem macros item).label) (name : Ident)
    (hname : name ∈ item.functionNames) :
    let i := Index.ofProgram p
    let here := trail.module u.module
    let modules (type : String) := (i.methodsOf type name.text).map Prod.fst
    let onSelf := trail.callee i u.module (.method true name.text)
    let byPath := trail.callee i u.module (.path ["Self", name.text])
    onSelf = some (.inPackage (modulePath here) name.text) ∧
    (∀ type root inner, trail.selfType = some [type] → here = root :: inner →
      ':' ∉ root.toList → i.hasCrate root = true → i.Leads [root] inner → type ∉ Index.pathKeywords →
      ((∃ isPublic trait parts members, item = .trait isPublic trait parts members) ∨
        type ∈ i.types (modulePath here)) →
      type ∉ i.submodules (modulePath here) → byPath = onSelf) ∧
    (∀ type last path module, trail.selfType = some type → type.getLast? = some last →
      ':' ∉ (here.headD "").toList → i.absolutize 16 here none false type = some path →
      i.FindsType Index.stepLimit path module last →
      (byPath = onSelf ↔ modulePath module = modulePath here ∨
        modulePath module ∉ modules last ∧ ∀ other ∈ modules last, modulePath here ≤ other)) ∧
    (∀ type root rest, trail.selfType = some type →
      i.absolutize 16 here none false type = some (root :: rest) → i.hasCrate root = false →
      byPath = if looksLikeType name.text then none
        else some (.inPackage (modulePath ((root :: rest).takeWhile (!looksLikeType ·))) name.text)) ∧
    (trail.selfType.bind (i.absolutize 16 here none false) = none → byPath = none) ∧
    ∀ place parts caller, byPath = onSelf → u ∈ p.units →
      (trail, .node (.call place (some (.path ["Self", name.text]))) parts) ∈ nodesOf macros u →
      trail.caller u.module = some caller →
        (caller, ⟨(Symbol.inPackage (modulePath here) name.text).qualifiedName,
          .ofPlace u.path place⟩) ∈ (CallGraph.ofProgram p macros).edges := by
  intro i here modules onSelf byPath
  obtain ⟨found, isPublic, hmethod, hself⟩ := Outline.Trail.exists_method hindexed hblock hname
  have honSelf : onSelf = some (.inPackage (modulePath here) name.text) :=
    Index.resolveMethod_self hmethod hself
  have hbyPath : byPath = i.resolvePath ⟨here, trail.selfType⟩ ["Self", name.text] := rfl
  have hagrees {type path module : List String} {last : String} (htype : trail.selfType = some type)
      (hlast : type.getLast? = some last) (hcrate : ':' ∉ (here.headD "").toList)
      (habsolute : i.absolutize 16 here none false type = some path)
      (hfinds : i.FindsType Index.stepLimit path module last) :
      byPath = onSelf ↔ modulePath module = modulePath here ∨
        modulePath module ∉ modules last ∧ ∀ other ∈ modules last, modulePath here ≤ other := by
    obtain rfl : last = found := hself last (by rw [htype, Option.bind_some, hlast])
    rw [hbyPath, htype, honSelf]
    exact Index.resolvePath_selfType_eq_iff hmethod hcrate habsolute hfinds
  refine ⟨honSelf, ?_, fun type last path module => hagrees, ?_, fun hnowhere => ?_, ?_⟩
  · intro type root inner htype hroot hcrate hloaded hleads hkeyword hdeclared hsubmodule
    have hmem : type ∈ i.types (modulePath here) := by
      rcases hdeclared with ⟨isPublic, trait, parts, members, rfl⟩ | hdeclared
      · have hlabel : trail.selfType = some [trait.text] := by
          rw [trail.selfType_eq, hblock, ofItem]
          rfl
        cases hlabel.symm.trans htype
        exact Index.mem_types_of_trait hindexed
      · exact hdeclared
    rw [hroot] at hmem hsubmodule
    obtain ⟨habsolute, hfinds⟩ := Index.findsType_here hloaded hleads hkeyword hmem hsubmodule
    exact (hagrees htype rfl (hroot ▸ hcrate) (hroot ▸ habsolute) hfinds).mpr (.inl (by rw [hroot]))
  · intro type root rest htype habsolute hnot
    rw [hbyPath, htype]
    exact Index.resolvePath_selfType_external habsolute hnot
  · rw [hbyPath, Index.resolvePath_selfType, hnowhere, Option.bind_none]
  · intro place parts caller hsame hu hnode hcaller
    exact mem_edges_of_node hu hnode hcaller (hsame.trans honSelf) name.text_ne_empty

namespace Ink

def ink : Ident := ⟨"ink", by decide⟩

def forms : Ident := ⟨"forms", by decide⟩

def paint : Ident := ⟨"paint", by decide⟩

def oval : Ident := ⟨"Oval", by decide⟩

def vec : Ident := ⟨"Vec", by decide⟩

def draw : Ident := ⟨"Draw", by decide⟩

def selfWord : Ident := ⟨"Self", by decide⟩

def trace : Name := ⟨⟨"trace", by decide⟩, by decide⟩

def stroke : Name := ⟨⟨"stroke", by decide⟩, by decide⟩

/-- `fn trace() { Self::stroke(); self.stroke() } fn stroke() {}`, on a line. -/
def methods (line : Nat) : List Member :=
  [.function false (.mk trace [] []
      [.expr (.call ⟨line, 20⟩ [] (.path [] (.plain false) [selfWord, stroke.toIdent] []) []),
        .expr (.methodCall ⟨line, 40⟩ [] (.path [] (.plain false) [Disc.selfWord] []) stroke.toIdent
          [])]),
    .function false (.mk stroke [] [] [])]

/-- `trait Draw { ... }`. -/
def drawTrait : Item :=
  .trait false draw [] (methods 1)

/-- `impl Draw for Oval { ... }`. -/
def drawOval : Item :=
  .impl (.path false [oval]) true [] (methods 2)

/-- `impl Draw for Vec<u8> { ... }`. -/
def drawVec : Item :=
  .impl (.path false [vec]) true [] (methods 3)

/-- `impl Draw for &Oval { ... }`. -/
def drawReference : Item :=
  .impl (.enclosed (.path false [oval])) true [] (methods 4)

/-- A crate with a type in `mod forms`, and with the four blocks in `mod paint`, which imports it. -/
def program : Program where
  units := [Index.crateRoot "ink"
    [.module ⟨false, none⟩ forms [] [.type oval []],
      .module ⟨false, none⟩ paint []
        [.use (.path ink (.path forms (.name oval))) [], drawTrait, drawOval, drawVec,
          drawReference]]]
  externs := []

/-- The trail of the calls in a block. -/
def trail (item : Item) : Trail :=
  [⟨.block, []⟩, ⟨.function trace.toIdent [], []⟩, ⟨(ofItem true item).label, []⟩,
    ⟨.module paint, []⟩, ⟨.other, []⟩]

theorem indexed {item : Item} (h : item ∈ [drawTrait, drawOval, drawVec, drawReference]) :
    program.Indexed ["ink", "paint"] item :=
  .inside (x := (["ink", "paint"], item))
    (.ofUnit List.mem_cons_self (List.mem_cons_of_mem _ List.mem_cons_self))
    (List.mem_cons_of_mem _ (List.mem_map_of_mem h))

end Ink

theorem CallGraph.self_path_agrees_ink :
    let byPath (item : Item) := (Ink.trail item).callee (Index.ofProgram Ink.program) ["ink"]
      (.path ["Self", Ink.stroke.text])
    byPath Ink.drawTrait = some (.inPackage "ink::paint" "stroke") ∧
      byPath Ink.drawOval = some (.inPackage "ink::paint" "stroke") ∧
      byPath Ink.drawVec = some (.inPackage "std::vec" "stroke") ∧
      byPath Ink.drawReference = none := by
  have hcrate : ':' ∉ "ink".toList := by decide
  have hpaint : (Index.ofProgram Ink.program).Leads ["ink"] ["paint"] :=
    ⟨by decide, by decide, rfl⟩
  have hforms : (Index.ofProgram Ink.program).Leads ["ink"] ["forms"] :=
    ⟨by decide, by decide, rfl⟩
  obtain ⟨hself, htrait, -⟩ := self_path_agrees Ink.program true (Index.crateRoot "ink" [])
    Ink.drawTrait (Ink.trail Ink.drawTrait) (Ink.indexed (by simp)) rfl Ink.stroke.toIdent
    (.tail _ (.head _))
  obtain ⟨hself', -, hoval, -⟩ := self_path_agrees Ink.program true (Index.crateRoot "ink" [])
    Ink.drawOval (Ink.trail Ink.drawOval) (Ink.indexed (by simp)) rfl Ink.stroke.toIdent
    (.tail _ (.head _))
  obtain ⟨-, -, -, hvec, -⟩ := self_path_agrees Ink.program true (Index.crateRoot "ink" [])
    Ink.drawVec (Ink.trail Ink.drawVec) (Ink.indexed (by simp)) rfl Ink.stroke.toIdent
    (.tail _ (.head _))
  obtain ⟨-, -, -, -, hreference, -⟩ := self_path_agrees Ink.program true (Index.crateRoot "ink" [])
    Ink.drawReference (Ink.trail Ink.drawReference) (Ink.indexed (by simp)) rfl Ink.stroke.toIdent
    (.tail _ (.head _))
  refine ⟨?_, ?_, ?_, hreference rfl⟩
  · exact (htrait "Draw" "ink" ["paint"] rfl rfl hcrate (by decide) hpaint (by decide)
      (.inl ⟨_, _, _, _, rfl⟩) (by decide)).trans hself
  · refine ((hoval ["Oval"] "Oval" ["ink", "forms", "Oval"] ["ink", "forms"] rfl rfl hcrate
      (by decide) (.declared (by decide) hforms (by decide) (by decide))).mpr (.inr ⟨by decide, ?_⟩)).trans hself'
    decide
  · exact hvec ["Vec"] "std" ["vec", "Vec"] rfl (by decide) (by decide)

theorem CallGraph.self_paths_differ :
    let callee := (Ink.trail Ink.drawVec).callee (Index.ofProgram Ink.program) ["ink"]
    Ink.program.Indexed ["ink", "paint"] Ink.drawVec ∧
      (Ink.trail Ink.drawVec).selfBlock? = some (ofItem true Ink.drawVec).label ∧
      Ink.stroke.toIdent ∈ Ink.drawVec.functionNames ∧
      callee (.path ["Self", Ink.stroke.text]) ≠ callee (.method true Ink.stroke.text) ∧
      ("ink::paint.trace", ⟨"std::vec.stroke", .ofPlace "lib.rs" ⟨3, 20⟩⟩) ∈
        (CallGraph.ofProgram Ink.program true).edges ∧
      ("ink::paint.trace", ⟨"ink::paint.stroke", .ofPlace "lib.rs" ⟨3, 40⟩⟩) ∈
        (CallGraph.ofProgram Ink.program true).edges :=
  ⟨Ink.indexed (by simp), rfl, .tail _ (.head _), by decide, by decide +kernel, by decide +kernel⟩

end CallAtlas
