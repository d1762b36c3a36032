import CallAtlas.Proofs.CallGraph
import CallAtlas.Proofs.OpenTrails
import CallAtlas.Proofs.Resolution

/-!
# Every call leads somewhere

The functions of a program are found twice: once for the index, by which calls are resolved, and
once by the walk, which lists them as callers. Both must name a function alike, or a call would lead
to a node that is not there. They do: an item that is indexed is a node of the outline of its file,
and the modules around that node are its path (`Program.Indexed.exists_open`).

So a call leads to a function that is a caller itself, with three exceptions: a function of a trait
that has no body, a function of a crate whose sources are not loaded, and a function that is known
everywhere (`CallGraph.Grounded`). The last two are told by the path of the call itself, where it
stands: what it is sent on to, or its own names.

## Main definitions

* `CallGraph.Grounded` — what an edge of a graph may lead to.

## Main results

* `Program.Indexed.mem_callers` — indexed functions are callers.
* `CallGraph.no_dangling_edges` — every edge of a graph is grounded.
-/

namespace CallAtlas

open Outline

/-! ### Indexed functions are callers -/

/-- The walk lists an indexed function where it stands, in the module of its path. -/
theorem Program.Indexed.exists_declared {p : Program} {path : List String} {item : Item}
    (h : p.Indexed path item) (macros : Bool) {f : Function} (hf : f ∈ item.functions) :
    ∃ u ∈ p.units, ∃ trail, (trail, ofFunction macros f) ∈ nodesOf macros u ∧
      trail.module u.module = path ∧
      .declare (trail.key u.module f.name) ∈ Walk.unit (Index.ofProgram p) macros u := by
  obtain ⟨u, hu, outer, hitem⟩ := h.exists_open macros
  obtain ⟨trail, hfunction⟩ := exists_function_node hitem hf
  refine ⟨u, hu, trail, hfunction.node, hfunction.module, ?_⟩
  rw [Walk.unit_eq_flatMap_nodes]
  refine List.mem_flatMap.mpr ⟨_, hfunction.node, ?_⟩
  obtain ⟨name, header, params, body⟩ := f
  rw [ofFunction]
  exact List.mem_cons_self

/-- **Indexed functions are callers**, under the name by which calls resolve to them. -/
theorem Program.Indexed.mem_callers {p : Program} {path : List String} {item : Item}
    (h : p.Indexed path item) (macros : Bool) {f : Function} (hf : f ∈ item.functions) :
    (Symbol.inPackage (modulePath path) f.name.text).qualifiedName ∈
      (CallGraph.ofProgram p macros).callers := by
  obtain ⟨u, hu, trail, -, rfl, hdeclare⟩ := h.exists_declared macros hf
  exact CallGraph.mem_callers_ofProgram.mpr ⟨u, hu, _, hdeclare, rfl⟩

/-! ### Names -/

/-- The type around a node is named by identifiers. -/
theorem Outline.Trail.selfType_identifiers :
    ∀ (trail : Trail) {type : List String}, trail.selfType = some type → Identifiers type
  | ⟨label, earlier⟩ :: outer, type, h => by
    cases label with
    | trait name =>
      obtain rfl := Option.some.inj h
      exact name.identifiers_singleton
    | impl form =>
      obtain ⟨names, -, rfl⟩ := Option.map_eq_some_iff.mp h
      exact identifiers_texts names
    | _ => exact Trail.selfType_identifiers outer h

theorem Index.hasCrate_of_unit {p : Program} {u : SourceUnit} {root : String} (hu : u ∈ p.units)
    (h : u.module.head? = some root) : (Index.ofProgram p).hasCrate root = true := by
  have hmem : Declaration.crate root ∈ Declaration.ofProgram p :=
    Declaration.mem_ofProgram_iff.mpr
      (Or.inr (Or.inl ⟨u, hu, Or.inl (by simp [Declaration.crateOf, h])⟩))
  simpa [Index.hasCrate, Index.ofProgram] using hmem

/-! ### Edges -/

/-- What an edge of a program's graph may lead to, for a call by a target in a scope. -/
inductive CallGraph.Grounded (p : Program) (g : CallGraph) (s : Scope) (target : Walk.Target) :
    String → Prop where
  /-- A function with a body: it is a caller itself. -/
  | declared {path : List String} {item : Item} {f : Function} :
    p.Indexed path item → f ∈ item.functions →
      (Symbol.inPackage (modulePath path) f.name.text).qualifiedName ∈ g.callers →
      Grounded p g s target (Symbol.inPackage (modulePath path) f.name.text).qualifiedName
  /-- A function of a trait, without a body. -/
  | required {path : List String} {item : Item} {name : Ident} :
    p.Indexed path item → name ∈ item.required →
      Grounded p g s target (Symbol.inPackage (modulePath path) name.text).qualifiedName
  /-- A function of a crate that is not loaded, which is where the path of the call is sent. -/
  | external {path absolute : List String} {root : String} {rest : List String} {symbol : Symbol} :
    target.path? = some path →
      (Index.ofProgram p).absolutize Index.stepLimit s.module s.selfType false path =
        some absolute →
      (Index.ofProgram p).SentOn Index.stepLimit absolute (root :: rest) →
      (∀ u ∈ p.units, u.module.head? ≠ some root) →
      Index.externalSymbol (root :: rest) = some symbol →
      Grounded p g s target symbol.qualifiedName
  /-- A function that is known everywhere, if its name means nothing else where it is called. -/
  | prelude {name : String} : name ∈ preludeFunctions → target.path? = some [name] →
      (Index.ofProgram p).absolutize Index.stepLimit s.module s.selfType false [name] = none →
      Grounded p g s target name
  /-- A function of a primitive type, as in `u8::from(...)`, if the module declares no such name. -/
  | primitive {type name : String} : type ∈ primitiveTypes → target.path? = some [type, name] →
      (Index.ofProgram p).declares (modulePath s.module) type = false → Grounded p g s target name

namespace CallGraph

variable {p : Program} {macros : Bool} {s : Scope} {target : Walk.Target} {symbol : Symbol}

/-- What is declared as a function is a caller, or a function of a trait without a body. -/
theorem grounded_of_declared {d : Declaration} (hd : d ∈ Declaration.ofProgram p)
    (h : d.symbol? = some symbol) :
    Grounded p (ofProgram p macros) s target symbol.qualifiedName := by
  rcases Declaration.exists_owned hd with
    ⟨path, item, hindexed, howned⟩ | ⟨_, rfl⟩ | ⟨_, rfl⟩ | ⟨_, rfl⟩
  · cases howned with
    | function hf | method hf | traitMethod hf =>
      cases h
      exact .declared hindexed hf (hindexed.mem_callers macros hf)
    | required hname | traitRequired hname =>
      cases h
      exact .required hindexed hname
    | type | submodule | module => cases h
    | imports himport => cases himport <;> cases h
  all_goals cases h

/-- What the path of a call resolves to is grounded. -/
theorem grounded_of_resolvePath {path : List String} (htarget : target.path? = some path)
    (h : (Index.ofProgram p).resolvePath s path = some symbol) :
    Grounded p (ofProgram p macros) s target symbol.qualifiedName := by
  rcases Index.resolvePath_located h with hlocated | ⟨type, htype, name, rfl, hfree, rfl⟩ |
    ⟨name, hname, rfl, hnone, rfl⟩
  · cases hlocated with
    | declared hd h => exact grounded_of_declared hd h
    | external habsolute hsent hcrate h =>
      refine .external htarget habsolute hsent (fun u hu hroot => ?_) h
      simp [Index.hasCrate_of_unit hu hroot] at hcrate
  · exact .primitive htype htarget hfree
  · exact .prelude hname htarget hnone

/-- What a call at a node names is grounded. -/
theorem grounded_of_callee {trail : Trail} {base : List String}
    (h : trail.callee (Index.ofProgram p) base target = some symbol) :
    Grounded p (ofProgram p macros) ⟨trail.module base, trail.selfType⟩ target
      symbol.qualifiedName := by
  cases target with
  | direct name =>
    rw [Trail.callee] at h
    split at h
    · cases h
    · exact grounded_of_resolvePath rfl h
  | path names => exact grounded_of_resolvePath rfl h
  | method onSelf name =>
    obtain ⟨d, hd, hsymbol⟩ := Index.resolveMethod_declared h
    exact grounded_of_declared hd hsymbol

/-- A call in a function that names something is an edge. -/
theorem mem_edges_of_node {u : SourceUnit} (hu : u ∈ p.units) {trail : Trail} {place : Place}
    {parts : List Outline}
    (hnode : (trail, .node (.call place (some target)) parts) ∈ nodesOf macros u) {caller : String}
    (hcaller : trail.caller u.module = some caller)
    (hcallee : trail.callee (Index.ofProgram p) u.module target = some symbol)
    (hname : symbol.name ≠ "") :
    (caller, ⟨symbol.qualifiedName, .ofPlace u.path place⟩) ∈ (ofProgram p macros).edges := by
  refine mem_edges_ofProgram.mpr ⟨u, hu, ?_⟩
  rw [Walk.unit_eq_flatMap_nodes]
  refine List.mem_flatMap.mpr ⟨_, hnode, ?_⟩
  simp [Outline.label, Label.events, hcaller, hcallee, Symbol.qualifiedName_ne_empty hname]

/-- **No edge dangles.** Every edge of a program's graph comes from a call in a function, leads to
what that call resolves to, and is grounded. In particular, whatever is indexed with a body is a
caller, so a call that resolves to it leads to a node of the graph. And a path that is sent out of
the loaded crates is resolved to what the path at the end of its way names, unless it is that of a
primitive type. -/
theorem no_dangling_edges (p : Program) (macros : Bool) :
    (∀ caller site, (caller, site) ∈ (ofProgram p macros).edges →
      ∃ u ∈ p.units, ∃ trail place target parts symbol,
        (trail, .node (.call place (some target)) parts) ∈ nodesOf macros u ∧
        trail.caller u.module = some caller ∧
        trail.callee (Index.ofProgram p) u.module target = some symbol ∧
        site = ⟨symbol.qualifiedName, .ofPlace u.path place⟩ ∧
        Grounded p (ofProgram p macros) ⟨trail.module u.module, trail.selfType⟩ target
          site.callee) ∧
    (∀ path item, p.Indexed path item → ∀ f ∈ item.functions,
      (Symbol.inPackage (modulePath path) f.name.text).qualifiedName ∈
        (ofProgram p macros).callers) ∧
    ∀ (s : Scope) (first : String) (rest absolute : List String) (root : String)
      (behind : List String), rest = [] ∨ first ∉ primitiveTypes →
      (Index.ofProgram p).absolutize Index.stepLimit s.module s.selfType false (first :: rest) =
        some absolute →
      (Index.ofProgram p).SentOn Index.stepLimit absolute (root :: behind) →
      (Index.ofProgram p).hasCrate root = false →
      (Index.ofProgram p).resolvePath s (first :: rest) =
        Index.externalSymbol (root :: behind) := by
  refine ⟨?_, fun path item h f hf => h.mem_callers macros hf, ?_⟩
  · intro caller site hedge
    obtain ⟨u, hu, hcall⟩ := mem_edges_ofProgram.mp hedge
    rw [Walk.unit_eq_flatMap_nodes] at hcall
    obtain ⟨⟨trail, o⟩, hnode, hevent⟩ := List.mem_flatMap.mp hcall
    obtain ⟨label, parts⟩ := o
    obtain ⟨place, target, symbol, rfl, hcaller, hcallee, rfl⟩ :=
      Label.exists_of_call_mem_events hevent
    exact ⟨u, hu, trail, place, target, parts, symbol, hnode, hcaller, hcallee, rfl,
      grounded_of_callee hcallee⟩
  · intro s first rest absolute root behind hprimitive habsolute hsent hroot
    rw [Index.resolvePath_of_absolutize hprimitive habsolute, hsent.locate_external hroot]

end CallGraph

end CallAtlas
