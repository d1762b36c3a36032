import CallAtlas.Proofs.Grounding
import CallAtlas.Proofs.LoadOrder

/-!
# The symbols behind a graph

A graph names functions by text. Behind each name stands a symbol that was made of a declaration or
of a call. The text tells the symbol if there is no dot in the name of the function
(`Symbol.ofQualified_qualifiedName`).

Names that are declared are identifiers, and so are those that a call and an import spell. What a
path picks up besides is the path of a module, and a path that consists of nothing else may end in
such a name: `use self::{self as here}` gives the module a name that can be called. So the invariant
of a path is that there is no dot in a name behind its first one. The first one names a crate, and no
function is called by that alone.

## Main definitions

* `Program.Undotted` — no name in a module path has a dot, crates apart.
* `Program.Makes` — the symbols that are made for a program.

## Main results

* `Index.StandsFor.undotted`, `Index.Arrives.dot_not_mem_name` — paths, and where they lead.
* `Program.Makes.dot_not_mem_name` — no symbol has a dot in its name.
* `CallGraph.exists_makes_of_mem_callers`, `CallGraph.exists_makes_of_mem_edges` — the symbols
  behind a graph.
-/

namespace CallAtlas

open Outline

/-! ### Names without dots -/

/-- No name behind the first one has a dot. -/
def Undotted (path : List String) : Prop :=
  ∀ name ∈ path.tail, '.' ∉ name.toList

instance (path : List String) : Decidable (Undotted path) :=
  inferInstanceAs (Decidable (∀ name ∈ path.tail, '.' ∉ name.toList))

theorem Identifiers.dot_not_mem {path : List String} (h : Identifiers path) :
    ∀ name ∈ path, '.' ∉ name.toList :=
  fun name hname => dot_not_mem_of_isIdent (h name hname)

theorem Undotted.of_forall {path : List String} (h : ∀ name ∈ path, '.' ∉ name.toList) :
    Undotted path :=
  fun name hname => h name (List.mem_of_mem_tail hname)

theorem Undotted.append {before after : List String} (h : Undotted before)
    (hafter : ∀ name ∈ after, '.' ∉ name.toList) : Undotted (before ++ after) := by
  cases before with
  | nil => exact .of_forall hafter
  | cons first rest => exact List.forall_mem_append.mpr ⟨h, hafter⟩

theorem Undotted.dropLast {path : List String} (h : Undotted path) : Undotted path.dropLast := by
  intro name hname
  rw [List.tail_dropLast] at hname
  exact h name ((List.dropLast_sublist path.tail).mem hname)

namespace Index

variable {i : Index} {m name : String}

theorem fromParents_undotted {names module path : List String}
    (h : fromParents module names = some path) (hmodule : Undotted module)
    (hnames : ∀ n ∈ names, '.' ∉ n.toList) : Undotted path := by
  induction names generalizing module with
  | nil =>
    obtain rfl : module = path := by simpa [fromParents] using h
    exact hmodule
  | cons first rest ih =>
    rw [fromParents] at h
    split at h
    · split at h
      · cases h
      · exact ih h hmodule.dropLast fun n hn => hnames n (List.mem_cons_of_mem _ hn)
    · cases h
      exact hmodule.append hnames

/-- In an index, imports stand for paths of identifiers. -/
structure Spells (i : Index) : Prop where
  /-- Imports by name do. -/
  imported : ∀ {m newName : String} {path : List String},
    .imported m newName path ∈ i.declarations → Identifiers path
  /-- So do glob imports. -/
  glob : ∀ {m : String} {path : List String}, .glob m path ∈ i.declarations → Identifiers path

theorem Spells.imports (hi : i.Spells) {path : List String} (h : (name, path) ∈ i.imports m) :
    ∀ n ∈ path, '.' ∉ n.toList :=
  (hi.imported (mem_imports_iff.mp h)).dot_not_mem

theorem Spells.globs (hi : i.Spells) {path : List String} (h : path ∈ i.globs m) :
    ∀ n ∈ path, '.' ∉ n.toList :=
  (hi.glob (mem_globs_iff.mp h)).dot_not_mem

/-- A path of names without dots stands for an undotted path. -/
theorem StandsFor.undotted (hi : i.Spells) {module : List String}
    (hmodule : Undotted module) {selfType : Option (List String)} {fromUse : Bool}
    {path result : List String} (h : i.StandsFor module selfType fromUse path result)
    (hself : ∀ type ∈ selfType, ∀ n ∈ type, '.' ∉ n.toList)
    (hpath : ∀ n ∈ path, '.' ∉ n.toList) : Undotted result := by
  induction h with
  | @crate _ _ rest _ =>
    have hroot : Undotted (module.take 1) := by
      intro n hn
      cases module <;> simp at hn
    exact hroot.append (List.forall_mem_cons.mp hpath).2
  | self => exact hmodule.append (List.forall_mem_cons.mp hpath).2
  | super h => exact fromParents_undotted h hmodule hpath
  | @selfType type _ _ _ _ ih =>
    exact (ih (by simp) (hself type rfl)).append (List.forall_mem_cons.mp hpath).2
  | defined => exact hmodule.append hpath
  | imported htarget _ ih =>
    exact (ih (by simp) (hi.imports htarget)).append (List.forall_mem_cons.mp hpath).2
  | glob htarget _ ih => exact (ih (by simp) (hi.globs htarget)).append hpath
  | known _ | use => exact .of_forall hpath
  | @prelude _ _ first rest standard hstandard =>
    have hidents : ∀ entry ∈ preludeTypes, isIdent entry.2.toList = true := by decide
    exact List.forall_mem_cons.mpr
      ⟨dot_not_mem_of_isIdent (hidents (first, standard) hstandard), hpath⟩

theorem dot_not_mem_of_externalSymbol {path : List String} {symbol : Symbol} (hpath : Undotted path)
    (h : externalSymbol path = some symbol) : '.' ∉ symbol.name.toList := by
  rw [externalSymbol] at h
  split at h
  · cases h
  next name hname =>
  split at h
  · cases h
  next hcases =>
  cases h
  -- a path of one name names no function, so the last name is not the first one
  rcases path with _ | ⟨root, _ | ⟨next, rest⟩⟩
  · simp at hname
  · simp at hcases
  · rw [List.getLast?_cons_cons] at hname
    exact hpath name (List.mem_of_getLast? hname)

theorem dot_not_mem_of_declared {p : Program} {d : Declaration} {symbol : Symbol}
    (hd : d ∈ Declaration.ofProgram p) (h : d.symbol? = some symbol) :
    '.' ∉ symbol.name.toList := by
  rcases Declaration.exists_owned hd with
    ⟨path, item, -, howned⟩ | ⟨_, rfl⟩ | ⟨_, rfl⟩ | ⟨_, rfl⟩
  · cases howned with
    | @function f _ _ | @method f _ _ _ | @traitMethod f _ =>
      cases h
      exact dot_not_mem_of_isIdent f.name.wellFormed
    | @required name _ _ _ | @traitRequired name _ =>
      cases h
      exact dot_not_mem_of_isIdent name.wellFormed
    | type | submodule | module => cases h
    | imports himport => cases himport <;> cases h
  all_goals cases h

theorem spells (p : Program) : (ofProgram p).Spells where
  imported h := Declaration.identifiers_of_imported h
  glob h := Declaration.identifiers_of_glob h

/-- An undotted path leads to a function without a dot in its name. -/
theorem Arrives.dot_not_mem_name {p : Program} {fromCrate : String} {path : List String}
    {symbol : Symbol} (h : (ofProgram p).Arrives fromCrate path symbol) (hpath : Undotted path) :
    '.' ∉ symbol.name.toList := by
  have hspells := spells p
  induction h with
  | function _ hmem hfunction =>
    rw [functionIn] at hfunction
    split at hfunction
    · cases hfunction
      exact dot_not_mem_of_declared hmem rfl
    · cases hfunction
  | associated _ h =>
    obtain ⟨d, hd, hsymbol⟩ := declared_of_associated h
    exact dot_not_mem_of_declared hd hsymbol
  | @imported root inner name rest target found _ _ htarget hstands _ ih =>
    obtain ⟨hinner, hrest⟩ := List.forall_mem_append.mp hpath
    have hmodule : Undotted (root :: inner) := hinner
    have hfound : Undotted found :=
      hstands.undotted hspells hmodule (by simp) (hspells.imports htarget)
    exact ih (hfound.append (List.forall_mem_cons.mp hrest).2)
  | @glob root inner name rest target base _ _ htarget hstands _ ih =>
    obtain ⟨hinner, hrest⟩ := List.forall_mem_append.mp hpath
    have hmodule : Undotted (root :: inner) := hinner
    have hbase : Undotted base := hstands.undotted hspells hmodule (by simp) (hspells.globs htarget)
    exact ih (hbase.append hrest)
  | external hroot h => exact dot_not_mem_of_externalSymbol hpath h

end Index

/-! ### Symbols of a program -/

/-- No name in the module path of a file has a dot, crates apart. -/
def Program.Undotted (p : Program) : Prop :=
  ∀ u ∈ p.units, CallAtlas.Undotted u.module

instance (p : Program) : Decidable p.Undotted :=
  inferInstanceAs (Decidable (∀ u ∈ p.units, CallAtlas.Undotted u.module))

/-- The symbols that are made for a program: one for each function that is listed, and one for each
call in a function that resolves. -/
inductive Program.Makes (p : Program) (macros : Bool) : Symbol → Prop where
  /-- The function at a node. -/
  | function {u : SourceUnit} {trail : Trail} {name : Ident} {params : List Pattern}
      {parts : List Outline} :
    u ∈ p.units → (trail, .node (.function name params) parts) ∈ nodesOf macros u →
      Makes p macros (.inPackage (modulePath (trail.module u.module)) name.text)
  /-- What the call at a node resolves to. -/
  | call {u : SourceUnit} {trail : Trail} {place : Place} {target : Walk.Target}
      {parts : List Outline} {caller : String} {symbol : Symbol} :
    u ∈ p.units → (trail, .node (.call place (some target)) parts) ∈ nodesOf macros u →
      trail.caller u.module = some caller →
      trail.callee (Index.ofProgram p) u.module target = some symbol → Makes p macros symbol

namespace Program

variable {p : Program} {macros : Bool} {symbol : Symbol}

theorem Undotted.module (hp : p.Undotted) {u : SourceUnit} (hu : u ∈ p.units) :
    ∀ trail : Trail, CallAtlas.Undotted (trail.module u.module)
  | [] => hp u hu
  | ⟨label, earlier⟩ :: outer => by
    cases label with
    | module name =>
      exact (Undotted.module hp hu outer).append name.identifiers_singleton.dot_not_mem
    | _ => exact Undotted.module hp hu outer

/-- A call spells identifiers. -/
theorem identifiers_of_call {u : SourceUnit} {trail : Trail} {place : Place}
    {target : Walk.Target} {parts : List Outline}
    (h : (trail, .node (.call place (some target)) parts) ∈ nodesOf macros u) :
    Identifiers target.names := by
  obtain ⟨hformed, -⟩ := formed_of_mem_nodes (ofFile_plain macros u.file).1 (by simp) h
  cases hformed with
  | node hnamed _ _ => exact hnamed target rfl

/-- What a path in a scope resolves to has no dot in its name. -/
theorem dot_not_mem_of_resolvePath {s : Scope} (hmodule : CallAtlas.Undotted s.module)
    (hself : ∀ type ∈ s.selfType, Identifiers type) {path : List String} (hpath : Identifiers path)
    (h : (Index.ofProgram p).resolvePath s path = some symbol) : '.' ∉ symbol.name.toList := by
  rcases Index.resolvePath_cases h with
    ⟨absolute, hstands, harrives⟩ | ⟨type, -, name, rfl, rfl⟩ | ⟨name, hname, rfl⟩
  · refine harrives.dot_not_mem_name (hstands.undotted (Index.spells p) hmodule ?_ ?_)
    · exact fun type htype => (hself type htype).dot_not_mem
    · exact hpath.dot_not_mem
  · exact hpath.dot_not_mem name (by simp)
  · have hprelude : ∀ name ∈ preludeFunctions, '.' ∉ name.toList := by decide
    exact hprelude name hname

theorem Makes.dot_not_mem_name (hp : p.Undotted) (h : p.Makes macros symbol) :
    '.' ∉ symbol.name.toList := by
  cases h with
  | @function u trail name params parts hu hnode => exact dot_not_mem_of_isIdent name.wellFormed
  | @call u trail place target parts caller symbol hu hnode _ hcallee =>
    have hnames : Identifiers target.names := identifiers_of_call hnode
    have hself : ∀ type ∈ trail.selfType, Identifiers type :=
      fun type htype => trail.selfType_identifiers htype
    have hmodule := hp.module hu trail
    cases target with
    | direct name =>
      rw [Trail.callee] at hcallee
      split at hcallee
      · cases hcallee
      · exact dot_not_mem_of_resolvePath (s := ⟨_, _⟩) hmodule hself hnames hcallee
    | path names => exact dot_not_mem_of_resolvePath (s := ⟨_, _⟩) hmodule hself hnames hcallee
    | method onSelf name =>
      obtain ⟨d, hd, hsymbol⟩ := Index.resolveMethod_declared hcallee
      exact Index.dot_not_mem_of_declared hd hsymbol

/-- The text of a symbol tells it. -/
theorem Makes.ofQualified (hp : p.Undotted) (h : p.Makes macros symbol) :
    Symbol.ofQualified symbol.qualifiedName = symbol :=
  Symbol.ofQualified_qualifiedName (h.dot_not_mem_name hp)

end Program

namespace CallGraph

variable {p : Program} {macros : Bool}

/-- Behind each caller stands a symbol. -/
theorem exists_makes_of_mem_callers {caller : String} (h : caller ∈ (ofProgram p macros).callers) :
    ∃ symbol, p.Makes macros symbol ∧ symbol.qualifiedName = caller := by
  obtain ⟨u, hu, e, he, rfl⟩ := mem_callers_ofProgram.mp h
  rw [Walk.unit_eq_flatMap_nodes] at he
  obtain ⟨⟨trail, label, parts⟩, hnode, hevent⟩ := List.mem_flatMap.mp he
  cases e with
  | declare caller =>
    obtain ⟨name, params, rfl, rfl⟩ := Label.exists_of_declare_mem_events hevent
    exact ⟨_, .function hu hnode, rfl⟩
  | call caller site =>
    obtain ⟨place, target, symbol, -, hcaller, -, -⟩ := Label.exists_of_call_mem_events hevent
    obtain ⟨outer, name, params, parts', hfunction, rfl⟩ :=
      Trail.exists_function_of_caller hnode hcaller
    exact ⟨_, .function hu hfunction, rfl⟩

/-- Behind each callee stands a symbol. -/
theorem exists_makes_of_mem_edges {caller : String} {site : CallSite}
    (h : (caller, site) ∈ (ofProgram p macros).edges) :
    ∃ symbol, p.Makes macros symbol ∧ symbol.qualifiedName = site.callee := by
  obtain ⟨u, hu, he⟩ := mem_edges_ofProgram.mp h
  rw [Walk.unit_eq_flatMap_nodes] at he
  obtain ⟨⟨trail, label, parts⟩, hnode, hevent⟩ := List.mem_flatMap.mp he
  obtain ⟨place, target, symbol, rfl, hcaller, hcallee, rfl⟩ :=
    Label.exists_of_call_mem_events hevent
  exact ⟨symbol, .call hu hnode hcaller hcallee, rfl⟩

end CallGraph

end CallAtlas
