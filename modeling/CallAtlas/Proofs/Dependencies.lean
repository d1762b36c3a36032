import CallAtlas.Proofs.BuiltSymbols
import CallAtlas.Proofs.CompleteReading
import CallAtlas.Proofs.Crates
import CallAtlas.Proofs.Spelling

/-!
# Calls into other packages

A package goes by several names: its own, those of its targets, and, in each package that depends on
it, the name that it has been given there. Source code uses the last of these. Crates are loaded under
the names of targets. So a call `d::f()` into another package leads to its function if `d` is the name
of the target, with underscores for hyphens, and this is so unless the dependency has been renamed.

If it has been renamed, `d` counts as a crate without sources, also where the package is loaded. The
call then leads out of the program, to a function `d.f` that no file declares.

## Main definitions

* `Index.Silent` — a module in which a name stands for nothing of its own.

## Main results

* `Index.resolvePath_of_silent` — a name that stands for nothing else stands for a crate.
* `Program.dependency_calls` — calls into other packages.
-/

namespace CallAtlas

/-! ### Names that stand for crates -/

namespace Index

variable {i : Index} {module : List String} {name : String}

/-- A module makes nothing of a name: it neither declares nor imports it, and none of its glob imports
leads to another module that does. -/
structure Silent (i : Index) (module : List String) (name : String) : Prop where
  declares : i.declares (modulePath module) name = false
  globs : ∀ path ∈ i.globs (modulePath module), ∀ steps base,
    i.absolutize steps module none true path = some base →
      base = module ∨ i.declares (modulePath base) name = false

theorem Silent.fromModule_eq_none (h : i.Silent module name) (steps : Nat) (rest : List String) :
    i.fromModule steps module name rest = none := by
  rcases hscope : i.scope? (modulePath module) with _ | names
  · simp [fromModule, hscope]
  have hdeclares : names.declares name = false := by
    simpa [Index.declares, hscope] using h.declares
  obtain ⟨hdefines, himports⟩ : names.defines name = false ∧ name ∉ names.imports.map Prod.fst := by
    simpa [ModuleScope.declares] using hdeclares
  have himport : lookupLast name names.imports = none := by
    rcases hlast : lookupLast name names.imports with _ | target
    · rfl
    · exact absurd (List.mem_map.mpr ⟨_, mem_of_lookupLast hlast, rfl⟩) himports
  have hglob : i.globDeclaring module name (names.globs.map (i.absolutize steps module none true)) =
      none := by
    rw [globDeclaring, List.findSome?_eq_none_iff]
    intro base hbase
    obtain ⟨path, hpath, rfl⟩ := List.mem_map.mp hbase
    rw [eq_of_scope? hscope] at hpath
    rcases habsolute : i.absolutize steps module none true path with _ | base
    · rfl
    · have hsilent := h.globs path hpath steps base habsolute
      rcases hsilent with rfl | hsilent
      · simp
      · simp [hsilent]
  simp [fromModule, hscope, hdefines, himport, hglob]

/-- A name that stands for nothing in a module stands for a crate, if one is known. -/
theorem resolvePath_of_silent {s : Scope} (h : i.Silent s.module name) (hword : name ∉ reservedWords)
    (hprimitive : name ∉ primitiveTypes) (hknows : i.knows name = true) (f : String) :
    i.resolvePath s [name, f] = i.locate s.crate stepLimit [name, f] := by
  have hne : ∀ word ∈ reservedWords, name ≠ word := by
    rintro word hmem rfl
    exact hword hmem
  refine resolvePath_of_absolutize (Or.inr hprimitive) ?_
  rw [stepLimit, absolutize_succ_cons, if_neg (hne _ (by decide)), if_neg (hne _ (by decide)),
    if_neg (hne _ (by decide)), if_neg (hne _ (by decide)), h.fromModule_eq_none, Option.none_or,
    globalPath]
  exact if_pos hknows

/-- A public function of a crate root is found from everywhere. -/
theorem locate_public {crate f : String} (hcrate : i.hasCrate crate = true)
    (hmodule : i.hasModule (modulePath [crate]) = true)
    (hfunction : lookupLast f (i.functions (modulePath [crate])) = some true) (fromCrate : String)
    (steps : Nat) :
    i.locate fromCrate (steps + 1) [crate, f] = some (.inPackage (modulePath [crate]) f) := by
  have hleads : i.Leads [crate] [] := hmodule
  rw [locate, if_pos hcrate]
  exact follow_of_leads hleads hfunction

/-- A path into a crate without sources is taken as it is. -/
theorem locate_external {crate f : String} (hcrate : i.hasCrate crate = false)
    (hlower : looksLikeType crate = false) (hf : looksLikeType f = false) (fromCrate : String)
    (steps : Nat) :
    i.locate fromCrate (steps + 1) [crate, f] = some (.inPackage (modulePath [crate]) f) := by
  simp [locate, hcrate, externalSymbol, hlower, hf]

theorem hasExternCrate_of_mem {p : Program} {crate : String} (h : crate ∈ p.externs) :
    (ofProgram p).hasExternCrate crate = true := by
  have hlisted : .externCrate crate ∈ Declaration.ofProgram p :=
    Declaration.mem_ofProgram_iff.mpr (Or.inl ⟨crate, List.mem_append_right _ h, rfl⟩)
  simpa [hasExternCrate, ofProgram] using hlisted

theorem hasCrate_eq_false {p : Program} {crate : String}
    (h : ∀ u ∈ p.units, u.module.head? ≠ some crate) : (ofProgram p).hasCrate crate = false := by
  refine Bool.eq_false_iff.mpr fun htrue => ?_
  have hlisted : .crate crate ∈ Declaration.ofProgram p := by
    simpa [hasCrate, ofProgram] using htrue
  obtain ⟨u, hu, hroot⟩ := Program.exists_unit_of_crate hlisted
  exact h u hu hroot

end Index

/-! ### Callers of crates that are not loaded -/

theorem modulePath_singleton (name : String) : modulePath [name] = name := by
  have htext := toList_modulePath_cons name []
  simpa [pathTail, ← String.toList_inj] using htext

/-- A module that is named by an identifier is the root of a crate. -/
theorem eq_singleton_of_modulePath_eq {name : String} (h : isIdent name.toList = true)
    {path : List String} (heq : modulePath path = name) : path = [name] := by
  subst heq
  rcases path with _ | ⟨root, _ | ⟨second, rest⟩⟩
  · exact absurd (by simp [modulePath_nil]) (ne_nil_of_isIdent h)
  · rw [modulePath_singleton]
  · refine absurd ?_ (colon_not_mem_of_isIdent h)
    simp [toList_modulePath_cons, pathTail]

theorem Outline.Trail.isPrefix_module (base : List String) : ∀ trail : Trail,
    base <+: trail.module base
  | [] => List.prefix_refl base
  | ⟨label, earlier⟩ :: outer => by
    have houter : base <+: Trail.module base outer := isPrefix_module base outer
    cases label with
    | module name => exact houter.trans (List.prefix_append _ _)
    | _ => exact houter

theorem SourceUnit.isPrefix_of_mem_modules {u : SourceUnit} {path : List String}
    (h : path ∈ u.modules) : u.module <+: path := by
  rcases List.mem_cons.mp h with rfl | h
  · exact List.prefix_refl _
  · obtain ⟨⟨trail, o⟩, -, hpath⟩ := List.mem_filterMap.mp h
    split at hpath
    · cases hpath
      exact (Outline.Trail.isPrefix_module u.module trail).trans (List.prefix_append _ _)
    · cases hpath

theorem Reader.Log.module_ne_nil {t : FileTree} {roots : List (String × String)} {r : Reader}
    {files : List (SourceUnit × Bool)} (h : Log t roots r files) : ∀ u ∈ r.units, u.module ≠ [] := by
  intro u hu
  rw [← h.units] at hu
  obtain ⟨⟨_, owns⟩, hmem, rfl⟩ := List.mem_map.mp hu
  obtain ⟨before, after, heq⟩ := List.append_of_mem hmem
  cases h.origin before _ owns after heq with
  | root _ hmodule => simp [hmodule]
  | declared _ _ hdeclared _ hmodule =>
    obtain ⟨around, attributes, name, -, rfl⟩ := ModuleFile.mem_ofUnit_iff.mp hdeclared
    simp [hmodule, SourceUnit.moduleFile, ModuleFile.ofDeclaration]

/-- No function of a crate that is not loaded is a caller. -/
theorem CallGraph.not_mem_callers_of_crate {p : Program} (hunits : ∀ u ∈ p.units, u.module ≠ [])
    {crate : String} (hcrate : isIdent crate.toList = true)
    (hnone : ∀ u ∈ p.units, u.module.head? ≠ some crate) (f : Ident) (macros : Bool) :
    (Symbol.inPackage crate f.text).qualifiedName ∉ (ofProgram p macros).callers := by
  intro hmem
  obtain ⟨u, hu, e, he, hcaller⟩ := mem_callers_ofProgram.mp hmem
  have hdot : '.' ∉ (Symbol.inPackage crate f.text).name.toList := dot_not_mem_of_isIdent f.wellFormed
  have hkey := Walk.moduleOfCaller_mem he
  rw [← hcaller, moduleOfCaller, Symbol.ofQualified_qualifiedName hdot,
    Symbol.getD_package_inPackage] at hkey
  obtain ⟨path, hpath, heq⟩ := List.mem_map.mp hkey
  obtain rfl := eq_singleton_of_modulePath_eq hcrate heq
  obtain ⟨root, rest, hmodule⟩ := List.exists_cons_of_ne_nil (hunits u hu)
  have hbelow := SourceUnit.isPrefix_of_mem_modules hpath
  rw [hmodule] at hbelow
  refine hnone u hu ?_
  rw [hmodule, (List.cons_prefix_cons.mp hbelow).1]
  rfl

/-! ### Calls -/

open Outline

namespace Program

/-- A file is the root of a crate and declares a public function. If the module has other functions of
this name, they are public as well. -/
structure Publishes (p : Program) (crate : String) (v : SourceUnit) (f : Function) : Prop where
  unit : v ∈ p.units
  root : v.module = [crate]
  declared : .function true f ∈ v.file.items
  isPublic : ∀ isPublic, .function crate f.name.text isPublic ∈ Declaration.ofProgram p →
    isPublic = true

/-- There is a call `crate::f(...)` in a function, in a module that makes nothing else of the name of
the crate. -/
inductive CallsInto (p : Program) (macros : Bool) (crate : String) (f : Ident) :
    String → Location → Prop where
  | call {u : SourceUnit} {trail : Trail} {place : Place} {parts : List Outline} {caller : String} :
    u ∈ p.units →
      (trail, .node (.call place (some (.path [crate, f.text]))) parts) ∈ nodesOf macros u →
      trail.caller u.module = some caller →
      (Index.ofProgram p).Silent (trail.module u.module) crate →
      CallsInto p macros crate f caller (.ofPlace u.path place)

variable {p : Program} {macros : Bool} {crate caller : String} {f : Ident} {location : Location}

/-- The name of a crate that is called into is an identifier. -/
theorem CallsInto.isIdent (h : p.CallsInto macros crate f caller location) :
    isIdent crate.toList = true := by
  cases h with
  | call _ hnode _ _ => exact identifiers_of_call hnode crate List.mem_cons_self

/-- A call into a crate is an edge to the function that the path leads to from everywhere. -/
theorem CallsInto.mem_edges (h : p.CallsInto macros crate f caller location)
    (hword : crate ∉ reservedWords) (hprimitive : crate ∉ primitiveTypes)
    (hknows : (Index.ofProgram p).knows crate = true)
    (hlocate : ∀ fromCrate, (Index.ofProgram p).locate fromCrate Index.stepLimit [crate, f.text] =
      some (.inPackage crate f.text)) :
    (caller, ⟨(Symbol.inPackage crate f.text).qualifiedName, location⟩) ∈
      (CallGraph.ofProgram p macros).edges := by
  have hname : (Symbol.inPackage crate f.text).name ≠ "" := f.text_ne_empty
  cases h with
  | @call u trail place parts caller hu hnode hcaller hsilent =>
    have hcallee : trail.callee (Index.ofProgram p) u.module (.path [crate, f.text]) =
        some (.inPackage crate f.text) := by
      rw [Trail.callee, Index.resolvePath_of_silent hsilent hword hprimitive hknows, hlocate]
    exact CallGraph.mem_edges_of_node hu hnode hcaller hcallee hname

variable {v : SourceUnit} {function : Function}

theorem Publishes.indexed (h : p.Publishes crate v function) :
    p.Indexed [crate] (.function true function) :=
  h.root ▸ .ofUnit h.unit h.declared

theorem Publishes.mem_callers (h : p.Publishes crate v function) (macros : Bool) :
    (Symbol.inPackage crate function.name.text).qualifiedName ∈
      (CallGraph.ofProgram p macros).callers := by
  have hcaller := h.indexed.mem_callers macros List.mem_cons_self
  rwa [modulePath_singleton] at hcaller

theorem Publishes.hasCrate (h : p.Publishes crate v function) :
    (Index.ofProgram p).hasCrate crate = true :=
  Index.hasCrate_of_unit h.unit (by rw [h.root]; rfl)

/-- A public function at the root of a crate is found from everywhere. -/
theorem Publishes.locate (h : p.Publishes crate v function) (fromCrate : String) :
    (Index.ofProgram p).locate fromCrate Index.stepLimit [crate, function.name.text] =
      some (.inPackage crate function.name.text) := by
  have hmodule : (Index.ofProgram p).hasModule (modulePath [crate]) = true :=
    h.root ▸ hasModule_of_unit h.unit
  have hdeclared : (function.name.text, true) ∈ (Index.ofProgram p).functions (modulePath [crate]) :=
    Index.mem_functions_iff.mpr (Declaration.mem_ofProgram_iff.mpr
      (Or.inr (Or.inr ⟨_, _, h.indexed, List.mem_cons_self⟩)))
  obtain ⟨last, hlast⟩ := exists_lookupLast hdeclared
  have hpublic : last = true := by
    refine h.isPublic last ?_
    have hmem := Index.mem_functions_iff.mp (mem_of_lookupLast hlast)
    rwa [modulePath_singleton] at hmem
  subst hpublic
  have hlocate := Index.locate_public h.hasCrate hmodule hlast fromCrate 16
  rwa [modulePath_singleton] at hlocate

theorem mem_crates {packages : List Package} {package : Package} (hpackage : package ∈ packages)
    {target : Target} (htarget : target ∈ package.targets) (hprogram : target.isProgram = true) :
    (CrateName.ofPackage target.name, target.source) ∈ crates packages :=
  List.mem_flatMap.mpr ⟨package, hpackage,
    List.mem_map.mpr ⟨target, List.mem_filter.mpr ⟨htarget, hprogram⟩, rfl⟩⟩

theorem mem_localNames {packages : List Package} {package : Package} (hpackage : package ∈ packages)
    {dependency : Dependency} (hdependency : dependency ∈ package.dependencies) :
    CrateName.ofPackage dependency.localName ∈ localNames packages :=
  List.mem_flatMap.mpr ⟨package, hpackage, List.mem_map.mpr ⟨dependency, hdependency, rfl⟩⟩

/-- **Calls into other packages.** Let packages be loaded of which one depends on another, and let the
other have a library of its own name. Then the root file of the library has been read. Let it have
been read as the root of its crate, and let it declare a public function. Then the function is a
caller.

Let there be a call `d::f(...)` of the function, where `d` is the name that the dependency has. If the
dependency has not been renamed, or its new name comes to the same, the call leads to the function. If
it has been renamed, and there is no crate of the new name, the call leads to `d.f`, which is no
caller. -/
theorem dependency_calls (t : FileTree) (w : Workspace) (pattern : String) (p : Program)
    (hload : ofPattern t (some w) pattern = .ok p) (A B : Package)
    (hA : A ∈ w.select t (Selection.ofPattern pattern))
    (hB : B ∈ w.select t (Selection.ofPattern pattern)) (library : Target)
    (hlibrary : library ∈ B.targets) (hprogram : library.isProgram = true)
    (hname : library.name = B.name) (dependency : Dependency)
    (hdependency : dependency ∈ A.dependencies) (hsame : dependency.name = B.name) :
    let b := CrateName.ofPackage B.name
    let d := CrateName.ofPackage dependency.localName
    ∃ v ∈ p.units, v.crate = b ∧ t.canonical v.path = t.canonical library.source ∧
      ∀ f, p.Publishes b v f → ∀ macros,
        let g := CallGraph.ofProgram p macros
        let key := (Symbol.inPackage b f.name.text).qualifiedName
        key ∈ g.callers ∧
        (d ∉ reservedWords → d ∉ primitiveTypes →
          ∀ caller location, p.CallsInto macros d f.name caller location →
            ((∀ new, dependency.rename = some new → CrateName.ofPackage new = b) →
              (caller, ⟨key, location⟩) ∈ g.edges) ∧
            ((∀ u ∈ p.units, u.module.head? ≠ some d) → looksLikeType d = false →
              looksLikeType f.name.text = false →
              (caller, ⟨(Symbol.inPackage d f.name.text).qualifiedName, location⟩) ∈ g.edges ∧
                (Symbol.inPackage d f.name.text).qualifiedName ∉ g.callers)) := by
  intro b d
  obtain ⟨_, hw, hpackages⟩ := ofPattern_ok hload
  obtain rfl := Option.some.inj hw
  obtain ⟨reader, hreading, hunits, hexterns⟩ := ofPackages_ok hpackages
  obtain ⟨files, hadvance, hroots⟩ := Reader.readCrates_advances t _ reader hreading
  obtain ⟨v, hv, hcrate, hplace⟩ :=
    hadvance.log.mem_seen_iff.mp (hroots _ (mem_crates hB hlibrary hprogram))
  refine ⟨v, hunits ▸ hv, hcrate.trans (congrArg CrateName.ofPackage hname), hplace, ?_⟩
  intro f hf macros g key
  refine ⟨hf.mem_callers macros, ?_⟩
  intro hword hprimitive caller location hcall
  constructor
  · intro hrename
    have heq : d = b := by
      rcases hnew : dependency.rename with _ | new
      · simp [d, b, Dependency.localName, hnew, hsame]
      · simpa [d, Dependency.localName, hnew] using hrename new hnew
    have hknows : (Index.ofProgram p).knows d = true := by
      simp [Index.knows, heq, hf.hasCrate]
    have hedge := hcall.mem_edges hword hprimitive hknows (heq ▸ hf.locate)
    rwa [heq] at hedge
  · intro hnone hlower hfunction
    have hextern : (Index.ofProgram p).hasExternCrate d = true :=
      Index.hasExternCrate_of_mem (hexterns ▸ mem_localNames hA hdependency)
    have hcrate : (Index.ofProgram p).hasCrate d = false := Index.hasCrate_eq_false hnone
    have hlocate := fun fromCrate =>
      Index.locate_external hcrate hlower hfunction fromCrate 16
    simp only [modulePath_singleton] at hlocate
    refine ⟨hcall.mem_edges hword hprimitive (by simp [Index.knows, hextern]) hlocate, ?_⟩
    refine CallGraph.not_mem_callers_of_crate ?_ hcall.isIdent hnone f.name macros
    exact hunits ▸ hadvance.log.module_ne_nil

/-! ### A package under two names -/

namespace TwoNames

/-- A library, and a program that calls its function. -/
def tree : FileTree where
  directory := ["w"]
  files :=
    [(["w", "b", "lib.rs"], "pub fn f()\x7b\x7d".toUTF8),
      (["w", "a", "main.rs"], "fn g()\x7bb_c::f();d::f()\x7d".toUTF8)]
  directories := []

def library : Target :=
  ⟨"b-c", ["lib"], "b/lib.rs"⟩

def provider : Package where
  name := "b-c"
  id := "b"
  manifest := "b/Cargo.toml"
  targets := [library]
  dependencies := []

/-- The program knows the library by its own name and by another one. -/
def user : Package where
  name := "a"
  id := "a"
  manifest := "a/Cargo.toml"
  targets := [⟨"a", ["bin"], "a/main.rs"⟩]
  dependencies := [⟨"b-c", none⟩, ⟨"b-c", some "d"⟩]

def workspace : Workspace :=
  ⟨[provider, user], ["b", "a"]⟩

def loaded : Except LoadError Program :=
  ofPattern tree (some workspace) "./..."

def program : Program :=
  loaded.toOption.getD ⟨[], []⟩

/-- Does a node call a function by a path, in the function `g`? -/
def isCall (u : SourceUnit) (names : List String) (x : Trail × Outline) : Bool :=
  match x.2.label with
  | .call _ (some (.path found)) =>
    found == names && x.1.module u.module == ["a"] && x.1.caller u.module == some "a.g"
  | _ => false

/-- Is an item a public function `f`? -/
def isFunction : Item → Bool
  | .function true f => f.name.text == "f"
  | _ => false

theorem loaded_shown : loaded.toOption.isSome = true ∧
    (program.units.all fun v =>
      v.crate != "b_c" || v.module == ["b_c"] && v.file.items.any isFunction) = true ∧
    .function "b_c" "f" false ∉ Declaration.ofProgram program ∧
    (Index.ofProgram program).declares "a" "b_c" = false ∧ (Index.ofProgram program).globs "a" = [] ∧
    (program.units.any fun u => (nodesOf true u).any (isCall u ["b_c", "f"])) = true ∧
    (CallGraph.ofProgram program true).callees "a.g" =
      some [⟨"b_c.f", ⟨"a/main.rs", 1, 8⟩⟩, ⟨"d.f", ⟨"a/main.rs", 1, 17⟩⟩] ∧
    (CallGraph.ofProgram program true).callers = ["b_c.f", "a.g"] := by
  decide +kernel

theorem loaded_eq : loaded = .ok program := by
  have hsome := loaded_shown.1
  rcases hloaded : loaded with e | p
  · simp [hloaded, Except.toOption] at hsome
  · simp [program, hloaded, Except.toOption]

theorem mem_select (package : Package) (h : package ∈ [provider, user]) :
    package ∈ workspace.select tree (Selection.ofPattern "./...") := by
  have hselect : workspace.select tree (Selection.ofPattern "./...") = [provider, user] := by
    decide +kernel
  rwa [hselect]

theorem silent : (Index.ofProgram program).Silent ["a"] "b_c" where
  declares := loaded_shown.2.2.2.1
  globs := by
    rw [modulePath_singleton, loaded_shown.2.2.2.2.1]
    simp

theorem publishes {v : SourceUnit} (hv : v ∈ program.units) (hcrate : v.crate = "b_c") :
    ∃ f, program.Publishes "b_c" v f ∧ f.name.text = "f" := by
  have htest := List.all_eq_true.mp loaded_shown.2.1 v hv
  obtain ⟨hmodule, item, hitem, hfunction⟩ :
      v.module = ["b_c"] ∧ ∃ item ∈ v.file.items, isFunction item = true := by
    simpa [hcrate] using htest
  unfold isFunction at hfunction
  split at hfunction
  · rename_i f
    have hname : f.name.text = "f" := beq_iff_eq.mp hfunction
    refine ⟨f, ⟨hv, hmodule, hitem, ?_⟩, hname⟩
    rintro (_ | _) hdeclared
    · rw [hname] at hdeclared
      exact absurd hdeclared loaded_shown.2.2.1
    · rfl
  · cases hfunction

theorem callsInto {f : Ident} (hf : f.text = "f") :
    ∃ location, program.CallsInto true "b_c" f "a.g" location := by
  obtain ⟨u, hu, ⟨trail, label, parts⟩, hx, hcall⟩ :
      ∃ u ∈ program.units, ∃ x ∈ nodesOf true u, isCall u ["b_c", "f"] x = true := by
    simpa using loaded_shown.2.2.2.2.2.1
  unfold isCall at hcall
  split at hcall
  · rename_i place found hlabel
    obtain rfl : label = .call place (some (.path found)) := hlabel
    obtain ⟨⟨rfl, hmodule⟩, hcaller⟩ :
        (found = ["b_c", "f"] ∧ trail.module u.module = ["a"]) ∧
          trail.caller u.module = some "a.g" := by
      simpa using hcall
    exact ⟨_, .call hu (hf ▸ hx) hcaller (hmodule ▸ silent)⟩
  · cases hcall

end TwoNames

theorem dependency_calls_twoNames :
    ofPattern TwoNames.tree (some TwoNames.workspace) "./..." = .ok TwoNames.program ∧
      ⟨"b-c", none⟩ ∈ TwoNames.user.dependencies ∧
      let g := CallGraph.ofProgram TwoNames.program true
      "b_c.f" ∈ g.callers ∧ ∃ location, ("a.g", ⟨"b_c.f", location⟩) ∈ g.edges := by
  have hdependency : ⟨"b-c", none⟩ ∈ TwoNames.user.dependencies := by simp [TwoNames.user]
  obtain ⟨v, hv, hcrate, -, hcalls⟩ := dependency_calls TwoNames.tree TwoNames.workspace "./..."
    TwoNames.program TwoNames.loaded_eq TwoNames.user TwoNames.provider
    (TwoNames.mem_select _ (by simp)) (TwoNames.mem_select _ (by simp)) TwoNames.library
    List.mem_cons_self (by decide) rfl ⟨"b-c", none⟩ hdependency rfl
  obtain ⟨f, hf, hname⟩ := TwoNames.publishes hv hcrate
  obtain ⟨location, hcall⟩ := TwoNames.callsInto hname
  obtain ⟨hcaller, hedges⟩ := hcalls f hf true
  obtain ⟨hedge, -⟩ := hedges (by decide) (by decide) "a.g" location hcall
  have hkey : (Symbol.inPackage (CrateName.ofPackage "b-c") f.name.text).qualifiedName = "b_c.f" := by
    rw [hname]
    decide
  refine ⟨TwoNames.loaded_eq, hdependency, hkey ▸ hcaller, location, ?_⟩
  exact hkey ▸ hedge (by simp)

/-- A call by the new name of a renamed dependency does not lead to the function, though it is a
caller. -/
theorem renamed_dependency_leaves_program :
    ofPattern TwoNames.tree (some TwoNames.workspace) "./..." = .ok TwoNames.program ∧
      ⟨"b-c", some "d"⟩ ∈ TwoNames.user.dependencies ∧
      (CallGraph.ofProgram TwoNames.program true).callees "a.g" =
        some [⟨"b_c.f", ⟨"a/main.rs", 1, 8⟩⟩, ⟨"d.f", ⟨"a/main.rs", 1, 17⟩⟩] ∧
      (CallGraph.ofProgram TwoNames.program true).callers = ["b_c.f", "a.g"] :=
  ⟨TwoNames.loaded_eq, by decide, TwoNames.loaded_shown.2.2.2.2.2.2⟩

end Program

end CallAtlas
