import CallAtlas.Proofs.Grounding
import CallAtlas.Proofs.ModuleTree

/-!
# Spellings of a function

A function can be named by its path from the crate root, by its bare name or `self` in its own
module, and by `super` from the modules below. In a program that was read from files, all of these
resolve to the function itself, and its symbol is the caller under which the function is listed.

What makes this work is that modules are found where paths lead. Each module of such a program is a
submodule of the one before it on its path (`Index.Reaches`): inline modules stand in the items of
another module, and a file is read for a declaration that stands there. That a path of modules could
be taken for something else on the way, such as a type or an import of the same name, is ruled out by
the order in which names are looked up.

## Main definitions

* `Index.Reaches` — paths from a crate on which each segment is a submodule.

## Main results

* `Index.locate_function` — a path of modules leads to the functions of the last one.
* `Program.Indexed.reaches` — such paths lead to all items of a program with its files in place.
* `Reader.spellings_resolve` — the spellings of a function.
-/

namespace CallAtlas

namespace Index

variable {i : Index}

/-! ### Paths of modules -/

/-- A path of identifiers that starts at a crate and leads through submodules. -/
structure Reaches (i : Index) (path : List String) : Prop where
  /-- All segments are identifiers. -/
  identifiers : Identifiers path
  /-- The first segment is a crate, and the others are submodules. -/
  leads : ∃ root rest, path = root :: rest ∧ i.hasCrate root = true ∧ i.Leads [root] rest

theorem Reaches.hasModule {path : List String} (h : i.Reaches path) :
    i.hasModule (modulePath path) = true := by
  obtain ⟨-, root, rest, rfl, -, hleads⟩ := h
  exact hleads.hasModule

/-- Names that lead somewhere can be followed by a submodule of the last module. -/
theorem Leads.append_singleton {names : List String} {name : String} : ∀ {module : List String},
    i.Leads module names → name ∈ i.submodules (modulePath (module ++ names)) →
      i.hasModule (modulePath (module ++ names ++ [name])) = true →
      i.Leads module (names ++ [name]) := by
  induction names with
  | nil =>
    intro module h hsub hmodule
    simp only [List.append_nil] at hsub hmodule
    exact ⟨h, hsub, hmodule⟩
  | cons first rest ih =>
    intro module h hsub hmodule
    obtain ⟨hfirst, hmem, hrest⟩ := h
    refine ⟨hfirst, hmem, ih hrest ?_ ?_⟩
    · simpa using hsub
    · simpa using hmodule

theorem Reaches.append_singleton {path : List String} (h : i.Reaches path) (name : Ident)
    (hsub : name.text ∈ i.submodules (modulePath path))
    (hmodule : i.hasModule (modulePath (path ++ [name.text])) = true) :
    i.Reaches (path ++ [name.text]) := by
  obtain ⟨hpath, root, rest, rfl, hcrate, hleads⟩ := h
  refine ⟨identifiers_append.mpr ⟨hpath, name.identifiers_singleton⟩, root, rest ++ [name.text],
    rfl, hcrate, ?_⟩
  exact hleads.append_singleton hsub hmodule

/-- The package of a module that is reached is not empty. -/
theorem Reaches.inPackage {path : List String} (h : i.Reaches path) (name : String) :
    Symbol.inPackage (modulePath path) name = ⟨some (modulePath path), name⟩ := by
  obtain ⟨hpath, root, rest, rfl, -⟩ := h
  rw [Symbol.inPackage, if_neg (modulePath_cons_ne hpath)]

/-! ### Where they lead -/

/-- A path of modules is followed to the functions of the last one. -/
theorem follow_of_leads {fromCrate : String} {steps : Nat} {next : List String → Option Symbol}
    {name : String} {isPublic : Bool} {names module : List String} (h : i.Leads module names)
    (hfunction : lookupLast name (i.functions (modulePath (module ++ names))) = some isPublic) :
    i.follow fromCrate steps next module (names ++ [name]) =
      functionIn (module ++ names) fromCrate name isPublic := by
  rw [follow_append_of_leads (by simp) h, follow, scope?_of_hasModule h.hasModule]
  dsimp only
  rw [hfunction]

/-- From its own crate, a function is found at the end of a path of modules. -/
theorem locate_of_leads {crate name : String} {inner : List String} {isPublic : Bool}
    (hcrate : i.hasCrate crate = true) (hleads : i.Leads [crate] inner)
    (hfunction : (name, isPublic) ∈ i.functions (modulePath (crate :: inner))) (steps : Nat) :
    i.locate crate (steps + 1) (crate :: (inner ++ [name])) =
      some (.inPackage (modulePath (crate :: inner)) name) := by
  obtain ⟨last, hlast⟩ := exists_lookupLast hfunction
  rw [locate, if_pos hcrate, follow_of_leads hleads hlast]
  simp [functionIn]

/-- **Paths of modules.** From its own crate, a function is found at the end of the path of its
module. -/
theorem locate_function {path : List String} (h : i.Reaches path) {name : String} {isPublic : Bool}
    (hfunction : (name, isPublic) ∈ i.functions (modulePath path)) (steps : Nat) :
    i.locate (path.headD "") (steps + 1) (path ++ [name]) =
      some (.inPackage (modulePath path) name) := by
  obtain ⟨-, root, rest, rfl, hcrate, hleads⟩ := h
  exact locate_of_leads hcrate hleads hfunction steps

/-! ### How paths are spelled -/

variable {steps : Nat} {module rest : List String} {selfType : Option (List String)}
  {fromUse : Bool}

theorem absolutize_crate (h : module ≠ []) :
    i.absolutize (steps + 1) module selfType fromUse ("crate" :: rest) =
      some (module.take 1 ++ rest) := by
  simp [absolutize, globLevels, absolutizeBy, h]

theorem absolutize_self :
    i.absolutize (steps + 1) module selfType fromUse ("self" :: rest) = some (module ++ rest) := by
  simp [absolutize, globLevels, absolutizeBy]

theorem absolutize_super :
    i.absolutize (steps + 1) module selfType fromUse ("super" :: rest) =
      fromParents module ("super" :: rest) := by
  simp [absolutize, globLevels, absolutizeBy]

/-- A function that a module declares is found there first. -/
theorem absolutize_function {name : Name} {isPublic : Bool}
    (hmodule : i.hasModule (modulePath module) = true)
    (hfunction : (name.text, isPublic) ∈ i.functions (modulePath module)) :
    i.absolutize (steps + 1) module selfType fromUse [name.text] = some (module ++ [name.text]) := by
  have hdefines : ModuleScope.defines ⟨i.functions (modulePath module), i.types (modulePath module),
      i.submodules (modulePath module), i.imports (modulePath module),
      i.globs (modulePath module)⟩ name.text = true := by
    have hmem : name.text ∈ (i.functions (modulePath module)).map Prod.fst :=
      List.mem_map.mpr ⟨_, hfunction, rfl⟩
    simp only [ModuleScope.defines, List.contains_iff_mem.mpr hmem, Bool.true_or]
  rw [absolutize, globLevels, scope?_of_hasModule hmodule]
  unfold absolutizeBy
  rw [if_neg (name.text_ne (by decide)), if_neg (name.text_ne (by decide)),
    if_neg (name.text_ne (by decide)), if_neg (name.text_ne (by decide))]
  dsimp only
  rw [if_pos hdefines]

/-- As many `super` as there are modules below lead back to the module. -/
theorem fromParents_replicate {name : String} (hmodule : module ≠ []) (hname : name ≠ "super") :
    ∀ below : List String,
      fromParents (module ++ below) (List.replicate below.length "super" ++ name :: rest) =
        some (module ++ name :: rest) := by
  suffices h : ∀ (n : Nat) (below : List String), below.length = n →
      fromParents (module ++ below) (List.replicate n "super" ++ name :: rest) =
        some (module ++ name :: rest) from fun below => h _ below rfl
  intro n
  induction n with
  | zero =>
    intro below hlength
    obtain rfl := List.eq_nil_of_length_eq_zero hlength
    simp [fromParents, hname]
  | succ n ih =>
    intro below hlength
    have hbelow : below ≠ [] := by
      rintro rfl
      simp at hlength
    have hlong : ¬(module ++ below).length ≤ 1 := by
      have hpos := List.length_pos_iff.mpr hmodule
      rw [List.length_append]
      omega
    rw [List.replicate_succ, List.cons_append, fromParents, if_pos rfl, if_neg hlong,
      List.dropLast_append_of_ne_nil hbelow]
    exact ih _ (by simp [hlength])

/-- A path that stands for a function of a module, in a scope of the same crate, resolves to that
function. -/
theorem resolvePath_function {s : Scope} {first name : String} {isPublic : Bool}
    (h : i.Reaches module) (hfunction : (name, isPublic) ∈ i.functions (modulePath module))
    (hcrate : s.module.head? = module.head?) (hprimitive : rest = [] ∨ first ∉ primitiveTypes)
    (habsolute : i.absolutize stepLimit s.module s.selfType false (first :: rest) =
      some (module ++ [name])) :
    i.resolvePath s (first :: rest) = some ⟨some (modulePath module), name⟩ := by
  have hscope : s.crate = module.headD "" := by
    rw [Scope.crate, List.headD_eq_head?_getD, List.headD_eq_head?_getD, hcrate]
  rw [resolvePath_of_absolutize hprimitive habsolute, hscope, ← h.inPackage]
  exact locate_function h hfunction 16

end Index

/-! ### Programs with their files in place -/

namespace Program

variable {p : Program}

theorem mem_submodules {path : List String} {item : Item} (h : p.Indexed path item) {name : String}
    (hown : .submodule (modulePath path) name ∈ Declaration.own path item) :
    name ∈ (Index.ofProgram p).submodules (modulePath path) :=
  Index.mem_submodules_iff.mpr
    (Declaration.mem_ofProgram_iff.mpr (Or.inr (Or.inr ⟨path, item, h, hown⟩)))

theorem hasModule_of_mem {m : String} (h : .module m ∈ Declaration.ofProgram p) :
    (Index.ofProgram p).hasModule m = true := by
  simpa [Index.hasModule, Index.ofProgram] using h

theorem hasModule_of_unit {u : SourceUnit} (hu : u ∈ p.units) :
    (Index.ofProgram p).hasModule (modulePath u.module) = true :=
  hasModule_of_mem (Declaration.mem_ofProgram_iff.mpr (Or.inr (Or.inl ⟨u, hu, Or.inr rfl⟩)))

/-- An indexed item is reached if the files of modules no longer than its path are. -/
theorem Indexed.reaches_of_units {path : List String} {item : Item} (h : p.Indexed path item)
    (hunits : ∀ u ∈ p.units, u.module.length ≤ path.length →
      (Index.ofProgram p).Reaches u.module) : (Index.ofProgram p).Reaches path := by
  induction h with
  | ofUnit hu _ => exact hunits _ hu (Nat.le_refl _)
  | @inside path item x h hx ih =>
    have hbody : x ∈ (item.functions.flatMap Function.items).map (path, ·) →
        (Index.ofProgram p).Reaches x.1 := by
      intro hx
      obtain ⟨found, -, rfl⟩ := List.mem_map.mp hx
      exact ih hunits
    cases item with
    | module attributes name parts items =>
      obtain ⟨found, -, rfl⟩ := List.mem_map.mp hx
      have hpath : (Index.ofProgram p).Reaches path := by
        refine ih fun u hu hlength => hunits u hu (Nat.le_trans hlength ?_)
        simp
      refine hpath.append_singleton name (mem_submodules h List.mem_cons_self) ?_
      exact hasModule_of_mem (Declaration.mem_ofProgram_iff.mpr
        (Or.inr (Or.inr ⟨path, _, h, List.mem_cons_of_mem _ List.mem_cons_self⟩)))
    | _ => exact hbody hx

/-- The files of a program in place are reached. Induction is on the length of the module path: a file
is declared in a module with a shorter one. -/
theorem reaches_of_unit (hplaced : ∀ u ∈ p.units, Placed p.units u.module) (n : Nat) :
    ∀ u ∈ p.units, u.module.length ≤ n → (Index.ofProgram p).Reaches u.module := by
  induction n with
  | zero =>
    intro u hu hlength
    rcases (hplaced u hu).exists_indexed with ⟨crate, hmodule⟩ | ⟨path, _, name, _, _, hmodule⟩
    · simp [hmodule] at hlength
    · simp [hmodule] at hlength
  | succ n ih =>
    intro u hu hlength
    rcases (hplaced u hu).exists_indexed with
      ⟨crate, hmodule⟩ | ⟨path, attributes, name, parts, h, hmodule⟩
    · have hroot := hasModule_of_unit hu
      rw [hmodule] at hroot ⊢
      refine ⟨crate.identifiers_singleton, crate.text, [], rfl, ?_, hroot⟩
      exact Index.hasCrate_of_unit hu (by rw [hmodule]; rfl)
    · have hroot := hasModule_of_unit hu
      rw [hmodule] at hroot hlength ⊢
      have hpath : (Index.ofProgram p).Reaches path := by
        refine h.reaches_of_units fun v hv hshort => ih v hv ?_
        rw [List.length_append, List.length_singleton] at hlength
        omega
      exact hpath.append_singleton name (mem_submodules h List.mem_cons_self) hroot

/-- **Modules are found where paths lead**, in a program with its files in place. -/
theorem Indexed.reaches {path : List String} {item : Item} (h : p.Indexed path item)
    (hplaced : ∀ u ∈ p.units, Placed p.units u.module) : (Index.ofProgram p).Reaches path :=
  h.reaches_of_units fun u hu _ => reaches_of_unit hplaced _ u hu (Nat.le_refl _)

end Program

namespace Reader

open Outline

/-- **Spellings of a function.** Let crates be read one after the other, and let the index record a
function in a module. Then the function is what the path from the crate root names anywhere in the
crate, what its bare name and `self` name in the module, and what `super`, once for each module in
between, names from below. The walk lists its declaration under the name of the same symbol. -/
theorem spellings_resolve (t : FileTree) (crates : List (Ident × String)) (externs : List String)
    (reader : Reader)
    (hread : StateT.run (ExceptT.run (crates.forM fun x => readCrate t x.1.text x.2)) empty =
      (.ok (), reader))
    (crate : Ident) (inner : List Ident) (name : String) (isPublic : Bool)
    (hfunction : (name, isPublic) ∈ (Index.ofProgram ⟨reader.units, externs⟩).functions
      (modulePath (Walk.texts (crate :: inner)))) :
    let i := Index.ofProgram ⟨reader.units, externs⟩
    let module := Walk.texts (crate :: inner)
    let symbol : Symbol := ⟨some (modulePath module), name⟩
    (∀ s : Scope, s.module.head? = some crate.text →
      i.resolvePath s ("crate" :: (Walk.texts inner ++ [name])) = some symbol) ∧
    (∀ selfType, i.resolvePath ⟨module, selfType⟩ [name] = some symbol) ∧
    (∀ selfType, i.resolvePath ⟨module, selfType⟩ ["self", name] = some symbol) ∧
    (∀ below selfType, below ≠ [] →
      i.resolvePath ⟨module ++ below, selfType⟩ (List.replicate below.length "super" ++ [name]) =
        some symbol) ∧
    ∀ macros, ∃ u ∈ reader.units, ∃ trail f,
      (trail, Outline.ofFunction macros f) ∈ nodesOf macros u ∧ f.name.text = name ∧
      trail.module u.module = module ∧ trail.key u.module f.name = symbol.qualifiedName ∧
      .declare (trail.key u.module f.name) ∈ Walk.unit i macros u := by
  intro i module symbol
  have hplaced : reader.InPlace := by
    have h := inPlace_of_readCrates t crates
    rwa [Step.outcome, hread] at h
  obtain ⟨path, item, hindexed, hpath, f, hf, rfl⟩ :=
    Declaration.exists_indexed_of_function (Index.mem_functions_iff.mp hfunction)
  have hreaches := hindexed.reaches hplaced
  obtain rfl : module = path :=
    modulePath_injective (identifiers_texts _) hreaches.identifiers hpath
  have hresolve : ∀ {s : Scope} {first : String} {rest : List String},
      s.module.head? = some crate.text → rest = [] ∨ first ∉ primitiveTypes →
      i.absolutize Index.stepLimit s.module s.selfType false (first :: rest) =
        some (module ++ [f.name.text]) → i.resolvePath s (first :: rest) = some symbol :=
    fun hcrate => Index.resolvePath_function hreaches hfunction hcrate
  refine ⟨fun s hs => ?_, fun selfType => ?_, fun selfType => ?_, fun below selfType hbelow => ?_,
    fun macros => ?_⟩
  · obtain ⟨rest, hs'⟩ : ∃ rest, s.module = crate.text :: rest := List.head?_eq_some_iff.mp hs
    refine hresolve hs (Or.inr (by decide)) ?_
    refine (Index.absolutize_crate (by simp [hs'])).trans ?_
    rw [hs']
    rfl
  · exact hresolve rfl (Or.inl rfl) (Index.absolutize_function hreaches.hasModule hfunction)
  · exact hresolve rfl (Or.inr (by decide)) Index.absolutize_self
  · obtain ⟨last, below, rfl⟩ := List.exists_cons_of_ne_nil hbelow
    refine hresolve rfl (Or.inr (by decide)) (Index.absolutize_super.trans ?_)
    exact Index.fromParents_replicate (by simp [module, Walk.texts]) (f.name.text_ne (by decide))
      (last :: below)
  · obtain ⟨u, hu, trail, hnode, hmodule, hdeclare⟩ := hindexed.exists_declared macros hf
    refine ⟨u, hu, trail, f, hnode, rfl, hmodule, ?_, hdeclare⟩
    rw [Trail.key, hmodule, hreaches.inPackage]

/-! ### A function in an inline module of a second file -/

namespace TwoFiles

/-- `src/lib.rs` declares the module `net`, and `src/net.rs` holds a module in braces. -/
def tree : FileTree where
  directory := ["w"]
  files :=
    [(["w", "src", "lib.rs"], "mod net;\n".toUTF8),
      (["w", "src", "net.rs"], "mod tcp \x7b fn open() \x7b\x7d \x7d\n".toUTF8)]
  directories := []

def demo : Ident := ⟨"demo", by decide⟩

def net : Ident := ⟨"net", by decide⟩

def tcp : Ident := ⟨"tcp", by decide⟩

/-- The crate, read on its own. -/
def reading : Except LoadError Unit × Reader :=
  StateT.run (ExceptT.run ([(demo, "src/lib.rs")].forM fun x => readCrate tree x.1.text x.2)) empty

theorem reading_eq : reading = (.ok (), reading.2) := by
  have hok : reading.1.toOption = some () := by decide +kernel
  rcases hreading : reading with ⟨_ | _, reader⟩
  · simp [hreading, Except.toOption] at hok
  · rfl

end TwoFiles

theorem spellings_resolve_twoFiles :
    let i := Index.ofProgram ⟨TwoFiles.reading.2.units, []⟩
    TwoFiles.reading = (.ok (), TwoFiles.reading.2) ∧
      ("open", false) ∈ i.functions "demo::net::tcp" ∧
      i.resolvePath ⟨["demo"], none⟩ ["crate", "net", "tcp", "open"] =
        some ⟨some "demo::net::tcp", "open"⟩ ∧
      i.resolvePath ⟨["demo", "net", "tcp", "a", "b"], none⟩ ["super", "super", "open"] =
        some ⟨some "demo::net::tcp", "open"⟩ := by
  intro i
  have hmodule : modulePath (Walk.texts [TwoFiles.demo, TwoFiles.net, TwoFiles.tcp]) =
      "demo::net::tcp" := by decide
  have hfunction : ("open", false) ∈ i.functions "demo::net::tcp" := by decide +kernel
  obtain ⟨hcrate, -, -, hsuper, -⟩ := spellings_resolve TwoFiles.tree
    [(TwoFiles.demo, "src/lib.rs")] [] TwoFiles.reading.2 TwoFiles.reading_eq TwoFiles.demo
    [TwoFiles.net, TwoFiles.tcp] "open" false (hmodule ▸ hfunction)
  rw [hmodule] at hcrate hsuper
  exact ⟨TwoFiles.reading_eq, hfunction, hcrate ⟨["demo"], none⟩ rfl, hsuper ["a", "b"] none (by simp)⟩

end Reader

end CallAtlas
