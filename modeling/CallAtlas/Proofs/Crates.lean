import CallAtlas.Proofs.Following

/-!
# Crates and what they keep private

The crate of a module is the first segment of its path, and it can be read off the text of the path
if crates are named by identifiers. A path that is followed may change crates with every import on
its way. Two things hold of it nevertheless: the crates it goes on from are known or stand first in
the path of an import, and what may be called at its end depends on the crate of the call. So a call
into another loaded crate finds something that is offered there.

## Main definitions

* `Program.Identified` — a program whose crates and modules are named by identifiers.
* `Item.Offers` — an item declares a function that other crates can call.
* `Index.RootedIn` — the names that paths from a crate root start with.

## Main results

* `Index.StandsFor.rooted` — where paths from a crate root start.
* `Index.resolvePath_offered` — calls into other crates.
-/

namespace CallAtlas

/-! ### The crate of a module -/

theorem crateOfModule_go_append_pathTail {first : List Char} (h : ':' ∉ first)
    (rest : List String) : crateOfModule.go (first ++ pathTail rest) = first := by
  induction first with
  | nil => cases rest <;> simp [pathTail, crateOfModule.go]
  | cons c first ih =>
    obtain ⟨hc, hfirst⟩ : ':' ≠ c ∧ ':' ∉ first := by simpa using h
    rw [List.cons_append, crateOfModule.go, ih hfirst]
    rintro _ rfl
    exact absurd rfl hc

/-- The text of a module path tells the crate. -/
theorem crateOfModule_modulePath {root : String} (h : isIdent root.toList = true)
    (rest : List String) : crateOfModule (modulePath (root :: rest)) = root := by
  rw [crateOfModule, toList_modulePath_cons,
    crateOfModule_go_append_pathTail (colon_not_mem_of_isIdent h), String.ofList_toList]

theorem head_eq_of_modulePath_eq {root other : String} {rest more : List String}
    (hroot : isIdent root.toList = true) (hother : isIdent other.toList = true)
    (h : modulePath (root :: rest) = modulePath (other :: more)) : root = other := by
  rw [← crateOfModule_modulePath hroot rest, h, crateOfModule_modulePath hother]

/-! ### Programs whose crates and modules are named by identifiers -/

/-- The crates and the modules of a program are named by identifiers. -/
structure Program.Identified (p : Program) : Prop where
  /-- The modules that files define are. -/
  units : ∀ u ∈ p.units, Identifiers u.module
  /-- The crates that are known without their sources are. -/
  externs : Identifiers p.externs

namespace Program

variable {p : Program} {path : List String} {item : Item} {name : String}

theorem Indexed.identifiers (h : p.Indexed path item) (hp : p.Identified) : Identifiers path := by
  obtain ⟨u, hu, inner, rfl⟩ := h.exists_unit
  exact identifiers_append.mpr ⟨hp.units u hu, identifiers_texts inner⟩

/-- A crate is loaded if it is that of a file. -/
theorem exists_unit_of_crate (h : .crate name ∈ Declaration.ofProgram p) :
    ∃ u ∈ p.units, u.module.head? = some name := by
  rcases Declaration.mem_ofProgram_iff.mp h with
    ⟨_, -, h⟩ | ⟨u, hu, hcrate | h⟩ | ⟨path, item, -, hown⟩
  · cases h
  · obtain ⟨root, hroot, h⟩ := List.mem_map.mp hcrate
    cases h
    exact ⟨u, hu, by simpa using hroot⟩
  · cases h
  · cases Declaration.owned_of_mem_own hown with
    | imports himport => cases himport

theorem Identified.isIdent_of_hasCrate (hp : p.Identified)
    (h : (Index.ofProgram p).hasCrate name = true) : isIdent name.toList = true := by
  have hmem : .crate name ∈ Declaration.ofProgram p := by
    simpa [Index.hasCrate, Index.ofProgram] using h
  obtain ⟨u, hu, hroot⟩ := exists_unit_of_crate hmem
  exact hp.units u hu name (List.mem_of_mem_head? hroot)

theorem Identified.isIdent_of_hasExternCrate (hp : p.Identified)
    (h : (Index.ofProgram p).hasExternCrate name = true) : isIdent name.toList = true := by
  have hmem : .externCrate name ∈ Declaration.ofProgram p := by
    simpa [Index.hasExternCrate, Index.ofProgram] using h
  rcases Declaration.mem_ofProgram_iff.mp hmem with
    ⟨_, hname, h⟩ | ⟨u, -, hcrate | h⟩ | ⟨path, item, -, hown⟩
  · cases h
    have hstandard : Identifiers Declaration.standardCrates := by decide
    exact identifiers_append.mpr ⟨hstandard, hp.externs⟩ name hname
  · obtain ⟨_, -, h⟩ := List.mem_map.mp hcrate
    cases h
  · cases h
  · cases Declaration.owned_of_mem_own hown with
    | imports himport =>
      cases himport with
      | @externCrate name => exact name.wellFormed

end Program

/-! ### What other crates can call -/

/-- The item declares a function of this name that other crates can call. -/
inductive Item.Offers (name : String) : Item → Prop where
  /-- `pub fn`. -/
  | function {f : Function} : f.name.text = name → Offers name (.function true f)
  /-- `pub fn` in an `impl` block of a type with a name. -/
  | associated {form : TypeForm} {ofTrait : Bool} {parts : List Expr} {members : List Member}
      {f : Function} : form.lastName?.isSome = true → .function true f ∈ members →
    f.name.text = name → Offers name (.impl form ofTrait parts members)
  /-- Any function in an `impl` block of a trait for a type with a name. -/
  | traitImpl {form : TypeForm} {parts : List Expr} {members : List Member} {isPublic : Bool}
      {f : Function} : form.lastName?.isSome = true → .function isPublic f ∈ members →
    f.name.text = name → Offers name (.impl form true parts members)
  /-- A function of a `pub trait`, with a body. -/
  | traitFunction {type : Ident} {parts : List Expr} {members : List Member} {isPublic : Bool}
      {f : Function} : .function isPublic f ∈ members → f.name.text = name →
    Offers name (.trait true type parts members)
  /-- A function of a `pub trait`, without a body. -/
  | traitRequired {type : Ident} {parts required : List Expr} {members : List Member}
      {method : Ident} : .required method required ∈ members → method.text = name →
    Offers name (.trait true type parts members)

/-- The declaration is of a function that other crates can call. -/
inductive Declaration.Open (m name : String) : Declaration → Prop where
  | function : Open m name (.function m name true)
  | method {type : String} : Open m name (.method m type name true)

theorem Declaration.Open.offers {m name : String} {d : Declaration} (h : d.Open m name)
    {path : List String} {item : Item} (hd : d ∈ own path item) :
    m = modulePath path ∧ item.Offers name := by
  cases item with
  | function isPublic f =>
    obtain rfl := List.mem_singleton.mp hd
    cases h
    exact ⟨rfl, .function rfl⟩
  | trait isPublic type parts members =>
    rcases List.mem_cons.mp hd with rfl | hd
    · cases h
    obtain ⟨member, hmember, hd⟩ := List.mem_flatMap.mp hd
    cases member with
    | function isPublic' f =>
      rw [ofTraitMember, List.mem_cons, List.mem_singleton] at hd
      rcases hd with rfl | rfl
      · cases h
        exact ⟨rfl, .traitFunction hmember rfl⟩
      · cases h
    | required method required =>
      rw [ofTraitMember, List.mem_cons, List.mem_singleton] at hd
      rcases hd with rfl | rfl
      · cases h
        exact ⟨rfl, .traitRequired hmember rfl⟩
      · cases h
    | other parts' => simp [ofTraitMember] at hd
  | impl form ofTrait parts members =>
    rw [own] at hd
    split at hd
    · next type htype =>
      have hnamed : form.lastName?.isSome = true := by simp [htype]
      obtain ⟨member, hmember, hd⟩ := List.mem_flatMap.mp hd
      cases member with
      | function isPublic f =>
        obtain rfl := List.mem_singleton.mp hd
        generalize hopen : (ofTrait || isPublic) = isOpen at h
        cases h
        rcases Bool.or_eq_true_iff.mp hopen with rfl | rfl
        · exact ⟨rfl, .traitImpl hnamed hmember rfl⟩
        · exact ⟨rfl, .associated hnamed hmember rfl⟩
      | _ => simp [ofImplMember] at hd
    · simp at hd
  | type name parts =>
    obtain rfl := List.mem_singleton.mp hd
    cases h
  | moduleFile attributes name parts =>
    obtain rfl := List.mem_singleton.mp hd
    cases h
  | module attributes name parts items =>
    rw [own, List.mem_cons, List.mem_singleton] at hd
    rcases hd with rfl | rfl <;> cases h
  | use tree parts => cases ofUse_of_mem_ofUseTree identifiers_nil hd <;> cases h
  | externCrate name newName parts => cases ofImport_of_mem_ofExternCrate hd <;> cases h
  | other parts => simp [own] at hd

/-- Such a declaration comes from an item that offers the function. -/
theorem Declaration.Open.exists_offers {p : Program} {m name : String} {d : Declaration}
    (h : d.Open m name) (hd : d ∈ ofProgram p) :
    ∃ path item, p.Indexed path item ∧ m = modulePath path ∧ item.Offers name := by
  rcases mem_ofProgram_iff.mp hd with
    ⟨_, -, rfl⟩ | ⟨u, -, hcrate | rfl⟩ | ⟨path, item, hindexed, hown⟩
  · cases h
  · obtain ⟨_, -, rfl⟩ := List.mem_map.mp hcrate
    cases h
  · cases h
  · obtain ⟨hm, hoffers⟩ := h.offers hown
    exact ⟨path, item, hindexed, hm, hoffers⟩

namespace Index

variable {i : Index} {S : String → Prop}

/-! ### Where paths from a crate root start -/

/-- The names `S` are enough for the starts of paths from a crate root: crates that are known are
among them, and so is what stands first in the path of an import. -/
structure RootedIn (i : Index) (S : String → Prop) : Prop where
  /-- The standard library is among the names. -/
  standard : S "std"
  /-- Crates that are known are. -/
  known : ∀ {name : String}, i.knows name = true → S name
  /-- What stands first in the path of an import is. -/
  imports : ∀ {m name : String} {target : List String}, (name, target) ∈ i.imports m →
    ∀ n ∈ target.head?, S n
  /-- So is what stands first in the path of a glob import. -/
  globs : ∀ {m : String} {target : List String}, target ∈ i.globs m → ∀ n ∈ target.head?, S n

/-- A path from a crate root that starts with one of the names. -/
def Rooted (S : String → Prop) (path : List String) : Prop :=
  ∃ root rest, path = root :: rest ∧ S root

theorem Rooted.append {path : List String} (h : Rooted S path) (rest : List String) :
    Rooted S (path ++ rest) := by
  obtain ⟨root, inner, rfl, hroot⟩ := h
  exact ⟨root, inner ++ rest, rfl, hroot⟩

theorem Rooted.fromParents {names module path : List String} (hmodule : Rooted S module)
    (h : fromParents module names = some path) : Rooted S path := by
  induction names generalizing module with
  | nil =>
    obtain rfl : module = path := by simpa [Index.fromParents] using h
    exact hmodule
  | cons first rest ih =>
    rw [Index.fromParents] at h
    split at h
    · split at h
      · cases h
      · next hlength =>
        obtain ⟨root, inner, rfl, hroot⟩ := hmodule
        cases inner with
        | nil => simp at hlength
        | cons next inner => exact ih ⟨root, _, List.dropLast_cons_cons, hroot⟩ h
    · cases h
      exact hmodule.append _

/-- A path that stands for one from a crate root leads to the crate of the module, to one that is
known, or to one that an import names. -/
theorem StandsFor.rooted (hi : i.RootedIn S) {module : List String} (hmodule : Rooted S module)
    {selfType : Option (List String)} {fromUse : Bool} {path result : List String}
    (h : i.StandsFor module selfType fromUse path result)
    (hpath : fromUse = true → ∀ n ∈ path.head?, S n) : Rooted S result := by
  induction h with
  | crate _ =>
    obtain ⟨root, inner, rfl, hroot⟩ := hmodule
    exact ⟨root, _, rfl, hroot⟩
  | self => exact hmodule.append _
  | super h => exact hmodule.fromParents h
  | selfType _ ih => exact (ih (by simp)).append _
  | defined => exact hmodule.append _
  | imported htarget _ ih => exact (ih fun _ => hi.imports htarget).append _
  | glob htarget _ ih => exact (ih fun _ => hi.globs htarget).append _
  | known h => exact ⟨_, _, rfl, hi.known h⟩
  | prelude _ => exact ⟨_, _, rfl, hi.standard⟩
  | use => exact ⟨_, _, rfl, hpath rfl _ rfl⟩

theorem rootedIn_ofProgram {p : Program} (hp : p.Identified) :
    (ofProgram p).RootedIn fun name => isIdent name.toList = true where
  standard := by decide
  known h := (Bool.or_eq_true_iff.mp h).elim hp.isIdent_of_hasCrate hp.isIdent_of_hasExternCrate
  imports htarget n hn :=
    Declaration.identifiers_of_imported (mem_imports_iff.mp htarget) n (List.mem_of_mem_head? hn)
  globs htarget n hn :=
    Declaration.identifiers_of_glob (mem_globs_iff.mp htarget) n (List.mem_of_mem_head? hn)

/-! ### Calls into other crates -/

theorem open_of_associated {module type name fromCrate : String} {symbol : Symbol}
    (h : i.associated module type name fromCrate = some symbol) :
    ∃ m, symbol = .inPackage m name ∧
      (crateOfModule m = fromCrate ∨ ∃ d ∈ i.declarations, d.Open m name) := by
  obtain ⟨m, -, h⟩ := Option.bind_eq_some_iff.mp h
  obtain ⟨isPublic, hmethod, h⟩ := Option.bind_eq_some_iff.mp h
  split at h
  · next hopen =>
    cases h
    refine ⟨m, rfl, ?_⟩
    rcases Bool.or_eq_true_iff.mp hopen with rfl | hcrate
    · exact Or.inr ⟨_, mem_methodsOf_iff.mp (mem_of_lookupLast hmethod), .method⟩
    · exact Or.inl (by simpa using hcrate)
  · cases h

/-- What a path from a crate root arrives at is in the crate of the call, or other crates can call
it, or its own crate is not loaded. -/
theorem Arrives.open (hi : i.RootedIn fun name => isIdent name.toList = true) {fromCrate : String}
    {path : List String} {symbol : Symbol} (h : i.Arrives fromCrate path symbol)
    (hpath : Rooted (fun name => isIdent name.toList = true) path) :
    (∃ m name, symbol = .inPackage m name ∧
      (crateOfModule m = fromCrate ∨ ∃ d ∈ i.declarations, d.Open m name)) ∨
    ∃ root rest, isIdent root.toList = true ∧ i.hasCrate root = false ∧
      externalSymbol (root :: rest) = some symbol := by
  have hcrate : ∀ {root}, i.hasCrate root = true → isIdent root.toList = true :=
    fun h => hi.known (by simp [knows, h])
  induction h with
  | @function root inner name isPublic symbol hroot hmem hfunction =>
    rw [functionIn] at hfunction
    split at hfunction
    · next hopen =>
      cases hfunction
      refine Or.inl ⟨_, name, rfl, ?_⟩
      rcases Bool.or_eq_true_iff.mp hopen with rfl | hsame
      · exact Or.inr ⟨_, hmem, .function⟩
      · exact Or.inl ((crateOfModule_modulePath (hcrate hroot) inner).trans (by simpa using hsame))
    · cases hfunction
  | associated _ h =>
    obtain ⟨m, hsymbol, hopen⟩ := open_of_associated h
    exact Or.inl ⟨m, _, hsymbol, hopen⟩
  | imported hroot htarget hstands _ ih =>
    exact ih ((hstands.rooted hi ⟨_, _, rfl, hcrate hroot⟩ fun _ => hi.imports htarget).append _)
  | glob hroot htarget hstands _ ih =>
    exact ih ((hstands.rooted hi ⟨_, _, rfl, hcrate hroot⟩ fun _ => hi.globs htarget).append _)
  | external hroot h =>
    obtain ⟨_, _, heq, hident⟩ := hpath
    cases heq
    exact Or.inr ⟨_, _, hident, hroot, h⟩

/-- A function of a crate without sources is in that crate. -/
theorem package_of_externalSymbol {root m name : String} {rest : List String}
    (h : externalSymbol (root :: rest) = some ⟨some m, name⟩) :
    ∃ inner, m = modulePath (root :: inner) := by
  unfold externalSymbol at h
  split at h
  · cases h
  split at h
  · cases h
  next hpackage =>
  obtain ⟨next, more, rfl⟩ : ∃ next more, rest = next :: more := by
    cases rest with
    | nil => simp at hpackage
    | cons next more => exact ⟨next, more, rfl⟩
  rw [List.dropLast_cons_cons, List.takeWhile_cons] at h
  split at h
  · simp only [Symbol.inPackage, Option.some.injEq, Symbol.mk.injEq] at h
    obtain ⟨hm, -⟩ := h
    split at hm
    · cases hm
    · exact ⟨_, (Option.some.inj hm).symm⟩
  · simp [modulePath_nil, Symbol.inPackage] at h

/-- **Calls into other crates.** Let a path be called in a crate, and let it resolve to a function of
another one that is loaded. Then the module of the function declares one of this name that other
crates can call. -/
theorem resolvePath_offered {p : Program} (hp : p.Identified) {crate other name : String}
    {s : Scope} {home inner path : List String} (hscope : s.module = crate :: home)
    (hcrate : isIdent crate.toList = true) (hloaded : (ofProgram p).hasCrate other = true)
    (hne : other ≠ crate)
    (h : (ofProgram p).resolvePath s path = some ⟨some (modulePath (other :: inner)), name⟩) :
    ∃ found item, p.Indexed (other :: found) item ∧
      modulePath (other :: found) = modulePath (other :: inner) ∧ item.Offers name := by
  have hother := hp.isIdent_of_hasCrate hloaded
  have hrooted := rootedIn_ofProgram hp
  rcases resolvePath_cases h with ⟨absolute, hstands, harrives⟩ | ⟨_, -, _, -, h⟩ | ⟨_, -, h⟩
  · have habsolute := hstands.rooted hrooted ⟨crate, home, hscope, hcrate⟩ (by simp)
    rcases harrives.open hrooted habsolute with
      ⟨m, name', hsymbol, hopen⟩ | ⟨root, rest, hroot, hmissing, hexternal⟩
    · obtain ⟨rfl, rfl⟩ : m = modulePath (other :: inner) ∧ name' = name := by
        simp only [Symbol.inPackage, Symbol.mk.injEq] at hsymbol
        obtain ⟨hm, hname⟩ := hsymbol
        split at hm
        · cases hm
        · exact ⟨(Option.some.inj hm).symm, hname.symm⟩
      rcases hopen with hsame | ⟨d, hd, hopen⟩
      · rw [crateOfModule_modulePath hother, Scope.crate, hscope] at hsame
        exact absurd hsame hne
      · obtain ⟨declaring, item, hindexed, hm, hoffers⟩ := hopen.exists_offers hd
        have hidents := hindexed.identifiers hp
        cases declaring with
        | nil => exact absurd (hm.trans modulePath_nil) (modulePath_ne_of_isIdent hother inner)
        | cons root found =>
          obtain rfl := head_eq_of_modulePath_eq hother (identifiers_cons.mp hidents).1 hm
          exact ⟨found, item, hindexed, hm.symm, hoffers⟩
    · obtain ⟨_, hm⟩ := package_of_externalSymbol hexternal
      obtain rfl := head_eq_of_modulePath_eq hother hroot hm
      rw [hloaded] at hmissing
      cases hmissing
  · cases h
  · cases h

/-! ### A call through a glob import and a renaming -/

/-- The root file of a crate, with its items. -/
def crateRoot (crate : String) (items : List Item) : SourceUnit where
  crate := crate
  module := [crate]
  path := "lib.rs"
  file := { attrs := [], items := items }

namespace Reexport

def facade : Ident := ⟨"facade", by decide⟩

def prelude : Ident := ⟨"prelude", by decide⟩

def engine : Ident := ⟨"engine", by decide⟩

def start : Name := ⟨⟨"start", by decide⟩, by decide⟩

def go : Ident := ⟨"go", by decide⟩

/-- `app` holds `use facade::prelude::*;`, `facade` holds
`mod prelude { pub use engine::start as go; }` and `engine` holds `pub fn start() {}`. -/
def program : Program where
  units :=
    [crateRoot "app" [.use (.path facade (.path prelude .glob)) []],
      crateRoot "facade" [.module ⟨false, none⟩ prelude []
        [.use (.path engine (.rename start.toIdent go)) []]],
      crateRoot "engine" [.function true (.mk start [] [] [])]]
  externs := []

theorem identified : program.Identified := ⟨by decide, by decide⟩

end Reexport

theorem resolvePath_offered_reexport :
    Reexport.program.Identified ∧ (ofProgram Reexport.program).hasCrate "engine" = true ∧
      (ofProgram Reexport.program).resolvePath ⟨["app"], none⟩ ["go"] =
        some ⟨some (modulePath ["engine"]), "start"⟩ ∧
      ∃ found item, Reexport.program.Indexed ("engine" :: found) item ∧
        modulePath ("engine" :: found) = modulePath ["engine"] ∧ item.Offers "start" := by
  have hloaded : (ofProgram Reexport.program).hasCrate "engine" = true := by decide +kernel
  have hresolve : (ofProgram Reexport.program).resolvePath ⟨["app"], none⟩ ["go"] =
      some ⟨some (modulePath ["engine"]), "start"⟩ := by decide +kernel
  have hscope : (Scope.mk ["app"] none).module = "app" :: [] := rfl
  refine ⟨Reexport.identified, hloaded, hresolve, ?_⟩
  exact resolvePath_offered Reexport.identified hscope (by decide) hloaded (by decide) hresolve

end Index

end CallAtlas
