import CallAtlas.Proofs.Additions
import CallAtlas.Proofs.Crates
import CallAtlas.Proofs.Spelling

/-!
# Imports from crates without sources

An import such as `use regex::escape;` binds a name to a path into a crate whose sources are not
loaded. A call of the name is then resolved by the shape of that path.

The path of an import is read in the module where that stands, so its first name is looked up there in
turn. As a rule the module makes nothing of the name of a crate, and the path is taken as it is. But
`use glob::glob;` binds the very name that its path starts with. There the path leads back to itself,
and with each turn the names behind the crate are put at the end once more. Only the limit on the
number of steps ends this, so a call of `glob` leads to a path on which they are repeated as often as
there were steps.

## Main definitions

* `Index.ExternImport` — a module that imports a name from a crate without sources.

## Main results

* `Index.ExternImport.absolutize_path_of_ne`, `Index.ExternImport.absolutize_path_of_eq` — what the
  path of the import stands for in its own module.
* `Index.resolvePath_externImport` — what a call of the name resolves to.
-/

namespace CallAtlas

namespace Index

variable {i : Index} {module inner : List String} {name crate : String}

/-- A module imports a name by a path into a crate without sources, and makes nothing else of the
name or of the crate. -/
structure ExternImport (i : Index) (module : List String) (name crate : String)
    (inner : List String) : Prop where
  /-- The module is known. -/
  hasModule : i.hasModule (modulePath module) = true
  /-- It has no glob imports. -/
  globs : i.globs (modulePath module) = []
  /-- The name stands for a path that starts with the crate. -/
  imported : lookupLast name (i.imports (modulePath module)) = some (crate :: inner)
  /-- The path goes on behind the crate. -/
  goesOn : inner ≠ []
  /-- The crate is known. -/
  hasExternCrate : i.hasExternCrate crate = true
  /-- Its sources are not loaded. -/
  unloaded : i.hasCrate crate = false
  /-- Its name has no meaning of its own on a path. -/
  crateWord : crate ∉ pathKeywords
  /-- The module does not define the name of the crate. -/
  crateFree : i.defines (modulePath module) crate = false
  /-- No other import binds the name of the crate. -/
  crateUnbound : name ≠ crate → crate ∉ (i.imports (modulePath module)).map Prod.fst
  /-- The module does not define the name. -/
  nameFree : i.defines (modulePath module) name = false

namespace ExternImport

/-- The module takes the name for the path of the import. -/
theorem fromModule_name (h : i.ExternImport module name crate inner) (steps : Nat)
    (rest : List String) :
    i.fromModule steps module name rest =
      (i.absolutize steps module none true (crate :: inner)).map (· ++ rest) := by
  have hother : crate :: inner ≠ [name] := by simp [h.goesOn]
  rw [fromModule_eq, h.nameFree, scope?_of_hasModule h.hasModule, h.imported, h.globs]
  simp [hother, globDeclaring]

/-- Where the name is another one, the module makes nothing of the crate. -/
theorem fromModule_crate (h : i.ExternImport module name crate inner) (hne : name ≠ crate)
    (steps : Nat) (rest : List String) : i.fromModule steps module crate rest = none := by
  have hunbound : lookupLast crate (i.imports (modulePath module)) = none := by
    rw [lookupLast_eq_none_iff, Bool.eq_false_iff, ne_eq, List.contains_iff_mem]
    exact h.crateUnbound hne
  rw [fromModule_eq, h.crateFree, hunbound, h.globs]
  simp [globDeclaring]

theorem globalPath_crate (h : i.ExternImport module name crate inner) (fromUse : Bool)
    (segments : List String) : i.globalPath fromUse crate segments = some segments := by
  simp [globalPath, h.hasExternCrate]

/-- Where the name is another one, the path of the import stands for itself. -/
theorem absolutize_path_of_ne (h : i.ExternImport module name crate inner) (hne : name ≠ crate)
    (steps : Nat) :
    i.absolutize (steps + 1) module none true (crate :: inner) = some (crate :: inner) := by
  rw [absolutize_of_not_keyword h.crateWord, h.fromModule_crate hne, Option.none_or,
    h.globalPath_crate]

/-- Where the name is that of the crate, each step leads back to the import, and its end is put behind
what the next one gives. In the last step the crate is taken as it is. -/
theorem absolutize_path_of_eq (h : i.ExternImport module crate crate inner) (steps : Nat) :
    i.absolutize (steps + 1) module none true (crate :: inner) =
      some (crate :: (List.replicate (steps + 1) inner).flatten) := by
  induction steps with
  | zero =>
    have hlast : i.absolutize 0 module none true (crate :: inner) = none := rfl
    rw [absolutize_of_not_keyword h.crateWord, h.fromModule_name, hlast, Option.map_none,
      Option.none_or, h.globalPath_crate]
    simp
  | succ steps ih =>
    rw [absolutize_of_not_keyword h.crateWord, h.fromModule_name, ih, Option.map_some,
      Option.some_or, List.replicate_succ' (n := steps + 1), List.flatten_append]
    simp

/-- A call of the name is resolved by what the path of the import stands for. -/
theorem resolvePath_name {s : Scope} (h : i.ExternImport s.module name crate inner)
    (hname : name ∉ pathKeywords) {rest : List String}
    (hpath : i.absolutize (stepLimit - 1) s.module none true (crate :: inner) =
      some (crate :: rest)) :
    i.resolvePath s [name] = externalSymbol (crate :: rest) := by
  have habsolute : i.absolutize stepLimit s.module s.selfType false [name] = some (crate :: rest) := by
    rw [stepLimit, absolutize_of_not_keyword hname, h.fromModule_name]
    rw [stepLimit] at hpath
    simp [hpath]
  rw [resolvePath_of_absolutize (Or.inl rfl) habsolute, stepLimit, locate, h.unloaded]
  simp

end ExternImport

/-- **Imports from crates without sources.** A call of an imported name leads where the path says that
it is imported by, unless that binds the name of the crate itself. Then what stands behind the crate
comes sixteen times. -/
theorem resolvePath_externImport (i : Index) (s : Scope) (name crate : String) (inner : List String)
    (h : i.ExternImport s.module name crate inner) (hname : name ∉ pathKeywords) :
    (name ≠ crate → i.resolvePath s [name] = externalSymbol (crate :: inner)) ∧
      (name = crate → i.resolvePath s [name] =
        externalSymbol (crate :: (List.replicate 16 inner).flatten)) := by
  constructor
  · intro hne
    exact h.resolvePath_name hname (h.absolutize_path_of_ne hne 15)
  · rintro rfl
    exact h.resolvePath_name hname (h.absolutize_path_of_eq 15)

namespace Glob

def glob : Ident := ⟨"glob", by decide⟩

def which : Ident := ⟨"which", by decide⟩

def lookup : Ident := ⟨"lookup", by decide⟩

/-- `use glob::glob; use which::which as lookup;`. -/
def program : Program where
  units := [crateRoot "demo"
    [.use (.path glob (.name glob)) [], .use (.path which (.rename which lookup)) []]]
  externs := ["glob", "which"]

end Glob

theorem resolvePath_externImport_lookup :
    (ofProgram Glob.program).ExternImport ["demo"] "lookup" "which" ["which"] ∧
      "lookup" ∉ pathKeywords ∧
      (ofProgram Glob.program).resolvePath ⟨["demo"], none⟩ ["lookup"] =
        some ⟨some "which", "which"⟩ := by
  have himport : (ofProgram Glob.program).ExternImport ["demo"] "lookup" "which" ["which"] := by
    constructor <;> decide
  have hname : "lookup" ∉ pathKeywords := by decide
  have hexternal : externalSymbol ["which", "which"] = some ⟨some "which", "which"⟩ := by
    decide
  have hresolve := resolvePath_externImport (ofProgram Glob.program) ⟨["demo"], none⟩ "lookup" "which"
    ["which"] himport hname
  exact ⟨himport, hname, (hresolve.1 (by decide)).trans hexternal⟩

/-- An import that binds the name of its crate: the call does not lead to `glob.glob`. -/
theorem resolvePath_glob_repeated :
    (ofProgram Glob.program).ExternImport ["demo"] "glob" "glob" ["glob"] ∧
      externalSymbol ["glob", "glob"] = some ⟨some "glob", "glob"⟩ ∧
      (ofProgram Glob.program).resolvePath ⟨["demo"], none⟩ ["glob"] =
        some ⟨some (modulePath (List.replicate 16 "glob")), "glob"⟩ ∧
      (ofProgram Glob.program).resolvePath ⟨["demo"], none⟩ ["glob"] ≠
        externalSymbol ["glob", "glob"] := by
  refine ⟨?_, ?_, ?_, ?_⟩
  · constructor <;> decide
  all_goals decide

end Index

end CallAtlas
