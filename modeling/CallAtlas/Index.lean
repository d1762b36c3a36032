import CallAtlas.Index.Declaration

/-!
# Symbol tables

The tables by which names are looked up, read off the list of declarations. Where a name is declared
twice in a module, the later declaration counts; what two crates or types declare under one name is
kept apart by module.

## Main definitions

* `ModuleScope`, `Index.scope?` — the names that a module declares.
* `Index.methodsOf` — the methods of a type, by name.
* `Index.methodModules`, `Index.traitModules` — where methods of a name are declared.
-/

namespace CallAtlas

/-- The value of the last entry for a key. -/
def lookupLast {α : Type} (key : String) (entries : List (String × α)) : Option α :=
  entries.reverse.lookup key

/-- The least of some texts, by code points. -/
def leastText? : List String → Option String
  | [] => none
  | first :: rest => some (rest.foldl (fun a b => if b < a then b else a) first)

/-- The last entry for each key. -/
def lastEntries {α : Type} : List (String × α) → List (String × α)
  | [] => []
  | entry :: rest =>
    if (rest.map Prod.fst).contains entry.1 then lastEntries rest else entry :: lastEntries rest

/-- Some texts by code points, each once. -/
def sortedTexts (texts : List String) : List String :=
  texts.eraseDups.mergeSort fun a b => !(b < a)

/-- The names that a module declares, in source order. -/
structure ModuleScope where
  /-- Its functions, and whether they are public. -/
  functions : List (String × Bool)
  /-- Its types and traits. -/
  types : List String
  /-- Its submodules. -/
  modules : List String
  /-- The names that its imports bind, and the paths that they stand for. -/
  imports : List (String × List String)
  /-- The paths of which it imports everything. -/
  globs : List (List String)

namespace ModuleScope

/-- Does the module itself define the name? -/
def defines (s : ModuleScope) (name : String) : Bool :=
  (s.functions.map Prod.fst).contains name || s.types.contains name || s.modules.contains name

/-- Does the module declare the name, by a definition or an import? -/
def declares (s : ModuleScope) (name : String) : Bool :=
  s.defines name || (s.imports.map Prod.fst).contains name

/-! ### The scope as tables -/

/-- Its functions, each once. -/
def functionTable (s : ModuleScope) : List (String × Bool) :=
  lastEntries s.functions

/-- The names that its imports bind, each once. -/
def importTable (s : ModuleScope) : List (String × List String) :=
  lastEntries s.imports

/-- Its types and traits, each once and sorted. -/
def typeNames (s : ModuleScope) : List String :=
  sortedTexts s.types

/-- Its submodules, each once and sorted. -/
def moduleNames (s : ModuleScope) : List String :=
  sortedTexts s.modules

end ModuleScope

/-- The declarations of a program. -/
structure Index where
  /-- The declarations, in source order. -/
  declarations : List Declaration

namespace Index

/-- The index of a program. -/
def ofProgram (p : Program) : Index :=
  ⟨Declaration.ofProgram p⟩

/-- Is there a module of this name? -/
def hasModule (i : Index) (module : String) : Bool :=
  i.declarations.contains (.module module)

/-- Is this a crate whose sources are loaded? -/
def hasCrate (i : Index) (name : String) : Bool :=
  i.declarations.contains (.crate name)

/-- Is this a crate that is known without its sources? -/
def hasExternCrate (i : Index) (name : String) : Bool :=
  i.declarations.contains (.externCrate name)

/-- The functions of a module. -/
def functions (i : Index) (module : String) : List (String × Bool) :=
  i.declarations.filterMap fun
    | .function m name isPublic => if m = module then some (name, isPublic) else none
    | _ => none

/-- The types of a module. -/
def types (i : Index) (module : String) : List String :=
  i.declarations.filterMap fun
    | .type m name => if m = module then some name else none
    | _ => none

/-- The submodules of a module. -/
def submodules (i : Index) (module : String) : List String :=
  i.declarations.filterMap fun
    | .submodule m name => if m = module then some name else none
    | _ => none

/-- The names that the imports of a module bind. -/
def imports (i : Index) (module : String) : List (String × List String) :=
  i.declarations.filterMap fun
    | .imported m newName path => if m = module then some (newName, path) else none
    | _ => none

/-- The paths of which a module imports everything. -/
def globs (i : Index) (module : String) : List (List String) :=
  i.declarations.filterMap fun
    | .glob m path => if m = module then some path else none
    | _ => none

/-- The names that a module declares. -/
def scope? (i : Index) (module : String) : Option ModuleScope :=
  if i.hasModule module then
    some ⟨i.functions module, i.types module, i.submodules module, i.imports module, i.globs module⟩
  else none

/-- Does a module declare a name? -/
def declares (i : Index) (module name : String) : Bool :=
  (i.scope? module).any (·.declares name)

/-! ### Methods -/

/-- The modules that declare a method of this name for this type, and whether other crates can call
it. -/
def methodsOf (i : Index) (type name : String) : List (String × Bool) :=
  i.declarations.filterMap fun
    | .method m t n isPublic => if t = type ∧ n = name then some (m, isPublic) else none
    | _ => none

/-- The modules that declare a method of this name for any type. -/
def methodModules (i : Index) (name : String) : List String :=
  i.declarations.filterMap fun
    | .method m _ n _ => if n = name then some m else none
    | _ => none

/-- The modules that declare a trait with a method of this name. -/
def traitModules (i : Index) (name : String) : List String :=
  i.declarations.filterMap fun
    | .traitMethod m n => if n = name then some m else none
    | _ => none

end Index

end CallAtlas
