import CallAtlas.Program

/-!
# What a program declares

The declarations of a program as one list, in source order: functions, types, submodules and imports
of each module, and the methods of traits and `impl` blocks. Items in the body of a function belong
to the module around it. Blocks inside a body are not looked into.

A module is named by its path from the crate root, written `a::b::c`.

## Main definitions

* `Declaration` — one entry.
* `Declaration.ofUnit`, `Declaration.ofProgram` — the entries of a file and of a program.
-/

namespace CallAtlas

/-- One thing that a program declares. -/
inductive Declaration where
  /-- A crate whose sources are loaded. -/
  | crate (name : String)
  /-- A crate that is known without its sources. -/
  | externCrate (name : String)
  | module (module : String)
  | function (module name : String) (isPublic : Bool)
  | type (module name : String)
  | submodule (module name : String)
  /-- A name that an import binds, and the path that it stands for, as written. -/
  | imported (module newName : String) (path : List String)
  /-- An import of all that a path holds. -/
  | glob (module : String) (path : List String)
  /-- A method of a type or a trait. It is public if other crates can call it. -/
  | method (module type name : String) (isPublic : Bool)
  /-- A method that a trait declares. -/
  | traitMethod (module name : String)
  deriving DecidableEq

namespace Declaration

/-! ### Imports -/

mutual
/-- The names that the tree of an import binds in a module, behind the names that lead to it. A
`self` binds the last of those; a rename to `_` binds nothing. -/
def ofUseTree (module : String) (before : List String) : UseTree → List Declaration
  | .path name tree => ofUseTree module (before ++ [name.text]) tree
  | .name name =>
    if name.text = "self" then
      match before.getLast? with
      | some newName => [.imported module newName before]
      | none => []
    else [.imported module name.text (before ++ [name.text])]
  | .rename name newName =>
    if newName.text = "_" then []
    else [.imported module newName.text
      (if name.text = "self" then before else before ++ [name.text])]
  | .glob => [.glob module before]
  | .group trees => ofUseTrees module before trees

/-- The names that several trees bind. -/
def ofUseTrees (module : String) (before : List String) : List UseTree → List Declaration
  | [] => []
  | tree :: rest => ofUseTree module before tree ++ ofUseTrees module before rest
end

/-- What the declaration of an external crate declares. The crate `self` is not external. -/
def ofExternCrate (module : String) (name : Ident) (newName : Option Ident) : List Declaration :=
  if name.text = "self" then []
  else [.externCrate name.text, .imported module ((newName.getD name).text) [name.text]]

/-! ### Items -/

mutual
/-- What an item declares in a module. -/
def ofItem (path : List String) : Item → List Declaration
  | .function isPublic (.mk name _ _ body) =>
    .function (modulePath path) name.text isPublic :: ofStmts path body
  | .type name _ => [.type (modulePath path) name.text]
  | .trait isPublic name _ members =>
    .type (modulePath path) name.text :: ofTraitMembers path name.text isPublic members
  | .impl form ofTrait _ members =>
    match form.lastName? with
    | some name => ofImplMembers path name.text ofTrait members
    | none => []
  | .module _ name _ items =>
    .submodule (modulePath path) name.text :: .module (modulePath (path ++ [name.text])) ::
      ofItems (path ++ [name.text]) items
  | .moduleFile _ name _ => [.submodule (modulePath path) name.text]
  | .use tree _ => ofUseTree (modulePath path) [] tree
  | .externCrate name newName _ => ofExternCrate (modulePath path) name newName
  | .other _ => []

/-- What several items declare. -/
def ofItems (path : List String) : List Item → List Declaration
  | [] => []
  | item :: rest => ofItem path item ++ ofItems path rest

/-- What the items among some statements declare. -/
def ofStmts (path : List String) : List Stmt → List Declaration
  | [] => []
  | .item item :: rest => ofItem path item ++ ofStmts path rest
  | _ :: rest => ofStmts path rest

/-- What the members of a trait declare. A method is as visible as its trait. -/
def ofTraitMembers (path : List String) (type : String) (isPublic : Bool) :
    List Member → List Declaration
  | [] => []
  | .function _ (.mk name _ _ body) :: rest =>
    .method (modulePath path) type name.text isPublic :: .traitMethod (modulePath path) name.text ::
      (ofStmts path body ++ ofTraitMembers path type isPublic rest)
  | .required name _ :: rest =>
    .method (modulePath path) type name.text isPublic :: .traitMethod (modulePath path) name.text ::
      ofTraitMembers path type isPublic rest
  | .other _ :: rest => ofTraitMembers path type isPublic rest

/-- What the members of an `impl` block declare. A method of a trait is as visible as the trait,
which is taken to be public. -/
def ofImplMembers (path : List String) (type : String) (ofTrait : Bool) :
    List Member → List Declaration
  | [] => []
  | .function isPublic (.mk name _ _ body) :: rest =>
    .method (modulePath path) type name.text (ofTrait || isPublic) ::
      (ofStmts path body ++ ofImplMembers path type ofTrait rest)
  | _ :: rest => ofImplMembers path type ofTrait rest
end

/-! ### Programs -/

/-- The crate that a module belongs to. -/
def crateOf (module : List String) : List Declaration :=
  module.head?.toList.map .crate

/-- What a file declares. -/
def ofUnit (u : SourceUnit) : List Declaration :=
  crateOf u.module ++ .module u.moduleKey :: ofItems u.module u.file.items

/-- Crates that are always known. -/
def standardCrates : List String :=
  ["std", "core", "alloc", "proc_macro", "test"]

/-- What a program declares. -/
def ofProgram (p : Program) : List Declaration :=
  (standardCrates ++ p.externs).map .externCrate ++ p.units.flatMap ofUnit

end Declaration

end CallAtlas
