import CallAtlas.Files.Tree
import CallAtlas.Load.Source

/-!
# Module trees

A crate is read from its root file on: each `mod name;` names another file, which is read in turn.
The files of a module lie next to the file that declares it, if that is a crate root, a `mod.rs` or
a file given by a path, and otherwise in a directory of that file's name. Inline modules stand for
directories as well.

A file is read once for each crate that reaches it, whatever the path by which it is reached. Files
are identified by their place, so circles of declarations end: each further file is one that has not
been reached before.

## Main definitions

* `ModuleFile`, `moduleFiles` — the declarations of a file whose contents lie elsewhere.
* `Reader`, `Reader.readCrate` — reading crates one after the other.
-/

namespace CallAtlas

/-- The declaration of a module whose contents lie in another file. -/
structure ModuleFile where
  /-- The path of the module. -/
  module : List String
  /-- Where its file may be, in the order in which it is looked for. -/
  candidates : List String
  /-- May the file be missing? -/
  gated : Bool
  /-- Is the file given by a path? -/
  explicit : Bool
  deriving DecidableEq

namespace ModuleFile

/-- The declaration of a module in a module, where files are looked for in `directory`, and paths
are seen from `base`. -/
def ofDeclaration (module : List String) (directory base : String) (attributes : ModuleAttributes)
    (name : Ident) : ModuleFile where
  module := module ++ [name.text]
  candidates :=
    match attributes.path with
    | some path => [PathText.join base path]
    | none =>
      [PathText.join directory (name.text ++ ".rs"),
        PathText.join (PathText.join directory name.text) "mod.rs"]
  gated := attributes.gated
  explicit := attributes.path.isSome

mutual
/-- The declarations in an item. -/
def ofItem (module : List String) (directory base : String) : Item → List ModuleFile
  | .module attributes name _ items =>
    let inner := PathText.join directory (attributes.path.getD name.text)
    ofItems (module ++ [name.text]) inner inner items
  | .moduleFile attributes name _ => [ofDeclaration module directory base attributes name]
  | _ => []

/-- The declarations in several items. -/
def ofItems (module : List String) (directory base : String) : List Item → List ModuleFile
  | [] => []
  | item :: rest => ofItem module directory base item ++ ofItems module directory base rest
end

/-- The declarations of a file. It owns its directory if its modules lie next to it. -/
def ofUnit (u : SourceUnit) (ownsDirectory : Bool) : List ModuleFile :=
  let base := (PathText.parent? u.path).getD "."
  let directory :=
    match ownsDirectory, PathText.stem? u.path with
    | false, some stem => PathText.join base stem
    | _, _ => base
  ofItems u.module directory base u.file.items

end ModuleFile

/-- What has been read so far. -/
structure Reader where
  /-- The files, in the order in which they were read. -/
  units : List SourceUnit
  /-- The files that were reached, for each crate. -/
  seen : List (String × List String)

namespace Reader

/-- Nothing has been read. -/
def empty : Reader :=
  ⟨[], []⟩

/-- A step of reading. What has been read before an error stays. -/
abbrev Step := ExceptT LoadError (StateM Reader)

/-- Reads the file of a module and adds it. -/
def readUnit (t : FileTree) (crate : String) (module : List String) (path : String) :
    Step SourceUnit := do
  match t.readText path with
  | .error fault => throw (.read path fault)
  | .ok text =>
    match SourceUnit.ofText crate module path text with
    | .error e => throw e
    | .ok found =>
      modify fun r => { r with units := r.units ++ [found] }
      return found

/-- Reads a module and the modules in it. Each file below is one more that has been reached, so the
number of files bounds the depth. -/
def readModule (t : FileTree) (crate : String) :
    Nat → List String → String → Bool → Step Unit
  | 0, _, _, _ => return
  | depth + 1, module, path, ownsDirectory => do
    let key := (crate, t.canonical path)
    if (← get).seen.contains key then return
    modify fun r => { r with seen := key :: r.seen }
    let found ← readUnit t crate module path
    (ModuleFile.ofUnit found ownsDirectory).forM fun declared =>
      match declared.candidates.find? t.isFile with
      | some file =>
        readModule t crate depth declared.module file
          (declared.explicit || PathText.fileName? file == some "mod.rs")
      | none =>
        if declared.gated then return
        else throw (.moduleNotFound (modulePath declared.module) path)

/-- Reads a crate from its root file. -/
def readCrate (t : FileTree) (crate root : String) : Step Unit :=
  readModule t crate (t.files.length + 1) [crate] root true

end Reader

end CallAtlas
