import CallAtlas.Files.Tree
import CallAtlas.Load.CrateName

/-!
# Workspaces

The packages of a workspace, as the package manager describes them, and the patterns by which a user
selects some of them: a directory or a manifest names one package, and a pattern that ends in `...`
names all packages below a directory.
-/

namespace CallAtlas

/-- A target of a package: something that is built from a root file. -/
structure Target where
  /-- Its name. -/
  name : String
  /-- What it is built as. -/
  kinds : List String
  /-- Its root file. -/
  source : String
  deriving DecidableEq

namespace Target

/-- The kinds of targets that belong to a program, other than its tests, examples and build scripts.
-/
def programKinds : List String :=
  ["lib", "rlib", "dylib", "cdylib", "staticlib", "proc-macro", "bin"]

/-- Does a target belong to the program? -/
def isProgram (t : Target) : Bool :=
  t.kinds.any programKinds.contains

end Target

/-- A package that another one depends on. -/
structure Dependency where
  /-- Its name. -/
  name : String
  /-- The name that the other one has given it, if any. -/
  rename : Option String
  deriving DecidableEq

namespace Dependency

/-- The name by which the other package knows it. -/
def localName (d : Dependency) : String :=
  d.rename.getD d.name

end Dependency

/-- A package. -/
structure Package where
  /-- Its name. -/
  name : String
  /-- What identifies it. -/
  id : String
  /-- The path of its manifest. -/
  manifest : String
  /-- Its targets. -/
  targets : List Target
  /-- The packages that it depends on. -/
  dependencies : List Dependency
  deriving DecidableEq

/-- A workspace. -/
structure Workspace where
  /-- The packages that are described. -/
  packages : List Package
  /-- The identities of the packages that belong to the workspace. -/
  members : List String
  deriving DecidableEq

/-- Which packages a pattern selects. -/
inductive Selection where
  /-- The package of a manifest. -/
  | manifest (path : String)
  /-- The packages whose manifests lie below a directory. -/
  | under (directory : String)
  deriving DecidableEq, Repr

namespace Selection

/-- The characters before a final `...`. -/
def beforeDots? (cs : List Char) : Option (List Char) :=
  match cs.reverse with
  | '.' :: '.' :: '.' :: rest => some rest.reverse
  | _ => none

/-- Characters without the separators at their end. -/
def withoutSeparators (cs : List Char) : List Char :=
  (cs.reverse.dropWhile fun c => c == '/' || c == '\\').reverse

/-- The selection of a pattern. -/
def ofPattern (pattern : String) : Selection :=
  match beforeDots? pattern.toList with
  | some before =>
    let directory := withoutSeparators before
    .under (if directory.isEmpty then "." else String.ofList directory)
  | none =>
    if PathText.fileName? pattern == some "Cargo.toml" then .manifest pattern
    else .manifest (PathText.join pattern "Cargo.toml")

/-- Does a selection accept a package? -/
def accepts (t : FileTree) (selection : Selection) (p : Package) : Bool :=
  match selection with
  | .manifest path => t.canonical p.manifest == t.canonical path
  | .under directory =>
    (PathText.parent? p.manifest).any fun parent =>
      (t.canonical directory).isPrefixOf (t.canonical parent)

end Selection

namespace Workspace

/-- The packages of the members, in member order. An identity that no package has is passed over. -/
def memberPackages (w : Workspace) : List Package :=
  w.members.filterMap fun id => w.packages.find? (·.id == id)

/-- The packages that a selection accepts. -/
def select (t : FileTree) (w : Workspace) (selection : Selection) : List Package :=
  w.memberPackages.filter (selection.accepts t)

end Workspace

end CallAtlas
