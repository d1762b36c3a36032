import CallAtlas.Load.ModuleTree
import CallAtlas.Workspace

/-!
# Loading programs

A target of the command line is a source file, which is a program by itself, or a pattern for
packages of a workspace. The description of the workspace is there only if the package manager has
printed one.
-/

namespace CallAtlas

/-- Can the package manager be started for a selection? It is started in the directory, if one is
given. -/
def Selection.isStartable (t : FileTree) : Selection → Bool
  | .manifest _ => true
  | .under directory => t.isDirectory directory

namespace Program

/-- The program of a single file. Modules that it declares elsewhere are not read. -/
def ofFile (t : FileTree) (path : String) : Except LoadError Program :=
  let crate := CrateName.ofFile path
  match t.readText path with
  | .error fault => .error (.read path fault)
  | .ok text => return ⟨[← SourceUnit.ofText crate [crate] path text], []⟩

/-- The crates of some packages: the name and the root file of each target that belongs to the
program. -/
def crates (packages : List Package) : List (String × String) :=
  packages.flatMap fun p =>
    (p.targets.filter (·.isProgram)).map fun target =>
      (CrateName.ofPackage target.name, target.source)

/-- The crates that some packages depend on, by the names that they have there. -/
def localNames (packages : List Package) : List String :=
  packages.flatMap fun p => p.dependencies.map fun d => CrateName.ofPackage d.localName

/-- The program of some packages of a workspace. -/
def ofPackages (t : FileTree) (pattern : String) (packages : List Package) :
    Except LoadError Program :=
  let reading := (crates packages).forM fun (name, root) => Reader.readCrate t name root
  match StateT.run (ExceptT.run reading) Reader.empty with
  | (.error e, _) => .error e
  | (.ok (), reader) =>
    if reader.units.isEmpty then .error (.noSources pattern)
    else .ok ⟨reader.units, localNames packages⟩

/-- The program that a pattern selects from a workspace. -/
def ofPattern (t : FileTree) (workspace : Option Workspace) (pattern : String) :
    Except LoadError Program :=
  let selection := Selection.ofPattern pattern
  match workspace with
  | none => .error .metadata
  | some w =>
    if !selection.isStartable t then .error .metadata
    else
      match w.select t selection with
      | [] => .error (.noPackages pattern)
      | packages => ofPackages t pattern packages

/-- The program that a target names. -/
def load (t : FileTree) (workspace : Option Workspace) (target : String) :
    Except LoadError Program :=
  if PathText.extension? target == some "rs" then ofFile t target
  else ofPattern t workspace target

end Program

end CallAtlas
