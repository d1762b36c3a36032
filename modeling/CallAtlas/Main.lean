import CallAtlas.CommandLine
import CallAtlas.Workspace.Metadata

/-!
# The program

The command line program. It reads the files below the working directory and, for a pattern, the
description of the workspace, which the package manager prints and which is expected on standard
input:

```text
cargo metadata --no-deps --format-version 1 | callgraph ./...
```

All that is decided is decided by `Command.run`; here its outcome is carried out.
-/

namespace CallAtlas

/-- A place as an absolute path. -/
def absolutePath (place : List String) : String :=
  "/" ++ "/".intercalate place

/-- Adds what lies below a directory to a tree. Links are not followed. -/
partial def gather (t : FileTree) (place : List String) : IO FileTree := do
  let directory ← IO.FS.realPath (absolutePath place)
  let mut t := { t with directories := place :: t.directories }
  for entry in ← directory.readDir do
    let below := place ++ [entry.fileName]
    match (← entry.path.symlinkMetadata).type with
    | .dir => t ← gather t below
    | .file => t := { t with files := (below, ← IO.FS.readBinFile entry.path) :: t.files }
    | _ => pure ()
  return t

/-- The lines of a stream up to its end. -/
partial def readLines (input : IO.FS.Stream) (before : String) : IO String := do
  let line ← input.getLine
  if line.isEmpty then return before else readLines input (before ++ line)

/-- What a command sees of its surroundings. -/
def surroundings (command : Command) : IO (FileTree × Option Workspace) := do
  let place := (FileTree.names (← IO.currentDir).toString).filter (· != "")
  let nothing : FileTree := ⟨place, [], []⟩
  match command with
  | .analyze analysis _ =>
    let tree ← gather nothing place
    if PathText.extension? analysis.target == some "rs" then return (tree, none)
    else return (tree, Workspace.ofMetadata? (← readLines (← IO.getStdin) ""))
  | _ => return (nothing, none)

/-- Says why a run has failed. -/
def report (failure : Failure) : IO Unit := do
  match failure.line? with
  | none => IO.eprint Command.helpText
  | some line => IO.eprintln line
  match failure with
  | .load e => IO.eprint ("\nCaused by:\n    " ++ e.message ++ "\n")
  | _ => pure ()

end CallAtlas

open CallAtlas in
/-- Runs the command line program. -/
def main (words : List String) : IO UInt32 := do
  let command := Command.ofArguments words
  let (tree, workspace) ← surroundings command
  let outcome := command.run tree workspace
  for (place, bytes) in tree.changed outcome.files do
    IO.FS.writeBinFile (absolutePath place) bytes
  IO.print outcome.output
  outcome.failure.forM report
  return outcome.exitCode.toUInt32
