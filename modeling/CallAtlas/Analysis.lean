import CallAtlas.Load
import CallAtlas.Report
import CallAtlas.Walk

/-!
# Analyses

A run of the whole analysis: a program is loaded, its call graph is built, and the graph is written
in a format. Nothing is written before the program has been loaded completely.
-/

namespace CallAtlas

/-- What is analysed, and how. -/
structure Analysis where
  /-- A source file, or a pattern for packages. -/
  target : String
  /-- The format of the result. -/
  format : Format
  /-- Are calls looked for in the arguments of macros? -/
  macros : Bool
  deriving DecidableEq, Repr

namespace Analysis

/-- What a run that could not load its program says. -/
def loadFailure : String :=
  "failed to load program"

/-- The failure with its cause. -/
def failureText (e : LoadError) : String :=
  loadFailure ++ ": " ++ e.message

/-- The call graph of the target. -/
def graph (t : FileTree) (workspace : Option Workspace) (a : Analysis) :
    Except LoadError CallGraph :=
  (Program.load t workspace a.target).map fun p => CallGraph.ofProgram p a.macros

/-- Writes the call graph of the target behind what has been written before. -/
def run (t : FileTree) (workspace : Option Workspace) (a : Analysis) (written : String) :
    Except LoadError CallGraph × String :=
  match a.graph t workspace with
  | .error e => (.error e, written)
  | .ok g => (.ok g, written ++ a.format.render g)

end Analysis

end CallAtlas
