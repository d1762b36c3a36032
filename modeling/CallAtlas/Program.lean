import CallAtlas.Code
import CallAtlas.Text.Split

/-!
# Programs

A program is the list of its source files, each with the module that it defines, in the order in
which they were loaded, and the names of the crates that are known without their sources.
-/

namespace CallAtlas

/-- A source file and the module that it defines. -/
structure SourceUnit where
  /-- The crate that the file was read for. -/
  crate : String
  /-- The path of the module from the crate root, which comes first. -/
  module : List String
  /-- The file, as it was reached. -/
  path : String
  /-- What the file holds. -/
  file : SourceFile

namespace SourceUnit

/-- The path of the module as one text. -/
def moduleKey (u : SourceUnit) : String :=
  modulePath u.module

end SourceUnit

/-- A program. -/
structure Program where
  /-- Its files, in load order. -/
  units : List SourceUnit
  /-- The crates that are known without their sources. -/
  externs : List String

end CallAtlas
