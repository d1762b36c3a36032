import CallAtlas.Location

/-!
# Why a program cannot be loaded

Each of these ends a run before anything is written: there is no graph of a part of a program.
-/

namespace CallAtlas

/-- Why a file cannot be read. -/
inductive ReadFault where
  | missing
  | isDirectory
  /-- A file stands where the path needs a directory. -/
  | notDirectory
  /-- The bytes of the file are no text. -/
  | notText
  deriving DecidableEq, Repr

namespace ReadFault

/-- The reason in words. -/
def message : ReadFault → String
  | .missing => "No such file or directory (os error 2)"
  | .isDirectory => "Is a directory (os error 21)"
  | .notDirectory => "Not a directory (os error 20)"
  | .notText => "stream did not contain valid UTF-8"

end ReadFault

/-- Why a program cannot be loaded. -/
inductive LoadError where
  | read (path : String) (fault : ReadFault)
  | parse (path : String) (place : Place)
  | moduleNotFound (module declaredIn : String)
  /-- The description of the workspace is missing or faulty. -/
  | metadata
  | noPackages (pattern : String)
  | noSources (pattern : String)
  deriving DecidableEq, Repr

namespace LoadError

/-- The error in words. -/
def message : LoadError → String
  | .read path fault => "cannot read " ++ path ++ ": " ++ fault.message
  | .parse path place => (Location.ofPlace path place).render ++ ": parse error"
  | .moduleNotFound module declaredIn =>
    "file not found for module `" ++ module ++ "` declared in " ++ declaredIn
  | .metadata => "cargo metadata failed"
  | .noPackages pattern => "no package matches `" ++ pattern ++ "`"
  | .noSources pattern => "packages matching `" ++ pattern ++ "` have no library or binary sources"

end LoadError

end CallAtlas
