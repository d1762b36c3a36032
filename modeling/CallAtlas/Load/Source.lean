import CallAtlas.Grammar.File
import CallAtlas.Load.Error
import CallAtlas.Program

/-!
# Loading source text

A source file of a program from its text.
-/

namespace CallAtlas

namespace SourceUnit

/-- The file of a module, from its text. -/
def ofText (crate : String) (module : List String) (path text : String) :
    Except LoadError SourceUnit :=
  match SourceFile.parse text with
  | .ok file => .ok ⟨crate, module, path, file⟩
  | .error place => .error (.parse path place)

end SourceUnit

end CallAtlas
