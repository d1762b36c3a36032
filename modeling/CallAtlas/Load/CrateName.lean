import CallAtlas.Files.PathText
import CallAtlas.Text.Alphanumeric

/-!
# Names of crates

The name of a crate in paths, from the name of a file or of a package.
-/

namespace CallAtlas

namespace CrateName

/-- The name of the crate that a file alone makes up: its stem, with underscores for what cannot
stand in a name. -/
def ofFile (path : String) : String :=
  let stem := ((PathText.stem? path).getD "").toList
  if stem.isEmpty then "main"
  else String.ofList (stem.map fun c =>
    if CharClass.alphanumeric.contains c || c == '_' then c else '_')

/-- The name by which a package is known in paths, with underscores for hyphens. -/
def ofPackage (name : String) : String :=
  String.ofList (name.toList.map fun c => if c = '-' then '_' else c)

end CrateName

end CallAtlas
