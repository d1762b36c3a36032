import CallAtlas.Text.Split

/-!
# Paths of files

The path of a file as text, with `/` between names. Paths are kept as they are written; what they
have in common with another spelling shows in their components, in which repeated separators and the
name `.` do not count, other than at the start.

## Main definitions

* `components` — what tells two paths apart.
* `fileName?`, `stem?`, `extension?`, `parent?`, `join`.
-/

namespace CallAtlas

namespace PathText

/-- Does a path start at the root? -/
def isAbsolute (path : String) : Bool :=
  path.toList.head? == some '/'

/-- The start of a path that is kept in any case, `/` or `.` or nothing, and the names behind it. -/
def split : List Char → List Char × List (List Char)
  | '/' :: rest => (['/'], splitOnChar '/' rest)
  | ['.'] => (['.'], [])
  | '.' :: '/' :: rest => (['.'], [] :: splitOnChar '/' rest)
  | cs => ([], splitOnChar '/' cs)

/-- Does a name between separators lead nowhere? -/
def isVoid (name : List Char) : Bool :=
  name == [] || name == ['.']

/-- Names without those at the end that lead nowhere. -/
def trim (names : List (List Char)) : List (List Char) :=
  (names.reverse.dropWhile isVoid).reverse

/-- What tells paths apart: the root, a leading `.`, and the names that lead somewhere. -/
def components (path : String) : List String :=
  let (start, names) := split path.toList
  (if start.isEmpty then [] else [String.ofList start]) ++
    (names.filter (!isVoid ·)).map String.ofList

/-- The last name of a path, if it names something in a directory. -/
def fileName? (path : String) : Option String :=
  match (trim (split path.toList).2).getLast? with
  | some name => if name = ['.', '.'] then none else some (String.ofList name)
  | none => none

/-- A name before and behind its last dot. A dot in front does not count. -/
def splitExtension (name : String) : String × Option String :=
  match splitAtLast '.' name.toList with
  | some ([], _) => (name, none)
  | some (stem, extension) => (String.ofList stem, some (String.ofList extension))
  | none => (name, none)

/-- The file name without its extension. -/
def stem? (path : String) : Option String :=
  (fileName? path).map fun name => (splitExtension name).1

/-- The extension of the file name. -/
def extension? (path : String) : Option String :=
  (fileName? path).bind fun name => (splitExtension name).2

/-- The path without its last component. The root and the empty path have none. -/
def parent? (path : String) : Option String :=
  let (start, names) := split path.toList
  let names := trim names
  if names.isEmpty then if start = ['.'] then some "" else none
  else
    some (String.ofList (start ++ ['/'].intercalate (trim names.dropLast)))

/-- A path seen from a directory. -/
def join (directory path : String) : String :=
  if isAbsolute path || directory = "" then path
  else if directory.toList.getLast? == some '/' then directory ++ path
  else directory ++ "/" ++ path

end PathText

end CallAtlas
