import CallAtlas.Files.PathText
import CallAtlas.Load.Error

/-!
# File trees

The files and directories that a run can see, and its working directory. A place in the tree is the
list of names that leads to it from the root. A path is followed name by name: `..` leads to the
parent directory, wherever the name before it has led, and nothing follows a file, not even a
separator.

## Main definitions

* `FileTree.locate` — the place that a path leads to.
* `FileTree.readText`, `FileTree.isFile`, `FileTree.isDirectory`, `FileTree.canonical`.
* `FileTree.write?` — the tree after a file has been written.
-/

namespace CallAtlas

/-- The files and directories that a run can see. Links and access rights are left out: whatever is
there can be read, and `canonical`, `isFile` and `readText` follow a path to the same place. -/
structure FileTree where
  /-- The working directory. -/
  directory : List String
  /-- The files and their bytes. -/
  files : List (List String × ByteArray)
  /-- Directories that may hold no file. -/
  directories : List (List String)

namespace FileTree

/-- Is there a directory at a place? Whatever leads to a file or a directory is one. -/
def hasDirectory (t : FileTree) (place : List String) : Bool :=
  place.isPrefixOf t.directory || t.directories.any place.isPrefixOf ||
    t.files.any fun file => place.isPrefixOf file.1 && place != file.1

/-- The bytes of the file at a place. -/
def content? (t : FileTree) (place : List String) : Option ByteArray :=
  t.files.lookup place

/-- One name further from a place. -/
def enter (t : FileTree) (place : List String) (name : String) : Except ReadFault (List String) :=
  if (t.content? place).isSome then .error .notDirectory
  else if name = "" ∨ name = "." then .ok place
  else if name = ".." then .ok place.dropLast
  else if (t.content? (place ++ [name])).isSome || t.hasDirectory (place ++ [name]) then
    .ok (place ++ [name])
  else .error .missing

/-- The names of a path, between its separators. -/
def names (path : String) : List String :=
  (splitOnChar '/' path.toList).map String.ofList

/-- Where a path starts. -/
def start (t : FileTree) (path : String) : List String :=
  if PathText.isAbsolute path then [] else t.directory

/-- The place that a path leads to. -/
def locate (t : FileTree) (path : String) : Except ReadFault (List String) :=
  if path = "" then .error .missing else (names path).foldlM t.enter (t.start path)

/-- Does a path lead to a file? -/
def isFile (t : FileTree) (path : String) : Bool :=
  match t.locate path with
  | .ok place => (t.content? place).isSome
  | .error _ => false

/-- Does a path lead to a directory? -/
def isDirectory (t : FileTree) (path : String) : Bool :=
  match t.locate path with
  | .ok place => (t.content? place).isNone
  | .error _ => false

/-- The components of the place that a path leads to, from the root, or those of the path itself if
it leads nowhere. -/
def canonical (t : FileTree) (path : String) : List String :=
  match t.locate path with
  | .ok place => "/" :: place
  | .error _ => PathText.components path

/-- The text of a file. -/
def readText (t : FileTree) (path : String) : Except ReadFault String :=
  match t.locate path with
  | .error fault => .error fault
  | .ok place =>
    match t.content? place with
    | none => .error .isDirectory
    | some bytes =>
      match String.fromUTF8? bytes with
      | some text => .ok text
      | none => .error .notText

/-! ### Writing -/

/-- The place that a file is written to: a name in a directory that is there, where no directory
stands. -/
def writable? (t : FileTree) (path : String) : Option (List String) :=
  match (names path).getLast? with
  | none => none
  | some name =>
    if name = "" ∨ name = "." ∨ name = ".." then none
    else
      match (names path).dropLast.foldlM t.enter (t.start path) with
      | .error _ => none
      | .ok place =>
        if (t.content? place).isSome || t.hasDirectory (place ++ [name]) then none
        else some (place ++ [name])

/-- The tree after a text has been written to a file, if it can be. A file that can be opened is
taken to accept the whole text. -/
def write? (t : FileTree) (path text : String) : Option FileTree :=
  (t.writable? path).map fun place =>
    { t with files := t.files.filter (·.1 != place) ++ [(place, text.toUTF8)] }

/-- The files of a tree that are not in another one, or have other bytes there. -/
def changed (before after : FileTree) : List (List String × ByteArray) :=
  after.files.filter fun file =>
    match before.content? file.1 with
    | some bytes => bytes != file.2
    | none => true

/-- A place as a path from the working directory, if it lies there. -/
def relative? (t : FileTree) (place : List String) : Option String :=
  if t.directory.isPrefixOf place then some ("/".intercalate (place.drop t.directory.length))
  else none

end FileTree

end CallAtlas
