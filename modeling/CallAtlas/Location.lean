/-!
# Places in sources

`Place` is a line and a column of one text, `Location` a place in a named file. Both count from one,
and columns count characters.
-/

namespace CallAtlas

/-- A line and a column of a text. -/
structure Place where
  /-- The line, from one. -/
  line : Nat
  /-- The column, in characters, from one. -/
  column : Nat
  deriving DecidableEq, Repr, Inhabited

namespace Place

/-- Where every text starts. It also stands for the end of a text, which is no place of a token. -/
def start : Place where
  line := 1
  column := 1

end Place

/-- A place in a file. -/
structure Location where
  /-- The file, as it is shown to a reader. -/
  file : String
  /-- The line, from one. -/
  line : Nat
  /-- The column, in characters, from one. -/
  column : Nat
  deriving DecidableEq, Repr

namespace Location

/-- The location of a place of `file`. -/
def ofPlace (file : String) (p : Place) : Location where
  file := file
  line := p.line
  column := p.column

/-- `file:line:column`. -/
def render (l : Location) : String :=
  l.file ++ ":" ++ toString l.line ++ ":" ++ toString l.column

instance : ToString Location := ⟨render⟩

end Location

end CallAtlas
