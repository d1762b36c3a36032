import CallAtlas.Report.Document
import CallAtlas.Report.Dot

/-!
# Reports

The formats in which a call graph is written.
-/

namespace CallAtlas

/-- A format of call graphs. -/
inductive Format where
  /-- Edges in the DOT language. -/
  | dot
  /-- A JSON document of nodes and edges. -/
  | json
  deriving DecidableEq, Repr

namespace Format

/-- The word for a format. -/
def word : Format → String
  | .dot => "dot"
  | .json => "json"

/-- The format of a word. -/
def ofWord? (s : String) : Option Format :=
  if s = "dot" then some .dot else if s = "json" then some .json else none

/-- A graph in a format. -/
def render : Format → CallGraph → String
  | .dot, g => Dot.render g
  | .json, g => Document.render g

end Format

end CallAtlas
