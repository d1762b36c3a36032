import CallAtlas.CallGraph

/-!
# Graphs in the DOT language

One directed edge a line, labelled with the place of the call. Names and labels are quoted, and a
quoted field never contains a line break, so the lines of the text are those of the graph.
-/

namespace CallAtlas

namespace Dot

/-- How a character is written inside quotes. -/
def escapeChar (c : Char) : List Char :=
  if c = '\\' then ['\\', '\\']
  else if c = '"' then ['\\', '"']
  else if c = '\n' then ['\\', 'n']
  else if c = '\r' then ['\\', 'r']
  else [c]

/-- A text in quotes. -/
def quote (s : String) : String :=
  String.ofList ('"' :: (s.toList.flatMap escapeChar ++ ['"']))

/-- The line of an edge. -/
def edgeLine (caller : String) (call : CallSite) : String :=
  "    " ++ quote caller ++ " -> " ++ quote call.callee ++ " [label="
    ++ quote call.location.render ++ "];"

/-- The lines of a graph. -/
def lines (g : CallGraph) : List String :=
  "digraph G \x7b" :: (g.edges.map (fun e => edgeLine e.1 e.2) ++ ["\x7d"])

/-- A graph as text. -/
def render (g : CallGraph) : String :=
  "\n".intercalate (lines g) ++ "\n"

end Dot

end CallAtlas
