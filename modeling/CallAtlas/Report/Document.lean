import CallAtlas.CallGraph
import CallAtlas.Json.Printer
import CallAtlas.Symbol

/-!
# Graphs as documents

A call graph as a list of nodes and a list of edges. The nodes are the callers, in order, and then
the callees that are no callers, in the order in which they are first called; so each end of an edge
is the id of exactly one node.
-/

namespace CallAtlas

/-- A node of a document. -/
structure Document.Node where
  /-- The qualified name. -/
  id : String
  /-- The function's package, if it has one. -/
  package : Option String
  /-- The function's own name. -/
  name : String
  deriving DecidableEq, Repr

/-- An edge of a document. -/
structure Document.Edge where
  /-- Id of the caller. -/
  source : String
  /-- Id of the callee. -/
  target : String
  /-- Where the call stands. -/
  location : Location
  deriving DecidableEq, Repr

/-- The nodes and edges of a call graph. -/
structure Document where
  /-- Every caller and callee once. -/
  nodes : List Document.Node
  /-- Every call. -/
  edges : List Document.Edge
  deriving DecidableEq, Repr

namespace Document

/-- The node of a qualified name. -/
def Node.ofId (id : String) : Node where
  id := id
  package := (Symbol.ofQualified id).package
  name := (Symbol.ofQualified id).name

/-- The callers, and then the callees that are no callers. -/
def nodeIds (g : CallGraph) : List String :=
  (g.callers ++ g.edges.map fun e => e.2.callee).eraseDups

/-- The document of a call graph. -/
def ofGraph (g : CallGraph) : Document where
  nodes := (nodeIds g).map Node.ofId
  edges := g.edges.map fun e => ⟨e.1, e.2.callee, e.2.location⟩

/-- The members of a node. -/
def Node.toJson (n : Node) : Json :=
  .object [("id", .string n.id), ("package", .ofOptionString n.package), ("name", .string n.name)]

/-- The members of an edge. -/
def Edge.toJson (e : Edge) : Json :=
  .object
    [("from", .string e.source), ("to", .string e.target), ("file", .string e.location.file),
      ("line", .ofNat e.location.line), ("column", .ofNat e.location.column)]

/-- A document as a JSON value. -/
def toJson (d : Document) : Json :=
  .object [("nodes", .array (d.nodes.map Node.toJson)), ("edges", .array (d.edges.map Edge.toJson))]

/-- The document of a call graph as text. -/
def render (g : CallGraph) : String :=
  (ofGraph g).toJson.pretty ++ "\n"

end Document

end CallAtlas
