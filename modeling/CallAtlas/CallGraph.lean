import CallAtlas.Location

/-!
# Call graphs

A call graph lists, for each caller, the calls found in its body. Callers stand in the order in
which they were first met and calls in the order in which they were added; a call that is made twice
is listed twice.

## Main definitions

* `CallGraph.declare`, `CallGraph.addCall` — the two operations that build a graph.
* `CallGraph.callees`, `CallGraph.edges`, `CallGraph.callers` — the views of a graph.
* `CallGraph.merge` — one graph added to another, caller by caller.
-/

namespace CallAtlas

/-- One call: who is called, and where the call stands. -/
structure CallSite where
  /-- Qualified name of the function that is called. -/
  callee : String
  /-- Where the call expression starts. -/
  location : Location
  deriving DecidableEq, Repr

/-- The calls of each caller. A caller is listed once. -/
structure CallGraph where
  /-- Each caller with its calls. -/
  entries : List (String × List CallSite) := []
  /-- No caller has two entries. -/
  distinct : (entries.map Prod.fst).Nodup := by simp

namespace CallGraph

/-- The graph without callers. -/
def empty : CallGraph := {}

instance : Inhabited CallGraph := ⟨empty⟩
instance : EmptyCollection CallGraph := ⟨empty⟩

/-- The callers, in the order in which they were first met. -/
def callers (g : CallGraph) : List String :=
  g.entries.map Prod.fst

/-- Is there an entry for this caller? -/
def contains (g : CallGraph) (caller : String) : Bool :=
  g.callers.contains caller

/-- Appends an entry for a caller that has none. -/
def append (g : CallGraph) (caller : String) (calls : List CallSite)
    (fresh : g.contains caller = false) : CallGraph where
  entries := g.entries ++ [(caller, calls)]
  distinct := by
    have hmem : caller ∉ g.entries.map Prod.fst := by
      simpa [contains, callers] using fresh
    simp only [List.map_append, List.map_cons, List.map_nil, List.nodup_append]
    refine ⟨g.distinct, by simp, ?_⟩
    rintro a ha b hb rfl
    simp only [List.mem_singleton] at hb
    exact hmem (hb ▸ ha)

/-- Adds a call to the entry of a caller, if there is one. -/
def extend (g : CallGraph) (caller : String) (call : CallSite) : CallGraph where
  entries := g.entries.map fun e => if e.1 = caller then (e.1, e.2 ++ [call]) else e
  distinct := by
    have h : (g.entries.map fun e => if e.1 = caller then (e.1, e.2 ++ [call]) else e).map Prod.fst
        = g.entries.map Prod.fst := by
      rw [List.map_map]
      apply List.map_congr_left
      intro e _
      simp only [Function.comp_apply]
      split <;> rfl
    rw [h]
    exact g.distinct

/-- Makes sure that a caller is listed. A function without calls is declared too. -/
def declare (g : CallGraph) (caller : String) : CallGraph :=
  if h : g.contains caller = false then g.append caller [] h else g

/-- Adds a call at the end of its caller's list. -/
def addCall (g : CallGraph) (caller : String) (call : CallSite) : CallGraph :=
  if h : g.contains caller = false then g.append caller [call] h else g.extend caller call

/-- The calls of a caller, in order; `none` if it is not listed. -/
def callees (g : CallGraph) (caller : String) : Option (List CallSite) :=
  g.entries.lookup caller

/-- Every call with its caller, in caller order and then in call order. -/
def edges (g : CallGraph) : List (String × CallSite) :=
  g.entries.flatMap fun e => e.2.map fun call => (e.1, call)

/-- The number of callers. -/
def size (g : CallGraph) : Nat :=
  g.entries.length

/-- Are there no callers? -/
def isEmpty (g : CallGraph) : Bool :=
  g.entries.isEmpty

/-- The number of calls. -/
def edgeCount (g : CallGraph) : Nat :=
  g.entries.foldl (fun count e => count + e.2.length) 0

/-- Adds the callers and calls of `h` to `g`, in the order of `h`. -/
def merge (g h : CallGraph) : CallGraph :=
  h.entries.foldl (fun g e => e.2.foldl (fun g call => g.addCall e.1 call) (g.declare e.1)) g

end CallGraph

end CallAtlas
