import CallAtlas.Proofs.BuiltSymbols
import CallAtlas.Proofs.Crates
import CallAtlas.Proofs.DocumentReading

/-!
# The nodes of a document

A document lists each function of a graph once: the callers as the graph lists them, and then the
other callees in the order in which they are first called. So both ends of an edge are nodes, and
there is no second node for one of them.

What a node says about its function is read off its name, and that is what the symbol behind the
name says (`Program.Makes`).

## Main results

* `Document.nodeIds_eq` — the nodes, in order.
* `Document.node_of_makes` — a node and the symbol behind it.
* `Document.decodes_completely` — the text of a graph gives all of it back.
-/

namespace CallAtlas

/-! ### Lists without repetition -/

/-- Of the values for which a test holds, the first ones of a list stand in the order of the list. -/
theorem pairwise_idxOf_eraseDups_filter (values : List String) (test : String → Bool) :
    (values.filter test).eraseDups.Pairwise fun a b => values.idxOf a < values.idxOf b := by
  induction values generalizing test with
  | nil => simp
  | cons first rest ih =>
    have hlater : ∀ {test : String → Bool}, (∀ a, test a = true → a ≠ first) →
        (rest.filter test).eraseDups.Pairwise fun a b =>
          (first :: rest).idxOf a < (first :: rest).idxOf b := by
      intro test hne
      refine (ih test).imp_of_mem ?_
      intro a b ha hb hlt
      rw [List.mem_eraseDups, List.mem_filter] at ha hb
      rw [List.idxOf_cons_ne _ (hne a ha.2).symm, List.idxOf_cons_ne _ (hne b hb.2).symm]
      omega
    cases hfirst : test first with
    | false =>
      rw [List.filter_cons_of_neg (by simp [hfirst])]
      exact hlater fun a ha heq => by simp [heq, hfirst] at ha
    | true =>
      rw [List.filter_cons_of_pos hfirst, List.eraseDups_cons, List.filter_filter]
      refine List.pairwise_cons.mpr ⟨?_, hlater fun a ha heq => by simp [heq] at ha⟩
      intro b hb
      rw [List.mem_eraseDups, List.mem_filter] at hb
      have hne : first ≠ b := by
        rintro rfl
        simp at hb
      rw [List.idxOf_cons_self, List.idxOf_cons_ne _ hne]
      omega

theorem nodup_eraseDups (values : List String) : values.eraseDups.Nodup := by
  have hpairwise := pairwise_idxOf_eraseDups_filter values fun _ => true
  rw [List.filter_true] at hpairwise
  exact hpairwise.imp fun hlt heq => by simp [heq] at hlt

theorem eraseDups_of_nodup {values : List String} (h : values.Nodup) :
    values.eraseDups = values := by
  induction values with
  | nil => rfl
  | cons first rest ih =>
    obtain ⟨hfirst, hrest⟩ := List.nodup_cons.mp h
    have hkeep : rest.filter (fun b => !b == first) = rest :=
      List.filter_eq_self.mpr fun b hb => by
        have : b ≠ first := fun heq => hfirst (heq ▸ hb)
        simpa using this
    rw [List.eraseDups_cons, hkeep, ih hrest]

namespace Document

/-! ### Nodes of graphs -/

/-- The callees of a graph that are no callers, in the order in which they are first called. -/
def calleesOnly (g : CallGraph) : List String :=
  ((g.edges.map fun e => e.2.callee).removeAll g.callers).eraseDups

theorem mem_calleesOnly {g : CallGraph} {id : String} :
    id ∈ calleesOnly g ↔ (∃ e ∈ g.edges, e.2.callee = id) ∧ id ∉ g.callers := by
  rw [calleesOnly, List.mem_eraseDups, List.removeAll, List.mem_filter, List.mem_map]
  simp

theorem nodeIds_eq (g : CallGraph) : nodeIds g = g.callers ++ calleesOnly g := by
  rw [nodeIds, List.eraseDups_append, eraseDups_of_nodup (show g.callers.Nodup from g.distinct)]
  rfl

theorem nodup_nodeIds (g : CallGraph) : (nodeIds g).Nodup :=
  nodup_eraseDups _

theorem ids_ofGraph (g : CallGraph) : (ofGraph g).nodes.map Node.id = nodeIds g := by
  rw [ofGraph, List.map_map]
  exact List.map_id _

theorem mem_callers_of_mem_edges {g : CallGraph} {caller : String} {site : CallSite}
    (h : (caller, site) ∈ g.edges) : caller ∈ g.callers := by
  obtain ⟨calls, hentry, -⟩ := CallGraph.mem_edges_iff.mp h
  exact List.mem_map_of_mem (f := Prod.fst) hentry

theorem mem_nodeIds {g : CallGraph} {id : String} :
    id ∈ nodeIds g ↔ id ∈ g.callers ∨ ∃ e ∈ g.edges, e.2.callee = id := by
  rw [nodeIds, List.mem_eraseDups, List.mem_append, List.mem_map]

/-- Does a document list the functions and the calls of a graph? -/
structure Lists (g : CallGraph) (d : Document) : Prop where
  /-- Its edges are those of the graph, in order and with all that the graph says of them. -/
  edges : d.edges.map (fun e => (e.source, CallSite.mk e.target e.location)) = g.edges
  /-- No function has two nodes. -/
  nodup : (d.nodes.map Node.id).Nodup
  /-- Its nodes are the callers of the graph and then the callees that are no callers, in the order
  in which they are first called. -/
  ids : ∃ others, d.nodes.map Node.id = g.callers ++ others ∧
    (∀ id, id ∈ others ↔ (∃ e ∈ g.edges, e.2.callee = id) ∧ id ∉ g.callers) ∧
    others.Pairwise fun a b =>
      (g.edges.map (·.2.callee)).idxOf a < (g.edges.map (·.2.callee)).idxOf b
  /-- Each end of an edge is the id of one node. -/
  ends : ∀ e ∈ d.edges, (d.nodes.map Node.id).count e.source = 1 ∧
    (d.nodes.map Node.id).count e.target = 1

theorem lists_ofGraph (g : CallGraph) : (ofGraph g).Lists g where
  edges := by
    rw [ofGraph, List.map_map]
    exact List.map_id _
  nodup := by
    rw [ids_ofGraph]
    exact nodup_nodeIds g
  ids := by
    rw [ids_ofGraph, nodeIds_eq]
    exact ⟨calleesOnly g, rfl, fun id => mem_calleesOnly, pairwise_idxOf_eraseDups_filter _ _⟩
  ends := by
    intro e he
    obtain ⟨⟨caller, site⟩, hedge, rfl⟩ := List.mem_map.mp he
    have hsource : caller ∈ nodeIds g := mem_nodeIds.mpr (Or.inl (mem_callers_of_mem_edges hedge))
    have htarget : site.callee ∈ nodeIds g := mem_nodeIds.mpr (Or.inr ⟨_, hedge, rfl⟩)
    rw [ids_ofGraph]
    exact ⟨(nodup_nodeIds g).count.trans (if_pos hsource),
      (nodup_nodeIds g).count.trans (if_pos htarget)⟩

/-! ### Nodes of programs -/

/-- Behind each node of a program's graph stands a symbol. -/
theorem exists_makes_of_mem_nodeIds {p : Program} {macros : Bool} {id : String}
    (h : id ∈ nodeIds (CallGraph.ofProgram p macros)) :
    ∃ symbol, p.Makes macros symbol ∧ symbol.qualifiedName = id := by
  rcases mem_nodeIds.mp h with hcaller | ⟨⟨caller, site⟩, hedge, rfl⟩
  · exact CallGraph.exists_makes_of_mem_callers hcaller
  · exact CallGraph.exists_makes_of_mem_edges hedge

/-- The node of a symbol says what the symbol says. -/
theorem node_of_makes {p : Program} (hp : p.Undotted) {macros : Bool} {symbol : Symbol}
    (h : p.Makes macros symbol) :
    (Node.ofId symbol.qualifiedName).package = symbol.package ∧
      (Node.ofId symbol.qualifiedName).name = symbol.name := by
  rw [Node.ofId, h.ofQualified hp]
  exact ⟨rfl, rfl⟩

/-- **A graph is read back from its text, with all that it says.** The text is one JSON value, and
it stands for a document that lists the functions and the calls of the graph. If the graph is that of
a program, there is one symbol behind each node, and the node has its package and its name. -/
theorem decodes_completely {p : Program} (hp : p.Undotted) (macros : Bool) :
    (∀ g : CallGraph, (Json.Written.parse? (render g)).bind read? = some (ofGraph g) ∧
      (ofGraph g).Lists g) ∧
    ∀ n ∈ (ofGraph (CallGraph.ofProgram p macros)).nodes,
      ∃ symbol, p.Makes macros symbol ∧ symbol.qualifiedName = n.id ∧
        n.package = symbol.package ∧ n.name = symbol.name ∧
        ∀ other, p.Makes macros other → other.qualifiedName = n.id → other = symbol := by
  refine ⟨fun g => ⟨parse?_render g, lists_ofGraph g⟩, ?_⟩
  intro n hn
  obtain ⟨id, hid, rfl⟩ := List.mem_map.mp hn
  obtain ⟨symbol, hmakes, rfl⟩ := exists_makes_of_mem_nodeIds hid
  obtain ⟨hpackage, hname⟩ := node_of_makes hp hmakes
  refine ⟨symbol, hmakes, rfl, hpackage, hname, ?_⟩
  intro other hother heq
  rw [← hother.ofQualified hp, ← hmakes.ofQualified hp]
  exact congrArg Symbol.ofQualified heq

/-! ### A module that is called by its own name -/

namespace SelfImport

def self : Ident := ⟨"self", by decide⟩

def here : Ident := ⟨"here", by decide⟩

def k : Ident := ⟨"k", by decide⟩

def m : Ident := ⟨"m", by decide⟩

def call : Name := ⟨⟨"call", by decide⟩, by decide⟩

/-- The root of a crate holds `use k::m;`, and the file of a module in it
`use self::{self as here}; fn call() { here() }`. -/
def program (crate : String) (inner : List String) : Program where
  units :=
    [Index.crateRoot crate [.use (.path k (.name m)) []],
      ⟨crate, crate :: inner, "here.rs", [],
        [.use (.path self (.group [.rename self here])) [],
          .function false (.mk call [] []
            [.expr (.call ⟨1, 39⟩ [] (.path [] (.plain false) [here] []) [])])]⟩]
  externs := []

end SelfImport

/-- A dot in the name of a crate does no harm. -/
theorem decodes_completely_dottedCrate :
    (SelfImport.program "x.y" ["m"]).Undotted ∧
      (ofGraph (CallGraph.ofProgram (SelfImport.program "x.y" ["m"]) true)).nodes =
        [⟨"x.y::m.call", some "x.y::m", "call"⟩, ⟨"k.m", some "k", "m"⟩] ∧
      ∃ symbol, (SelfImport.program "x.y" ["m"]).Makes true symbol ∧
        symbol.qualifiedName = "k.m" ∧ some "k" = symbol.package ∧ "m" = symbol.name ∧
        ∀ other, (SelfImport.program "x.y" ["m"]).Makes true other →
          other.qualifiedName = "k.m" → other = symbol := by
  have hundotted : (SelfImport.program "x.y" ["m"]).Undotted := by decide
  have hnodes : (ofGraph (CallGraph.ofProgram (SelfImport.program "x.y" ["m"]) true)).nodes =
      [⟨"x.y::m.call", some "x.y::m", "call"⟩, ⟨"k.m", some "k", "m"⟩] := by decide +kernel
  refine ⟨hundotted, hnodes, ?_⟩
  exact (decodes_completely hundotted true).2 ⟨"k.m", some "k", "m"⟩ (by rw [hnodes]; simp)

/-- A dot in the name of a module does harm, if a call has the module itself for its path: the name
of the function is taken for part of its package. -/
theorem node_of_dottedModule :
    (Index.ofProgram (SelfImport.program "r" ["m", "x.y"])).resolvePath ⟨["r", "m", "x.y"], none⟩
        ["here"] = some ⟨some "k::m", "x.y"⟩ ∧
      (CallGraph.ofProgram (SelfImport.program "r" ["m", "x.y"]) true).edges =
        [("r::m::x.y.call", ⟨"k::m.x.y", ⟨"here.rs", 1, 39⟩⟩)] ∧
      (ofGraph (CallGraph.ofProgram (SelfImport.program "r" ["m", "x.y"]) true)).nodes =
        [⟨"r::m::x.y.call", some "r::m::x.y", "call"⟩, ⟨"k::m.x.y", some "k::m.x", "y"⟩] := by
  decide +kernel

end Document

end CallAtlas
