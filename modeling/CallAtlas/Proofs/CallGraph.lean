import CallAtlas.Walk

/-!
# What a call graph holds

A graph is built from events, one after the other. Its edges are the calls among the events, and its
callers are the functions that are declared or call.

## Main results

* `CallGraph.edgeCount_eq_length` — the number of calls is that of the edges.
* `CallGraph.mem_edges_foldl`, `CallGraph.mem_callers_foldl` — what a run of events adds.
* `CallGraph.mem_edges_ofProgram`, `CallGraph.mem_callers_ofProgram` — the graph of a program.
-/

namespace CallAtlas

namespace CallGraph

theorem contains_iff {g : CallGraph} {caller : String} :
    g.contains caller = true ↔ caller ∈ g.callers := by
  simp [contains]

theorem edgeCount_eq_length (g : CallGraph) : g.edgeCount = g.edges.length := by
  have hfold : ∀ (entries : List (String × List CallSite)) (count : Nat),
      entries.foldl (fun count e => count + e.2.length) count =
        count + (entries.flatMap fun e => e.2.map fun call => (e.1, call)).length := by
    intro entries
    induction entries with
    | nil => simp
    | cons e rest ih =>
      intro count
      rw [List.foldl_cons, ih, List.flatMap_cons, List.length_append, List.length_map]
      omega
  rw [edgeCount, hfold, Nat.zero_add, edges]

/-! ### One step -/

theorem mem_edges_iff {g : CallGraph} {caller : String} {site : CallSite} :
    (caller, site) ∈ g.edges ↔ ∃ calls, (caller, calls) ∈ g.entries ∧ site ∈ calls := by
  rw [edges, List.mem_flatMap]
  constructor
  · rintro ⟨⟨c, calls⟩, hentry, hmem⟩
    obtain ⟨s, hs, heq⟩ := List.mem_map.mp hmem
    obtain ⟨rfl, rfl⟩ := Prod.mk.inj heq
    exact ⟨calls, hentry, hs⟩
  · rintro ⟨calls, hentry, hs⟩
    exact ⟨(caller, calls), hentry, List.mem_map.mpr ⟨site, hs, rfl⟩⟩

theorem mem_callers_append {g : CallGraph} {caller c : String} {calls : List CallSite}
    {fresh : g.contains caller = false} :
    c ∈ (g.append caller calls fresh).callers ↔ c ∈ g.callers ∨ c = caller := by
  simp [callers, append]

theorem mem_callers_extend {g : CallGraph} {caller c : String} {call : CallSite} :
    c ∈ (g.extend caller call).callers ↔ c ∈ g.callers := by
  have hkey : ∀ e : String × List CallSite,
      (if e.1 = caller then (e.1, e.2 ++ [call]) else e).1 = e.1 := by
    intro e
    split <;> rfl
  simp [callers, extend, hkey]

theorem mem_callers_declare {g : CallGraph} {caller c : String} :
    c ∈ (g.declare caller).callers ↔ c ∈ g.callers ∨ c = caller := by
  rw [declare]
  split
  · exact mem_callers_append
  · next h =>
    have hmem : caller ∈ g.callers := contains_iff.mp (by simpa using h)
    exact ⟨Or.inl, fun hc => hc.elim id fun heq => heq ▸ hmem⟩

theorem mem_callers_addCall {g : CallGraph} {caller c : String} {call : CallSite} :
    c ∈ (g.addCall caller call).callers ↔ c ∈ g.callers ∨ c = caller := by
  rw [addCall]
  split
  · exact mem_callers_append
  · next h =>
    have hmem : caller ∈ g.callers := contains_iff.mp (by simpa using h)
    rw [mem_callers_extend]
    exact ⟨Or.inl, fun hc => hc.elim id fun heq => heq ▸ hmem⟩

theorem mem_edges_append {g : CallGraph} {caller c : String} {calls : List CallSite}
    {fresh : g.contains caller = false} {site : CallSite} :
    (c, site) ∈ (g.append caller calls fresh).edges ↔
      (c, site) ∈ g.edges ∨ c = caller ∧ site ∈ calls := by
  rw [edges, append, List.flatMap_append, List.mem_append]
  refine or_congr_right ?_
  constructor
  · intro h
    obtain ⟨call, hcall, heq⟩ : ∃ call ∈ calls, (caller, call) = (c, site) := by simpa using h
    obtain ⟨rfl, rfl⟩ := Prod.mk.inj heq
    exact ⟨rfl, hcall⟩
  · rintro ⟨rfl, hsite⟩
    simpa using hsite

theorem mem_edges_extend {g : CallGraph} {caller c : String} {call site : CallSite}
    (h : caller ∈ g.callers) : (c, site) ∈ (g.extend caller call).edges ↔
      (c, site) ∈ g.edges ∨ c = caller ∧ site = call := by
  rw [mem_edges_iff, mem_edges_iff]
  constructor
  · rintro ⟨calls, hentry, hsite⟩
    obtain ⟨e, he, heq⟩ := List.mem_map.mp hentry
    split at heq
    · next hcaller =>
      obtain ⟨rfl, rfl⟩ := Prod.mk.inj heq
      rcases List.mem_append.mp hsite with hsite | hsite
      · exact Or.inl ⟨e.2, he, hsite⟩
      · exact Or.inr ⟨hcaller, List.mem_singleton.mp hsite⟩
    · exact Or.inl ⟨calls, heq ▸ he, hsite⟩
  · rintro (⟨calls, hentry, hsite⟩ | ⟨rfl, rfl⟩)
    · refine ⟨if c = caller then calls ++ [call] else calls, ?_, ?_⟩
      · refine List.mem_map.mpr ⟨(c, calls), hentry, ?_⟩
        by_cases hc : c = caller <;> simp [hc]
      · by_cases hc : c = caller <;> simp [hc, hsite]
    · obtain ⟨e, he, rfl⟩ := List.mem_map.mp h
      exact ⟨e.2 ++ [site], List.mem_map.mpr ⟨e, he, by simp⟩, by simp⟩

theorem mem_edges_declare {g : CallGraph} {caller c : String} {site : CallSite} :
    (c, site) ∈ (g.declare caller).edges ↔ (c, site) ∈ g.edges := by
  rw [declare]
  split
  · simp [mem_edges_append]
  · exact Iff.rfl

theorem mem_edges_addCall {g : CallGraph} {caller c : String} {call site : CallSite} :
    (c, site) ∈ (g.addCall caller call).edges ↔
      (c, site) ∈ g.edges ∨ c = caller ∧ site = call := by
  rw [addCall]
  split
  · simp [mem_edges_append]
  · next h => exact mem_edges_extend (contains_iff.mp (by simpa using h))

end CallGraph

/-- The function that an event is about: the one that is declared, or the one that calls. -/
def Event.caller : Event → String
  | .declare caller => caller
  | .call caller _ => caller

namespace CallGraph

theorem mem_callers_apply {g : CallGraph} {e : Event} {c : String} :
    c ∈ (g.apply e).callers ↔ c ∈ g.callers ∨ c = e.caller := by
  cases e with
  | declare caller => exact mem_callers_declare
  | call caller site => exact mem_callers_addCall

theorem mem_edges_apply {g : CallGraph} {e : Event} {c : String} {site : CallSite} :
    (c, site) ∈ (g.apply e).edges ↔ (c, site) ∈ g.edges ∨ e = .call c site := by
  cases e with
  | declare caller => simp [apply, mem_edges_declare]
  | call caller call => simp [apply, mem_edges_addCall, eq_comm]

/-! ### Runs of events -/

theorem mem_callers_foldl {c : String} (events : List Event) : ∀ g : CallGraph,
    c ∈ (events.foldl apply g).callers ↔ c ∈ g.callers ∨ ∃ e ∈ events, c = e.caller := by
  induction events with
  | nil => simp
  | cons e rest ih =>
    intro g
    rw [List.foldl_cons, ih, mem_callers_apply, or_assoc]
    simp

theorem mem_edges_foldl {c : String} {site : CallSite} (events : List Event) : ∀ g : CallGraph,
    (c, site) ∈ (events.foldl apply g).edges ↔ (c, site) ∈ g.edges ∨ .call c site ∈ events := by
  induction events with
  | nil => simp
  | cons e rest ih =>
    intro g
    rw [List.foldl_cons, ih, mem_edges_apply, or_assoc]
    simp [eq_comm]

/-- The callers of a program's graph are the functions that its files declare, and those that call
something. -/
theorem mem_callers_ofProgram {p : Program} {macros : Bool} {c : String} :
    c ∈ (ofProgram p macros).callers ↔
      ∃ u ∈ p.units, ∃ e ∈ Walk.unit (Index.ofProgram p) macros u, c = e.caller := by
  have hempty : c ∉ empty.callers := by simp [empty, callers]
  rw [ofProgram, mem_callers_foldl, or_iff_right hempty]
  simp only [List.mem_flatMap]
  constructor
  · rintro ⟨e, ⟨u, hu, he⟩, hc⟩
    exact ⟨u, hu, e, he, hc⟩
  · rintro ⟨u, hu, e, he, hc⟩
    exact ⟨e, ⟨u, hu, he⟩, hc⟩

/-- The edges of a program's graph are the calls in its files. -/
theorem mem_edges_ofProgram {p : Program} {macros : Bool} {c : String} {site : CallSite} :
    (c, site) ∈ (ofProgram p macros).edges ↔
      ∃ u ∈ p.units, .call c site ∈ Walk.unit (Index.ofProgram p) macros u := by
  have hempty : (c, site) ∉ empty.edges := by simp [empty, edges]
  rw [ofProgram, mem_edges_foldl, or_iff_right hempty, List.mem_flatMap]

end CallGraph

end CallAtlas
