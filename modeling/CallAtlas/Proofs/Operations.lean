import CallAtlas.Proofs.EventLog
import Mathlib.Data.Finset.Card

/-!
# Graphs from their operations

Two operations build a graph: one declares a caller, the other adds a call. They may come in any
order. A caller may be declared again when it has calls, and it may have calls before it is
declared. Nothing of a graph depends on how they interleave: the callers are those of the
operations, each at its first occurrence, and the calls of a caller are those that were added for
it.

So the edges of a graph are the calls among the operations, only grouped: caller by caller, in the
order of first occurrences, and within a caller as they were added.

## Main definitions

* `Event.edge?` — the edge that an operation adds.
* `CallGraph.grouped` — calls grouped by caller.

## Main results

* `CallGraph.callers_foldl_empty` — the callers, by first occurrences.
* `CallGraph.edges_foldl_empty` — the edges, grouped by caller.
* `CallGraph.known_by_operations` — all views of a graph, and when two runs give the same one.
-/

namespace CallAtlas

/-- The edge that an operation adds, if it adds one. -/
def Event.edge? : Event → Option (String × CallSite)
  | .declare _ => none
  | .call caller site => some (caller, site)

theorem Event.caller_of_edge? {e : Event} {edge : String × CallSite} (h : e.edge? = some edge) :
    e.caller = edge.1 := by
  cases e with
  | declare caller => cases h
  | call caller site =>
    obtain rfl := Option.some.inj h
    rfl

namespace CallGraph

/-! ### First occurrences -/

/-- A caller behind others is enlisted just if this is its first occurrence. -/
theorem enlist_eraseDups (callers : List String) (caller : String) :
    enlist callers.eraseDups caller = (callers ++ [caller]).eraseDups := by
  rw [List.eraseDups_append, enlist]
  by_cases h : caller ∈ callers
  · have hnone : [caller].removeAll callers = [] := by simp [List.removeAll, h]
    rw [if_pos (List.mem_eraseDups.mpr h), hnone, List.eraseDups_nil, List.append_nil]
  · have hone : [caller].removeAll callers = [caller] := by simp [List.removeAll, h]
    rw [if_neg (mt List.mem_eraseDups.mp h), hone, List.eraseDups_cons, List.filter_nil,
      List.eraseDups_nil]

theorem foldl_enlist_eraseDups (names : List String) : ∀ callers : List String,
    names.foldl enlist callers.eraseDups = (callers ++ names).eraseDups := by
  induction names with
  | nil =>
    intro callers
    rw [List.append_nil, List.foldl_nil]
  | cons name rest ih =>
    intro callers
    rw [List.foldl_cons, enlist_eraseDups, ih, List.append_assoc, List.singleton_append]

/-- The callers of a run of operations are its callers by their first occurrences. -/
theorem callers_foldl_empty (ops : List Event) :
    (ops.foldl apply empty).callers = (ops.map Event.caller).eraseDups := by
  rw [callers_foldl]
  exact foldl_enlist_eraseDups _ []

/-! ### Grouped calls -/

/-- Calls grouped by caller: one caller after the other, and the calls of each in their order. -/
def grouped (callers : List String) (calls : List (String × CallSite)) :
    List (String × CallSite) :=
  callers.flatMap fun c => calls.filter fun call => call.1 = c

/-- Grouping loses no call and repeats none, if each caller is listed once. -/
theorem grouped_perm {callers : List String} (hdistinct : callers.Nodup) :
    ∀ {calls : List (String × CallSite)}, (∀ call ∈ calls, call.1 ∈ callers) →
      (grouped callers calls).Perm calls := by
  induction callers with
  | nil =>
    intro calls hcalls
    have hnil : calls = [] :=
      List.eq_nil_iff_forall_not_mem.mpr fun call hcall => List.not_mem_nil (hcalls call hcall)
    rw [hnil]
    exact List.Perm.refl _
  | cons first rest ih =>
    intro calls hcalls
    obtain ⟨hfirst, hrest⟩ := List.nodup_cons.mp hdistinct
    -- the other callers find their calls among those that are not of the first
    have hother : grouped rest calls =
        grouped rest (calls.filter fun call => !(call.1 = first)) := by
      refine List.flatMap_congr fun c hc => ?_
      rw [List.filter_filter]
      refine List.filter_congr fun call _ => ?_
      by_cases hcall : call.1 = c
      · have hne : c ≠ first := fun heq => hfirst (heq ▸ hc)
        simp [hcall, hne]
      · simp [hcall]
    have hperm : (grouped rest (calls.filter fun call => !(call.1 = first))).Perm
        (calls.filter fun call => !(call.1 = first)) := by
      refine ih hrest fun call hcall => ?_
      obtain ⟨hmem, hne⟩ := List.mem_filter.mp hcall
      exact (List.mem_cons.mp (hcalls call hmem)).resolve_left (by simpa using hne)
    rw [grouped, List.flatMap_cons]
    change (_ ++ grouped rest calls).Perm calls
    rw [hother]
    exact (hperm.append_left _).trans (List.filter_append_perm _ calls)

/-- The calls of a caller, each with the caller, are the edges of this caller. -/
theorem map_filterMap_siteFor (c : String) (ops : List Event) :
    (ops.filterMap (Event.siteFor c)).map (fun site => (c, site)) =
      (ops.filterMap Event.edge?).filter fun call => call.1 = c := by
  induction ops with
  | nil => rfl
  | cons e rest ih =>
    cases e with
    | declare caller => exact ih
    | call caller site =>
      by_cases h : caller = c
      · simp [Event.siteFor, Event.edge?, h, ih]
      · simp [Event.siteFor, Event.edge?, h, ih]

/-- The edges of a run of operations are its calls, grouped by the callers. -/
theorem edges_foldl_empty (ops : List Event) :
    (ops.foldl apply empty).edges =
      grouped (ops.map Event.caller).eraseDups (ops.filterMap Event.edge?) := by
  rw [edges, entries_eq_map, List.flatMap_map, callers_foldl_empty, grouped]
  refine List.flatMap_congr fun c hc => ?_
  rw [← map_filterMap_siteFor, callees_foldl_empty, if_pos (List.mem_eraseDups.mp hc),
    Option.getD_some]

theorem edges_perm (ops : List Event) :
    (ops.foldl apply empty).edges.Perm (ops.filterMap Event.edge?) := by
  have hdistinct : (ops.foldl apply empty).callers.Nodup := (ops.foldl apply empty).distinct
  rw [edges_foldl_empty]
  rw [callers_foldl_empty] at hdistinct
  refine grouped_perm hdistinct fun call hcall => ?_
  obtain ⟨e, he, hedge⟩ := List.mem_filterMap.mp hcall
  exact List.mem_eraseDups.mpr (Event.caller_of_edge? hedge ▸ List.mem_map_of_mem he)

/-! ### The views of a graph -/

/-- The number of callers of a run is that of the different callers in it. -/
theorem size_foldl_empty (ops : List Event) :
    (ops.foldl apply empty).size = (ops.map Event.caller).toFinset.card := by
  have hdistinct : (ops.foldl apply empty).callers.Nodup := (ops.foldl apply empty).distinct
  have hcallers : (ops.foldl apply empty).callers.toFinset = (ops.map Event.caller).toFinset := by
    rw [callers_foldl_empty]
    ext c
    simp
  calc (ops.foldl apply empty).size
      = (ops.foldl apply empty).callers.length := by rw [size, callers, List.length_map]
    _ = (ops.foldl apply empty).callers.toFinset.card :=
        (List.toFinset_card_of_nodup hdistinct).symm
    _ = (ops.map Event.caller).toFinset.card := by rw [hcallers]

/-- Two runs of operations give the same graph just if they have the same callers, in the order of
their first occurrences, and the same calls for each. -/
theorem foldl_empty_eq_iff (ops ops' : List Event) :
    ops.foldl apply empty = ops'.foldl apply empty ↔
      (ops.map Event.caller).eraseDups = (ops'.map Event.caller).eraseDups ∧
        ∀ c, ops.filterMap (Event.siteFor c) = ops'.filterMap (Event.siteFor c) := by
  have hsites : ∀ (ops : List Event) (c : String),
      ((ops.foldl apply empty).callees c).getD [] = ops.filterMap (Event.siteFor c) := by
    intro ops c
    rw [callees_foldl_empty]
    split
    · rfl
    · next hc =>
      refine (List.filterMap_eq_nil_iff.mpr fun e he => Event.siteFor_of_ne fun heq => hc ?_).symm
      exact heq ▸ List.mem_map_of_mem he
  constructor
  · intro h
    rw [← callers_foldl_empty, ← callers_foldl_empty, h]
    refine ⟨rfl, fun c => ?_⟩
    rw [← hsites, ← hsites, h]
  · rintro ⟨hcallers, hcalls⟩
    have hmem : ∀ c, c ∈ ops.map Event.caller ↔ c ∈ ops'.map Event.caller := by
      intro c
      rw [← List.mem_eraseDups, hcallers, List.mem_eraseDups]
    refine eq_of_views ?_ fun c => ?_
    · rw [callers_foldl_empty, callers_foldl_empty, hcallers]
    · rw [callees_foldl_empty, callees_foldl_empty, hcalls]
      simp only [hmem]

/-- **A graph is its operations.** For every run of operations on an empty graph: the callers are
those of the operations, only first occurrences kept; the calls of a caller are those that were
added for it, in order and with repetitions, and a caller that no operation names has no entry; the
edges are all added calls, grouped by the first occurrence of their caller; and the sizes count
added calls and different callers. So two runs give the same graph just if these agree. -/
theorem known_by_operations (ops : List Event) :
    (ops.foldl apply empty).callers = (ops.map Event.caller).eraseDups ∧
      (∀ c, (ops.foldl apply empty).callees c =
        if c ∈ ops.map Event.caller then some (ops.filterMap (Event.siteFor c)) else none) ∧
      (ops.foldl apply empty).edges =
        grouped (ops.map Event.caller).eraseDups (ops.filterMap Event.edge?) ∧
      (ops.foldl apply empty).edgeCount = (ops.filterMap Event.edge?).length ∧
      (ops.foldl apply empty).size = (ops.map Event.caller).toFinset.card ∧
      ∀ ops' : List Event, ops.foldl apply empty = ops'.foldl apply empty ↔
        (ops.map Event.caller).eraseDups = (ops'.map Event.caller).eraseDups ∧
          ∀ c, ops.filterMap (Event.siteFor c) = ops'.filterMap (Event.siteFor c) := by
  refine ⟨callers_foldl_empty ops, fun c => callees_foldl_empty c ops, edges_foldl_empty ops, ?_,
    size_foldl_empty ops, foldl_empty_eq_iff ops⟩
  rw [edgeCount_eq_length]
  exact (edges_perm ops).length_eq

end CallGraph

end CallAtlas
