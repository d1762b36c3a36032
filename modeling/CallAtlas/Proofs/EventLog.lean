import CallAtlas.Proofs.CallGraph

/-!
# Graphs and the events behind them

A graph is known by two views: the callers in their order, and the calls of each caller. Every event
adds its caller at the end, unless that is listed already, and a call goes to the end of its caller's
calls. So a run of events can be told from the views alone, caller by caller.

A graph is a run of events itself, its own: each caller is declared and its calls follow. Adding a
graph to another one is to run those. It does not matter that they come in another order than the
events behind the graph, since the views are the same. In particular files can be walked each on its
own, and their graphs be merged.

## Main definitions

* `CallGraph.enlist` — a caller added to a list of callers.
* `CallGraph.log` — a graph as a run of events.
* `CallGraph.ofUnit` — the graph of a file on its own.

## Main results

* `CallGraph.eq_of_views` — a graph is known by its views.
* `CallGraph.callers_foldl`, `CallGraph.callees_foldl` — the views after a run of events.
* `CallGraph.ofProgram_eq_foldl_merge` — the graph of a program is merged from those of its files.
-/

namespace CallAtlas

/-- The call that an event adds for a caller, if it does. -/
def Event.siteFor (caller : String) : Event → Option CallSite
  | .declare _ => none
  | .call c site => if c = caller then some site else none

theorem Event.siteFor_of_ne {e : Event} {caller : String} (h : e.caller ≠ caller) :
    e.siteFor caller = none := by
  cases e with
  | declare c => rfl
  | call c site => exact if_neg h

namespace CallGraph

/-! ### The two views -/

theorem callees_eq_none_iff {g : CallGraph} {c : String} : g.callees c = none ↔ c ∉ g.callers := by
  rw [callees, List.lookup_eq_none_iff]
  constructor
  · intro h hc
    obtain ⟨e, he, rfl⟩ := List.mem_map.mp hc
    simpa using h e he
  · intro h e he
    simpa using fun heq : c = e.1 => h (heq ▸ List.mem_map.mpr ⟨e, he, rfl⟩)

theorem lookup_of_mem {entries : List (String × List CallSite)}
    (hdistinct : (entries.map Prod.fst).Nodup) {e : String × List CallSite} (he : e ∈ entries) :
    entries.lookup e.1 = some e.2 := by
  induction entries with
  | nil => simp at he
  | cons first rest ih =>
    obtain ⟨hfirst, hrest⟩ := List.nodup_cons.mp hdistinct
    rcases List.mem_cons.mp he with rfl | he
    · rw [List.lookup_cons, beq_self_eq_true]
    · have hne : e.1 ≠ first.1 := fun heq => hfirst (heq ▸ List.mem_map.mpr ⟨e, he, rfl⟩)
      rw [List.lookup_cons, beq_false_of_ne hne]
      exact ih hrest he

theorem entries_eq_map (g : CallGraph) :
    g.entries = g.callers.map fun c => (c, (g.callees c).getD []) := by
  rw [callers, List.map_map]
  refine (List.map_id g.entries).symm.trans (List.map_congr_left fun e he => ?_)
  simp [callees, lookup_of_mem g.distinct he]

/-- A graph is known by its callers and the calls of each. -/
theorem eq_of_views {g h : CallGraph} (hcallers : g.callers = h.callers)
    (hcallees : ∀ c, g.callees c = h.callees c) : g = h := by
  have hentries : g.entries = h.entries := by
    rw [entries_eq_map g, entries_eq_map h, hcallers]
    simp only [hcallees]
  cases g
  cases h
  cases hentries
  rfl

/-! ### One step -/

/-- A caller added at the end, unless it is listed already. -/
def enlist (callers : List String) (caller : String) : List String :=
  if caller ∈ callers then callers else callers ++ [caller]

theorem mem_enlist_self (callers : List String) (caller : String) :
    caller ∈ enlist callers caller := by
  unfold enlist
  split
  · assumption
  · simp

theorem enlist_of_mem {callers : List String} {caller : String} (h : caller ∈ callers) :
    enlist callers caller = callers :=
  if_pos h

theorem subset_enlist (callers : List String) (caller : String) :
    callers ⊆ enlist callers caller := by
  unfold enlist
  split
  · exact List.Subset.refl _
  · exact List.subset_append_left _ _

theorem contains_eq_false_iff {g : CallGraph} {c : String} :
    g.contains c = false ↔ c ∉ g.callers := by
  rw [← contains_iff, Bool.not_eq_true]

theorem mem_of_contains {g : CallGraph} {c : String} (h : ¬g.contains c = false) :
    c ∈ g.callers :=
  contains_iff.mp (eq_true_of_ne_false h)

theorem callers_declare (g : CallGraph) (caller : String) :
    (g.declare caller).callers = enlist g.callers caller := by
  rw [declare, enlist]
  split
  · next h =>
    rw [if_neg (contains_eq_false_iff.mp h)]
    simp [append, callers]
  · next h => rw [if_pos (mem_of_contains h)]

theorem callers_addCall (g : CallGraph) (caller : String) (call : CallSite) :
    (g.addCall caller call).callers = enlist g.callers caller := by
  have hextend : (g.extend caller call).callers = g.callers := by
    rw [callers, extend, List.map_map, callers]
    refine List.map_congr_left fun e _ => ?_
    simp only [Function.comp_apply]
    split <;> rfl
  rw [addCall, enlist]
  split
  · next h =>
    rw [if_neg (contains_eq_false_iff.mp h)]
    simp [append, callers]
  · next h => rw [if_pos (mem_of_contains h), hextend]

theorem callees_append {g : CallGraph} {caller : String} {calls : List CallSite}
    (fresh : g.contains caller = false) (c : String) :
    (g.append caller calls fresh).callees c = if caller = c then some calls else g.callees c := by
  rw [callees, append, List.lookup_append]
  split
  · next h =>
    subst h
    have hnone : g.entries.lookup caller = none :=
      callees_eq_none_iff.mpr (contains_eq_false_iff.mp fresh)
    simp [hnone]
  · next h =>
    have hne : (c == caller) = false := beq_false_of_ne (Ne.symm h)
    simp [callees, List.lookup_cons, hne]

theorem callees_extend (g : CallGraph) (caller : String) (call : CallSite) (c : String) :
    (g.extend caller call).callees c =
      if caller = c then (g.callees c).map (· ++ [call]) else g.callees c := by
  unfold callees extend
  dsimp only
  induction g.entries with
  | nil => simp
  | cons e rest ih =>
    rw [List.map_cons, List.lookup_cons, List.lookup_cons]
    by_cases he : e.1 = caller <;> by_cases hc : c = e.1
    · subst he hc
      simp
    · simp only [he, if_true] at hc ⊢
      simpa [beq_false_of_ne hc] using ih
    · subst hc
      simp [he, Ne.symm he]
    · simpa [he, beq_false_of_ne hc] using ih

theorem callees_declare (g : CallGraph) (caller c : String) :
    (g.declare caller).callees c =
      if caller = c then some ((g.callees c).getD []) else g.callees c := by
  rw [declare]
  split
  · next h =>
    rw [callees_append]
    split
    · next hc => rw [← hc, callees_eq_none_iff.mpr (contains_eq_false_iff.mp h), Option.getD_none]
    · rfl
  · next h =>
    split
    · next hc =>
      obtain ⟨calls, hcalls⟩ := Option.ne_none_iff_exists'.mp
        (mt callees_eq_none_iff.mp fun hnot => hnot (hc ▸ mem_of_contains h))
      rw [hcalls, Option.getD_some]
    · rfl

theorem callees_addCall (g : CallGraph) (caller : String) (call : CallSite) (c : String) :
    (g.addCall caller call).callees c =
      if caller = c then some ((g.callees c).getD [] ++ [call]) else g.callees c := by
  rw [addCall]
  split
  · next h =>
    rw [callees_append]
    split
    · next hc =>
      rw [← hc, callees_eq_none_iff.mpr (contains_eq_false_iff.mp h), Option.getD_none,
        List.nil_append]
    · rfl
  · next h =>
    rw [callees_extend]
    split
    · next hc =>
      obtain ⟨calls, hcalls⟩ := Option.ne_none_iff_exists'.mp
        (mt callees_eq_none_iff.mp fun hnot => hnot (hc ▸ mem_of_contains h))
      rw [hcalls, Option.map_some, Option.getD_some]
    · rfl

theorem callers_apply (g : CallGraph) (e : Event) :
    (g.apply e).callers = enlist g.callers e.caller := by
  cases e with
  | declare caller => exact callers_declare g caller
  | call caller site => exact callers_addCall g caller site

/-- An event adds to the calls of its own caller and leaves all others as they are. -/
theorem callees_apply (g : CallGraph) (e : Event) (c : String) :
    (g.apply e).callees c =
      if e.caller = c then some ((g.callees c).getD [] ++ (e.siteFor c).toList) else g.callees c := by
  cases e with
  | declare caller => simp [apply, callees_declare, Event.caller, Event.siteFor]
  | call caller site =>
    rw [apply, callees_addCall, Event.caller]
    split
    · next h => simp [Event.siteFor, h]
    · rfl

/-! ### Runs of events -/

theorem callers_foldl (events : List Event) : ∀ g : CallGraph,
    (events.foldl apply g).callers = (events.map Event.caller).foldl enlist g.callers := by
  induction events with
  | nil => exact fun g => rfl
  | cons e rest ih =>
    intro g
    rw [List.foldl_cons, ih, callers_apply, List.map_cons, List.foldl_cons]

/-- A run of events adds, for each caller that it is about, the calls in it, in their order. -/
theorem callees_foldl (c : String) (events : List Event) : ∀ g : CallGraph,
    (events.foldl apply g).callees c =
      if c ∈ events.map Event.caller then
        some ((g.callees c).getD [] ++ events.filterMap (Event.siteFor c))
      else g.callees c := by
  induction events with
  | nil => exact fun g => rfl
  | cons e rest ih =>
    intro g
    rw [List.foldl_cons, ih, callees_apply]
    by_cases he : e.caller = c
    · have hsites : (e :: rest).filterMap (Event.siteFor c) =
          (e.siteFor c).toList ++ rest.filterMap (Event.siteFor c) := by
        cases hsite : e.siteFor c <;> simp [hsite]
      have hmem : c ∈ (e :: rest).map Event.caller := by simp [he]
      rw [if_pos he, if_pos hmem, Option.getD_some, hsites, List.append_assoc]
      split
      · rfl
      · next hrest =>
        have hnone : rest.filterMap (Event.siteFor c) = [] := by
          refine List.filterMap_eq_nil_iff.mpr fun e' he' => Event.siteFor_of_ne fun heq => hrest ?_
          exact heq ▸ List.mem_map_of_mem he'
        rw [hnone, List.append_nil]
    · have hmem : c ∈ (e :: rest).map Event.caller ↔ c ∈ rest.map Event.caller := by
        simp [Ne.symm he]
      rw [if_neg he, List.filterMap_cons, Event.siteFor_of_ne he]
      simp only [hmem]

/-- The calls of a caller, as far as events are about it. -/
theorem callees_foldl_empty (c : String) (events : List Event) :
    (events.foldl apply empty).callees c =
      if c ∈ events.map Event.caller then some (events.filterMap (Event.siteFor c)) else none := by
  rw [callees_foldl]
  rfl

/-! ### A graph as a run of events -/

/-- The events of an entry: the caller is declared, and its calls follow. -/
def entryLog (entry : String × List CallSite) : List Event :=
  .declare entry.1 :: entry.2.map (.call entry.1)

/-- A graph as a run of events, caller by caller. -/
def log (g : CallGraph) : List Event :=
  g.entries.flatMap entryLog

/-- Adding a graph is to run its events. -/
theorem merge_eq_foldl_log (g h : CallGraph) : g.merge h = h.log.foldl apply g := by
  rw [merge, log, List.foldl_flatMap]
  refine congrArg (fun f => h.entries.foldl f g) (funext fun g => funext fun e => ?_)
  rw [entryLog, List.foldl_cons, List.foldl_map]
  rfl

theorem foldl_enlist_entryLog (callers : List String) (entry : String × List CallSite) :
    ((entryLog entry).map Event.caller).foldl enlist callers = enlist callers entry.1 := by
  have hcalls : ∀ (calls : List CallSite) (callers : List String), entry.1 ∈ callers →
      ((calls.map (Event.call entry.1)).map Event.caller).foldl enlist callers = callers := by
    intro calls
    induction calls with
    | nil => exact fun _ _ => rfl
    | cons call rest ih =>
      intro callers hmem
      rw [List.map_cons, List.map_cons, List.foldl_cons, Event.caller, enlist_of_mem hmem]
      exact ih callers hmem
  rw [entryLog, List.map_cons, List.foldl_cons, Event.caller]
  exact hcalls entry.2 _ (mem_enlist_self callers entry.1)

/-- The log of a graph brings the callers of the graph, in their order. -/
theorem foldl_enlist_log (g : CallGraph) (callers : List String) :
    (g.log.map Event.caller).foldl enlist callers = g.callers.foldl enlist callers := by
  rw [log, List.map_flatMap, List.foldl_flatMap, CallGraph.callers, List.foldl_map]
  refine congrArg (fun f => g.entries.foldl f callers) (funext fun callers => funext fun e => ?_)
  exact foldl_enlist_entryLog callers e

/-- Callers that were listed one by one can be listed again behind others. -/
theorem foldl_enlist_foldl_enlist (names : List String) : ∀ callers listed : List String,
    (names.foldl enlist listed).foldl enlist callers =
      names.foldl enlist (listed.foldl enlist callers) := by
  have hsubset : ∀ (listed callers : List String), callers ⊆ listed.foldl enlist callers := by
    intro listed
    induction listed with
    | nil => exact fun callers => List.Subset.refl _
    | cons name rest ih =>
      exact fun callers => List.Subset.trans (subset_enlist callers name) (ih _)
  have hmem : ∀ {name : String} (listed callers : List String), name ∈ listed →
      name ∈ listed.foldl enlist callers := by
    intro name listed
    induction listed with
    | nil => exact fun callers h => absurd h List.not_mem_nil
    | cons first rest ih =>
      intro callers h
      rcases List.mem_cons.mp h with rfl | h
      · exact hsubset rest _ (mem_enlist_self callers name)
      · exact ih _ h
  induction names with
  | nil => exact fun _ _ => rfl
  | cons name rest ih =>
    intro callers listed
    rw [List.foldl_cons, List.foldl_cons, ih]
    congr 1
    by_cases h : name ∈ listed
    · rw [enlist_of_mem h, enlist_of_mem (hmem listed callers h)]
    · rw [enlist, if_neg h, List.foldl_append]
      rfl

theorem mem_callers_log {g : CallGraph} {c : String} :
    c ∈ g.log.map Event.caller ↔ c ∈ g.callers := by
  have hentry : ∀ entry, c ∈ (entryLog entry).map Event.caller ↔ c = entry.1 := by
    intro entry
    simpa [entryLog, Event.caller] using fun _ _ (h : entry.1 = c) => h.symm
  simp only [log, List.map_flatMap, List.mem_flatMap, hentry, callers, List.mem_map]
  exact exists_congr fun e => and_congr_right fun _ => eq_comm

theorem filterMap_siteFor_entryLog (c : String) (entry : String × List CallSite) :
    (entryLog entry).filterMap (Event.siteFor c) = if c = entry.1 then entry.2 else [] := by
  rw [entryLog, List.filterMap_cons, Event.siteFor, List.filterMap_map]
  by_cases h : c = entry.1
  · have hall : Event.siteFor c ∘ Event.call entry.1 = some := by
      funext site
      rw [Function.comp_apply, Event.siteFor, if_pos h.symm]
    rw [hall, List.filterMap_some, if_pos h]
  · have hnone : Event.siteFor c ∘ Event.call entry.1 = fun _ => none := by
      funext site
      rw [Function.comp_apply, Event.siteFor, if_neg (Ne.symm h)]
    rw [hnone, if_neg h, List.filterMap_eq_nil_iff]
    exact fun _ _ => rfl

theorem flatMap_eq_lookup {entries : List (String × List CallSite)}
    (hdistinct : (entries.map Prod.fst).Nodup) (c : String) :
    entries.flatMap (fun e => if c = e.1 then e.2 else []) = (entries.lookup c).getD [] := by
  induction entries with
  | nil => rfl
  | cons e rest ih =>
    obtain ⟨hfresh, hrest⟩ := List.nodup_cons.mp hdistinct
    rw [List.flatMap_cons, ih hrest, List.lookup_cons]
    by_cases h : c = e.1
    · -- no other entry is about this caller
      have hnone : rest.lookup e.1 = none := by
        refine List.lookup_eq_none_iff.mpr fun e' he' => ?_
        simpa using fun heq : e.1 = e'.1 => hfresh (heq ▸ List.mem_map_of_mem he')
      simp [h, hnone]
    · simp [h, beq_false_of_ne h]

/-- The calls of a caller in the log of a graph are its calls in the graph. -/
theorem filterMap_siteFor_log (g : CallGraph) (c : String) :
    g.log.filterMap (Event.siteFor c) = (g.callees c).getD [] := by
  rw [log, List.filterMap_flatMap, callees, ← flatMap_eq_lookup g.distinct]
  simp only [filterMap_siteFor_entryLog]

/-- **Graphs of runs can be merged.** To run events on a graph is to run them on their own and to add
the graph that they give. -/
theorem merge_foldl_empty (g : CallGraph) (events : List Event) :
    g.merge (events.foldl apply empty) = events.foldl apply g := by
  rw [merge_eq_foldl_log]
  refine eq_of_views ?_ fun c => ?_
  · rw [callers_foldl, callers_foldl, foldl_enlist_log, callers_foldl, foldl_enlist_foldl_enlist]
    rfl
  · have hmem : c ∈ (events.foldl apply empty).log.map Event.caller ↔
        c ∈ events.map Event.caller := by
      rw [mem_callers_log, mem_callers_foldl, or_iff_right (by simp [empty, callers])]
      simp [eq_comm]
    rw [callees_foldl, callees_foldl, filterMap_siteFor_log, callees_foldl_empty]
    simp only [hmem]
    split
    · rw [Option.getD_some]
    · rfl

/-- The graph of a file on its own, resolved by an index. -/
def ofUnit (index : Index) (macros : Bool) (u : SourceUnit) : CallGraph :=
  (Walk.unit index macros u).foldl apply empty

/-- **Files can be walked apart.** The graph of a program is what comes out when each file is walked
into an empty graph, by the index of the whole program, and the graphs are merged in load order. -/
theorem ofProgram_eq_foldl_merge (p : Program) (macros : Bool) :
    ofProgram p macros =
      (p.units.map (ofUnit (Index.ofProgram p) macros)).foldl merge empty := by
  rw [ofProgram, List.foldl_flatMap, List.foldl_map]
  refine congrArg (fun f => p.units.foldl f empty) (funext fun g => funext fun u => ?_)
  exact (merge_foldl_empty g _).symm

end CallGraph

end CallAtlas
