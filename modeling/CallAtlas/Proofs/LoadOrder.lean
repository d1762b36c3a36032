import CallAtlas.Proofs.Agreement
import CallAtlas.Proofs.EventLog
import CallAtlas.Proofs.Grounding
import CallAtlas.Proofs.Trimming

/-!
# The order of loading

The tables of an index list what files declare, one file after the other, and some look-ups depend
on the order: the last declaration of a name counts, and globs are tried in turn. Such a table
belongs to one module, though. If no two files have a module in common, it is filled by one file,
and the order of the files is of no consequence. The same holds for a call graph: the name of a
caller tells its module, and with it the file that all of its calls come from.

## Main definitions

* `SourceUnit.modules`, `SourceUnit.moduleKeys` — the modules of a file, those in braces
  among them.
* `SourceUnit.Apart` — files that have no modules in common.
* `CallGraph.moduleOfCaller` — the module of a caller.

## Main results

* `SourceUnit.mem_moduleKeys_of_home`, `Walk.moduleOfCaller_mem` — what a file declares, and the
  callers in it, belong to its modules.
* `CallGraph.loadOrder_irrelevant` — files in another order.
-/

namespace CallAtlas

open Outline

/-! ### The modules of a file -/

namespace SourceUnit

/-- The modules of a file: the one that it defines, and all modules in braces in it, also in bodies
of functions and in the arguments of macros. -/
def modules (u : SourceUnit) : List (List String) :=
  u.module :: (nodesOf true u).filterMap fun x =>
    match x.2.label with
    | .module name => some (x.1.module u.module ++ [name.text])
    | _ => none

/-- The modules of a file, by their names. -/
def moduleKeys (u : SourceUnit) : List String :=
  u.modules.map modulePath

/-- The module at a node is a module of the file. -/
theorem module_mem_modules {u : SourceUnit} :
    ∀ {trail : Trail} {o : Outline}, (trail, o) ∈ nodesOf true u → trail.module u.module ∈ u.modules
  | [], _, _ => List.mem_cons_self
  | f :: outer, o, h => by
    obtain ⟨parts, hparent⟩ := (exists_parent h).resolve_left (by simp)
    have houter : Trail.module u.module outer ∈ u.modules := module_mem_modules hparent
    obtain ⟨label, earlier⟩ := f
    cases label with
    | module name => exact List.mem_cons_of_mem _ (List.mem_filterMap.mpr ⟨_, hparent, rfl⟩)
    | _ => exact houter

theorem module_mem_modules_of_macros {u : SourceUnit} {macros : Bool} {trail : Trail} {o : Outline}
    (h : (trail, o) ∈ nodesOf macros u) : trail.module u.module ∈ u.modules := by
  obtain ⟨y, hy, hmodule, -⟩ := exists_mem_nodesOf_true h
  exact hmodule ▸ module_mem_modules hy

/-- What a file declares stands in the tables of its modules. -/
theorem mem_moduleKeys_of_home {u : SourceUnit} {d : Declaration} {m : String}
    (hd : d ∈ Declaration.ofUnit u) (hm : d.home? = some m) : m ∈ u.moduleKeys := by
  have hmem : d ∈ Declaration.ofProgram ⟨[u], []⟩ :=
    Declaration.mem_ofProgram_of_unit (List.mem_singleton.mpr rfl) hd
  obtain ⟨path, item, hindexed, rfl⟩ := Declaration.exists_indexed_of_home hmem hm
  obtain ⟨v, hv, trail, hnode, -, -, rfl⟩ := hindexed.exists_open true
  obtain rfl := List.mem_singleton.mp hv
  exact List.mem_map_of_mem (module_mem_modules hnode)

end SourceUnit

/-! ### The callers in a file -/

/-- The module of a caller, by its name. -/
def CallGraph.moduleOfCaller (caller : String) : String :=
  (Symbol.ofQualified caller).package.getD ""

/-- The name of a function as a caller tells its module. -/
theorem Outline.Trail.moduleOfCaller_key (base : List String) (trail : Trail) (name : Ident) :
    CallGraph.moduleOfCaller (trail.key base name) = modulePath (trail.module base) := by
  rw [CallGraph.moduleOfCaller, Trail.key,
    Symbol.ofQualified_qualifiedName (dot_not_mem_of_isIdent name.wellFormed),
    Symbol.getD_package_inPackage]

/-- The innermost function around a node is a node. -/
theorem Outline.Trail.exists_function_of_caller {u : SourceUnit} {macros : Bool} {c : String} :
    ∀ {trail : Trail} {o : Outline}, (trail, o) ∈ nodesOf macros u →
      trail.caller u.module = some c →
      ∃ outer name params parts, (outer, .node (.function name params) parts) ∈ nodesOf macros u ∧
        c = outer.key u.module name
  | [], _, _, hc => by simp [Trail.caller] at hc
  | f :: outer, o, h, hc => by
    obtain ⟨parts, hparent⟩ := (exists_parent h).resolve_left (by simp)
    obtain ⟨label, earlier⟩ := f
    cases label with
    | function name params =>
      exact ⟨outer, name, params, parts, hparent, (Option.some.inj hc).symm⟩
    | _ => exact exists_function_of_caller hparent hc

/-- The callers in a file are functions of its modules. -/
theorem Walk.moduleOfCaller_mem {index : Index} {macros : Bool} {u : SourceUnit} {e : Event}
    (h : e ∈ Walk.unit index macros u) : CallGraph.moduleOfCaller e.caller ∈ u.moduleKeys := by
  have hkey : ∀ {trail : Trail} {o : Outline} (name : Ident), (trail, o) ∈ nodesOf macros u →
      CallGraph.moduleOfCaller (trail.key u.module name) ∈ u.moduleKeys := by
    intro trail o name hnode
    rw [Trail.moduleOfCaller_key]
    exact List.mem_map_of_mem (SourceUnit.module_mem_modules_of_macros hnode)
  rw [Walk.unit_eq_flatMap_nodes] at h
  obtain ⟨⟨trail, label, parts⟩, hnode, hevent⟩ := List.mem_flatMap.mp h
  cases e with
  | declare caller =>
    obtain ⟨name, params, -, rfl⟩ := Label.exists_of_declare_mem_events hevent
    exact hkey name hnode
  | call caller site =>
    obtain ⟨place, target, symbol, -, hcaller, -, -⟩ := Label.exists_of_call_mem_events hevent
    obtain ⟨outer, name, params, parts', hfunction, rfl⟩ :=
      Trail.exists_function_of_caller hnode hcaller
    exact hkey name hfunction

/-! ### Files in another order -/

/-- Lists may be joined in any order if all but one of them are empty. -/
theorem flatMap_eq_of_perm {α β : Type} {f : α → List β} {as bs : List α} (h : as.Perm bs)
    (hf : as.Pairwise fun a b => f a = [] ∨ f b = []) : as.flatMap f = bs.flatMap f := by
  induction h with
  | nil => rfl
  | cons a _ ih =>
    rw [List.flatMap_cons, List.flatMap_cons, ih (List.pairwise_cons.mp hf).2]
  | swap a b rest =>
    rcases (List.pairwise_cons.mp hf).1 a List.mem_cons_self with hb | ha
    · simp [hb]
    · simp [ha]
  | trans hab _ ih ih' => exact (ih hf).trans (ih' (hab.pairwise hf Or.symm))

/-- No two files have a module in common. -/
def SourceUnit.Apart (units : List SourceUnit) : Prop :=
  units.Pairwise fun u v => ∀ key ∈ u.moduleKeys, key ∉ v.moduleKeys

instance (units : List SourceUnit) : Decidable (SourceUnit.Apart units) :=
  inferInstanceAs (Decidable (units.Pairwise fun u v => ∀ key ∈ u.moduleKeys, key ∉ v.moduleKeys))

section Reordered

open SourceUnit

variable {units order : List SourceUnit} {externs : List String}

/-- What belongs to one module comes from one file. -/
theorem SourceUnit.Apart.flatMap_eq (hapart : Apart units) (h : units.Perm order) {β : Type}
    {f : SourceUnit → List β} (key : String) (hf : ∀ u, f u ≠ [] → key ∈ u.moduleKeys) :
    units.flatMap f = order.flatMap f := by
  refine flatMap_eq_of_perm h (hapart.imp fun {u v} hkeys => ?_)
  by_cases hu : f u = []
  · exact Or.inl hu
  · refine Or.inr (Classical.not_not.mp fun hv => ?_)
    exact hkeys key (hf u hu) (hf v hv)

theorem Index.mem_declarations_iff_of_perm (h : units.Perm order) (d : Declaration) :
    d ∈ (Index.ofProgram ⟨units, externs⟩).declarations ↔
      d ∈ (Index.ofProgram ⟨order, externs⟩).declarations :=
  ((h.flatMap_right Declaration.ofUnit).append_left _).mem_iff

theorem Index.declaredIn_eq_of_perm (h : units.Perm order) (hapart : Apart units) (m : String) :
    (Index.ofProgram ⟨units, externs⟩).declaredIn m =
      (Index.ofProgram ⟨order, externs⟩).declaredIn m := by
  simp only [Index.declaredIn, Index.ofProgram, Declaration.ofProgram, List.filter_append,
    List.filter_flatMap]
  rw [hapart.flatMap_eq h m fun u hu => ?_]
  obtain ⟨d, hd⟩ := List.exists_mem_of_ne_nil _ hu
  obtain ⟨hd, hhome⟩ := List.mem_filter.mp hd
  exact u.mem_moduleKeys_of_home hd (by simpa using hhome)

/-- The calls of a caller come from one file. -/
theorem SourceUnit.Apart.filterMap_siteFor (hapart : Apart units) (h : units.Perm order)
    (index : Index) (macros : Bool) (c : String) :
    (units.flatMap (Walk.unit index macros)).filterMap (Event.siteFor c) =
      (order.flatMap (Walk.unit index macros)).filterMap (Event.siteFor c) := by
  rw [List.filterMap_flatMap, List.filterMap_flatMap]
  refine hapart.flatMap_eq h (CallGraph.moduleOfCaller c) fun u hu => ?_
  obtain ⟨site, hsite⟩ := List.exists_mem_of_ne_nil _ hu
  obtain ⟨e, he, hsite⟩ := List.mem_filterMap.mp hsite
  have hcaller : e.caller = c := Classical.not_not.mp fun hne => by
    simp [Event.siteFor_of_ne hne] at hsite
  exact hcaller ▸ Walk.moduleOfCaller_mem he

/-- Files are walked alike under indexes that resolve calls alike. -/
theorem Walk.unit_congr {i j : Index}
    (hpath : ∀ s path, i.resolvePath s path = j.resolvePath s path)
    (hmethod : ∀ s onSelf name, i.resolveMethod s onSelf name = j.resolveMethod s onSelf name)
    (macros : Bool) (u : SourceUnit) : Walk.unit i macros u = Walk.unit j macros u := by
  have hcallee : ∀ (trail : Trail) (target : Walk.Target),
      trail.callee i u.module target = trail.callee j u.module target := by
    intro trail target
    cases target <;> simp only [Trail.callee, hpath, hmethod]
  rw [Walk.unit_eq_flatMap_nodes, Walk.unit_eq_flatMap_nodes]
  congr 1
  funext x
  unfold Label.events
  split
  · rfl
  · rw [hcallee]
  · rfl

end Reordered

namespace CallGraph

open SourceUnit

/-- **The order of loading.** Let no two files of a program have a module in common, and let its
files be loaded in another order. Then all calls resolve to the same functions, and in the two call
graphs there are the same callers with the same calls, in the same order for each. -/
theorem loadOrder_irrelevant (units order : List SourceUnit) (externs : List String)
    (h : units.Perm order) (hapart : Apart units) :
    let i := Index.ofProgram ⟨units, externs⟩
    let j := Index.ofProgram ⟨order, externs⟩
    (∀ s path, i.resolvePath s path = j.resolvePath s path) ∧
    (∀ s onSelf name, i.resolveMethod s onSelf name = j.resolveMethod s onSelf name) ∧
    ∀ macros, let g := ofProgram ⟨units, externs⟩ macros
      let g' := ofProgram ⟨order, externs⟩ macros
      (∀ c, c ∈ g.callers ↔ c ∈ g'.callers) ∧ ∀ c, g.callees c = g'.callees c := by
  intro i j
  have hmem : ∀ d, d ∈ i.declarations ↔ d ∈ j.declarations := Index.mem_declarations_iff_of_perm h
  have hagree := Index.agree_of_declaredIn hmem (Index.declaredIn_eq_of_perm h hapart)
  have hpath : ∀ s path, i.resolvePath s path = j.resolvePath s path :=
    fun s path => hagree.resolvePath_eq trivial (fun _ _ _ _ => hagree.global trivial)
      fun _ _ => hagree.global trivial
  have hmethod := Index.resolveMethod_eq hmem
  refine ⟨hpath, hmethod, fun macros => ?_⟩
  intro g g'
  have hwalk : Walk.unit i macros = Walk.unit j macros :=
    funext (Walk.unit_congr hpath hmethod macros)
  have hcallers : ∀ c, c ∈ (units.flatMap (Walk.unit j macros)).map Event.caller ↔
      c ∈ (order.flatMap (Walk.unit j macros)).map Event.caller :=
    fun c => ((h.flatMap_right _).map _).mem_iff
  have hcallees : ∀ c, g.callees c = g'.callees c := by
    intro c
    simp only [g, g', ofProgram]
    rw [hwalk, callees_foldl_empty, callees_foldl_empty, hapart.filterMap_siteFor h]
    exact ite_congr (propext (hcallers c)) (fun _ => rfl) fun _ => rfl
  refine ⟨fun c => ?_, hcallees⟩
  have hlisted : ∀ g : CallGraph, c ∈ g.callers ↔ g.callees c ≠ none := by
    intro g
    rw [Ne, callees_eq_none_iff, Classical.not_not]
  rw [hlisted, hlisted, hcallees]

/-! ### Two crates, of which one calls the other -/

namespace TwoCrates

def main : Name := ⟨⟨"main", by decide⟩, by decide⟩

def run : Name := ⟨⟨"run", by decide⟩, by decide⟩

def lib : Ident := ⟨"lib", by decide⟩

def inner : Ident := ⟨"inner", by decide⟩

/-- `fn main() { mod inner { fn run() {} } lib::run() }` -/
def app : SourceUnit where
  crate := "app"
  module := ["app"]
  path := "main.rs"
  file :=
    { attrs := []
      items :=
        [.function false
          (.mk main [] []
            [.item (.module ⟨false, none⟩ inner [] [.function false (.mk run [] [] [])]),
              .expr (.call ⟨1, 39⟩ [] (.path [] (.plain false) [lib, run.toIdent] []) [])])] }

/-- `pub fn run() {}` -/
def library : SourceUnit where
  crate := "lib"
  module := ["lib"]
  path := "lib.rs"
  file := { attrs := [], items := [.function true (.mk run [] [] [])] }

end TwoCrates

theorem loadOrder_irrelevant_twoCrates :
    let units := [TwoCrates.app, TwoCrates.library]
    Apart units ∧
      TwoCrates.app.moduleKeys = ["app", "app::inner"] ∧
      (ofProgram ⟨units, []⟩ true).callees "app.main" =
        some [⟨"lib.run", .ofPlace "main.rs" ⟨1, 39⟩⟩] ∧
      (ofProgram ⟨units.reverse, []⟩ true).callees "app.main" =
        some [⟨"lib.run", .ofPlace "main.rs" ⟨1, 39⟩⟩] := by
  intro units
  have hapart : Apart units := by decide +kernel
  have hcallees : (ofProgram ⟨units, []⟩ true).callees "app.main" =
      some [⟨"lib.run", .ofPlace "main.rs" ⟨1, 39⟩⟩] := by
    decide +kernel
  obtain ⟨-, -, hgraph⟩ :=
    loadOrder_irrelevant units units.reverse [] (List.reverse_perm units).symm hapart
  refine ⟨hapart, by decide +kernel, hcallees, ?_⟩
  rw [← (hgraph true).2, hcallees]

end CallGraph

end CallAtlas
