import CallAtlas.Proofs.Additions
import CallAtlas.Proofs.Crates
import CallAtlas.Proofs.Spelling

/-!
# Re-exports

A path of modules may end at a name that its last module does not have itself. The imports of that
module then say how to go on: an import of the name leads to another path, and a glob import leads to
another module which declares the name. Each time this takes one of the steps that are allowed.

With imports by name this may go on from module to module, up to a limit that is exact: sixteen of them
are followed, and a seventeenth is not (`Index.resolvePath_chain`).

With glob imports it may not. A glob import is passed over unless the module that it leads to declares
the name itself, be it by an import. What that module has through a glob import of its own is not
seen, so a module hands on what another one declares, and not what that one has been handed
(`Index.resolvePath_handedOn`).

## Main definitions

* `Index.Chain` — a function and the imports that lead to it, one after the other.
* `Index.HandsOn` — a module with a glob import of another.

## Main results

* `Index.locate_import`, `Index.locate_glob` — the two ways to go on.
* `Index.Chain.locate`, `Index.resolvePath_chain` — imports by name.
* `Index.resolvePath_handedOn` — glob imports.
-/

namespace CallAtlas

namespace Index

variable {i : Index} {fromCrate root name : String} {inner rest : List String} {steps : Nat}

/-! ### One step -/

theorem defines_eq_false_iff {m : String} (h : i.hasModule m = true) :
    i.defines m name = false ↔ lookupLast name (i.functions m) = none ∧ name ∉ i.types m ∧
      name ∉ i.submodules m := by
  rw [Bool.eq_false_iff, ne_eq, defines_iff, scope?_of_hasModule h]
  simp

theorem not_keeps_of_not_defines {m : String} (hmodule : i.hasModule m = true)
    (h : i.defines m name = false) : ¬ i.Keeps m name rest := by
  obtain ⟨hfunction, htype, hsubmodule⟩ := (defines_eq_false_iff hmodule).mp h
  cases rest with
  | nil => exact not_keeps_nil.mpr hfunction
  | cons method more => exact not_keeps_cons.mpr ⟨hsubmodule, htype⟩

/-- An import of the name leads to another path. -/
theorem locate_import (hcrate : i.hasCrate root = true) (hleads : i.Leads [root] inner)
    (hfree : ¬ i.Keeps (modulePath (root :: inner)) name rest) {target : List String}
    (himport : lookupLast name (i.imports (modulePath (root :: inner))) = some target) :
    i.locate fromCrate (steps + 1) (root :: (inner ++ name :: rest)) =
      (i.absolutize steps (root :: inner) none true target).bind fun path =>
        i.locate fromCrate steps (path ++ rest) := by
  rw [locate_eq_onward hcrate hleads hfree, onward, himport]
  exact Option.bind_map

/-- If there is none, the first glob import that supplies the name leads to another module. -/
theorem locate_glob (hcrate : i.hasCrate root = true) (hleads : i.Leads [root] inner)
    (hfree : ¬ i.Keeps (modulePath (root :: inner)) name rest)
    (hunbound : lookupLast name (i.imports (modulePath (root :: inner))) = none) :
    i.locate fromCrate (steps + 1) (root :: (inner ++ name :: rest)) =
      ((i.globs (modulePath (root :: inner))).findSome?
        (i.supplied steps (root :: inner) name)).bind fun base =>
          i.locate fromCrate steps (base ++ name :: rest) := by
  rw [locate_eq_onward hcrate hleads hfree, onward, hunbound, ← globDeclaring_eq_findSome?]
  exact Option.bind_map

/-- So it is for a name that the last module of a path does not declare. -/
theorem locate_of_undeclared (hcrate : i.hasCrate root = true) (hleads : i.Leads [root] inner)
    (hundeclared : i.declares (modulePath (root :: inner)) name = false) :
    i.locate fromCrate (steps + 1) (root :: (inner ++ name :: rest)) =
      ((i.globs (modulePath (root :: inner))).findSome?
        (i.supplied steps (root :: inner) name)).bind fun base =>
          i.locate fromCrate steps (base ++ name :: rest) := by
  have hmodule : i.hasModule (modulePath (root :: inner)) = true := hleads.hasModule
  have hnot : ¬ (i.defines (modulePath (root :: inner)) name = true ∨
      (i.scope? (modulePath (root :: inner))).isSome ∧
        lookupLast name (i.imports (modulePath (root :: inner))) ≠ none) := by
    rw [← declares_iff, hundeclared]
    exact Bool.false_ne_true
  obtain ⟨hfree, himport⟩ := not_or.mp hnot
  have hunbound : lookupLast name (i.imports (modulePath (root :: inner))) = none := by
    simpa [scope?_of_hasModule hmodule] using himport
  exact locate_glob hcrate hleads
    (not_keeps_of_not_defines hmodule (Bool.eq_false_iff.mpr hfree)) hunbound

/-! ### Imports by name -/

/-- A function of a crate and the imports that lead to it: for each of the first `k` modules, its name
there is bound to the path from the crate root that names it in the next one, and the last module
declares it. The modules are given by their paths behind the crate. -/
structure Chain (i : Index) (crate : String) (k : Nat) (inner : Nat → List String)
    (name : Nat → String) : Prop where
  /-- All of the modules are where their paths lead. -/
  leads : ∀ j ≤ k, i.Leads [crate] (inner j)
  /-- All but the last define no such name themselves. -/
  free : ∀ j < k, i.defines (modulePath (crate :: inner j)) (name j) = false
  /-- All but the last import it. -/
  imported : ∀ j < k, lookupLast (name j) (i.imports (modulePath (crate :: inner j))) =
    some ("crate" :: (inner (j + 1) ++ [name (j + 1)]))
  /-- The last one declares the function. -/
  function : ∃ isPublic, (name k, isPublic) ∈ i.functions (modulePath (crate :: inner k))

namespace Chain

variable {crate : String} {k : Nat} {inner : Nat → List String} {name : Nat → String}

/-- The chain from the second module on. -/
theorem tail (h : i.Chain crate (k + 1) inner name) :
    i.Chain crate k (fun j => inner (j + 1)) (fun j => name (j + 1)) where
  leads j hj := h.leads (j + 1) (by omega)
  free j hj := h.free (j + 1) (by omega)
  imported j hj := h.imported (j + 1) (by omega)
  function := h.function

/-- A chain is followed to its end, if there are more steps than imports in it. Induction is on the
number of imports; each takes one step, and what they meet besides makes no difference. -/
theorem locate (hcrate : i.hasCrate crate = true) (h : i.Chain crate k inner name) (steps : Nat) :
    i.locate crate steps (crate :: (inner 0 ++ [name 0])) =
      if k < steps then some (.inPackage (modulePath (crate :: inner k)) (name k)) else none := by
  induction k generalizing inner name steps with
  | zero =>
    cases steps with
    | zero => rfl
    | succ steps =>
      obtain ⟨isPublic, hfunction⟩ := h.function
      rw [locate_of_leads hcrate (h.leads 0 (Nat.le_refl 0)) hfunction, if_pos (Nat.succ_pos steps)]
  | succ k ih =>
    cases steps with
    | zero => rfl
    | succ steps =>
      have hleads := h.leads 0 (Nat.zero_le _)
      have hfree : ¬ i.Keeps (modulePath (crate :: inner 0)) (name 0) [] :=
        not_keeps_of_not_defines hleads.hasModule (h.free 0 (Nat.succ_pos k))
      rw [locate_import hcrate hleads hfree (h.imported 0 (Nat.succ_pos k))]
      cases steps with
      | zero =>
        have hlast : i.absolutize 0 (crate :: inner 0) none true
            ("crate" :: (inner 1 ++ [name 1])) = none := rfl
        rw [hlast, if_neg (by omega)]
        rfl
      | succ steps =>
        have hnext := ih h.tail (steps + 1)
        rw [absolutize_crate (by simp), Option.bind_some, List.take_one, List.append_nil]
        simpa using hnext

end Chain

/-- **Chains of imports.** From anywhere in its crate, a function is found through a chain of up to
sixteen imports, and nothing is found through a longer one. -/
theorem resolvePath_chain (i : Index) (crate : String) (k : Nat) (inner : Nat → List String)
    (name : Nat → String) (hcrate : i.hasCrate crate = true) (h : i.Chain crate k inner name)
    (s : Scope) (hs : s.module.head? = some crate) :
    i.resolvePath s ("crate" :: (inner 0 ++ [name 0])) =
      if k ≤ 16 then some (.inPackage (modulePath (crate :: inner k)) (name k)) else none := by
  obtain ⟨below, hmodule⟩ := List.head?_eq_some_iff.mp hs
  have habsolute : i.absolutize stepLimit s.module s.selfType false
      ("crate" :: (inner 0 ++ [name 0])) = some (crate :: (inner 0 ++ [name 0])) := by
    rw [stepLimit, absolutize_crate (by simp [hmodule]), hmodule]
    rfl
  have hscope : s.crate = crate := by
    rw [Scope.crate, hmodule]
    rfl
  have hlimit : k < stepLimit ↔ k ≤ 16 := Nat.lt_succ_iff
  rw [resolvePath_of_absolutize (Or.inr (by decide)) habsolute, hscope, h.locate hcrate]
  simp only [hlimit]

namespace Relay

theorem isIdent_replicate (n : Nat) :
    isIdent (String.ofList (List.replicate (n + 1) 'z')).toList = true := by
  have hstart : startsWord 'z' = true := by decide
  have hcontinue : continuesWord 'z' = true := by decide
  simp [isIdent, isWord, List.replicate_succ, hstart, hcontinue]

/-- The names `z`, `zz`, `zzz` and so on. -/
def hop (n : Nat) : Ident := ⟨_, isIdent_replicate n⟩

def crateWord : Ident := ⟨"crate", by decide⟩

def goal : Name := ⟨⟨"goal", by decide⟩, by decide⟩

/-- The names on the way, and `goal` behind them. -/
def names (j : Nat) : String :=
  if j < 17 then (hop j).text else "goal"

/-- `fn goal() {}`, a glob import of the crate itself, and seventeen imports from `use crate::zz as z;`
on, the last of which is one of `goal`. -/
def program : Program where
  units := [crateRoot "demo" (.function false (.mk goal [] [] []) ::
    .use (.path crateWord .glob) [] ::
    (List.range 17).map fun j =>
      .use (.path crateWord (.rename (if j = 16 then goal.toIdent else hop (j + 1)) (hop j))) [])]
  externs := []

theorem chain : (ofProgram program).Chain "demo" 17 (fun _ => []) names where
  leads _ _ := by
    rw [Leads]
    decide
  free := by decide
  imported := by decide
  function := ⟨false, by decide⟩

end Relay

theorem resolvePath_chain_relay :
    (ofProgram Relay.program).hasCrate "demo" = true ∧
      (ofProgram Relay.program).Chain "demo" 17 (fun _ => []) Relay.names ∧
      (ofProgram Relay.program).resolvePath ⟨["demo", "below"], none⟩ ["crate", "z"] = none ∧
      (ofProgram Relay.program).resolvePath ⟨["demo", "below"], none⟩ ["crate", "zz"] =
        some ⟨some "demo", "goal"⟩ := by
  have hcrate : (ofProgram Relay.program).hasCrate "demo" = true := by decide
  have hsymbol : Symbol.inPackage (modulePath ["demo"]) (Relay.names 17) = ⟨some "demo", "goal"⟩ := by
    decide
  refine ⟨hcrate, Relay.chain, ?_, ?_⟩
  · exact resolvePath_chain (ofProgram Relay.program) "demo" 17 (fun _ => []) Relay.names hcrate
      Relay.chain ⟨["demo", "below"], none⟩ rfl
  · rw [← hsymbol]
    exact resolvePath_chain (ofProgram Relay.program) "demo" 16 (fun _ => [])
      (fun j => Relay.names (j + 1)) hcrate Relay.chain.tail ⟨["demo", "below"], none⟩ rfl

/-! ### Glob imports -/

/-- A module has a glob import that leads to another one, and nothing is in the way of a name there:
the module does not declare it, and no earlier glob import supplies it. -/
structure HandsOn (i : Index) (module base : List String) (name : String) : Prop where
  /-- They are two modules. -/
  ne : base ≠ module
  /-- The module does not declare the name. -/
  undeclared : i.declares (modulePath module) name = false
  /-- The first glob import that could supply the name leads to the other module. -/
  glob : ∃ before target after, i.globs (modulePath module) = before ++ target :: after ∧
    i.absolutize (stepLimit - 1) module none true target = some base ∧
    ∀ earlier ∈ before, i.supplied (stepLimit - 1) module name earlier = none

namespace HandsOn

variable {base : List String}

/-- What the other module declares comes from there. -/
theorem findSome?_supplied (h : i.HandsOn (root :: inner) base name)
    (hdeclares : i.declares (modulePath base) name = true) :
    (i.globs (modulePath (root :: inner))).findSome?
      (i.supplied (stepLimit - 1) (root :: inner) name) = some base := by
  obtain ⟨before, target, after, hglobs, htarget, hbefore⟩ := h.glob
  have hsupplied : i.supplied (stepLimit - 1) (root :: inner) name target = some base :=
    supplied_eq_some_iff.mpr ⟨htarget, h.ne, hdeclares⟩
  rw [hglobs, List.findSome?_append, List.findSome?_eq_none_iff.mpr hbefore, Option.none_or,
    List.findSome?_cons, hsupplied]

end HandsOn

/-- **Glob imports.** Where a module hands on what another declares, a path through the first leads
where the path through the second does, provided that this gets by with one step less than the limit.
It makes no difference how the path is written in a scope. But what no glob import finds declared at
its end is not found at all, also where the other module has it through a glob import of its own. -/
theorem resolvePath_handedOn (i : Index) (root : String) (inner base : List String) (name : String)
    (rest : List String) (hcrate : i.hasCrate root = true) (hleads : i.Leads [root] inner)
    (h : i.HandsOn (root :: inner) base name) (s : Scope) (symbol : Symbol)
    (hbase : i.locate s.crate stepLimit (base ++ name :: rest) = some symbol)
    (hlimit : i.locate s.crate (stepLimit - 1) (base ++ name :: rest) =
      i.locate s.crate stepLimit (base ++ name :: rest)) :
    (i.declares (modulePath base) name = true →
      i.locate s.crate stepLimit (root :: (inner ++ name :: rest)) = some symbol ∧
      ∀ first more, more = [] ∨ first ∉ primitiveTypes →
        i.absolutize stepLimit s.module s.selfType false (first :: more) =
          some (root :: (inner ++ name :: rest)) →
        i.resolvePath s (first :: more) = some symbol) ∧
    ((∀ target ∈ i.globs (modulePath (root :: inner)),
        i.supplied (stepLimit - 1) (root :: inner) name target = none) →
      i.locate s.crate stepLimit (root :: (inner ++ name :: rest)) = none) := by
  have hglob : i.locate s.crate stepLimit (root :: (inner ++ name :: rest)) =
      ((i.globs (modulePath (root :: inner))).findSome?
        (i.supplied (stepLimit - 1) (root :: inner) name)).bind fun base =>
          i.locate s.crate (stepLimit - 1) (base ++ name :: rest) :=
    locate_of_undeclared hcrate hleads h.undeclared
  constructor
  · intro hdeclares
    have hlocate : i.locate s.crate stepLimit (root :: (inner ++ name :: rest)) = some symbol := by
      rw [hglob, h.findSome?_supplied hdeclares, Option.bind_some, hlimit, hbase]
    refine ⟨hlocate, fun first more hprimitive habsolute => ?_⟩
    rw [resolvePath_of_absolutize hprimitive habsolute, hlocate]
  · intro hnone
    rw [hglob, List.findSome?_eq_none_iff.mpr hnone, Option.bind_none]

namespace Kit

def tools : Ident := ⟨"tools", by decide⟩

def spare : Ident := ⟨"spare", by decide⟩

def kit : Ident := ⟨"kit", by decide⟩

def bundle : Ident := ⟨"bundle", by decide⟩

def gear : Ident := ⟨"gear", by decide⟩

def rack : Ident := ⟨"rack", by decide⟩

def sharpen : Name := ⟨⟨"sharpen", by decide⟩, by decide⟩

/-- `mod name { pub use crate::a::*; pub use crate::b::*; }`, with a glob import for each target. -/
def handing (name : Ident) (targets : List Ident) : Item :=
  .module ⟨false, none⟩ name []
    (targets.map fun target => .use (.path Relay.crateWord (.path target .glob)) [])

/-- `tools` has a function, which `kit` hands on. A glob import of `kit` stands in `bundle`. The module
`tools` is also known as `gear` in the crate root, and a glob import of `gear` stands in `rack`. -/
def program : Program where
  units := [crateRoot "demo"
    [.module ⟨false, none⟩ tools [] [.function true (.mk sharpen [] [] [])],
      .module ⟨false, none⟩ spare [] [], handing kit [spare, tools], handing bundle [kit],
      .use (.path Relay.crateWord (.rename tools gear)) [], handing rack [gear]]]
  externs := []

theorem leads : (ofProgram program).Leads ["demo"] ["kit"] := by
  simp only [Leads]
  decide

theorem handsOn : (ofProgram program).HandsOn ["demo", "kit"] ["demo", "tools"] "sharpen" where
  ne := by decide
  undeclared := by decide
  glob := ⟨[["crate", "spare"]], ["crate", "tools"], [], by decide, by decide,
    by decide⟩

end Kit

theorem resolvePath_handedOn_kit :
    (ofProgram Kit.program).Leads ["demo"] ["kit"] ∧
      (ofProgram Kit.program).HandsOn ["demo", "kit"] ["demo", "tools"] "sharpen" ∧
      (ofProgram Kit.program).resolvePath ⟨["demo"], none⟩ ["kit", "sharpen"] =
        some ⟨some "demo::tools", "sharpen"⟩ := by
  have hresolve := resolvePath_handedOn (ofProgram Kit.program) "demo" ["kit"] ["demo", "tools"]
    "sharpen" [] (by decide) Kit.leads Kit.handsOn ⟨["demo"], none⟩
    ⟨some "demo::tools", "sharpen"⟩ (by decide) (by decide)
  have hdeclares :
      (ofProgram Kit.program).declares (modulePath ["demo", "tools"]) "sharpen" = true := by
    decide
  exact ⟨Kit.leads, Kit.handsOn,
    (hresolve.1 hdeclares).2 "kit" ["sharpen"] (Or.inr (by decide)) (by decide)⟩

/-- The glob import of `bundle` is of the same form, but `bundle` does not hand on what `kit` does. Nor
does `rack`, where the path of the glob leads through an import of the crate root. -/
theorem globs_not_chained :
    (ofProgram Kit.program).HandsOn ["demo", "bundle"] ["demo", "kit"] "sharpen" ∧
      (ofProgram Kit.program).resolvePath ⟨["demo"], none⟩ ["crate", "kit", "sharpen"] =
        some ⟨some "demo::tools", "sharpen"⟩ ∧
      (ofProgram Kit.program).resolvePath ⟨["demo"], none⟩ ["crate", "bundle", "sharpen"] = none ∧
      (ofProgram Kit.program).resolvePath ⟨["demo"], none⟩ ["crate", "gear", "sharpen"] =
        some ⟨some "demo::tools", "sharpen"⟩ ∧
      (ofProgram Kit.program).resolvePath ⟨["demo"], none⟩ ["crate", "rack", "sharpen"] = none := by
  have hbundle : (ofProgram Kit.program).HandsOn ["demo", "bundle"] ["demo", "kit"] "sharpen" := by
    refine ⟨by decide, by decide, [], ["crate", "kit"], [], ?_, ?_, ?_⟩
    all_goals decide
  refine ⟨hbundle, ?_⟩
  decide

end Index

end CallAtlas
