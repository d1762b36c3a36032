import CallAtlas.Proofs.Agreement
import CallAtlas.Proofs.Emptying

/-!
# More functions and imports in a module

Two indexes, of which the second holds some functions and imports more, all of one module. These may
hide what a path names elsewhere, or send it elsewhere, since calls from other functions, modules and
crates meet them too. They do neither if each name that is new was idle wherever it is met: nothing
was made of it before, in its module or in modules with a glob import of it. Then a module makes the
same of any other name, and so does every step of a search.

## Main definitions

* `Index.Adds` — an index with more functions and imports in one module.
* `Index.Idle` — nothing but a definition of its own is made of a name in a module.
* `Index.Respects` — all that is added are names that were idle, or what was there already.

## Main results

* `Index.Respects.idle_or_kept` — a module makes the same of a name, or nothing was made of it.
* `Index.Respects.absolutize_mono`, `Index.Respects.locate_mono` — the two halves of a search.
* `Index.Respects.resolvePath_mono` — calls by a path.
-/

namespace CallAtlas

/-! ### The first hit in a list -/

/-- What is skipped anyway may be left out. -/
theorem findSome?_filter_eq {α β : Type} {f : α → Option β} {keep : α → Bool} {xs : List α}
    (h : ∀ x ∈ xs, keep x = false → f x = none) :
    (xs.filter keep).findSome? f = xs.findSome? f := by
  induction xs with
  | nil => rfl
  | cons x rest ih =>
    have hrest := ih fun y hy => h y (List.mem_cons_of_mem x hy)
    by_cases hx : keep x = true
    · rw [List.filter_cons_of_pos hx, List.findSome?_cons, List.findSome?_cons, hrest]
    · have hnone := h x List.mem_cons_self (Bool.eq_false_iff.mpr hx)
      rw [List.filter_cons_of_neg hx, List.findSome?_cons, hnone, hrest]

/-- So may repetitions. -/
theorem findSome?_eraseDups {α β : Type} [BEq α] [LawfulBEq α] (f : α → Option β) :
    ∀ xs : List α, xs.eraseDups.findSome? f = xs.findSome? f
  | [] => rfl
  | x :: rest => by
    rw [List.eraseDups_cons, List.findSome?_cons, List.findSome?_cons,
      findSome?_eraseDups f (rest.filter fun y => !y == x)]
    split
    · rfl
    · next hx =>
      refine findSome?_filter_eq fun y _ hy => ?_
      obtain rfl : y = x := by simpa using hy
      exact hx
termination_by xs => xs.length
decreasing_by exact Nat.lt_succ_of_le (List.length_filter_le _ _)

theorem findSome?_congr {α β : Type} {f g : α → Option β} {xs : List α} (h : ∀ x ∈ xs, f x = g x) :
    xs.findSome? f = xs.findSome? g := by
  have hmap : ∀ f : α → Option β, xs.findSome? f = (xs.map f).findSome? id := by
    intro f
    rw [List.findSome?_map]
    rfl
  rw [hmap f, hmap g, List.map_congr_left h]

theorem lookupLast_eq_none_iff {α : Type} {key : String} {entries : List (String × α)} :
    lookupLast key entries = none ↔ (entries.map Prod.fst).contains key = false := by
  rw [lookupLast, List.lookup_eq_none_iff, Bool.eq_false_iff, ne_eq, List.contains_iff_mem,
    List.mem_map]
  constructor
  · rintro h ⟨entry, hentry, rfl⟩
    simpa using h entry (List.mem_reverse.mpr hentry)
  · intro h entry hentry
    exact bne_iff_ne.mpr fun heq => h ⟨entry, List.mem_reverse.mp hentry, heq.symm⟩

namespace Index

/-! ### More functions and imports in a module -/

/-- The second index holds some functions and imports more, which stand in one module. -/
def Adds (i j : Index) (m : String) : Prop :=
  ∃ added, Cut added j.declarations i.declarations ∧ ∀ d ∈ added, d.UseOrFunction m

namespace Adds

variable {i j : Index} {m : String}

theorem mem_of_mem (h : i.Adds j m) {d : Declaration} (hd : d ∈ i.declarations) :
    d ∈ j.declarations := by
  obtain ⟨added, hcut, -⟩ := h
  exact hcut.mem_iff.mpr (Or.inr hd)

theorem mem_iff (h : i.Adds j m) {d : Declaration} (hd : ¬ d.UseOrFunction m) :
    d ∈ j.declarations ↔ d ∈ i.declarations := by
  obtain ⟨added, hcut, hadded⟩ := h
  rw [hcut.mem_iff]
  exact ⟨fun hmem => hmem.resolve_left fun hnew => hd (hadded d hnew), Or.inr⟩

/-- A table without such entries stays as it is. -/
theorem filterMap_eq (h : i.Adds j m) {β : Type} {f : Declaration → Option β}
    (hf : ∀ d : Declaration, d.UseOrFunction m → f d = none) :
    j.declarations.filterMap f = i.declarations.filterMap f := by
  obtain ⟨added, hcut, hadded⟩ := h
  exact hcut.filterMap_eq fun d hd => hf d (hadded d hd)

theorem hasModule_eq (h : i.Adds j m) (module : String) :
    j.hasModule module = i.hasModule module := by
  rw [Bool.eq_iff_iff, hasModule, hasModule, List.contains_iff_mem, List.contains_iff_mem]
  exact h.mem_iff (by rintro ⟨⟩)

theorem hasCrate_eq (h : i.Adds j m) (name : String) : j.hasCrate name = i.hasCrate name := by
  rw [Bool.eq_iff_iff, hasCrate, hasCrate, List.contains_iff_mem, List.contains_iff_mem]
  exact h.mem_iff (by rintro ⟨⟩)

theorem knows_eq (h : i.Adds j m) (name : String) : j.knows name = i.knows name := by
  have hextern : j.hasExternCrate name = i.hasExternCrate name := by
    rw [Bool.eq_iff_iff, hasExternCrate, hasExternCrate, List.contains_iff_mem,
      List.contains_iff_mem]
    exact h.mem_iff (by rintro ⟨⟩)
  rw [knows, knows, h.hasCrate_eq, hextern]

theorem types_eq (h : i.Adds j m) (module : String) : j.types module = i.types module :=
  h.filterMap_eq fun d hd => by cases hd <;> rfl

theorem submodules_eq (h : i.Adds j m) (module : String) :
    j.submodules module = i.submodules module :=
  h.filterMap_eq fun d hd => by cases hd <;> rfl

theorem methodsOf_eq (h : i.Adds j m) (type name : String) :
    j.methodsOf type name = i.methodsOf type name :=
  h.filterMap_eq fun d hd => by cases hd <;> rfl

theorem associated_eq (h : i.Adds j m) (module type name fromCrate : String) :
    j.associated module type name fromCrate = i.associated module type name fromCrate := by
  rw [associated, associated, h.methodsOf_eq]

variable {module : String}

theorem functions_eq (h : i.Adds j m) (hne : module ≠ m) :
    j.functions module = i.functions module :=
  h.filterMap_eq fun d hd => by cases hd <;> simp [Ne.symm hne]

theorem imports_eq (h : i.Adds j m) (hne : module ≠ m) : j.imports module = i.imports module :=
  h.filterMap_eq fun d hd => by cases hd <;> simp [Ne.symm hne]

theorem globs_eq (h : i.Adds j m) (hne : module ≠ m) : j.globs module = i.globs module :=
  h.filterMap_eq fun d hd => by cases hd <;> simp [Ne.symm hne]

/-- A function that was there is there. -/
theorem lookupLast_functions_ne_none (h : i.Adds j m) {name : String}
    (hname : lookupLast name (i.functions module) ≠ none) :
    lookupLast name (j.functions module) ≠ none := by
  rw [ne_eq, lookupLast_eq_none_iff, Bool.not_eq_false, List.contains_iff_mem, List.mem_map] at *
  obtain ⟨⟨_, isPublic⟩, hmem, rfl⟩ := hname
  exact ⟨_, mem_functions_iff.mpr (h.mem_of_mem (mem_functions_iff.mp hmem)), rfl⟩

end Adds

/-! ### What a module makes of a name -/

/-- Does a module define a name itself? -/
def defines (i : Index) (m name : String) : Bool :=
  (i.scope? m).any (·.defines name)

/-- A glob import of a module leads to another module. -/
def Base (i : Index) (module base : List String) : Prop :=
  base ≠ module ∧ ∃ target ∈ i.globs (modulePath module), ∃ steps,
    i.absolutize steps module none true target = some base

/-- An import of a module stands for a path. -/
def ImportsPath (i : Index) (m : String) (path : List String) : Prop :=
  path ∈ i.globs m ∨ ∃ newName, (newName, path) ∈ i.imports m

/-- A name that is known in a module neither as a crate nor without a declaration, nor as the start
of an import. -/
structure Unknown (i : Index) (m name : String) : Prop where
  crate : i.knows name = false
  preludeType : preludeTypes.lookup name = none
  preludeFunction : name ∉ preludeFunctions
  primitiveType : name ∉ primitiveTypes
  start : ∀ path, i.ImportsPath m path → path.head? ≠ some name

/-- Nothing is made of a name in a module, unless the module defines it. -/
structure Idle (i : Index) (module : List String) (name : String) : Prop where
  imports : lookupLast name (i.imports (modulePath module)) = none
  globs : ∀ base, i.Base module base → i.declares (modulePath base) name = false
  unknown : i.defines (modulePath module) name = true ∨ i.Unknown (modulePath module) name

/-- A module imports a name by itself, as something else than a crate. The import leads somewhere. -/
def Imported (i : Index) (module : List String) (name : String) : Prop :=
  ∃ target, lookupLast name (i.imports (modulePath module)) = some target ∧ target ≠ [name] ∧
    (i.absolutize 1 module none true target).isSome

/-- A module has a function or an import of a name that it did not have before. -/
def News (i j : Index) (m name : String) : Prop :=
  lookupLast name (i.functions m) = none ∧ lookupLast name (j.functions m) ≠ none ∨
    lookupLast name (j.imports m) ≠ lookupLast name (i.imports m)

/-- A glob import that was not there before leads to another module. -/
def NewBase (i j : Index) (module base : List String) : Prop :=
  base ≠ module ∧ ∃ target ∈ j.globs (modulePath module), target ∉ i.globs (modulePath module) ∧
    ∃ steps, j.absolutize steps module none true target = some base

/-- What the second index has more in a module takes nothing from the first. -/
structure Respects (i j : Index) (m : String) : Prop where
  /-- Public functions stay public. -/
  visible : ∀ name, lookupLast name (i.functions m) = some true →
    lookupLast name (j.functions m) = some true
  /-- A name that is new meant nothing there before. -/
  names : ∀ name, News i j m name → ∀ module, modulePath module = m → i.Idle module name
  /-- Where a glob import leads to the module, a new name meant nothing or is imported by itself. -/
  seen : ∀ name, News i j m name → ∀ module base, i.Base module base → modulePath base = m →
    i.Idle module name ∨ i.Imported module name
  /-- The glob imports that were there come in the same order, repetitions apart. -/
  order : ((j.globs m).filter (i.globs m).contains).eraseDups = (i.globs m).eraseDups
  /-- A name that a new glob import brings meant nothing or is imported by itself. -/
  globs : ∀ module base name, modulePath module = m → NewBase i j module base →
    j.declares (modulePath base) name = true → i.Idle module name ∨ i.Imported module name

/-- A module makes the same of a name in both indexes. -/
structure Kept (i j : Index) (module : List String) (name : String) : Prop where
  function : lookupLast name (i.functions (modulePath module)) = none →
    lookupLast name (j.functions (modulePath module)) = none
  imports : lookupLast name (j.imports (modulePath module)) =
    lookupLast name (i.imports (modulePath module))
  globs : i.Imported module name ∨
    (∀ base, i.Base module base →
      j.declares (modulePath base) name = i.declares (modulePath base) name) ∧
    ∀ base, NewBase i j module base → j.declares (modulePath base) name = false

variable {i j : Index} {m : String}

theorem defines_iff {module name : String} : i.defines module name = true ↔
    (i.scope? module).isSome ∧ (lookupLast name (i.functions module) ≠ none ∨
      name ∈ i.types module ∨ name ∈ i.submodules module) := by
  rw [defines, ne_eq, lookupLast_eq_none_iff, Bool.not_eq_false]
  cases hscope : i.scope? module with
  | none => simp
  | some scope =>
    rw [eq_of_scope? hscope]
    simp [ModuleScope.defines, or_assoc]

theorem declares_iff {module name : String} : i.declares module name = true ↔
    i.defines module name = true ∨
      (i.scope? module).isSome ∧ lookupLast name (i.imports module) ≠ none := by
  rw [declares, defines, ne_eq, lookupLast_eq_none_iff, Bool.not_eq_false]
  cases hscope : i.scope? module with
  | none => simp
  | some scope =>
    rw [eq_of_scope? hscope]
    simp [ModuleScope.declares]

theorem not_news_iff {module name : String} : ¬ News i j module name ↔
    (lookupLast name (i.functions module) = none → lookupLast name (j.functions module) = none) ∧
      lookupLast name (j.imports module) = lookupLast name (i.imports module) := by
  rw [News, not_or, not_and, Decidable.not_not]
  simp only [ne_eq, Decidable.not_not]

namespace Adds

theorem isSome_scope? (h : i.Adds j m) (module : String) :
    (j.scope? module).isSome = (i.scope? module).isSome := by
  rw [scope?, scope?, h.hasModule_eq]
  split <;> rfl

theorem defines_eq (h : i.Adds j m) {module name : String}
    (hnone : lookupLast name (i.functions module) = none →
      lookupLast name (j.functions module) = none) :
    j.defines module name = i.defines module name := by
  have hiff : lookupLast name (j.functions module) ≠ none ↔
      lookupLast name (i.functions module) ≠ none :=
    ⟨fun hj hi => hj (hnone hi), h.lookupLast_functions_ne_none⟩
  rw [Bool.eq_iff_iff, defines_iff, defines_iff, h.isSome_scope?, h.types_eq, h.submodules_eq, hiff]

/-- A definition that was there is there. -/
theorem defines_of_defines (h : i.Adds j m) {module name : String}
    (hname : i.defines module name = true) : j.defines module name = true := by
  rw [defines_iff, h.isSome_scope?, h.types_eq, h.submodules_eq]
  obtain ⟨hscope, hname⟩ := defines_iff.mp hname
  exact ⟨hscope, hname.imp_left h.lookupLast_functions_ne_none⟩

/-- A module declares a name as before if it has no news of it. -/
theorem declares_eq (h : i.Adds j m) {module name : String} (hnews : ¬ News i j module name) :
    j.declares module name = i.declares module name := by
  obtain ⟨hnone, halias⟩ := not_news_iff.mp hnews
  rw [Bool.eq_iff_iff, declares_iff, declares_iff, h.defines_eq hnone, h.isSome_scope?, halias]

/-- Only one module has news. -/
theorem eq_of_news (h : i.Adds j m) {module name : String} (hnews : News i j module name) :
    module = m := by
  refine Decidable.byContradiction fun hne => ?_
  rw [News, h.functions_eq hne, h.imports_eq hne] at hnews
  rcases hnews with ⟨hnone, hsome⟩ | hne
  · exact hsome hnone
  · exact hne rfl

end Adds

namespace Respects

/-- **The two cases.** A module makes the same of a name, or nothing was made of it. -/
theorem idle_or_kept (hr : Respects i j m) (h : i.Adds j m) (module : List String) (name : String) :
    i.Idle module name ∨ Kept i j module name := by
  by_cases hhere : News i j (modulePath module) name
  · have heq := h.eq_of_news hhere
    exact Or.inl (hr.names name (heq ▸ hhere) module heq)
  obtain ⟨hfunction, halias⟩ := not_news_iff.mp hhere
  have hkept : i.Idle module name ∨ i.Imported module name →
      i.Idle module name ∨ Kept i j module name :=
    Or.imp_right fun himported => ⟨hfunction, halias, Or.inl himported⟩
  by_cases hseen : ∃ base, i.Base module base ∧ News i j (modulePath base) name
  · obtain ⟨base, hbase, hnews⟩ := hseen
    have heq := h.eq_of_news hnews
    exact hkept (hr.seen name (heq ▸ hnews) module base hbase heq)
  by_cases hbrought : ∃ base, NewBase i j module base ∧ j.declares (modulePath base) name = true
  · obtain ⟨base, hnew, hdeclares⟩ := hbrought
    have heq : modulePath module = m := by
      refine Decidable.byContradiction fun hne => ?_
      obtain ⟨-, target, htarget, hnot, -⟩ := hnew
      exact hnot (h.globs_eq hne ▸ htarget)
    exact hkept (hr.globs module base name heq hnew hdeclares)
  refine Or.inr ⟨hfunction, halias, Or.inr ⟨fun base hbase => ?_, fun base hnew => ?_⟩⟩
  · exact h.declares_eq fun hnews => hseen ⟨base, hbase, hnews⟩
  · exact Bool.eq_false_iff.mpr fun hdeclares => hbrought ⟨base, hnew, hdeclares⟩

/-- In each module the glob imports that were there come in the same order. -/
theorem globs_order (hr : Respects i j m) (h : i.Adds j m) (module : String) :
    ((j.globs module).filter (i.globs module).contains).eraseDups = (i.globs module).eraseDups := by
  by_cases hne : module = m
  · subst hne
    exact hr.order
  · have hself : (i.globs module).filter (i.globs module).contains = i.globs module :=
      List.filter_eq_self.mpr fun target htarget => List.contains_iff_mem.mpr htarget
    rw [h.globs_eq hne, hself]

end Respects

/-! ### From a module to a crate root -/

variable {module : List String} {name : String}

/-- The path that a glob import of a module leads to, if it leads to another module that declares the
name. -/
def supplied (i : Index) (steps : Nat) (module : List String) (name : String)
    (target : List String) : Option (List String) :=
  (i.absolutize steps module none true target).filter fun base =>
    base != module && i.declares (modulePath base) name

theorem supplied_eq_some_iff {steps : Nat} {target base : List String} :
    i.supplied steps module name target = some base ↔
      i.absolutize steps module none true target = some base ∧ base ≠ module ∧
        i.declares (modulePath base) name = true := by
  rw [supplied, Option.filter_eq_some_iff, Bool.and_eq_true, bne_iff_ne]

theorem globDeclaring_eq_findSome? (steps : Nat) (targets : List (List String)) :
    i.globDeclaring module name (targets.map (i.absolutize steps module none true)) =
      targets.findSome? (i.supplied steps module name) := by
  rw [globDeclaring, List.findSome?_map]
  rfl

/-- No glob import supplies a name that no module at the end of one declares. -/
theorem globDeclaring_eq_none (hbase : ∀ base, i.Base module base →
    i.declares (modulePath base) name = false) (steps : Nat) :
    i.globDeclaring module name
      ((i.globs (modulePath module)).map (i.absolutize steps module none true)) = none := by
  rw [globDeclaring_eq_findSome?, List.findSome?_eq_none_iff]
  intro target htarget
  refine Option.eq_none_iff_forall_ne_some.mpr fun base hbase' => ?_
  obtain ⟨habsolutize, hne, hdeclares⟩ := supplied_eq_some_iff.mp hbase'
  rw [hbase base ⟨hne, target, htarget, steps, habsolutize⟩] at hdeclares
  cases hdeclares

theorem fromModule_eq (steps : Nat) (module : List String) (name : String) (rest : List String) :
    i.fromModule steps module name rest =
      if i.defines (modulePath module) name then some (module ++ name :: rest)
      else if (i.scope? (modulePath module)).isSome then
        ((lookupLast name (i.imports (modulePath module))).bind fun target =>
          if target = [name] then none
          else (i.absolutize steps module none true target).map (· ++ rest)).or
        ((i.globDeclaring module name
          ((i.globs (modulePath module)).map (i.absolutize steps module none true))).map
            (· ++ name :: rest))
      else none := by
  rw [fromModule, defines]
  cases hscope : i.scope? (modulePath module) with
  | none => simp
  | some scope =>
    rw [eq_of_scope? hscope]
    simp

theorem fromModule_of_defines (hdefines : i.defines (modulePath module) name = true) (steps : Nat)
    (rest : List String) : i.fromModule steps module name rest = some (module ++ name :: rest) := by
  rw [fromModule_eq, if_pos hdefines]

theorem Idle.fromModule_eq_none (hidle : i.Idle module name)
    (hdefines : i.defines (modulePath module) name = false) (steps : Nat) (rest : List String) :
    i.fromModule steps module name rest = none := by
  rw [fromModule_eq, hdefines, hidle.imports, globDeclaring_eq_none hidle.globs]
  simp

/-- How many steps are left makes no difference to whether an import leads somewhere. -/
theorem isSome_absolutize_succ (steps : Nat) (target : List String) :
    (i.absolutize (steps + 1) module none true target).isSome =
      (i.absolutize 1 module none true target).isSome := by
  cases target with
  | nil => simp [absolutize, globLevels, absolutizeBy]
  | cons first rest =>
    have hglobal : (i.globalPath true first (first :: rest)).isSome = true := by
      rw [globalPath]
      split
      · rfl
      · split <;> rfl
    rw [absolutize_succ_cons, absolutize_succ_cons]
    simp only [Option.bind_none, Option.isSome_or, hglobal, Bool.or_true, apply_ite Option.isSome]

/-- In no steps, glob imports supply nothing. -/
theorem globDeclaring_zero (targets : List (List String)) :
    i.globDeclaring module name (targets.map (i.absolutize 0 module none true)) = none := by
  rw [globDeclaring_eq_findSome?, List.findSome?_eq_none_iff]
  exact fun target _ => rfl

namespace Respects

variable {steps : Nat}

/-- The glob imports supply the same of a name that is kept. The hypothesis is about fewer steps. -/
theorem globDeclaring_eq (hr : Respects i j m) (h : i.Adds j m)
    (ih : ∀ target, i.ImportsPath (modulePath module) target →
      j.absolutize steps module none true target = i.absolutize steps module none true target)
    (hbase : ∀ base, i.Base module base →
      j.declares (modulePath base) name = i.declares (modulePath base) name)
    (hnew : ∀ base, NewBase i j module base → j.declares (modulePath base) name = false) :
    j.globDeclaring module name
        ((j.globs (modulePath module)).map (j.absolutize steps module none true)) =
      i.globDeclaring module name
        ((i.globs (modulePath module)).map (i.absolutize steps module none true)) := by
  have hadded : ∀ target ∈ j.globs (modulePath module),
      (i.globs (modulePath module)).contains target = false →
        j.supplied steps module name target = none := by
    intro target htarget hnot
    have hnot : target ∉ i.globs (modulePath module) := by simpa using hnot
    refine Option.eq_none_iff_forall_ne_some.mpr fun base hbase' => ?_
    obtain ⟨habsolutize, hne, hdeclares⟩ := supplied_eq_some_iff.mp hbase'
    rw [hnew base ⟨hne, target, htarget, hnot, steps, habsolutize⟩] at hdeclares
    cases hdeclares
  have hsame : ∀ target ∈ i.globs (modulePath module),
      j.supplied steps module name target = i.supplied steps module name target := by
    intro target htarget
    refine Option.ext fun base => ?_
    rw [supplied_eq_some_iff, supplied_eq_some_iff, ih target (Or.inl htarget)]
    refine and_congr_right fun habsolutize => and_congr_right fun hne => ?_
    rw [hbase base ⟨hne, target, htarget, steps, habsolutize⟩]
  rw [globDeclaring_eq_findSome?, globDeclaring_eq_findSome?]
  calc (j.globs (modulePath module)).findSome? (j.supplied steps module name)
      = ((j.globs (modulePath module)).filter (i.globs (modulePath module)).contains).findSome?
          (j.supplied steps module name) := (findSome?_filter_eq hadded).symm
    _ = (i.globs (modulePath module)).findSome? (j.supplied steps module name) := by
        rw [← findSome?_eraseDups, hr.globs_order h, findSome?_eraseDups]
    _ = (i.globs (modulePath module)).findSome? (i.supplied steps module name) :=
        findSome?_congr hsame

/-- A module makes the same of a path whose first name is kept. The hypothesis is about fewer
steps. -/
theorem fromModule_eq (hr : Respects i j m) (h : i.Adds j m)
    (ih : ∀ target, i.ImportsPath (modulePath module) target →
      j.absolutize steps module none true target = i.absolutize steps module none true target)
    (hkept : Kept i j module name) (rest : List String) :
    j.fromModule steps module name rest = i.fromModule steps module name rest := by
  rw [Index.fromModule_eq, Index.fromModule_eq, h.defines_eq hkept.function, h.isSome_scope?,
    hkept.imports]
  have htarget : ∀ target, lookupLast name (i.imports (modulePath module)) = some target →
      j.absolutize steps module none true target = i.absolutize steps module none true target :=
    fun target htarget => ih target (Or.inr ⟨name, mem_of_lookupLast htarget⟩)
  rcases hkept.globs with ⟨target, hlookup, hne, hsome⟩ | ⟨hbase, hnew⟩
  · -- the import comes before all globs, unless there are no steps left for either
    cases steps with
    | zero =>
      rw [globDeclaring_zero, globDeclaring_zero, hlookup, Option.bind_some, Option.bind_some,
        htarget target hlookup]
    | succ steps =>
      rw [← isSome_absolutize_succ steps] at hsome
      obtain ⟨path, hpath⟩ := Option.isSome_iff_exists.mp hsome
      rw [hlookup, Option.bind_some, Option.bind_some, htarget target hlookup, hpath, if_neg hne]
      rfl
  · rw [hr.globDeclaring_eq h ih hbase hnew]
    cases hlookup : lookupLast name (i.imports (modulePath module)) with
    | none => rfl
    | some target => rw [Option.bind_some, Option.bind_some, htarget target hlookup]

theorem globalPath_eq (h : i.Adds j m) (fromUse : Bool) (name : String) (segments : List String) :
    j.globalPath fromUse name segments = i.globalPath fromUse name segments :=
  Agree.globalPath_eq (h.knows_eq name) fromUse segments

/-- **Imports that were there stand for the same paths.** -/
theorem absolutize_target_eq (hr : Respects i j m) (h : i.Adds j m) (steps : Nat) :
    ∀ target, i.ImportsPath (modulePath module) target →
      j.absolutize steps module none true target = i.absolutize steps module none true target := by
  induction steps with
  | zero => exact fun target _ => rfl
  | succ steps ih =>
    intro target htarget
    cases target with
    | nil => simp [absolutize, globLevels, absolutizeBy]
    | cons first rest =>
      have hfrom : j.fromModule steps module first rest = i.fromModule steps module first rest := by
        rcases hr.idle_or_kept h module first with hidle | hkept
        · rcases hidle.unknown with hdefines | hunknown
          · have hdefines' := h.defines_of_defines hdefines
            rw [fromModule_of_defines hdefines, fromModule_of_defines hdefines']
          · exact absurd rfl (hunknown.start _ htarget)
        · exact hr.fromModule_eq h ih hkept rest
      rw [absolutize_succ_cons, absolutize_succ_cons, hfrom, globalPath_eq h, Option.bind_none,
        Option.bind_none]

/-- Outside of imports, what a name stands for that is no keyword it still stands for. -/
theorem fromModule_or_mono (hr : Respects i j m) (h : i.Adds j m) {first : String}
    {rest absolute : List String}
    (habsolute : (i.fromModule steps module first rest).or
      (i.globalPath false first (first :: rest)) = some absolute) :
    (j.fromModule steps module first rest).or (j.globalPath false first (first :: rest)) =
      some absolute := by
  rw [globalPath_eq h]
  rcases hr.idle_or_kept h module first with hidle | hkept
  · by_cases hdefines : i.defines (modulePath module) first = true
    · rw [fromModule_of_defines hdefines] at habsolute
      rw [fromModule_of_defines (h.defines_of_defines hdefines), habsolute]
    · -- an idle name that the module does not define stands for nothing
      have hunknown := hidle.unknown.resolve_left hdefines
      have hknows := hunknown.crate
      rw [knows] at hknows
      rw [hidle.fromModule_eq_none (Bool.eq_false_iff.mpr hdefines), globalPath, hknows,
        hunknown.preludeType] at habsolute
      cases habsolute
  · rw [hr.fromModule_eq h (hr.absolutize_target_eq h steps) hkept, habsolute]

/-- **What a path stands for** it still stands for. -/
theorem absolutize_mono (hr : Respects i j m) (h : i.Adds j m) (steps : Nat) :
    ∀ {selfType : Option (List String)} {path absolute : List String},
      i.absolutize steps module selfType false path = some absolute →
        j.absolutize steps module selfType false path = some absolute := by
  induction steps with
  | zero => exact fun h => nomatch h
  | succ steps ih =>
    intro selfType path absolute habsolute
    cases path with
    | nil => simp [absolutize, globLevels, absolutizeBy] at habsolute
    | cons first rest =>
      rw [absolutize_succ_cons] at habsolute ⊢
      split
      · next hcrate => rwa [if_pos hcrate] at habsolute
      next hcrate =>
      rw [if_neg hcrate] at habsolute
      split
      · next hhere => rwa [if_pos hhere] at habsolute
      next hhere =>
      rw [if_neg hhere] at habsolute
      split
      · next hsuper => rwa [if_pos hsuper] at habsolute
      next hsuper =>
      rw [if_neg hsuper] at habsolute
      split
      · next hself =>
        rw [if_pos hself] at habsolute
        obtain ⟨type, htype, habsolute⟩ := Option.bind_eq_some_iff.mp habsolute
        obtain ⟨found, hfound, rfl⟩ := Option.map_eq_some_iff.mp habsolute
        rw [htype, Option.bind_some, ih hfound, Option.map_some]
      · next hself =>
        rw [if_neg hself] at habsolute
        exact hr.fromModule_or_mono h habsolute

end Respects

/-! ### From a crate root to a function -/

namespace Respects

variable {next next' : List String → Option Symbol} {steps : Nat} {symbol : Symbol}

/-- Imports send a path elsewhere only by a name that is kept. -/
theorem kept_of_redirect (hr : Respects i j m) (h : i.Adds j m) {scope : ModuleScope}
    (hscope : i.scope? (modulePath module) = some scope) {rest : List String}
    (hredirect : i.redirect steps next module scope name rest = some symbol) :
    Kept i j module name := by
  refine (hr.idle_or_kept h module name).resolve_left fun hidle => ?_
  obtain rfl := eq_of_scope? hscope
  rw [redirect] at hredirect
  dsimp only at hredirect
  rw [hidle.imports] at hredirect
  dsimp only at hredirect
  rw [globDeclaring_eq_none hidle.globs] at hredirect
  cases hredirect

/-- Where imports send a path they still send it. -/
theorem redirect_mono (hr : Respects i j m) (h : i.Adds j m)
    (hnext : ∀ {path}, next path = some symbol → next' path = some symbol)
    {scope scope' : ModuleScope}
    (hscope : i.scope? (modulePath module) = some scope)
    (hscope' : j.scope? (modulePath module) = some scope') {rest : List String}
    (hredirect : i.redirect steps next module scope name rest = some symbol) :
    j.redirect steps next' module scope' name rest = some symbol := by
  have hkept := hr.kept_of_redirect h hscope hredirect
  obtain rfl := eq_of_scope? hscope
  obtain rfl := eq_of_scope? hscope'
  have htargets : ∀ target, i.ImportsPath (modulePath module) target →
      j.absolutize steps module none true target = i.absolutize steps module none true target :=
    hr.absolutize_target_eq h steps
  rw [redirect] at hredirect ⊢
  dsimp only at hredirect ⊢
  rw [hkept.imports]
  cases hlookup : lookupLast name (i.imports (modulePath module)) with
  | some target =>
    rw [hlookup] at hredirect
    dsimp only at hredirect ⊢
    obtain ⟨path, hpath, hsymbol⟩ := Option.bind_eq_some_iff.mp hredirect
    rw [htargets target (Or.inr ⟨name, mem_of_lookupLast hlookup⟩), hpath, Option.bind_some,
      hnext hsymbol]
  | none =>
    have himported : ¬ i.Imported module name := by
      rintro ⟨target, htarget, -⟩
      rw [hlookup] at htarget
      cases htarget
    obtain ⟨hbase, hnew⟩ := hkept.globs.resolve_left himported
    rw [hlookup] at hredirect
    dsimp only at hredirect ⊢
    obtain ⟨path, hpath, hsymbol⟩ := Option.bind_eq_some_iff.mp hredirect
    rw [hr.globDeclaring_eq h htargets hbase hnew, hpath, Option.bind_some, hnext hsymbol]

/-- A function can be called from where it could. -/
theorem functionIn_mono (hr : Respects i j m) (h : i.Adds j m) {fromCrate : String}
    {isPublic : Bool}
    (hfunction : lookupLast name (i.functions (modulePath module)) = some isPublic)
    (hsymbol : functionIn module fromCrate name isPublic = some symbol) :
    ∃ isPublic', lookupLast name (j.functions (modulePath module)) = some isPublic' ∧
      functionIn module fromCrate name isPublic' = some symbol := by
  have hsome : lookupLast name (j.functions (modulePath module)) ≠ none :=
    h.lookupLast_functions_ne_none (by simp [hfunction])
  obtain ⟨isPublic', hfunction'⟩ := Option.ne_none_iff_exists'.mp hsome
  refine ⟨isPublic', hfunction', ?_⟩
  by_cases hne : modulePath module = m
  · cases isPublic with
    | true =>
      rw [hne] at hfunction hfunction'
      rw [hr.visible name hfunction] at hfunction'
      obtain rfl := Option.some.inj hfunction'
      exact hsymbol
    | false =>
      rw [functionIn] at hsymbol ⊢
      split at hsymbol
      · next hcrate =>
        rw [Bool.false_or] at hcrate
        rwa [hcrate, Bool.or_true, if_pos rfl]
      · cases hsymbol
  · rw [h.functions_eq hne, hfunction] at hfunction'
    obtain rfl := Option.some.inj hfunction'
    exact hsymbol

theorem follow_mono (hr : Respects i j m) (h : i.Adds j m) {fromCrate : String}
    (hnext : ∀ {path}, next path = some symbol → next' path = some symbol) {names : List String} :
    ∀ {module}, i.follow fromCrate steps next module names = some symbol →
      j.follow fromCrate steps next' module names = some symbol := by
  induction names with
  | nil => exact fun h => nomatch h
  | cons name rest ih =>
    intro module hfollow
    unfold follow at hfollow ⊢
    split at hfollow
    · cases hfollow
    next scope hscope =>
    obtain ⟨scope', hscope'⟩ : ∃ scope', j.scope? (modulePath module) = some scope' :=
      Option.isSome_iff_exists.mp (by rw [h.isSome_scope?, hscope]; rfl)
    have hredirect : ∀ {rest}, i.redirect steps next module scope name rest = some symbol →
        j.redirect steps next' module scope' name rest = some symbol :=
      hr.redirect_mono h hnext hscope hscope'
    rw [hscope']
    obtain rfl := eq_of_scope? hscope
    obtain rfl := eq_of_scope? hscope'
    cases rest with
    | nil =>
      dsimp only at hfollow ⊢
      split at hfollow
      · next isPublic hfunction =>
        obtain ⟨isPublic', hfunction', hsymbol⟩ := hr.functionIn_mono h hfunction hfollow
        rw [hfunction']
        exact hsymbol
      · next hnone =>
        rw [(hr.kept_of_redirect h hscope hfollow).function hnone]
        exact hredirect hfollow
    | cons method more =>
      dsimp only at hfollow ⊢
      rw [h.submodules_eq, h.types_eq, h.associated_eq]
      split
      · next hmodule =>
        rw [if_pos hmodule] at hfollow
        exact ih hfollow
      next hmodule =>
      rw [if_neg hmodule] at hfollow
      split
      · next htype => rwa [if_pos htype] at hfollow
      · next htype =>
        rw [if_neg htype] at hfollow
        exact hredirect hfollow

/-- **Where a path from a crate root arrives** it still arrives. -/
theorem locate_mono (hr : Respects i j m) (h : i.Adds j m) (fromCrate : String) (steps : Nat)
    {path : List String} (hlocate : i.locate fromCrate steps path = some symbol) :
    j.locate fromCrate steps path = some symbol := by
  induction steps generalizing path with
  | zero => cases hlocate
  | succ steps ih =>
    cases path with
    | nil => cases hlocate
    | cons root rest =>
      rw [locate] at hlocate ⊢
      rw [h.hasCrate_eq]
      split
      · next hcrate =>
        rw [if_pos hcrate] at hlocate
        exact hr.follow_mono h ih hlocate
      · next hcrate => rwa [if_neg hcrate] at hlocate

/-! ### Calls -/

/-- A module makes the same of a name that is known without a declaration. -/
theorem defines_or_kept (hr : Respects i j m) (h : i.Adds j m)
    (hknown : ¬ i.Unknown (modulePath module) name) :
    i.defines (modulePath module) name = true ∨ Kept i j module name := by
  rcases hr.idle_or_kept h module name with hidle | hkept
  · exact Or.inl (hidle.unknown.resolve_right hknown)
  · exact Or.inr hkept

theorem declares_eq_of_primitiveType (hr : Respects i j m) (h : i.Adds j m)
    (hname : name ∈ primitiveTypes) :
    j.declares (modulePath module) name = i.declares (modulePath module) name := by
  have hknown : ¬ i.Unknown (modulePath module) name := fun h => h.primitiveType hname
  rcases hr.defines_or_kept h hknown with hdefines | hkept
  · have hdefines' := h.defines_of_defines hdefines
    rw [declares_iff.mpr (Or.inl hdefines), declares_iff.mpr (Or.inl hdefines')]
  · exact h.declares_eq (not_news_iff.mpr ⟨hkept.function, hkept.imports⟩)

theorem absolutize_eq_of_preludeFunction (hr : Respects i j m) (h : i.Adds j m)
    (hname : name ∈ preludeFunctions) (steps : Nat) (selfType : Option (List String))
    (rest : List String) : j.absolutize (steps + 1) module selfType false (name :: rest) =
      i.absolutize (steps + 1) module selfType false (name :: rest) := by
  have hknown : ¬ i.Unknown (modulePath module) name := fun h => h.preludeFunction hname
  have hself : name ≠ "Self" := by
    rintro rfl
    simp [preludeFunctions] at hname
  have hfrom : j.fromModule steps module name rest = i.fromModule steps module name rest := by
    rcases hr.defines_or_kept h hknown with hdefines | hkept
    · rw [fromModule_of_defines hdefines, fromModule_of_defines (h.defines_of_defines hdefines)]
    · exact hr.fromModule_eq h (hr.absolutize_target_eq h steps) hkept rest
  rw [absolutize_succ_cons, absolutize_succ_cons, if_neg hself, if_neg hself, hfrom,
    globalPath_eq h]

/-- **What a call by a path names** it still names. -/
theorem resolvePath_mono (hr : Respects i j m) (h : i.Adds j m) {s : Scope} {path : List String}
    (hpath : i.resolvePath s path = some symbol) : j.resolvePath s path = some symbol := by
  have hlocate : ∀ {path absolute},
      i.absolutize stepLimit s.module s.selfType false path = some absolute →
      i.locate s.crate stepLimit absolute = some symbol →
      j.absolutize stepLimit s.module s.selfType false path = some absolute ∧
        j.locate s.crate stepLimit absolute = some symbol :=
    fun habsolute hlocate =>
      ⟨hr.absolutize_mono h stepLimit habsolute, hr.locate_mono h s.crate stepLimit hlocate⟩
  cases path with
  | nil => cases hpath
  | cons first rest =>
    unfold resolvePath at hpath ⊢
    dsimp only at hpath ⊢
    split
    · next name =>
      dsimp only at hpath
      have hprimitive : (primitiveTypes.contains first &&
            !j.declares (modulePath s.module) first) =
          (primitiveTypes.contains first && !i.declares (modulePath s.module) first) := by
        by_cases hfirst : first ∈ primitiveTypes
        · rw [hr.declares_eq_of_primitiveType h hfirst]
        · simp [hfirst]
      rw [hprimitive]
      split
      · next hbare => rwa [if_pos hbare] at hpath
      · next hbare =>
        rw [if_neg hbare] at hpath
        obtain ⟨absolute, habsolute, hsymbol⟩ := Option.bind_eq_some_iff.mp hpath
        obtain ⟨habsolute, hsymbol⟩ := hlocate habsolute hsymbol
        rw [habsolute, Option.bind_some, hsymbol]
    · next hrest =>
      split at hpath
      · exact absurd rfl (hrest _)
      split at hpath
      · next absolute habsolute =>
        obtain ⟨habsolute, hsymbol⟩ := hlocate habsolute hpath
        rw [habsolute]
        exact hsymbol
      · next hnone =>
        split at hpath
        · next hprelude =>
          have hfirst : first ∈ preludeFunctions := by
            simpa using (Bool.and_eq_true_iff.mp hprelude).2
          have hnone' : j.absolutize stepLimit s.module s.selfType false (first :: rest) = none :=
            (hr.absolutize_eq_of_preludeFunction h hfirst 16 s.selfType rest).trans hnone
          rw [hnone']
          dsimp only
          rw [if_pos hprelude]
          exact hpath
        · cases hpath

end Respects

end Index

end CallAtlas
