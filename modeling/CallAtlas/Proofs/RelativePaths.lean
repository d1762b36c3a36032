import CallAtlas.Proofs.Dependencies
import CallAtlas.Proofs.Reexports
import CallAtlas.Proofs.SelfCalls
import Mathlib.Data.List.Forall2

/-!
# Relative paths

A path may start at the module where it is written, by `self`, or at one of the modules around that, by
`super`, once for each step outwards. Both are other spellings of a path by `crate`, and both are read
in one step, so it makes no difference which of them is written. This holds for calls, and for the
imports that calls are led through: in an index whose imports are spelled in another way all calls by a
path resolve as before.

One spelling is not understood. Behind `self` all names are taken as they are, so in `self::super::f`
the name `super` is looked up in the module like any other. As a rule no module has such a name, and
nothing is found.

A module is known by its text, from which its names can be told if they hold no colon. This is the
case for all names in sources, and is asked here of the names of crates.

## Main definitions

* `Index.SameStart` — two spellings of a path in a module.
* `Index.Respelled` — an index whose imports are spelled in another way.

## Main results

* `Index.SameStart.absolutize_eq` — two spellings stand for the same path.
* `Index.Respelled.resolvePath_eq` — calls in an index whose imports are respelled.
* `Index.resolvePath_relative` — relative paths in calls and imports.
-/

namespace CallAtlas

/-! ### Modules whose names hold no colon -/

/-- The path of a module whose names hold no colon. -/
structure Plain (path : List String) : Prop where
  /-- There is a crate on it. -/
  ne_nil : path ≠ []
  /-- No name holds a colon. -/
  colon : ∀ name ∈ path, ':' ∉ name.toList

namespace Plain

theorem append_singleton {path : List String} (h : Plain path) {name : String}
    (hname : ':' ∉ name.toList) : Plain (path ++ [name]) where
  ne_nil := by simp
  colon := List.forall_mem_append.mpr ⟨h.colon, by simpa using hname⟩

/-- The text of such a path tells its names. -/
theorem eq_of_modulePath_eq {path other : List String} (hpath : Plain path) (hother : Plain other)
    (h : modulePath path = modulePath other) : path = other := by
  induction path generalizing other with
  | nil => exact absurd rfl hpath.ne_nil
  | cons first rest ih =>
    cases other with
    | nil => exact absurd rfl hother.ne_nil
    | cons second more =>
      obtain ⟨hfirst, hrest⟩ := List.forall_mem_cons.mp hpath.colon
      obtain ⟨hsecond, hmore⟩ := List.forall_mem_cons.mp hother.colon
      have htext : first.toList ++ pathTail rest = second.toList ++ pathTail more := by
        rw [← toList_modulePath_cons, ← toList_modulePath_cons, h]
      have hchars : first.toList = second.toList := by
        rw [← takeWhile_append_pathTail hfirst rest, htext, takeWhile_append_pathTail hsecond]
      obtain rfl := String.toList_inj.mp hchars
      have htail : pathTail rest = pathTail more := List.append_cancel_left htext
      cases rest with
      | nil =>
        cases more with
        | nil => rfl
        | cons _ _ => simp [pathTail] at htail
      | cons _ _ =>
        cases more with
        | nil => simp [pathTail] at htail
        | cons _ _ =>
          have hpaths := String.toList_inj.mp (by simpa [pathTail] using htail)
          rw [ih ⟨by simp, hrest⟩ ⟨by simp, hmore⟩ hpaths]

end Plain

namespace Index

variable {i j : Index} {module : List String} {selfType : Option (List String)} {fromUse : Bool}
  {rest : List String} {n : Nat}

/-! ### Spellings of a path -/

/-- Each `super` takes away the last module. -/
theorem fromParents_of_lt (hrest : rest.head? ≠ some "super") (hn : n < module.length) :
    fromParents module (List.replicate n "super" ++ rest) =
      some (module.take (module.length - n) ++ rest) := by
  induction n generalizing module with
  | zero =>
    cases rest with
    | nil => simp [fromParents]
    | cons name more =>
      have hname : name ≠ "super" := by simpa using hrest
      simp [fromParents, hname]
  | succ n ih =>
    have hlong : ¬ module.length ≤ 1 := by omega
    have hshorter : n < module.dropLast.length := by
      rw [List.length_dropLast]
      omega
    rw [List.replicate_succ, List.cons_append, fromParents, if_pos rfl, if_neg hlong, ih hshorter,
      List.length_dropLast, List.dropLast_eq_take, List.take_take]
    congr 3
    omega

/-- There is nothing around the crate root. -/
theorem fromParents_of_le (hpos : 0 < n) (hn : module.length ≤ n) :
    fromParents module (List.replicate n "super" ++ rest) = none := by
  induction n generalizing module with
  | zero => omega
  | succ n ih =>
    rw [List.replicate_succ, List.cons_append, fromParents, if_pos rfl]
    split
    · rfl
    · exact ih (by omega) (by rw [List.length_dropLast]; omega)

theorem absolutize_supers (steps : Nat) (hpos : 0 < n) :
    i.absolutize (steps + 1) module selfType fromUse (List.replicate n "super" ++ rest) =
      fromParents module (List.replicate n "super" ++ rest) := by
  obtain ⟨n, rfl⟩ := Nat.exists_eq_add_of_le' hpos
  exact absolutize_super

/-- Two spellings of a path in a module: the second starts at the crate root, and the first at the
module itself or at one of the modules around it. -/
inductive SameStart (module : List String) : List String → List String → Prop where
  | refl (path : List String) : SameStart module path path
  | self {crate : String} {inner rest : List String} : module = crate :: inner →
    SameStart module ("self" :: rest) ("crate" :: (inner ++ rest))
  | super {crate : String} {inner rest : List String} {n : Nat} : module = crate :: inner → 0 < n →
    n ≤ inner.length → rest.head? ≠ some "super" →
    SameStart module (List.replicate n "super" ++ rest)
      ("crate" :: (inner.take (inner.length - n) ++ rest))

/-- **Two spellings** stand for the same path, in any number of steps. -/
theorem SameStart.absolutize_eq {path other : List String} (h : SameStart module path other)
    (steps : Nat) :
    i.absolutize steps module selfType fromUse path =
      i.absolutize steps module selfType fromUse other := by
  cases steps with
  | zero => rfl
  | succ steps =>
    cases h with
    | refl => rfl
    | self hmodule =>
      subst hmodule
      rw [absolutize_self, absolutize_crate (by simp)]
      rfl
    | @super crate inner rest n hmodule hpos hn hrest =>
      subst hmodule
      have hlength : (crate :: inner).length - n = inner.length - n + 1 := by
        rw [List.length_cons]
        omega
      rw [absolutize_supers steps hpos, fromParents_of_lt hrest (Nat.lt_succ_of_le hn),
        absolutize_crate (by simp), hlength]
      rfl

/-- An import of a name by itself has no other spelling. -/
theorem SameStart.eq_singleton_iff {path other : List String} (h : SameStart module path other)
    {name : String} (hname : name ∉ pathKeywords) : path = [name] ↔ other = [name] := by
  have hne : ∀ {word : String} {more : List String}, word ∈ pathKeywords → word :: more ≠ [name] := by
    rintro word more hword heq
    exact hname ((List.cons.inj heq).1 ▸ hword)
  cases h with
  | refl => rfl
  | self => exact iff_of_false (hne (by decide)) (hne (by decide))
  | @super _ _ _ n _ hpos =>
    obtain ⟨n, rfl⟩ := Nat.exists_eq_add_of_le' hpos
    exact iff_of_false (hne (by decide)) (hne (by decide))

end Index

/-! ### Imports that are spelled in another way -/

/-- The same declaration, or the same import by another spelling of its path. -/
inductive Declaration.Respelled : Declaration → Declaration → Prop where
  | same (d : Declaration) : Respelled d d
  | imported {module path other : List String} {newName : String} : Plain module →
    Index.SameStart module path other →
    Respelled (.imported (modulePath module) newName path)
      (.imported (modulePath module) newName other)
  | glob {module path other : List String} : Plain module → Index.SameStart module path other →
    Respelled (.glob (modulePath module) path) (.glob (modulePath module) other)

namespace Index

/-- The same declarations, apart from how the paths of imports are spelled. -/
structure Respelled (i j : Index) : Prop where
  /-- The declarations are the same, one by one. -/
  declarations : List.Forall₂ Declaration.Respelled i.declarations j.declarations
  /-- The names of crates hold no colon. -/
  crates : ∀ {name : String}, i.hasCrate name = true → ':' ∉ name.toList
  /-- Nor do those of submodules. -/
  submodules : ∀ {m name : String}, name ∈ i.submodules m → ':' ∉ name.toList

namespace Respelled

variable {i j : Index} {module : List String} {steps : Nat}

/-- What a table makes of an import may depend on its path. All else that tables list is the same. -/
theorem forall₂_filterMap (h : i.Respelled j) {β : Type} {P : β → β → Prop} (hrefl : ∀ b, P b b)
    {f : Declaration → Option β}
    (himported : ∀ {m path other : List String} {newName : String}, Plain m → SameStart m path other →
      Option.Rel P (f (.imported (modulePath m) newName path))
        (f (.imported (modulePath m) newName other)))
    (hglob : ∀ {m path other : List String}, Plain m → SameStart m path other →
      Option.Rel P (f (.glob (modulePath m) path)) (f (.glob (modulePath m) other))) :
    List.Forall₂ P (i.declarations.filterMap f) (j.declarations.filterMap f) := by
  refine List.rel_filterMap ?_ h.declarations
  intro d e hd
  cases hd with
  | same =>
    cases f d with
    | none => exact .none
    | some b => exact .some (hrefl b)
  | imported hm hsame => exact himported hm hsame
  | glob hm hsame => exact hglob hm hsame

/-- Tables that list no imports are the same. -/
theorem filterMap_eq (h : i.Respelled j) {β : Type} {f : Declaration → Option β}
    (himported : ∀ m newName path, f (.imported m newName path) = none)
    (hglob : ∀ m path, f (.glob m path) = none) :
    i.declarations.filterMap f = j.declarations.filterMap f := by
  rw [← List.forall₂_eq_eq_eq]
  refine h.forall₂_filterMap (fun _ => rfl) (fun _ _ => ?_) fun _ _ => ?_
  · rw [himported, himported]
    exact .none
  · rw [hglob, hglob]
    exact .none

theorem functions_eq (h : i.Respelled j) (m : String) : i.functions m = j.functions m :=
  h.filterMap_eq (fun _ _ _ => rfl) fun _ _ => rfl

theorem types_eq (h : i.Respelled j) (m : String) : i.types m = j.types m :=
  h.filterMap_eq (fun _ _ _ => rfl) fun _ _ => rfl

theorem submodules_eq (h : i.Respelled j) (m : String) : i.submodules m = j.submodules m :=
  h.filterMap_eq (fun _ _ _ => rfl) fun _ _ => rfl

theorem methodsOf_eq (h : i.Respelled j) (type name : String) :
    i.methodsOf type name = j.methodsOf type name :=
  h.filterMap_eq (fun _ _ _ => rfl) fun _ _ => rfl

theorem contains_eq (h : i.Respelled j) {d : Declaration}
    (himported : ∀ m newName path, d ≠ .imported m newName path)
    (hglob : ∀ m path, d ≠ .glob m path) :
    i.declarations.contains d = j.declarations.contains d := by
  have hall := h.declarations
  generalize i.declarations = ds at hall ⊢
  generalize j.declarations = es at hall ⊢
  induction hall with
  | nil => rfl
  | cons hd _ ih =>
    rw [List.contains_cons, List.contains_cons, ih]
    cases hd with
    | same => rfl
    | imported => rw [beq_false_of_ne (himported _ _ _), beq_false_of_ne (himported _ _ _)]
    | glob => rw [beq_false_of_ne (hglob _ _), beq_false_of_ne (hglob _ _)]

theorem hasModule_eq (h : i.Respelled j) (m : String) : i.hasModule m = j.hasModule m :=
  h.contains_eq (by simp) (by simp)

theorem hasCrate_eq (h : i.Respelled j) (name : String) : i.hasCrate name = j.hasCrate name :=
  h.contains_eq (by simp) (by simp)

theorem hasExternCrate_eq (h : i.Respelled j) (name : String) :
    i.hasExternCrate name = j.hasExternCrate name :=
  h.contains_eq (by simp) (by simp)

theorem isSome_scope?_eq (h : i.Respelled j) (m : String) :
    (i.scope? m).isSome = (j.scope? m).isSome := by
  rw [scope?, scope?, h.hasModule_eq]
  split <;> rfl

theorem defines_eq (h : i.Respelled j) (m name : String) : i.defines m name = j.defines m name := by
  rw [Bool.eq_iff_iff, defines_iff, defines_iff, h.isSome_scope?_eq, h.functions_eq, h.types_eq,
    h.submodules_eq]

/-- The imports of a module bind the same names, by the same paths. -/
theorem forall₂_imports (h : i.Respelled j) (m : String) :
    List.Forall₂ (fun x y : String × List String => x.1 = y.1 ∧
      ∀ module, Plain module → modulePath module = m → SameStart module x.2 y.2)
      (i.imports m) (j.imports m) := by
  refine h.forall₂_filterMap (fun x => ⟨rfl, fun _ _ _ => .refl x.2⟩) (fun {m' _ _ _} hm hsame => ?_)
    fun _ _ => .none
  dsimp only
  split
  · next heq =>
    refine .some ⟨rfl, fun module hmodule heq' => ?_⟩
    obtain rfl := hm.eq_of_modulePath_eq hmodule (heq.trans heq'.symm)
    exact hsame
  · exact .none

/-- So do the glob imports. -/
theorem forall₂_globs (h : i.Respelled j) (hmodule : Plain module) :
    List.Forall₂ (SameStart module) (i.globs (modulePath module)) (j.globs (modulePath module)) := by
  refine h.forall₂_filterMap .refl (fun _ _ => .none) fun {m _ _} hm hsame => ?_
  dsimp only
  split
  · next heq =>
    obtain rfl := hm.eq_of_modulePath_eq hmodule heq
    exact .some hsame
  · exact .none

/-- Of a name, the same import counts. -/
theorem lookupLast_imports (h : i.Respelled j) (m name : String) :
    Option.Rel (fun path other => ∀ module, Plain module → modulePath module = m →
      SameStart module path other) (lookupLast name (i.imports m)) (lookupLast name (j.imports m)) := by
  have himports := List.rel_reverse (h.forall₂_imports m)
  rw [lookupLast, lookupLast]
  generalize (i.imports m).reverse = xs at himports ⊢
  generalize (j.imports m).reverse = ys at himports ⊢
  induction himports with
  | nil => exact .none
  | @cons x y _ _ hxy _ ih =>
    obtain ⟨newName, path⟩ := x
    obtain ⟨_, other⟩ := y
    obtain ⟨rfl, hsame⟩ := hxy
    rw [List.lookup_cons, List.lookup_cons]
    cases name == newName with
    | true => exact .some hsame
    | false => exact ih

theorem declares_eq (h : i.Respelled j) (m name : String) :
    i.declares m name = j.declares m name := by
  have hbound : lookupLast name (i.imports m) = none ↔ lookupLast name (j.imports m) = none := by
    have himports := h.lookupLast_imports m name
    generalize lookupLast name (i.imports m) = target at himports ⊢
    generalize lookupLast name (j.imports m) = other at himports ⊢
    cases himports with
    | none => rfl
    | some => simp
  rw [Bool.eq_iff_iff, declares_iff, declares_iff, h.defines_eq, h.isSome_scope?_eq, ne_eq, hbound]

/-- The glob imports of a module stand for the same, if paths do. -/
theorem map_globs_eq (h : i.Respelled j) (hmodule : Plain module)
    (ih : ∀ path, i.absolutize steps module none true path = j.absolutize steps module none true path) :
    (i.globs (modulePath module)).map (i.absolutize steps module none true) =
      (j.globs (modulePath module)).map (j.absolutize steps module none true) := by
  have hglobs := h.forall₂_globs hmodule
  generalize i.globs (modulePath module) = targets at hglobs ⊢
  generalize j.globs (modulePath module) = others at hglobs ⊢
  induction hglobs with
  | nil => rfl
  | cons hsame _ ih' => rw [List.map_cons, List.map_cons, hsame.absolutize_eq, ih, ih']

theorem globDeclaring_eq (h : i.Respelled j) (name : String) (bases : List (Option (List String))) :
    i.globDeclaring module name bases = j.globDeclaring module name bases := by
  simp only [globDeclaring, h.declares_eq]

/-- A module makes the same of a name. The hypothesis is the one for fewer steps. -/
theorem fromModule_eq (h : i.Respelled j) (hmodule : Plain module)
    (ih : ∀ path, i.absolutize steps module none true path = j.absolutize steps module none true path)
    {name : String} (hname : name ∉ pathKeywords) (rest : List String) :
    i.fromModule steps module name rest = j.fromModule steps module name rest := by
  have himport : ((lookupLast name (i.imports (modulePath module))).bind fun target =>
        if target = [name] then none
        else (i.absolutize steps module none true target).map (· ++ rest)) =
      (lookupLast name (j.imports (modulePath module))).bind fun target =>
        if target = [name] then none
        else (j.absolutize steps module none true target).map (· ++ rest) := by
    have himports := h.lookupLast_imports (modulePath module) name
    generalize lookupLast name (i.imports (modulePath module)) = target at himports ⊢
    generalize lookupLast name (j.imports (modulePath module)) = other at himports ⊢
    cases himports with
    | none => rfl
    | some hsame =>
      have hsame := hsame module hmodule rfl
      simp only [Option.bind_some, hsame.eq_singleton_iff hname, hsame.absolutize_eq, ih]
  rw [Index.fromModule_eq, Index.fromModule_eq, h.defines_eq, h.isSome_scope?_eq, himport,
    h.map_globs_eq hmodule ih, h.globDeclaring_eq]

theorem absolutize_eq (h : i.Respelled j) (hmodule : Plain module) (steps : Nat) :
    ∀ (selfType : Option (List String)) (fromUse : Bool) (path : List String),
      i.absolutize steps module selfType fromUse path =
        j.absolutize steps module selfType fromUse path := by
  induction steps with
  | zero =>
    intro selfType fromUse path
    rfl
  | succ steps ih =>
    intro selfType fromUse path
    cases path with
    | nil => simp [absolutize, globLevels, absolutizeBy]
    | cons first rest =>
      by_cases hfirst : first ∈ pathKeywords
      · -- `crate`, `self` and `super` do not ask the index, and `Self` asks for the path of the type.
        rw [absolutize_succ_cons, absolutize_succ_cons]
        simp only [pathKeywords, List.mem_cons, List.not_mem_nil, or_false] at hfirst
        obtain rfl | rfl | rfl | rfl := hfirst
        · rfl
        · rfl
        · rfl
        · simp only [ih]
          rfl
      · have hglobal : i.globalPath fromUse first (first :: rest) =
            j.globalPath fromUse first (first :: rest) := by
          rw [globalPath, globalPath, h.hasCrate_eq, h.hasExternCrate_eq]
        rw [absolutize_of_not_keyword hfirst, absolutize_of_not_keyword hfirst,
          h.fromModule_eq hmodule (ih none true) hfirst, hglobal]

/-- Imports send a path to the same place. -/
theorem redirect_eq (h : i.Respelled j) (hmodule : Plain module) (steps : Nat)
    (next : List String → Option Symbol) {scope other : ModuleScope}
    (hscope : i.scope? (modulePath module) = some scope)
    (hother : j.scope? (modulePath module) = some other) (name : String) (rest : List String) :
    i.redirect steps next module scope name rest = j.redirect steps next module other name rest := by
  obtain rfl := eq_of_scope? hscope
  obtain rfl := eq_of_scope? hother
  have himports := h.lookupLast_imports (modulePath module) name
  unfold redirect
  dsimp only
  generalize lookupLast name (i.imports (modulePath module)) = target at himports ⊢
  generalize lookupLast name (j.imports (modulePath module)) = other at himports ⊢
  cases himports with
  | none =>
    dsimp only
    rw [h.map_globs_eq hmodule (h.absolutize_eq hmodule steps none true), h.globDeclaring_eq]
  | some hsame =>
    dsimp only
    rw [(hsame module hmodule rfl).absolutize_eq, h.absolutize_eq hmodule]

theorem associated_eq (h : i.Respelled j) (m type name fromCrate : String) :
    i.associated m type name fromCrate = j.associated m type name fromCrate := by
  rw [associated, associated, h.methodsOf_eq]

theorem follow_eq (h : i.Respelled j) {fromCrate : String} (next : List String → Option Symbol)
    {names : List String} (hmodule : Plain module) :
    i.follow fromCrate steps next module names = j.follow fromCrate steps next module names := by
  induction names generalizing module with
  | nil => rfl
  | cons name rest ih =>
    cases hknown : i.hasModule (modulePath module) with
    | false =>
      have hknown' := h.hasModule_eq (modulePath module) ▸ hknown
      simp [follow, scope?, hknown, hknown']
    | true =>
      have hscope := scope?_of_hasModule hknown
      have hother := scope?_of_hasModule (h.hasModule_eq (modulePath module) ▸ hknown)
      have hredirect := h.redirect_eq hmodule steps next hscope hother name
      unfold follow
      rw [hscope, hother]
      cases rest with
      | nil =>
        dsimp only
        rw [hredirect, h.functions_eq]
      | cons method more =>
        dsimp only
        rw [hredirect, h.types_eq, h.associated_eq, ← h.submodules_eq]
        split
        · next hname => exact ih (hmodule.append_singleton (h.submodules (by simpa using hname)))
        · rfl

theorem locate_eq (h : i.Respelled j) (fromCrate : String) (steps : Nat) (path : List String) :
    i.locate fromCrate steps path = j.locate fromCrate steps path := by
  induction steps generalizing path with
  | zero => rfl
  | succ steps ih =>
    cases path with
    | nil => rfl
    | cons root rest =>
      rw [locate, locate, ← h.hasCrate_eq, ← funext ih]
      split
      · next hroot => exact h.follow_eq _ ⟨by simp, by simpa using h.crates hroot⟩
      · rfl

/-- **Imports that are spelled in another way** make no difference to calls by a path. -/
theorem resolvePath_eq (h : i.Respelled j) {s : Scope} (hmodule : Plain s.module)
    (path : List String) : i.resolvePath s path = j.resolvePath s path := by
  cases path with
  | nil => rfl
  | cons first rest =>
    unfold resolvePath
    simp only [h.absolutize_eq hmodule, h.declares_eq, funext (h.locate_eq s.crate stepLimit)]

end Respelled

/-- The index of a program only asks for crates whose names hold no colon. -/
theorem respelled_ofProgram {p q : Program}
    (h : List.Forall₂ Declaration.Respelled (Declaration.ofProgram p) (Declaration.ofProgram q))
    (hunits : ∀ u ∈ p.units, ∀ root ∈ u.module.head?, ':' ∉ root.toList) :
    (ofProgram p).Respelled (ofProgram q) where
  declarations := h
  crates hcrate := by
    obtain ⟨u, hu, hroot⟩ := Program.exists_unit_of_crate (by simpa [hasCrate, ofProgram] using hcrate)
    exact hunits u hu _ hroot
  submodules hname := by
    rcases Declaration.exists_owned (mem_submodules_iff.mp hname) with
      ⟨_, _, -, howned⟩ | ⟨_, h⟩ | ⟨_, h⟩ | ⟨_, h⟩
    · cases howned with
      | @submodule name => exact colon_not_mem_of_isIdent name.wellFormed
      | imports himport => cases himport
    all_goals cases h

/-! ### Relative paths in calls -/

/-- A path is resolved by what it stands for, unless it names a function that is known everywhere. -/
theorem resolvePath_eq_bind {i : Index} {s : Scope} {first : String} {rest : List String}
    (hprimitive : rest.length = 1 → first ∈ primitiveTypes →
      i.declares (modulePath s.module) first = true)
    (hprelude : rest = [] → first ∈ preludeFunctions →
      i.absolutize stepLimit s.module s.selfType false [first] ≠ none) :
    i.resolvePath s (first :: rest) =
      (i.absolutize stepLimit s.module s.selfType false (first :: rest)).bind
        (i.locate s.crate stepLimit) := by
  unfold resolvePath
  dsimp only
  split
  · next name =>
    have hdeclares : ¬ ((primitiveTypes.contains first &&
        !i.declares (modulePath s.module) first) = true) := by
      simpa using hprimitive rfl
    rw [if_neg hdeclares]
  · cases habsolute : i.absolutize stepLimit s.module s.selfType false (first :: rest) with
    | some absolute => rfl
    | none =>
      have hfirst : ¬ ((rest.isEmpty && preludeFunctions.contains first) = true) := by
        simp only [Bool.and_eq_true, List.isEmpty_iff, List.contains_iff_mem]
        rintro ⟨rfl, hmem⟩
        exact hprelude rfl hmem habsolute
      exact if_neg hfirst

/-- A path that starts with a keyword names no such function. -/
theorem resolvePath_of_keyword (i : Index) (s : Scope) {word : String} (h : word ∈ pathKeywords)
    (rest : List String) :
    i.resolvePath s (word :: rest) =
      (i.absolutize stepLimit s.module s.selfType false (word :: rest)).bind
        (i.locate s.crate stepLimit) := by
  have hnone : ∀ word ∈ pathKeywords, word ∉ primitiveTypes ∧ word ∉ preludeFunctions := by decide
  obtain ⟨hprimitive, hprelude⟩ := hnone word h
  exact resolvePath_eq_bind (fun _ hmem => absurd hmem hprimitive)
    fun _ hmem => absurd hmem hprelude

/-- Two spellings of a path resolve alike, if they start with keywords. -/
theorem SameStart.resolvePath_eq {s : Scope} {word other : String} {rest more : List String}
    (h : SameStart s.module (word :: rest) (other :: more)) (hword : word ∈ pathKeywords)
    (hother : other ∈ pathKeywords) (i : Index) :
    i.resolvePath s (word :: rest) = i.resolvePath s (other :: more) := by
  rw [i.resolvePath_of_keyword s hword, i.resolvePath_of_keyword s hother, h.absolutize_eq]

/-- Behind `self`, the name `super` is looked up in the module, and nothing is found if that makes
nothing of it. -/
theorem locate_super {i : Index} {crate : String} {inner : List String}
    (hcrate : i.hasCrate crate = true) (hleads : i.Leads [crate] inner)
    (hsilent : i.Silent (crate :: inner) "super") (fromCrate : String) (steps : Nat)
    (rest : List String) :
    i.locate fromCrate (steps + 1) (crate :: (inner ++ "super" :: rest)) = none := by
  have hnone : ∀ target ∈ i.globs (modulePath (crate :: inner)),
      i.supplied steps (crate :: inner) "super" target = none := by
    intro target htarget
    refine Option.eq_none_iff_forall_ne_some.mpr fun base hbase => ?_
    obtain ⟨habsolute, hne, hdeclares⟩ := supplied_eq_some_iff.mp hbase
    rcases hsilent.globs target htarget steps base habsolute with rfl | hundeclared
    · exact hne rfl
    · rw [hundeclared] at hdeclares
      cases hdeclares
  rw [locate_of_undeclared hcrate hleads hsilent.declares, List.findSome?_eq_none_iff.mpr hnone,
    Option.bind_none]

/-- **Relative paths.** A path that starts with `self`, or with `super` up to as many times as there are
modules around, resolves like the path by `crate` that leads there, and one with more `super` stands
for nothing. It makes no difference to calls which of these spellings imports have. But `super` behind
`self` is no relative path: it is looked up in the module, and as a rule nothing is found. -/
theorem resolvePath_relative (i : Index) (s : Scope) (crate : String) (inner rest : List String)
    (hmodule : s.module = crate :: inner) (hrest : ∀ word ∈ rest.head?, word ∉ pathKeywords)
    (n : Nat) :
    i.resolvePath s ("self" :: rest) = i.resolvePath s ("crate" :: (inner ++ rest)) ∧
    (0 < n → n ≤ inner.length →
      i.resolvePath s (List.replicate n "super" ++ rest) =
        i.resolvePath s ("crate" :: (inner.take (inner.length - n) ++ rest))) ∧
    (inner.length < n →
      i.resolvePath s (List.replicate n "super" ++ rest) = none ∧
      ∀ steps selfType fromUse, i.absolutize steps s.module selfType fromUse
        (List.replicate n "super" ++ rest) = none) ∧
    (∀ j, i.Respelled j → Plain s.module → ∀ path, i.resolvePath s path = j.resolvePath s path) ∧
    (0 < n →
      i.resolvePath s ("self" :: (List.replicate n "super" ++ rest)) =
        i.resolvePath s ("crate" :: (inner ++ (List.replicate n "super" ++ rest))) ∧
      (i.hasCrate crate = true → i.Leads [crate] inner → i.Silent s.module "super" →
        i.resolvePath s ("self" :: (List.replicate n "super" ++ rest)) = none)) := by
  have hself : ∀ more, i.resolvePath s ("self" :: more) =
      i.resolvePath s ("crate" :: (inner ++ more)) :=
    fun more => (SameStart.self hmodule).resolvePath_eq (by decide) (by decide) i
  refine ⟨hself rest, fun hpos hn => ?_, fun hn => ?_, fun j hj hplain => hj.resolvePath_eq hplain,
    fun hpos => ⟨hself _, fun hcrate hleads hsilent => ?_⟩⟩
  · have hhead : rest.head? ≠ some "super" := fun heq => hrest "super" heq (by decide)
    obtain ⟨n, rfl⟩ := Nat.exists_eq_add_of_le' hpos
    exact (SameStart.super hmodule hpos hn hhead).resolvePath_eq (by decide) (by decide) i
  · have hnone : ∀ steps selfType fromUse, i.absolutize steps s.module selfType fromUse
        (List.replicate n "super" ++ rest) = none := by
      intro steps selfType fromUse
      cases steps with
      | zero => rfl
      | succ steps =>
        rw [absolutize_supers steps (by omega)]
        exact fromParents_of_le (by omega) (by rw [hmodule, List.length_cons]; omega)
    refine ⟨?_, hnone⟩
    obtain ⟨n, rfl⟩ := Nat.exists_eq_add_of_le' (Nat.zero_lt_of_lt hn)
    rw [List.replicate_succ, List.cons_append] at hnone ⊢
    rw [i.resolvePath_of_keyword s (by decide), hnone, Option.bind_none]
  · obtain ⟨n, rfl⟩ := Nat.exists_eq_add_of_le' hpos
    rw [hmodule] at hsilent
    rw [i.resolvePath_of_keyword s (by decide), stepLimit, absolutize_self, Option.bind_some, hmodule]
    exact locate_super hcrate hleads hsilent s.crate 16 _

namespace Burrow

def superWord : Ident := ⟨"super", rfl⟩

def den : Ident := ⟨"den", by decide⟩

def nook : Ident := ⟨"nook", by decide⟩

def dig : Name := ⟨⟨"dig", by decide⟩, by decide⟩

def rest : Name := ⟨⟨"rest", by decide⟩, by decide⟩

def up : Ident := ⟨"up", by decide⟩

/-- `fn dig() {} mod den { fn rest() {} mod nook { ... } }`, with two imports in the innermost
module. -/
def program (first second : UseTree) : Program where
  units := [crateRoot "demo"
    [.function false (.mk dig [] [] []),
      .module ⟨false, none⟩ den []
        [.function false (.mk rest [] [] []),
          .module ⟨false, none⟩ nook [] [.use first [], .use second []]]]]
  externs := []

/-- `use super::super::dig as up; use super::*;`. -/
def relative : Program :=
  program (.path superWord (.path superWord (.rename dig up))) (.path superWord .glob)

/-- `use crate::dig as up; use crate::den::*;`. -/
def absolute : Program :=
  program (.path Relay.crateWord (.rename dig up)) (.path Relay.crateWord (.path den .glob))

/-- `use self::super::rest as up; use self::super::*;`. -/
def behindSelf : Program :=
  program (.path Disc.selfWord (.path superWord (.rename rest up)))
    (.path Disc.selfWord (.path superWord .glob))

theorem plain : Plain ["demo", "den", "nook"] where
  ne_nil := by simp
  colon := by decide

theorem respelled : (ofProgram relative).Respelled (ofProgram absolute) := by
  have hup : SameStart ["demo", "den", "nook"] ["super", "super", "dig"] ["crate", "dig"] :=
    @SameStart.super _ "demo" ["den", "nook"] ["dig"] 2 rfl (by decide) (by decide) (by decide)
  have hall : SameStart ["demo", "den", "nook"] ["super"] ["crate", "den"] :=
    @SameStart.super _ "demo" ["den", "nook"] [] 1 rfl (by decide) (by decide) (by decide)
  refine respelled_ofProgram ?_ (by decide)
  iterate 13 refine .cons (.same _) ?_
  exact .cons (.imported plain hup) (.cons (.glob plain hall) .nil)

theorem leads : (ofProgram relative).Leads ["demo"] ["den", "nook"] := by
  simp only [Leads]
  decide

theorem silent : (ofProgram relative).Silent ["demo", "den", "nook"] "super" where
  declares := by decide
  globs := by
    intro path hpath steps base habsolute
    have hglobs : (ofProgram relative).globs (modulePath ["demo", "den", "nook"]) = [["super"]] := by
      decide
    rw [hglobs, List.mem_singleton] at hpath
    subst hpath
    cases steps with
    | zero => cases habsolute
    | succ steps =>
      obtain rfl : ["demo", "den"] = base := Option.some.inj (absolutize_super.symm.trans habsolute)
      exact Or.inr (by decide)

end Burrow

theorem resolvePath_relative_burrow :
    let i := ofProgram Burrow.relative
    let s : Scope := ⟨["demo", "den", "nook"], none⟩
    i.Respelled (ofProgram Burrow.absolute) ∧ Plain s.module ∧ i.Silent s.module "super" ∧
      i.resolvePath s ["super", "super", "dig"] = some ⟨some "demo", "dig"⟩ ∧
      i.resolvePath s ["super", "super", "super", "dig"] = none ∧
      i.resolvePath s ["self", "super", "super", "dig"] = none ∧
      (ofProgram Burrow.absolute).resolvePath s ["up"] = some ⟨some "demo", "dig"⟩ := by
  intro i s
  have hdig : ∀ word ∈ ["dig"].head?, word ∉ pathKeywords := by decide
  obtain ⟨-, htwo, -, hrespelled, hself⟩ := resolvePath_relative i s "demo" ["den", "nook"] ["dig"] rfl
    hdig 2
  obtain ⟨-, -, hthree, -⟩ := resolvePath_relative i s "demo" ["den", "nook"] ["dig"] rfl hdig 3
  have hcrate : i.resolvePath s ["crate", "dig"] = some ⟨some "demo", "dig"⟩ := by decide
  have hup : i.resolvePath s ["up"] = some ⟨some "demo", "dig"⟩ := by decide
  refine ⟨Burrow.respelled, Burrow.plain, Burrow.silent, ?_, ?_, ?_, ?_⟩
  · exact (htwo (by decide) (by decide)).trans hcrate
  · exact (hthree (by decide)).1
  · exact (hself (by decide)).2 (by decide) Burrow.leads Burrow.silent
  · exact (hrespelled _ Burrow.respelled Burrow.plain ["up"]).symm.trans hup

/-- In a call as in an import, `super` behind `self` leads nowhere. -/
theorem self_super_not_found :
    let i := ofProgram Burrow.behindSelf
    let s : Scope := ⟨["demo", "den", "nook"], none⟩
    i.resolvePath s ["super", "rest"] = some ⟨some "demo::den", "rest"⟩ ∧
      i.resolvePath s ["crate", "den", "rest"] = some ⟨some "demo::den", "rest"⟩ ∧
      i.resolvePath s ["self", "super", "rest"] = none ∧
      i.resolvePath s ["up"] = none ∧ i.resolvePath s ["rest"] = none := by
  decide

end Index

end CallAtlas
