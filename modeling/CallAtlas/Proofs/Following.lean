import CallAtlas.Proofs.Indexed

/-!
# How paths are followed

A path is resolved in steps, of which there is a limited number: a name is looked up in the tables
of a module, an import sends the path elsewhere, and there the next name is looked up. Here the
steps are taken apart, and what a successful search has passed through is told without counting
them. `Index.StandsFor` says how a path in a module becomes a path from a crate root, and
`Index.Arrives` how such a path arrives at a function. What holds of everything that calls resolve
to is then shown by one case for each way on.

## Main definitions

* `Index.knows` — the crates that are known.
* `Index.fromModule` — what a module makes of a name.
* `Index.pathKeywords` — the names that are not looked up.
* `Index.StandsFor` — a path in a module and the path from a crate root that it stands for.
* `Index.Arrives` — a path from a crate root and the function that it arrives at.

## Main results

* `Index.absolutize_succ_cons`, `Index.absolutize_of_not_keyword` — one step.
* `Index.standsFor_of_absolutize`, `Index.arrives_of_locate`, `Index.resolvePath_cases` — what a
  successful search has passed through.
-/

namespace CallAtlas

/-! ### Tables -/

theorem mem_of_lookupLast {α : Type} {key : String} {value : α} {entries : List (String × α)}
    (h : lookupLast key entries = some value) : (key, value) ∈ entries := by
  rw [lookupLast, List.lookup_eq_some_iff] at h
  obtain ⟨before, after, heq, -⟩ := h
  rw [← List.mem_reverse, heq]
  exact List.mem_append_right _ List.mem_cons_self

theorem exists_lookupLast {α : Type} {key : String} {value : α} {entries : List (String × α)}
    (h : (key, value) ∈ entries) : ∃ last, lookupLast key entries = some last := by
  rw [lookupLast]
  cases hlookup : entries.reverse.lookup key with
  | some last => exact ⟨last, rfl⟩
  | none =>
    have hne := List.lookup_eq_none_iff.mp hlookup (key, value) (List.mem_reverse.mpr h)
    simp at hne

theorem mem_of_leastText? {texts : List String} {text : String}
    (h : leastText? texts = some text) : text ∈ texts := by
  cases texts with
  | nil => simp [leastText?] at h
  | cons first rest =>
    have hfold : ∀ (rest : List String) (least : String),
        rest.foldl (fun a b => if b < a then b else a) least ∈ least :: rest := by
      intro rest
      induction rest with
      | nil => simp
      | cons next rest ih =>
        intro least
        rw [List.foldl_cons]
        split
        · exact List.mem_cons_of_mem _ (ih next)
        · rcases List.mem_cons.mp (ih least) with heq | hmem
          · rw [heq]
            exact List.mem_cons_self
          · exact List.mem_cons_of_mem _ (List.mem_cons_of_mem _ hmem)
    rw [leastText?] at h
    obtain rfl := Option.some.inj h
    exact hfold rest first

namespace Index

variable {i : Index} {m name : String}

theorem mem_of_only? {texts : List String} {text : String} (h : only? texts = some text) :
    text ∈ texts := by
  cases texts with
  | nil => simp [only?] at h
  | cons first rest =>
    rw [only?] at h
    split at h
    · cases h
      exact List.mem_cons_self
    · cases h

/-- A table lists the declarations of one form: what it makes of `d` is some `b` just if `d` is the
declaration of that form for `b`. -/
theorem mem_table_iff {β : Type} {f : Declaration → Option β} {g : β → Declaration}
    (h : ∀ d b, f d = some b ↔ d = g b) {b : β} :
    b ∈ i.declarations.filterMap f ↔ g b ∈ i.declarations := by
  simp [List.mem_filterMap, h]

theorem mem_functions_iff {isPublic : Bool} :
    (name, isPublic) ∈ i.functions m ↔ .function m name isPublic ∈ i.declarations := by
  rw [functions]
  refine mem_table_iff (g := fun b : String × Bool => .function m b.1 b.2) fun d b => ?_
  cases d <;> simp [Prod.ext_iff]

theorem mem_types_iff : name ∈ i.types m ↔ .type m name ∈ i.declarations := by
  rw [types]
  refine mem_table_iff (g := .type m) fun d b => ?_
  cases d <;> simp

theorem mem_submodules_iff : name ∈ i.submodules m ↔ .submodule m name ∈ i.declarations := by
  rw [submodules]
  refine mem_table_iff (g := .submodule m) fun d b => ?_
  cases d <;> simp

theorem mem_imports_iff {path : List String} :
    (name, path) ∈ i.imports m ↔ .imported m name path ∈ i.declarations := by
  rw [imports]
  refine mem_table_iff (g := fun b : String × List String => .imported m b.1 b.2) fun d b => ?_
  cases d <;> simp [Prod.ext_iff]

theorem mem_globs_iff {path : List String} :
    path ∈ i.globs m ↔ .glob m path ∈ i.declarations := by
  rw [globs]
  refine mem_table_iff (g := .glob m) fun d b => ?_
  cases d <;> simp

theorem mem_methodsOf_iff {type : String} {isPublic : Bool} :
    (m, isPublic) ∈ i.methodsOf type name ↔ .method m type name isPublic ∈ i.declarations := by
  rw [methodsOf]
  refine mem_table_iff (g := fun b : String × Bool => .method b.1 type name b.2) fun d b => ?_
  cases d <;> simp [Prod.ext_iff, and_left_comm, and_assoc]

theorem mem_traitModules_iff :
    m ∈ i.traitModules name ↔ .traitMethod m name ∈ i.declarations := by
  rw [traitModules]
  refine mem_table_iff (g := (.traitMethod · name)) fun d b => ?_
  cases d <;> simp [and_comm]

theorem mem_methodModules_iff :
    m ∈ i.methodModules name ↔ ∃ type isPublic, .method m type name isPublic ∈ i.declarations := by
  rw [methodModules, List.mem_filterMap]
  refine ⟨?_, fun ⟨_, _, hd⟩ => ⟨_, hd, by simp⟩⟩
  rintro ⟨d, hd, h⟩
  cases d with
  | method m' type' name' isPublic' =>
    obtain ⟨rfl, rfl⟩ : name' = name ∧ m' = m := by simpa using h
    exact ⟨type', isPublic', hd⟩
  | _ => simp at h

/-- A scope holds what the tables say of its module. -/
theorem eq_of_scope? {scope : ModuleScope} (h : i.scope? m = some scope) :
    scope = ⟨i.functions m, i.types m, i.submodules m, i.imports m, i.globs m⟩ := by
  rw [scope?] at h
  split at h
  · exact (Option.some.inj h).symm
  · cases h

/-- Is this a crate that is known, with its sources or without? -/
def knows (i : Index) (name : String) : Bool :=
  i.hasCrate name || i.hasExternCrate name

/-! ### From a module to a crate root -/

/-- What a module makes of a path whose first name is no keyword: it defines the name, it imports it,
or one of its glob imports leads to a module that declares it. -/
def fromModule (i : Index) (steps : Nat) (module : List String) (first : String)
    (rest : List String) : Option (List String) :=
  (i.scope? (modulePath module)).bind fun names =>
    if names.defines first then some (module ++ first :: rest)
    else
      ((lookupLast first names.imports).bind fun target =>
        if target = [first] then none
        else (i.absolutize steps module none true target).map (· ++ rest)).or
      ((i.globDeclaring module first (names.globs.map (i.absolutize steps module none true))).map
        (· ++ first :: rest))

theorem absolutize_succ_cons (steps : Nat) (module : List String) (selfType : Option (List String))
    (fromUse : Bool) (first : String) (rest : List String) :
    i.absolutize (steps + 1) module selfType fromUse (first :: rest) =
      if first = "crate" then if module.isEmpty then none else some (module.take 1 ++ rest)
      else if first = "self" then some (module ++ rest)
      else if first = "super" then fromParents module (first :: rest)
      else if first = "Self" then
        selfType.bind fun type => (i.absolutize steps module none false type).map (· ++ rest)
      else (i.fromModule steps module first rest).or (i.globalPath fromUse first (first :: rest)) := by
  rw [absolutize, globLevels]
  unfold absolutizeBy fromModule absolutize
  cases hscope : i.scope? (modulePath module) with
  | none => cases selfType <;> rfl
  | some names =>
    dsimp only [Option.bind_some, Option.map_some, Option.getD_some]
    split
    · rfl
    split
    · rfl
    split
    · rfl
    split
    · cases selfType <;> rfl
    generalize i.absolutizeBy module (some names) (i.globLevels module (some names) steps) none true
      = next
    by_cases hdefines : names.defines first = true
    · simp only [hdefines, if_true, Option.some_or]
    rw [if_neg hdefines, if_neg hdefines]
    cases lookupLast first names.imports with
    | none => cases i.globDeclaring module first (names.globs.map next) <;> rfl
    | some target =>
      dsimp only [Option.bind_some]
      generalize (if target = [first] then none else (next target).map (· ++ rest)) = imported
      cases imported with
      | none => cases i.globDeclaring module first (names.globs.map next) <;> rfl
      | some found => rfl

/-- The names that have a meaning of their own at the start of a path. -/
def pathKeywords : List String :=
  ["crate", "self", "super", "Self"]

/-- Any other name is looked up in the module, and outside of it if the module makes nothing of it. -/
theorem absolutize_of_not_keyword {first : String} (h : first ∉ pathKeywords) (steps : Nat)
    (module : List String) (selfType : Option (List String)) (fromUse : Bool) (rest : List String) :
    i.absolutize (steps + 1) module selfType fromUse (first :: rest) =
      (i.fromModule steps module first rest).or (i.globalPath fromUse first (first :: rest)) := by
  have hne : ∀ word ∈ pathKeywords, first ≠ word := by
    rintro word hword rfl
    exact h hword
  rw [absolutize_succ_cons, if_neg (hne _ (by decide)), if_neg (hne _ (by decide)),
    if_neg (hne _ (by decide)), if_neg (hne _ (by decide))]

/-- A path in a module stands for a path from a crate root, however many steps that takes. -/
inductive StandsFor (i : Index) (module : List String) :
    Option (List String) → Bool → List String → List String → Prop where
  | crate {selfType fromUse rest} : module ≠ [] →
    StandsFor i module selfType fromUse ("crate" :: rest) (module.take 1 ++ rest)
  | self {selfType fromUse rest} :
    StandsFor i module selfType fromUse ("self" :: rest) (module ++ rest)
  | super {selfType fromUse rest result} : fromParents module ("super" :: rest) = some result →
    StandsFor i module selfType fromUse ("super" :: rest) result
  | selfType {type fromUse rest found} : StandsFor i module none false type found →
    StandsFor i module (some type) fromUse ("Self" :: rest) (found ++ rest)
  | defined {selfType fromUse first rest} :
    StandsFor i module selfType fromUse (first :: rest) (module ++ first :: rest)
  | imported {selfType fromUse first rest target found} :
    (first, target) ∈ i.imports (modulePath module) → StandsFor i module none true target found →
      StandsFor i module selfType fromUse (first :: rest) (found ++ rest)
  | glob {selfType fromUse first rest target base} :
    target ∈ i.globs (modulePath module) → StandsFor i module none true target base →
      StandsFor i module selfType fromUse (first :: rest) (base ++ first :: rest)
  | known {selfType fromUse first rest} : i.knows first = true →
    StandsFor i module selfType fromUse (first :: rest) (first :: rest)
  | prelude {selfType fromUse first rest standard} : (first, standard) ∈ preludeTypes →
    StandsFor i module selfType fromUse (first :: rest) ("std" :: standard :: first :: rest)
  | use {selfType first rest} : StandsFor i module selfType true (first :: rest) (first :: rest)

theorem standsFor_of_globalPath {module : List String} {selfType : Option (List String)}
    {fromUse : Bool} {rest result : List String}
    (h : i.globalPath fromUse name (name :: rest) = some result) :
    i.StandsFor module selfType fromUse (name :: rest) result := by
  rw [globalPath] at h
  split at h
  · next hknown =>
    cases h
    exact .known hknown
  · split at h
    · next standard hstandard =>
      cases h
      obtain ⟨before, after, heq, -⟩ := List.lookup_eq_some_iff.mp hstandard
      exact .prelude (heq ▸ by simp)
    · split at h
      · next hfromUse =>
        cases h
        subst hfromUse
        exact .use
      · cases h

theorem standsFor_of_fromModule {steps : Nat} {module : List String}
    (ih : ∀ {path result}, i.absolutize steps module none true path = some result →
      i.StandsFor module none true path result)
    {selfType : Option (List String)} {fromUse : Bool} {rest result : List String}
    (h : i.fromModule steps module name rest = some result) :
    i.StandsFor module selfType fromUse (name :: rest) result := by
  obtain ⟨names, hscope, h⟩ := Option.bind_eq_some_iff.mp h
  obtain rfl := eq_of_scope? hscope
  split at h
  · cases h
    exact .defined
  rcases Option.or_eq_some_iff.mp h with h | ⟨-, h⟩
  · obtain ⟨target, htarget, h⟩ := Option.bind_eq_some_iff.mp h
    split at h
    · cases h
    · obtain ⟨found, hfound, rfl⟩ := Option.map_eq_some_iff.mp h
      exact .imported (mem_of_lookupLast htarget) (ih hfound)
  · obtain ⟨base, hbase, rfl⟩ := Option.map_eq_some_iff.mp h
    obtain ⟨found, hfound, hfilter⟩ := List.exists_of_findSome?_eq_some hbase
    obtain ⟨target, htarget, rfl⟩ := List.mem_map.mp hfound
    exact .glob htarget (ih (Option.filter_eq_some_iff.mp hfilter).1)

theorem standsFor_of_absolutize {steps : Nat} {module : List String} :
    ∀ {selfType : Option (List String)} {fromUse : Bool} {path result : List String},
      i.absolutize steps module selfType fromUse path = some result →
      i.StandsFor module selfType fromUse path result := by
  induction steps with
  | zero =>
    intro selfType fromUse path result h
    simp [absolutize, globLevels, absolutizeBy] at h
  | succ steps ih =>
    intro selfType fromUse path result h
    cases path with
    | nil => simp [absolutize, globLevels, absolutizeBy] at h
    | cons first rest =>
      rw [absolutize_succ_cons] at h
      split at h
      · next hfirst =>
        subst hfirst
        split at h
        · cases h
        · next hmodule =>
          cases h
          exact .crate (by simpa using hmodule)
      split at h
      · next hfirst =>
        subst hfirst
        cases h
        exact .self
      split at h
      · next hfirst =>
        subst hfirst
        exact .super h
      split at h
      · next hfirst =>
        subst hfirst
        obtain ⟨type, rfl, h⟩ := Option.bind_eq_some_iff.mp h
        obtain ⟨found, hfound, rfl⟩ := Option.map_eq_some_iff.mp h
        exact .selfType (ih hfound)
      rcases Option.or_eq_some_iff.mp h with h | ⟨-, h⟩
      · exact standsFor_of_fromModule ih h
      · exact standsFor_of_globalPath h

/-! ### From a crate root to a function -/

/-- A path from a crate root arrives at a function that can be called from a crate, however many
steps that takes. -/
inductive Arrives (i : Index) (fromCrate : String) : List String → Symbol → Prop where
  | function {root inner name isPublic symbol} : i.hasCrate root = true →
    .function (modulePath (root :: inner)) name isPublic ∈ i.declarations →
      functionIn (root :: inner) fromCrate name isPublic = some symbol →
      Arrives i fromCrate (root :: inner ++ [name]) symbol
  | associated {root inner type name symbol} : i.hasCrate root = true →
    i.associated (modulePath (root :: inner)) type name fromCrate = some symbol →
      Arrives i fromCrate (root :: inner ++ [type, name]) symbol
  | imported {root inner name rest target found symbol} : i.hasCrate root = true →
    (name, target) ∈ i.imports (modulePath (root :: inner)) →
      i.StandsFor (root :: inner) none true target found →
      Arrives i fromCrate (found ++ rest) symbol →
      Arrives i fromCrate (root :: inner ++ name :: rest) symbol
  | glob {root inner name rest target base symbol} : i.hasCrate root = true →
    target ∈ i.globs (modulePath (root :: inner)) →
      i.StandsFor (root :: inner) none true target base →
      Arrives i fromCrate (base ++ name :: rest) symbol →
      Arrives i fromCrate (root :: inner ++ name :: rest) symbol
  | external {root rest symbol} : i.hasCrate root = false →
    externalSymbol (root :: rest) = some symbol → Arrives i fromCrate (root :: rest) symbol

theorem arrives_of_redirect {fromCrate root : String} {steps : Nat}
    {next : List String → Option Symbol}
    (hnext : ∀ {path symbol}, next path = some symbol → i.Arrives fromCrate path symbol)
    (hroot : i.hasCrate root = true) {inner rest : List String} {scope : ModuleScope}
    (hscope : i.scope? (modulePath (root :: inner)) = some scope) {symbol : Symbol}
    (h : i.redirect steps next (root :: inner) scope name rest = some symbol) :
    i.Arrives fromCrate (root :: inner ++ name :: rest) symbol := by
  obtain rfl := eq_of_scope? hscope
  rw [redirect] at h
  split at h
  · next target htarget =>
    obtain ⟨found, hfound, h⟩ := Option.bind_eq_some_iff.mp h
    exact .imported hroot (mem_of_lookupLast htarget) (standsFor_of_absolutize hfound) (hnext h)
  · obtain ⟨base, hbase, h⟩ := Option.bind_eq_some_iff.mp h
    obtain ⟨found, hfound, hfilter⟩ := List.exists_of_findSome?_eq_some hbase
    obtain ⟨target, htarget, rfl⟩ := List.mem_map.mp hfound
    exact .glob hroot htarget (standsFor_of_absolutize (Option.filter_eq_some_iff.mp hfilter).1)
      (hnext h)

theorem arrives_of_follow {fromCrate root : String} {steps : Nat}
    {next : List String → Option Symbol}
    (hnext : ∀ {path symbol}, next path = some symbol → i.Arrives fromCrate path symbol)
    (hroot : i.hasCrate root = true) {names inner : List String} {symbol : Symbol}
    (h : i.follow fromCrate steps next (root :: inner) names = some symbol) :
    i.Arrives fromCrate (root :: inner ++ names) symbol := by
  induction names generalizing inner with
  | nil => simp [follow] at h
  | cons name rest ih =>
    unfold follow at h
    split at h
    · cases h
    next scope hscope =>
    split at h
    · split at h
      · next isPublic hfunction =>
        rw [eq_of_scope? hscope] at hfunction
        exact .function hroot (mem_functions_iff.mp (mem_of_lookupLast hfunction)) h
      · exact arrives_of_redirect hnext hroot hscope h
    · next method more =>
      split at h
      · simpa using @ih (inner ++ [name]) h
      split at h
      · split at h
        · next hmore =>
          obtain rfl := List.isEmpty_iff.mp hmore
          exact .associated hroot h
        · cases h
      · exact arrives_of_redirect hnext hroot hscope h

theorem arrives_of_locate {fromCrate : String} {steps : Nat} {path : List String} {symbol : Symbol}
    (h : i.locate fromCrate steps path = some symbol) : i.Arrives fromCrate path symbol := by
  induction steps generalizing path symbol with
  | zero => simp [locate] at h
  | succ steps ih =>
    cases path with
    | nil => simp [locate] at h
    | cons root rest =>
      rw [locate] at h
      split at h
      · next hroot => exact arrives_of_follow ih hroot h
      · next hroot => exact .external (by simpa using hroot) h

/-- A path that is not one of a primitive type is resolved by what it stands for. -/
theorem resolvePath_of_absolutize {s : Scope} {first : String} {rest absolute : List String}
    (hprimitive : rest = [] ∨ first ∉ primitiveTypes)
    (h : i.absolutize stepLimit s.module s.selfType false (first :: rest) = some absolute) :
    i.resolvePath s (first :: rest) = i.locate s.crate stepLimit absolute := by
  unfold resolvePath
  dsimp only
  split
  · next name =>
    have hfirst : first ∉ primitiveTypes := hprimitive.resolve_left (by simp)
    rw [if_neg (by simp [hfirst]), h]
    rfl
  · rw [h]

/-- The ways in which a call by a path is resolved. -/
theorem resolvePath_routes {s : Scope} {path : List String} {symbol : Symbol}
    (h : i.resolvePath s path = some symbol) :
    (∃ absolute, i.absolutize stepLimit s.module s.selfType false path = some absolute ∧
      i.locate s.crate stepLimit absolute = some symbol) ∨
    (∃ type ∈ primitiveTypes, ∃ name, path = [type, name] ∧
      i.declares (modulePath s.module) type = false ∧ symbol = .bare name) ∨
    ∃ name ∈ preludeFunctions, path = [name] ∧
      i.absolutize stepLimit s.module s.selfType false path = none ∧ symbol = .bare name := by
  cases path with
  | nil => simp [resolvePath] at h
  | cons first rest =>
    unfold resolvePath at h
    dsimp only at h
    split at h
    · next name =>
      split at h
      · next hprimitive =>
        cases h
        obtain ⟨hmem, hfree⟩ := Bool.and_eq_true_iff.mp hprimitive
        refine Or.inr (Or.inl ⟨first, by simpa using hmem, name, rfl, by simpa using hfree, rfl⟩)
      · exact Or.inl (Option.bind_eq_some_iff.mp h)
    · split at h
      · next absolute habsolute => exact Or.inl ⟨absolute, habsolute, h⟩
      · next hnone =>
        split at h
        · next hprelude =>
          cases h
          obtain ⟨hrest, hmem⟩ := Bool.and_eq_true_iff.mp hprelude
          obtain rfl := List.isEmpty_iff.mp hrest
          exact Or.inr (Or.inr ⟨first, by simpa using hmem, rfl, hnone, rfl⟩)
        · cases h

/-- **Calls by a path.** Such a call names a function of a primitive type or one that is known
everywhere, or its path stands for one that arrives at the function. -/
theorem resolvePath_cases {s : Scope} {path : List String} {symbol : Symbol}
    (h : i.resolvePath s path = some symbol) :
    (∃ absolute, i.StandsFor s.module s.selfType false path absolute ∧
      i.Arrives s.crate absolute symbol) ∨
    (∃ type ∈ primitiveTypes, ∃ name, path = [type, name] ∧ symbol = .bare name) ∨
    ∃ name ∈ preludeFunctions, symbol = .bare name := by
  rcases resolvePath_routes h with ⟨absolute, habsolute, hlocate⟩ |
    ⟨type, htype, name, hpath, -, hsymbol⟩ | ⟨name, hname, -, -, hsymbol⟩
  · exact Or.inl ⟨absolute, standsFor_of_absolutize habsolute, arrives_of_locate hlocate⟩
  · exact Or.inr (Or.inl ⟨type, htype, name, hpath, hsymbol⟩)
  · exact Or.inr (Or.inr ⟨name, hname, hsymbol⟩)

end Index

end CallAtlas
