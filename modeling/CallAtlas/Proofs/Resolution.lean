import CallAtlas.Proofs.Following

/-!
# What calls resolve to

A call resolves to a function that is declared, to one of a crate that is known without its sources,
or to one that is known everywhere. `Index.Located` tells the first two apart by where the path of
the call leads.

A path from a crate root goes through modules until one of them does not have the next name itself.
The imports of that module then send what is left of the path on, and so again from there, until a
path is reached that starts at a crate whose sources are not loaded. `Index.SentOn` tells the paths
that are passed, and it is exact: it counts the steps as the search does, so a path that is sent out
of the loaded crates names what the path at the end of its way names, and nothing else.

## Main definitions

* `Index.Leads` — paths on which each segment is a submodule.
* `Index.Keeps`, `Index.onward` — the names that a module has itself, and where others are sent.
* `Index.SentOn` — the paths that a path is sent on to.
* `Index.Located` — a symbol that a path leads to.

## Main results

* `Index.declared_or_sentOn_of_locate`, `Index.SentOn.locate_external` — the paths that are sent out
  of the loaded crates, from both sides.
* `Index.resolvePath_located`, `Index.resolveMethod_declared` — what calls resolve to.
-/

namespace CallAtlas

/-- The function that a declaration is about, if it is about one. -/
def Declaration.symbol? : Declaration → Option Symbol
  | .function m name _ | .method m _ name _ | .traitMethod m name => some (.inPackage m name)
  | _ => none

namespace Index

variable {i : Index} {m name : String}

/-! ### Paths of modules -/

/-- Is a module known, and do the names lead on from there through submodules? -/
def Leads (i : Index) (module : List String) : List String → Prop
  | [] => i.hasModule (modulePath module) = true
  | name :: rest =>
    i.hasModule (modulePath module) = true ∧ name ∈ i.submodules (modulePath module) ∧
      Leads i (module ++ [name]) rest

theorem Leads.hasModule {names : List String} : ∀ {module : List String}, i.Leads module names →
    i.hasModule (modulePath (module ++ names)) = true := by
  induction names with
  | nil =>
    intro module h
    rwa [List.append_nil]
  | cons name rest ih =>
    intro module h
    simpa using ih h.2.2

theorem scope?_of_hasModule {m : String} (h : i.hasModule m = true) :
    i.scope? m =
      some ⟨i.functions m, i.types m, i.submodules m, i.imports m, i.globs m⟩ := by
  rw [scope?, if_pos h]

/-- A path of modules is followed to the last one, and what is behind it from there. -/
theorem follow_append_of_leads {fromCrate : String} {steps : Nat}
    {next : List String → Option Symbol} {rest : List String} (hrest : rest ≠ [])
    {names : List String} : ∀ {module : List String}, i.Leads module names →
      i.follow fromCrate steps next module (names ++ rest) =
        i.follow fromCrate steps next (module ++ names) rest := by
  induction names with
  | nil =>
    intro module _
    simp
  | cons first names ih =>
    intro module h
    obtain ⟨hmodule, hmem, hnames⟩ := h
    obtain ⟨second, more, heq⟩ : ∃ second more, names ++ rest = second :: more :=
      List.exists_cons_of_ne_nil (by simp [hrest])
    have hstep : i.follow fromCrate steps next module (first :: (names ++ rest)) =
        i.follow fromCrate steps next (module ++ [first]) (names ++ rest) := by
      rw [heq, follow, scope?_of_hasModule hmodule]
      simp [hmem]
    rw [List.cons_append, hstep, ih hnames]
    simp

/-! ### Paths that are sent on -/

/-- Does a module have a name itself, imports apart? At the end of a path a function is meant, and
before that a module or a type. -/
def Keeps (i : Index) (m name : String) : List String → Prop
  | [] => ∃ isPublic, (name, isPublic) ∈ i.functions m
  | _ :: _ => name ∈ i.submodules m ∨ name ∈ i.types m

theorem not_keeps_nil : ¬ i.Keeps m name [] ↔ lookupLast name (i.functions m) = none := by
  constructor
  · intro h
    cases hlast : lookupLast name (i.functions m) with
    | none => rfl
    | some isPublic => exact absurd ⟨isPublic, mem_of_lookupLast hlast⟩ h
  · rintro hnone ⟨isPublic, hfunction⟩
    obtain ⟨last, hlast⟩ := exists_lookupLast hfunction
    rw [hnone] at hlast
    cases hlast

theorem not_keeps_cons {second : String} {more : List String} :
    ¬ i.Keeps m name (second :: more) ↔ name ∉ i.submodules m ∧ name ∉ i.types m :=
  not_or

/-- The path that the imports of a module send a name and those behind it to. An import of the name
comes first, and then the first glob import that leads to another module which declares it. -/
def onward (i : Index) (steps : Nat) (module : List String) (name : String) (rest : List String) :
    Option (List String) :=
  match lookupLast name (i.imports (modulePath module)) with
  | some target => (i.absolutize steps module none true target).map (· ++ rest)
  | none =>
    (i.globDeclaring module name
      ((i.globs (modulePath module)).map (i.absolutize steps module none true))).map
        (· ++ name :: rest)

/-- A path from a crate root is sent on to another, in so many steps: a path of modules leads to one
that does not have the next name itself, and its imports send the rest on. -/
inductive SentOn (i : Index) : Nat → List String → List String → Prop where
  | here {steps path} : SentOn i (steps + 1) path path
  | next {steps root inner name rest path result} : i.hasCrate root = true →
    i.Leads [root] inner → ¬ i.Keeps (modulePath (root :: inner)) name rest →
      i.onward steps (root :: inner) name rest = some path → SentOn i steps path result →
      SentOn i (steps + 1) (root :: (inner ++ name :: rest)) result

variable {fromCrate : String} {steps : Nat} {next : List String → Option Symbol} {symbol : Symbol}

theorem redirect_eq_onward {scope : ModuleScope} {module : List String}
    (hscope : i.scope? (modulePath module) = some scope) (rest : List String) :
    i.redirect steps next module scope name rest =
      (i.onward steps module name rest).bind next := by
  obtain rfl := eq_of_scope? hscope
  rw [redirect, onward]
  dsimp only
  cases lookupLast name (i.imports (modulePath module)) <;> exact Option.bind_map.symm

/-- A name that a module does not have itself is followed where its imports send it. -/
theorem follow_of_not_keeps {module rest : List String}
    (hmodule : i.hasModule (modulePath module) = true)
    (h : ¬ i.Keeps (modulePath module) name rest) :
    i.follow fromCrate steps next module (name :: rest) =
      (i.onward steps module name rest).bind next := by
  have hscope := scope?_of_hasModule hmodule
  rw [follow, hscope, ← redirect_eq_onward hscope]
  cases rest with
  | nil => simp [not_keeps_nil.mp h]
  | cons method more =>
    obtain ⟨hsubmodule, htype⟩ := not_keeps_cons.mp h
    simp [hsubmodule, htype]

theorem declared_of_associated {type fromCrate : String} {symbol : Symbol}
    (h : i.associated m type name fromCrate = some symbol) :
    ∃ d ∈ i.declarations, d.symbol? = some symbol := by
  obtain ⟨found, -, h⟩ := Option.bind_eq_some_iff.mp h
  obtain ⟨isPublic, hmethod, h⟩ := Option.bind_eq_some_iff.mp h
  split at h
  · cases h
    exact ⟨_, mem_methodsOf_iff.mp (mem_of_lookupLast hmethod), rfl⟩
  · cases h

theorem declared_of_functionIn {module : List String} {isPublic : Bool}
    (hmem : (name, isPublic) ∈ i.functions (modulePath module))
    (h : functionIn module fromCrate name isPublic = some symbol) :
    ∃ d ∈ i.declarations, d.symbol? = some symbol := by
  rw [functionIn] at h
  split at h
  · cases h
    exact ⟨_, mem_functions_iff.mp hmem, rfl⟩
  · cases h

theorem hasModule_of_follow {module rest : List String}
    (h : i.follow fromCrate steps next module (name :: rest) = some symbol) :
    i.hasModule (modulePath module) = true := by
  rw [follow, scope?] at h
  split at h
  · cases h
  · next scope hscope => exact (Option.ite_none_right_eq_some.mp hscope).1

/-- What is followed to a function is followed to one that is declared, or to a module whose imports
send the rest on. Induction is on the names, and each that is a submodule leads one module on. -/
theorem declared_or_onward_of_follow {names : List String} : ∀ {module : List String},
    i.follow fromCrate steps next module names = some symbol →
      (∃ d ∈ i.declarations, d.symbol? = some symbol) ∨
      ∃ inner name rest path, names = inner ++ name :: rest ∧ i.Leads module inner ∧
        ¬ i.Keeps (modulePath (module ++ inner)) name rest ∧
        i.onward steps (module ++ inner) name rest = some path ∧ next path = some symbol := by
  induction names with
  | nil =>
    intro module h
    simp [follow] at h
  | cons name rest ih =>
    intro module h
    have hmodule := hasModule_of_follow h
    by_cases hkeeps : i.Keeps (modulePath module) name rest
    · rw [follow, scope?_of_hasModule hmodule] at h
      cases rest with
      | nil =>
        obtain ⟨isPublic, hmem⟩ := hkeeps
        obtain ⟨last, hlast⟩ := exists_lookupLast hmem
        dsimp only at h
        rw [hlast] at h
        exact Or.inl (declared_of_functionIn (mem_of_lookupLast hlast) h)
      | cons method more =>
        dsimp only at h
        split at h
        · next hsubmodule =>
          refine (ih h).imp_right ?_
          rintro ⟨inner, name', rest', path, heq, hleads, hfree, hpath, hnext⟩
          refine ⟨name :: inner, name', rest', path, congrArg (name :: ·) heq, ?_, ?_, ?_, hnext⟩
          · exact ⟨hmodule, by simpa using hsubmodule, hleads⟩
          · simpa using hfree
          · simpa using hpath
        · next hsubmodule =>
          -- a name that the module has and that is no submodule is a type
          have htype := hkeeps.resolve_left (by simpa using hsubmodule)
          rw [if_pos (List.contains_iff_mem.mpr htype)] at h
          split at h
          · exact Or.inl (declared_of_associated h)
          · cases h
    · rw [follow_of_not_keeps hmodule hkeeps] at h
      obtain ⟨path, hpath, hnext⟩ := Option.bind_eq_some_iff.mp h
      refine Or.inr ⟨[], name, rest, path, rfl, hmodule, ?_, ?_, hnext⟩
      · rwa [List.append_nil]
      · rwa [List.append_nil]

/-- A path that leads to a function leads to one that is declared, or is sent out of the crates
whose sources are loaded. -/
theorem declared_or_sentOn_of_locate {path : List String}
    (h : i.locate fromCrate steps path = some symbol) :
    (∃ d ∈ i.declarations, d.symbol? = some symbol) ∨
    ∃ root rest, i.SentOn steps path (root :: rest) ∧ i.hasCrate root = false ∧
      externalSymbol (root :: rest) = some symbol := by
  induction steps generalizing path with
  | zero => simp [locate] at h
  | succ steps ih =>
    cases path with
    | nil => simp [locate] at h
    | cons root rest =>
      rw [locate] at h
      split at h
      · next hroot =>
        rcases declared_or_onward_of_follow h with
          hdeclared | ⟨inner, name, rest, path, rfl, hleads, hfree, hpath, hnext⟩
        · exact Or.inl hdeclared
        refine (ih hnext).imp_right ?_
        rintro ⟨last, behind, hsent, hlast, hsymbol⟩
        exact ⟨last, behind, .next hroot hleads hfree hpath hsent, hlast, hsymbol⟩
      · next hroot => exact Or.inr ⟨root, rest, .here, by simpa using hroot, h⟩

/-- One step: a path of modules up to a name that the last one does not have itself names what its
imports send the rest to. -/
theorem locate_eq_onward {root : String} {inner rest : List String} (hroot : i.hasCrate root = true)
    (hleads : i.Leads [root] inner) (hfree : ¬ i.Keeps (modulePath (root :: inner)) name rest) :
    i.locate fromCrate (steps + 1) (root :: (inner ++ name :: rest)) =
      (i.onward steps (root :: inner) name rest).bind (i.locate fromCrate steps) := by
  have hmodule : i.hasModule (modulePath (root :: inner)) = true := hleads.hasModule
  rw [locate, if_pos hroot, follow_append_of_leads (by simp) hleads, List.singleton_append,
    follow_of_not_keeps hmodule hfree]

/-- A path names what the path at the end of its way names, in the steps that are left there. -/
theorem SentOn.exists_locate_eq {path result : List String} (h : i.SentOn steps path result) :
    ∃ left, i.locate fromCrate steps path = i.locate fromCrate (left + 1) result := by
  induction h with
  | @here steps path => exact ⟨steps, rfl⟩
  | next hroot hleads hfree hpath _ ih =>
    obtain ⟨left, hleft⟩ := ih
    refine ⟨left, ?_⟩
    rw [locate_eq_onward hroot hleads hfree, hpath, Option.bind_some, hleft]

/-- So it names a function of a crate that is not loaded, if it is sent there. -/
theorem SentOn.locate_external {path rest : List String} {root : String}
    (h : i.SentOn steps path (root :: rest)) (hroot : i.hasCrate root = false) :
    i.locate fromCrate steps path = externalSymbol (root :: rest) := by
  obtain ⟨left, hleft⟩ := h.exists_locate_eq
  rw [hleft, locate, if_neg (by simp [hroot])]

/-! ### Where calls lead -/

/-- A symbol that a path in a scope leads to: it is declared, or the path that is meant is sent on
to one into a crate whose sources are not loaded. -/
inductive Located (i : Index) (s : Scope) (path : List String) : Symbol → Prop where
  | declared {d : Declaration} {symbol : Symbol} :
    d ∈ i.declarations → d.symbol? = some symbol → Located i s path symbol
  | external {absolute : List String} {root : String} {rest : List String} {symbol : Symbol} :
    i.absolutize stepLimit s.module s.selfType false path = some absolute →
      i.SentOn stepLimit absolute (root :: rest) → i.hasCrate root = false →
      externalSymbol (root :: rest) = some symbol → Located i s path symbol

/-- **Calls by a path.** Such a call resolves to what its path leads to, to a function of a
primitive type, or to one of the functions that are known everywhere. -/
theorem resolvePath_located {s : Scope} {path : List String}
    (h : i.resolvePath s path = some symbol) :
    i.Located s path symbol ∨
    (∃ type ∈ primitiveTypes, ∃ name, path = [type, name] ∧
      i.declares (modulePath s.module) type = false ∧ symbol = .bare name) ∨
    ∃ name ∈ preludeFunctions, path = [name] ∧
      i.absolutize stepLimit s.module s.selfType false path = none ∧ symbol = .bare name := by
  refine (resolvePath_routes h).imp_left ?_
  rintro ⟨absolute, habsolute, hlocate⟩
  rcases declared_or_sentOn_of_locate hlocate with ⟨d, hd, hsymbol⟩ | ⟨root, rest, hsent, hroot, h⟩
  · exact .declared hd hsymbol
  · exact .external habsolute hsent hroot h

/-- **Calls of methods.** Such a call resolves to a method that a type or a trait declares. -/
theorem resolveMethod_declared {s : Scope} {onSelf : Bool} {symbol : Symbol}
    (h : i.resolveMethod s onSelf name = some symbol) :
    ∃ d ∈ i.declarations, d.symbol? = some symbol := by
  have hmethod : ∀ {m}, m ∈ i.methodModules name →
      ∃ d ∈ i.declarations, d.symbol? = some (.inPackage m name) := by
    intro m hm
    obtain ⟨type, isPublic, hd⟩ := mem_methodModules_iff.mp hm
    exact ⟨_, hd, rfl⟩
  unfold resolveMethod at h
  extract_lets here ofSelf candidates at h
  have hofSelf : ∀ m ∈ ofSelf, m ∈ i.methodModules name := by
    intro m hm
    simp only [ofSelf] at hm
    split at hm
    · next type _ =>
      obtain ⟨⟨_, isPublic⟩, hmem, rfl⟩ := List.mem_map.mp hm
      exact mem_methodModules_iff.mpr ⟨type, isPublic, mem_methodsOf_iff.mp hmem⟩
    · simp at hm
  split at h
  · next hhere =>
    cases h
    exact hmethod (hofSelf here (by simpa using hhere))
  split at h
  · next m hm =>
    cases h
    exact hmethod (hofSelf m (mem_of_leastText? hm))
  split at h
  · next hhere =>
    cases h
    exact hmethod (by simpa using hhere)
  split at h
  · next m hm =>
    cases h
    exact hmethod (mem_of_only? hm)
  split at h
  · cases h
  · obtain ⟨m, hm, rfl⟩ := Option.map_eq_some_iff.mp h
    exact ⟨_, mem_traitModules_iff.mp (mem_of_only? hm), rfl⟩

end Index

end CallAtlas
