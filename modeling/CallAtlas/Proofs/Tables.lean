import CallAtlas.Proofs.NestedModules
import Mathlib.Data.Finset.Card
import Mathlib.Data.List.Induction
import Mathlib.Data.Set.Lattice

/-!
# The tables behind an index

An index looks names up in the list of its declarations. The same can be had by four tables that
are filled as the declarations come, each with entries for the keys that something has been entered
under: the scopes of modules, the modules of methods by the name of the method, those of the methods
of traits, and those of methods by their type and name. Entries are made when they are first needed,
in different branches of one recursion, so it has to be shown that the tables agree in the end.

They do. A look-up in the index finds what stands in the table (`Tables.Represents`), the two tables
of methods hold the same modules, no set in them is empty, and all modules that are named have a
scope of their own (`Tables.Consistent`).

## Main definitions

* `Tables`, `Tables.add`, `Tables.ofProgram` — the tables, filled declaration by declaration.
* `Tables.Represents` — the tables hold what an index finds.
* `Tables.Consistent` — the tables agree with each other.

## Main results

* `Tables.represents_ofProgram` — look-ups.
* `Tables.consistent_ofProgram` — how the tables of a program agree.
* `Tables.faithful_and_consistent` — both, and where the modules with a scope lie.
-/

namespace CallAtlas

/-! ### Methods of traits -/

/-- A method of a trait is a method. -/
theorem Declaration.exists_method_of_traitMethod {p : Program} {m name : String}
    (h : .traitMethod m name ∈ ofProgram p) :
    ∃ type isPublic, .method m type name isPublic ∈ ofProgram p := by
  rcases mem_ofProgram_iff.mp h with
    ⟨_, -, heq⟩ | ⟨u, -, hcrate | heq⟩ | ⟨path, item, hindexed, hown⟩
  · cases heq
  · simp [crateOf] at hcrate
  · cases heq
  have hmethod : ∃ type isPublic, .method m type name isPublic ∈ own path item := by
    cases item with
    | trait isPublic type parts members =>
      obtain ⟨member, hmember, hown⟩ : ∃ member ∈ members,
          Declaration.traitMethod m name ∈ ofTraitMember path type.text isPublic member := by
        simpa [own] using hown
      refine ⟨type.text, isPublic, List.mem_cons_of_mem _ ?_⟩
      refine List.mem_flatMap.mpr ⟨member, hmember, ?_⟩
      cases member with
      | function isPublic' found =>
        obtain ⟨rfl, rfl⟩ : m = modulePath path ∧ name = found.name.text := by
          simpa [ofTraitMember] using hown
        exact List.mem_cons_self
      | required name' parts' =>
        obtain ⟨rfl, rfl⟩ : m = modulePath path ∧ name = name'.text := by
          simpa [ofTraitMember] using hown
        exact List.mem_cons_self
      | other parts' => simp [ofTraitMember] at hown
    | impl form ofTrait parts members =>
      rw [own] at hown
      split at hown
      · obtain ⟨member, -, hown⟩ := List.mem_flatMap.mp hown
        cases member <;> simp [ofImplMember] at hown
      · simp at hown
    | use tree parts => cases ofUse_of_mem_ofUseTree identifiers_nil hown
    | externCrate name newName parts => cases ofImport_of_mem_ofExternCrate hown
    | _ => simp [own] at hown
  obtain ⟨type, isPublic, hmethod⟩ := hmethod
  exact ⟨type, isPublic, mem_ofProgram_iff.mpr (Or.inr (Or.inr ⟨path, item, hindexed, hmethod⟩))⟩

/-! ### Tables with entries on demand -/

section Revise

variable {κ α : Type} [DecidableEq κ]

/-- A table with a change to what stands under a key. A key without an entry gets a fresh one. -/
def revise (table : κ → Option α) (key : κ) (fresh : α) (change : α → α) : κ → Option α :=
  Function.update table key (some (change ((table key).getD fresh)))

theorem revise_self (table : κ → Option α) (key : κ) (fresh : α) (change : α → α) :
    revise table key fresh change key = some (change ((table key).getD fresh)) :=
  Function.update_self ..

theorem revise_of_ne {key other : κ} (h : other ≠ key) (table : κ → Option α) (fresh : α)
    (change : α → α) : revise table key fresh change other = table other :=
  Function.update_of_ne h ..

end Revise

/-- The scope of a module that declares nothing. -/
def ModuleScope.empty : ModuleScope :=
  ⟨[], [], [], [], []⟩

/-- The module whose scope a declaration changes, and how. -/
def Declaration.change? : Declaration → Option (String × (ModuleScope → ModuleScope))
  | .module m => some (m, id)
  | .function m name isPublic =>
    some (m, fun s => { s with functions := s.functions ++ [(name, isPublic)] })
  | .type m name => some (m, fun s => { s with types := s.types ++ [name] })
  | .submodule m name => some (m, fun s => { s with modules := s.modules ++ [name] })
  | .imported m newName path =>
    some (m, fun s => { s with imports := s.imports ++ [(newName, path)] })
  | .glob m path => some (m, fun s => { s with globs := s.globs ++ [path] })
  | .crate _ | .externCrate _ | .method .. | .traitMethod .. => none

/-- The tables by which names are looked up. -/
structure Tables where
  /-- The scopes of modules. -/
  modules : String → Option ModuleScope := fun _ => none
  /-- The modules that declare a method of a name. -/
  methods : String → Option (Finset String) := fun _ => none
  /-- The modules that declare a trait with a method of a name. -/
  traits : String → Option (Finset String) := fun _ => none
  /-- The modules that declare a method for a type, by the names of both, and whether other crates
  can call it. -/
  typeMethods : String × String → Option (String → Option Bool) := fun _ => none

namespace Tables

/-- The modules of a method, with one more or with another visibility. -/
def assign (entry : String → Option Bool) (x : String × Bool) : String → Option Bool :=
  Function.update entry x.1 (some x.2)

/-- The tables with one declaration more. -/
def add (T : Tables) (d : Declaration) : Tables :=
  match d with
  | .method m type name isPublic =>
    { T with
      methods := revise T.methods name ∅ (insert m)
      typeMethods := revise T.typeMethods (type, name) (fun _ => none) (assign · (m, isPublic)) }
  | .traitMethod m name => { T with traits := revise T.traits name ∅ (insert m) }
  | d =>
    match d.change? with
    | some (m, change) => { T with modules := revise T.modules m .empty change }
    | none => T

/-- The tables of some declarations. -/
def ofDeclarations (ds : List Declaration) : Tables :=
  ds.foldl add {}

/-- The tables of a program. -/
def ofProgram (p : Program) : Tables :=
  ofDeclarations (Declaration.ofProgram p)

theorem ofDeclarations_concat (ds : List Declaration) (d : Declaration) :
    ofDeclarations (ds ++ [d]) = (ofDeclarations ds).add d :=
  List.foldl_concat ..

/-! ### What the tables hold -/

section Entries

variable {α β : Type}

/-- The entry that some changes leave under a key. Without any there is none. -/
def entryOf (fresh : α) (change : α → β → α) (bs : List β) : Option α :=
  if bs = [] then none else some (bs.foldl change fresh)

theorem getD_entryOf (fresh : α) (change : α → β → α) (bs : List β) :
    (entryOf fresh change bs).getD fresh = bs.foldl change fresh := by
  rw [entryOf]
  split
  · next h => rw [h, Option.getD_none, List.foldl_nil]
  · rfl

theorem entryOf_concat (fresh : α) (change : α → β → α) (bs : List β) (b : β) :
    entryOf fresh change (bs ++ [b]) = some (change ((entryOf fresh change bs).getD fresh) b) := by
  rw [entryOf, if_neg (by simp), List.foldl_concat, getD_entryOf]

/-- What stands under a key is what the declarations have entered there, if each of them changes it
by what `f` makes of the declaration, or else leaves it as it is. -/
theorem ofDeclarations_entry {r : Tables → Option α} {f : Declaration → Option β} {fresh : α}
    {change : α → β → α} (hempty : r {} = none)
    (hadd : ∀ T d, r (T.add d) = (f d).elim (r T) fun b => some (change ((r T).getD fresh) b))
    (ds : List Declaration) :
    r (ofDeclarations ds) = entryOf fresh change (ds.filterMap f) := by
  induction ds using List.reverseRecOn with
  | nil => exact hempty
  | append_singleton ds d ih =>
    rw [ofDeclarations_concat, hadd, ih, List.filterMap_append]
    cases hd : f d with
    | none => simp [hd]
    | some b => simp [hd, entryOf_concat]

end Entries

theorem methods_ofDeclarations (ds : List Declaration) (name : String) :
    (ofDeclarations ds).methods name =
      entryOf ∅ (fun s m => insert m s) (Index.methodModules ⟨ds⟩ name) := by
  refine ofDeclarations_entry (r := fun T => T.methods name) rfl (fun T d => ?_) ds
  cases d with
  | method m type name' isPublic =>
    by_cases h : name' = name
    · subst h
      simp [add, revise_self]
    · simp [add, revise_of_ne (Ne.symm h), h]
  | _ => rfl

theorem traits_ofDeclarations (ds : List Declaration) (name : String) :
    (ofDeclarations ds).traits name =
      entryOf ∅ (fun s m => insert m s) (Index.traitModules ⟨ds⟩ name) := by
  refine ofDeclarations_entry (r := fun T => T.traits name) rfl (fun T d => ?_) ds
  cases d with
  | traitMethod m name' =>
    by_cases h : name' = name
    · subst h
      simp [add, revise_self]
    · simp [add, revise_of_ne (Ne.symm h), h]
  | _ => rfl

theorem typeMethods_ofDeclarations (ds : List Declaration) (type name : String) :
    (ofDeclarations ds).typeMethods (type, name) =
      entryOf (fun _ => none) assign (Index.methodsOf ⟨ds⟩ type name) := by
  refine ofDeclarations_entry (r := fun T => T.typeMethods (type, name)) rfl (fun T d => ?_) ds
  cases d with
  | method m type' name' isPublic =>
    by_cases h : type' = type ∧ name' = name
    · obtain ⟨rfl, rfl⟩ := h
      simp [add, revise_self]
    · have hne : (type, name) ≠ (type', name') := by
        simpa [eq_comm] using h
      simp [add, revise_of_ne hne, h]
  | _ => rfl

/-- The change that a declaration makes to the scope of a module, if it makes one. -/
def changeOf? (m : String) (d : Declaration) : Option (ModuleScope → ModuleScope) :=
  d.change?.bind fun x => if x.1 = m then some x.2 else none

theorem modules_ofDeclarations (ds : List Declaration) (m : String) :
    (ofDeclarations ds).modules m =
      entryOf .empty (fun s change => change s) (ds.filterMap (changeOf? m)) := by
  refine ofDeclarations_entry (r := fun T => T.modules m) rfl (fun T d => ?_) ds
  have hmodules : (T.add d).modules =
      d.change?.elim T.modules fun x => revise T.modules x.1 .empty x.2 := by
    cases d <;> rfl
  rw [hmodules, changeOf?]
  cases d.change? with
  | none => rfl
  | some x =>
    by_cases h : x.1 = m
    · subst h
      simp [revise_self]
    · simp [h, revise_of_ne (Ne.symm h)]

/-! ### Look-ups -/

/-- Modules that are entered one by one are a set in the end. -/
theorem foldl_insert (modules : List String) : ∀ s : Finset String,
    modules.foldl (fun s m => insert m s) s = s ∪ modules.toFinset := by
  induction modules with
  | nil => simp
  | cons m rest ih =>
    intro s
    rw [List.foldl_cons, ih, List.toFinset_cons, Finset.union_insert, Finset.insert_union]

/-- Of the visibilities that are assigned for a module the last one counts. -/
theorem foldl_assign (entries : List (String × Bool)) :
    entries.foldl assign (fun _ => none) = fun m => lookupLast m entries := by
  induction entries using List.reverseRecOn with
  | nil => rfl
  | append_singleton entries x ih =>
    funext m
    rw [List.foldl_concat, ih, lookupLast, List.reverse_concat, List.lookup_cons]
    by_cases h : m = x.1
    · subst h
      simp [assign]
    · rw [assign, Function.update_of_ne h, beq_false_of_ne h]
      rfl

/-- The changes to a scope add up to what an index says of the module. -/
theorem foldl_changes (m : String) (ds : List Declaration) : ∀ s : ModuleScope,
    (ds.filterMap (changeOf? m)).foldl (fun s change => change s) s =
      ⟨s.functions ++ Index.functions ⟨ds⟩ m, s.types ++ Index.types ⟨ds⟩ m,
        s.modules ++ Index.submodules ⟨ds⟩ m, s.imports ++ Index.imports ⟨ds⟩ m,
        s.globs ++ Index.globs ⟨ds⟩ m⟩ := by
  induction ds with
  | nil =>
    intro s
    simp [Index.functions, Index.types, Index.submodules, Index.imports, Index.globs]
  | cons d rest ih =>
    intro s
    have hrest : ∀ {β : Type} (f : Declaration → Option β),
        (d :: rest).filterMap f = (f d).toList ++ rest.filterMap f := by
      intro β f
      cases hd : f d <;> simp [hd]
    simp only [Index.functions, Index.types, Index.submodules, Index.imports, Index.globs] at ih ⊢
    simp only [hrest, List.foldl_append]
    cases d with
    | module m' | function m' | type m' | submodule m' | imported m' | glob m' =>
      by_cases h : m' = m <;> simp [changeOf?, Declaration.change?, h, ih]
    | _ => simp [changeOf?, Declaration.change?, ih]

/-! ### The tables of a program -/

/-- Tables that hold what an index finds: a look-up in the list of declarations gives what stands
under the key, and nothing where there is no entry. -/
structure Represents (T : Tables) (i : Index) : Prop where
  /-- Scopes of modules. -/
  modules : ∀ m, T.modules m = i.scope? m
  /-- Modules of methods. -/
  methods : ∀ name, T.methods name =
    if i.methodModules name = [] then none else some (i.methodModules name).toFinset
  /-- Modules of methods of traits. -/
  traits : ∀ name, T.traits name =
    if i.traitModules name = [] then none else some (i.traitModules name).toFinset
  /-- Modules of methods of types. -/
  typeMethods : ∀ type name, T.typeMethods (type, name) =
    if i.methodsOf type name = [] then none
    else some fun m => lookupLast m (i.methodsOf type name)

/-- A declaration that changes the scope of a module stands in its tables, or is the module. -/
theorem home_of_changeOf? {m : String} {d : Declaration} {change : ModuleScope → ModuleScope}
    (h : changeOf? m d = some change) : d.home? = some m ∨ d = .module m := by
  cases d with
  | module m' =>
    obtain ⟨rfl, -⟩ : m' = m ∧ _ := by simpa [changeOf?, Declaration.change?] using h
    exact Or.inr rfl
  | function m' | type m' | submodule m' | imported m' | glob m' =>
    obtain ⟨rfl, -⟩ : m' = m ∧ _ := by simpa [changeOf?, Declaration.change?] using h
    exact Or.inl rfl
  | _ => simp [changeOf?, Declaration.change?] at h

/-- A module has a scope of its own just if it is known. -/
theorem changes_eq_nil_iff (p : Program) (m : String) :
    (Declaration.ofProgram p).filterMap (changeOf? m) = [] ↔
      (Index.ofProgram p).hasModule m = false := by
  rw [← Bool.not_eq_true, List.filterMap_eq_nil_iff]
  constructor
  · intro h hmodule
    have hmem : .module m ∈ Declaration.ofProgram p := by
      simpa [Index.hasModule, Index.ofProgram] using hmodule
    simpa [changeOf?, Declaration.change?] using h _ hmem
  · intro h d hd
    cases hchange : changeOf? m d with
    | none => rfl
    | some change =>
      rcases home_of_changeOf? hchange with hhome | rfl
      · exact absurd (Program.hasModule_of_home hd hhome) h
      · exact absurd (Program.hasModule_of_mem hd) h

/-- **Look-ups.** The tables of a program hold what its index finds. -/
theorem represents_ofProgram (p : Program) : (ofProgram p).Represents (Index.ofProgram p) where
  modules m := by
    rw [ofProgram, modules_ofDeclarations, entryOf, foldl_changes, Index.scope?]
    simp only [changes_eq_nil_iff]
    cases (Index.ofProgram p).hasModule m <;> rfl
  methods name := by
    rw [ofProgram, methods_ofDeclarations, entryOf, foldl_insert, Finset.empty_union]
    rfl
  traits name := by
    rw [ofProgram, traits_ofDeclarations, entryOf, foldl_insert, Finset.empty_union]
    rfl
  typeMethods type name := by
    rw [ofProgram, typeMethods_ofDeclarations, entryOf, foldl_assign]
    rfl

/-! ### How the tables agree -/

/-- The modules in the entry for a method. -/
def methodSet (T : Tables) (name : String) : Set String :=
  {m | ∃ entry, T.methods name = some entry ∧ m ∈ entry}

/-- The modules in the entry for a method of a trait. -/
def traitSet (T : Tables) (name : String) : Set String :=
  {m | ∃ entry, T.traits name = some entry ∧ m ∈ entry}

/-- The modules in the entry for a method of a type. -/
def typeMethodSet (T : Tables) (type name : String) : Set String :=
  {m | ∃ entry, T.typeMethods (type, name) = some entry ∧ (entry m).isSome}

/-- Tables that agree with each other. -/
structure Consistent (T : Tables) : Prop where
  /-- The modules of a method are those of the methods of this name of all types. -/
  methods_eq : ∀ name, T.methodSet name = ⋃ type, T.typeMethodSet type name
  /-- No entry for a method is empty. -/
  methods_nonempty : ∀ name entry, T.methods name = some entry → entry.Nonempty
  /-- No entry for a method of a type is empty. -/
  typeMethods_nonempty : ∀ type name entry, T.typeMethods (type, name) = some entry →
    ∃ m, (entry m).isSome
  /-- The modules of a method of a trait are among those of the method. -/
  traits_subset : ∀ name, T.traitSet name ⊆ T.methodSet name
  /-- All of these modules have a scope. -/
  known : ∀ name, ∀ m ∈ T.methodSet name ∪ T.traitSet name ∪ ⋃ type, T.typeMethodSet type name,
    (T.modules m).isSome

section Represents

variable {T : Tables} {i : Index}

theorem Represents.mem_methodSet_iff (h : T.Represents i) {name m : String} :
    m ∈ T.methodSet name ↔ ∃ type isPublic, .method m type name isPublic ∈ i.declarations := by
  rw [← Index.mem_methodModules_iff, methodSet, Set.mem_ofPred_eq, h.methods]
  by_cases hnil : i.methodModules name = []
  · simp [hnil]
  · simp [hnil]

theorem Represents.mem_traitSet_iff (h : T.Represents i) {name m : String} :
    m ∈ T.traitSet name ↔ .traitMethod m name ∈ i.declarations := by
  rw [← Index.mem_traitModules_iff, traitSet, Set.mem_ofPred_eq, h.traits]
  by_cases hnil : i.traitModules name = []
  · simp [hnil]
  · simp [hnil]

theorem Represents.mem_typeMethodSet_iff (h : T.Represents i) {type name m : String} :
    m ∈ T.typeMethodSet type name ↔ ∃ isPublic, .method m type name isPublic ∈ i.declarations := by
  have hlookup : (lookupLast m (i.methodsOf type name)).isSome ↔
      ∃ isPublic, (m, isPublic) ∈ i.methodsOf type name := by
    rw [Option.isSome_iff_exists]
    exact ⟨fun ⟨isPublic, hlast⟩ => ⟨isPublic, mem_of_lookupLast hlast⟩,
      fun ⟨_, hmem⟩ => exists_lookupLast hmem⟩
  simp only [← Index.mem_methodsOf_iff, ← hlookup, typeMethodSet, Set.mem_ofPred_eq, h.typeMethods]
  by_cases hnil : i.methodsOf type name = []
  · simp [hnil, lookupLast]
  · simp [hnil]

end Represents

theorem consistent_ofProgram (p : Program) : (ofProgram p).Consistent := by
  have hrep := represents_ofProgram p
  have hmethods : ∀ name, (ofProgram p).methodSet name =
      ⋃ type, (ofProgram p).typeMethodSet type name := by
    intro name
    ext m
    simp only [Set.mem_iUnion, hrep.mem_methodSet_iff, hrep.mem_typeMethodSet_iff]
  have htraits : ∀ name, (ofProgram p).traitSet name ⊆ (ofProgram p).methodSet name := by
    intro name m hm
    rw [hrep.mem_methodSet_iff]
    exact Declaration.exists_method_of_traitMethod (hrep.mem_traitSet_iff.mp hm)
  refine ⟨hmethods, ?_, ?_, htraits, ?_⟩
  · intro name entry hentry
    rw [hrep.methods] at hentry
    split at hentry
    · cases hentry
    · next hne =>
      obtain rfl := Option.some.inj hentry
      exact List.toFinset_nonempty_iff _ |>.mpr hne
  · intro type name entry hentry
    rw [hrep.typeMethods] at hentry
    split at hentry
    · cases hentry
    · next hne =>
      obtain ⟨x, hx⟩ := List.exists_mem_of_ne_nil _ hne
      obtain ⟨last, hlast⟩ := exists_lookupLast hx
      obtain rfl := Option.some.inj hentry
      exact ⟨x.1, Option.isSome_iff_exists.mpr ⟨last, hlast⟩⟩
  · intro name m hm
    rw [← hmethods, Set.union_assoc, Set.union_eq_self_of_subset_left (htraits name),
      Set.union_self, hrep.mem_methodSet_iff] at hm
    obtain ⟨type, isPublic, hd⟩ := hm
    rw [hrep.modules, Index.scope?_of_hasModule (Program.hasModule_of_home hd rfl)]
    rfl

/-- **The tables of a program agree.** They hold what the index of the program finds; they agree
with each other; and every module that has a scope is that of a file, or lies below one at the end
of modules in braces, each of which is listed in the scope of the module around it. -/
theorem faithful_and_consistent (p : Program) :
    (ofProgram p).Represents (Index.ofProgram p) ∧ (ofProgram p).Consistent ∧
      ∀ key scope, (ofProgram p).modules key = some scope →
        ∃ u ∈ p.units, ∃ names, key = modulePath (u.module ++ names) ∧
          ∀ before name, before ++ [name] <+: names →
            Program.Inline ⟨[u], []⟩ (u.module ++ before) name ∧
              ∃ around, (ofProgram p).modules (modulePath (u.module ++ before)) = some around ∧
                name ∈ around.modules := by
  have hrep := represents_ofProgram p
  refine ⟨hrep, consistent_ofProgram p, fun key scope hscope => ?_⟩
  have hmodule : (Index.ofProgram p).hasModule key = true := by
    rw [hrep.modules, Index.scope?] at hscope
    split at hscope
    · assumption
    · cases hscope
  obtain ⟨u, hu, names, rfl, hnested⟩ := Program.exists_nested_of_hasModule hmodule
  refine ⟨u, hu, names, rfl, fun before name hprefix => ?_⟩
  have hinline : p.Inline (u.module ++ before) name := (hnested before name hprefix).mono hu
  have haround := (hrep.modules _).trans (Index.scope?_of_hasModule hinline.hasModule_around)
  exact ⟨hnested before name hprefix, _, haround, hinline.mem_submodules⟩

end Tables

end CallAtlas
