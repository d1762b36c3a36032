import CallAtlas.Proofs.Following

/-!
# Indexes that agree

Two indexes may differ and still resolve a call alike: all that counts is what a search looks at. It
looks at modules, crates and methods that paths lead to from where the call stands. Here this is
told by two predicates, one for the paths that a search meets and one for the names that it asks for
as crates. Indexes that agree on these resolve all paths alike that start from them.

## Main definitions

* `Index.Agree` — two indexes agree on paths and names that a search may meet.

## Main results

* `Index.Agree.absolutize_eq`, `Index.Agree.locate_eq` — the two halves of a search.
* `Index.Agree.resolvePath_eq` — calls by a path.
-/

namespace CallAtlas

/-! ### What tables depend on -/

theorem foldl_least_le (rest : List String) : ∀ least : String,
    let found := rest.foldl (fun a b => if b < a then b else a) least
    found ≤ least ∧ ∀ text ∈ rest, found ≤ text := by
  induction rest with
  | nil => exact fun least => ⟨String.le_refl least, by simp⟩
  | cons next rest ih =>
    intro least
    rw [List.foldl_cons]
    obtain ⟨hfound, hrest⟩ := ih (if next < least then next else least)
    have hmin : (if next < least then next else least) ≤ next ∧
        (if next < least then next else least) ≤ least := by
      split
      · next h => exact ⟨String.le_refl next, String.not_lt.mp (String.lt_asymm h)⟩
      · next h => exact ⟨String.not_lt.mp h, String.le_refl least⟩
    refine ⟨String.le_trans hfound hmin.2, List.forall_mem_cons.mpr ⟨?_, hrest⟩⟩
    exact String.le_trans hfound hmin.1

theorem leastText?_eq_some_iff {texts : List String} {text : String} :
    leastText? texts = some text ↔ text ∈ texts ∧ ∀ other ∈ texts, text ≤ other := by
  have hleast : ∀ {found}, leastText? texts = some found → ∀ other ∈ texts, found ≤ other := by
    intro found h
    cases texts with
    | nil => simp
    | cons first rest =>
      obtain rfl := Option.some.inj h
      exact List.forall_mem_cons.mpr (foldl_least_le rest first)
  refine ⟨fun h => ⟨mem_of_leastText? h, hleast h⟩, fun ⟨hmem, hle⟩ => ?_⟩
  obtain ⟨found, hfound⟩ : ∃ found, leastText? texts = some found := by
    cases texts with
    | nil => simp at hmem
    | cons first rest => exact ⟨_, rfl⟩
  rw [hfound, String.le_antisymm (hleast hfound text hmem) (hle found (mem_of_leastText? hfound))]

/-- The least of some texts depends on which there are only. -/
theorem leastText?_congr {texts others : List String} (h : ∀ text, text ∈ texts ↔ text ∈ others) :
    leastText? texts = leastText? others :=
  Option.ext fun text => by simp only [leastText?_eq_some_iff, h]

theorem contains_congr {texts others : List String} (h : ∀ text, text ∈ texts ↔ text ∈ others)
    (text : String) : texts.contains text = others.contains text := by
  rw [Bool.eq_iff_iff, List.contains_iff_mem, List.contains_iff_mem, h]

theorem lookup_filter {α : Type} (key : String) (entries : List (String × α)) :
    (entries.filter (·.1 == key)).lookup key = entries.lookup key := by
  induction entries with
  | nil => rfl
  | cons entry rest ih =>
    obtain ⟨k, value⟩ := entry
    by_cases hk : k = key
    · simp [hk]
    · have hne : (key == k) = false := by simpa using Ne.symm hk
      simp [hk, ih, List.lookup_cons, hne]

/-- The last entry for a key depends on the entries for this key only. -/
theorem lookupLast_congr {α : Type} {key : String} {entries others : List (String × α)}
    (h : entries.filter (·.1 == key) = others.filter (·.1 == key)) :
    lookupLast key entries = lookupLast key others := by
  rw [lookupLast, lookupLast, ← lookup_filter, ← lookup_filter key others.reverse,
    List.filter_reverse, List.filter_reverse, h]

namespace Index

theorem only?_eq_some_iff {texts : List String} {text : String} :
    only? texts = some text ↔ text ∈ texts ∧ ∀ other ∈ texts, other = text := by
  cases texts with
  | nil => simp [only?]
  | cons first rest =>
    have hall : (rest.all (· == first)) = true ↔ ∀ other ∈ rest, other = first := by simp
    constructor
    · intro h
      rw [only?] at h
      split at h
      · next hsame =>
        obtain rfl := Option.some.inj h
        exact ⟨List.mem_cons_self, List.forall_mem_cons.mpr ⟨rfl, hall.mp hsame⟩⟩
      · cases h
    · rintro ⟨-, hsame⟩
      obtain ⟨rfl, hrest⟩ := List.forall_mem_cons.mp hsame
      rw [only?, if_pos (hall.mpr hrest)]

theorem only?_congr {texts others : List String} (h : ∀ text, text ∈ texts ↔ text ∈ others) :
    only? texts = only? others :=
  Option.ext fun text => by simp only [only?_eq_some_iff, h]

end Index

/-! ### What the tables of a module hold -/

/-- The module in whose tables a declaration stands. -/
def Declaration.home? : Declaration → Option String
  | .function m _ _ | .type m _ | .submodule m _ | .imported m _ _ | .glob m _ | .method m _ _ _
  | .traitMethod m _ => some m
  | .crate _ | .externCrate _ | .module _ => none

/-- What stands in the tables of a module is declared by an item in it. -/
theorem Declaration.exists_indexed_of_home {p : Program} {d : Declaration} {m : String}
    (hd : d ∈ ofProgram p) (hm : d.home? = some m) :
    ∃ path item, p.Indexed path item ∧ m = modulePath path := by
  rcases exists_owned hd with ⟨path, item, hindexed, howned⟩ | ⟨_, rfl⟩ | ⟨_, rfl⟩ | ⟨_, rfl⟩
  · refine ⟨path, item, hindexed, ?_⟩
    cases howned with
    | imports himport => cases himport <;> cases hm <;> rfl
    | module => cases hm
    | _ =>
      cases hm
      rfl
  all_goals cases hm

namespace Index

variable {i j : Index} {m : String}

/-- What a module declares. -/
def declaredIn (i : Index) (m : String) : List Declaration :=
  i.declarations.filter (·.home? == some m)

/-- A table that lists declarations of a module depends on what it declares. -/
theorem filterMap_declaredIn {β : Type} {f : Declaration → Option β}
    (hf : ∀ d, d.home? ≠ some m → f d = none) :
    (i.declaredIn m).filterMap f = i.declarations.filterMap f := by
  rw [declaredIn, List.filterMap_filter]
  congr 1
  funext d
  split
  · rfl
  · next h => exact (hf d (by simpa using h)).symm

theorem filterMap_eq_of_declaredIn (h : i.declaredIn m = j.declaredIn m) {β : Type}
    {f : Declaration → Option β} (hf : ∀ d, d.home? ≠ some m → f d = none) :
    i.declarations.filterMap f = j.declarations.filterMap f := by
  rw [← filterMap_declaredIn hf, h, filterMap_declaredIn hf]

/-- A module offers the same names if it declares the same. -/
theorem scope?_eq_of_declaredIn (hmodule : i.hasModule m = j.hasModule m)
    (h : i.declaredIn m = j.declaredIn m) : i.scope? m = j.scope? m := by
  rw [scope?, scope?, hmodule]
  split
  · congr 2
    all_goals
      refine filterMap_eq_of_declaredIn h fun d hd => ?_
      cases d <;> simp_all [Declaration.home?]
  · rfl

theorem mem_map_methodsOf_iff {type name : String} :
    m ∈ (i.methodsOf type name).map Prod.fst ↔
      ∃ isPublic, .method m type name isPublic ∈ i.declarations := by
  simp only [List.mem_map, Prod.exists, exists_and_right, exists_eq_right, mem_methodsOf_iff]

/-- The last declaration of a method in a module is the same if the module declares the same. -/
theorem lookupLast_methodsOf_eq (h : i.declaredIn m = j.declaredIn m) (type name : String) :
    lookupLast m (i.methodsOf type name) = lookupLast m (j.methodsOf type name) := by
  refine lookupLast_congr ?_
  rw [methodsOf, methodsOf, List.filter_filterMap, List.filter_filterMap]
  refine filterMap_eq_of_declaredIn h fun d hd => ?_
  cases d with
  | method m' type' name' isPublic =>
    have hne : m' ≠ m := by simpa [Declaration.home?] using hd
    dsimp only
    split
    · simp [hne]
    · rfl
  | _ => rfl

end Index

/-! ### Searches that meet the same -/

namespace Index

/-- Two indexes agree on the paths `Known` from a crate root and on the names `S` of crates, and a
search in the first that starts from such paths and names meets no others. -/
structure Agree (i j : Index) (Known : List String → Prop) (S : String → Prop) : Prop where
  /-- Their modules declare the same. -/
  scope : ∀ {module}, Known module → i.scope? (modulePath module) = j.scope? (modulePath module)
  /-- The same crates are loaded. -/
  crate : ∀ {root rest}, Known (root :: rest) → i.hasCrate root = j.hasCrate root
  /-- The same crates are known. -/
  global : ∀ {name}, S name → i.knows name = j.knows name
  /-- The methods of their types are the same. -/
  associated : ∀ {module type name fromCrate}, Known module → type ∈ i.types (modulePath module) →
    i.associated (modulePath module) type name fromCrate =
      j.associated (modulePath module) type name fromCrate
  /-- Imports ask for such names. -/
  imports : ∀ {m name target}, (name, target) ∈ i.imports m → ∀ n ∈ target.head?, S n
  /-- So do glob imports. -/
  globs : ∀ {m target}, target ∈ i.globs m → ∀ n ∈ target.head?, S n
  /-- The root of a known path is known. -/
  root : ∀ {root rest}, Known (root :: rest) → Known [root]
  /-- A longer path is known. -/
  append : ∀ {path} (rest), Known path → Known (path ++ rest)
  /-- What a path stands for is known. -/
  standsFor : ∀ {module selfType fromUse path result}, Known module →
    i.StandsFor module selfType fromUse path result →
      (fromUse = true → ∀ n ∈ path.head?, S n) → Known result

namespace Agree

variable {i j : Index} {Known : List String → Prop} {S : String → Prop} {module : List String}

theorem declares_eq (h : Agree i j Known S) (hmodule : Known module) (name : String) :
    i.declares (modulePath module) name = j.declares (modulePath module) name := by
  rw [declares, declares, h.scope hmodule]

theorem globalPath_eq {name : String} (h : i.knows name = j.knows name) (fromUse : Bool)
    (segments : List String) :
    i.globalPath fromUse name segments = j.globalPath fromUse name segments := by
  rw [knows, knows] at h
  rw [globalPath, globalPath, h]

/-- Glob imports lead to the same path if they stand for the same paths and those are known. -/
theorem globDeclaring_eq (h : Agree i j Known S) (name : String)
    {bases : List (Option (List String))} (hbases : ∀ base ∈ bases, ∀ path ∈ base, Known path) :
    i.globDeclaring module name bases = j.globDeclaring module name bases := by
  induction bases with
  | nil => rfl
  | cons base rest ih =>
    have hfilter : (base.filter fun path => path != module && i.declares (modulePath path) name) =
        base.filter fun path => path != module && j.declares (modulePath path) name := by
      cases base with
      | none => rfl
      | some path =>
        rw [Option.filter_some, Option.filter_some,
          h.declares_eq (hbases (some path) List.mem_cons_self path rfl)]
    have hrest := ih fun base hbase => hbases base (List.mem_cons_of_mem _ hbase)
    rw [globDeclaring, globDeclaring] at hrest ⊢
    rw [List.findSome?_cons, List.findSome?_cons, hfilter, hrest]

/-- Glob imports are treated alike by functions that treat paths alike. -/
theorem map_globs_eq (h : Agree i j Known S) {f g : List String → Option (List String)}
    (hfg : ∀ {path}, (∀ n ∈ path.head?, i.knows n = j.knows n) → f path = g path) (m : String) :
    (i.globs m).map f = (i.globs m).map g :=
  List.map_congr_left fun _ htarget => hfg fun n hn => h.global (h.globs htarget n hn)

/-- What the glob imports of a module stand for is known. -/
theorem known_of_globs (h : Agree i j Known S) (hmodule : Known module) (steps : Nat) :
    ∀ base ∈ (i.globs (modulePath module)).map (i.absolutize steps module none true),
      ∀ path ∈ base, Known path := by
  intro base hbase path hpath
  obtain ⟨target, htarget, rfl⟩ := List.mem_map.mp hbase
  exact h.standsFor hmodule (standsFor_of_absolutize hpath) fun _ => h.globs htarget

/-- A module makes the same of a name. The hypothesis is the one for fewer steps. -/
theorem fromModule_eq (h : Agree i j Known S) (hmodule : Known module) {steps : Nat}
    (ih : ∀ {path}, (∀ n ∈ path.head?, i.knows n = j.knows n) →
      i.absolutize steps module none true path = j.absolutize steps module none true path)
    (first : String) (rest : List String) :
    i.fromModule steps module first rest = j.fromModule steps module first rest := by
  rw [fromModule, fromModule, ← h.scope hmodule]
  refine Option.bind_congr fun names hnames => ?_
  obtain rfl := eq_of_scope? hnames
  split
  · rfl
  congr 1
  · refine Option.bind_congr fun target htarget => ?_
    rw [ih fun n hn => h.global (h.imports (mem_of_lookupLast htarget) n hn)]
  · rw [← h.map_globs_eq ih, h.globDeclaring_eq first (h.known_of_globs hmodule steps)]

/-- Paths stand for the same. -/
theorem absolutize_eq (h : Agree i j Known S) (hmodule : Known module) (steps : Nat) :
    ∀ {selfType : Option (List String)} {fromUse : Bool} {path : List String},
      (∀ type ∈ selfType, ∀ n ∈ type.head?, i.knows n = j.knows n) →
      (∀ n ∈ path.head?, i.knows n = j.knows n) →
      i.absolutize steps module selfType fromUse path =
        j.absolutize steps module selfType fromUse path := by
  induction steps with
  | zero =>
    intro selfType fromUse path hself hpath
    rfl
  | succ steps ih =>
    intro selfType fromUse path hself hpath
    cases path with
    | nil => simp [absolutize, globLevels, absolutizeBy]
    | cons first rest =>
      have hglobal := globalPath_eq (hpath first rfl) fromUse (first :: rest)
      have hmodule' := h.fromModule_eq hmodule (ih (by simp)) first rest
      have htype : (selfType.bind fun type =>
            (i.absolutize steps module none false type).map (· ++ rest)) =
          selfType.bind fun type =>
            (j.absolutize steps module none false type).map (· ++ rest) :=
        Option.bind_congr fun type htype => by rw [ih (by simp) (hself type htype)]
      rw [absolutize_succ_cons, absolutize_succ_cons, hglobal, hmodule', htype]

/-! ### From a crate root to a function -/

/-- Imports send a path to the same place. -/
theorem redirect_eq (h : Agree i j Known S) (hmodule : Known module) {steps : Nat}
    {next next' : List String → Option Symbol}
    (hnext : ∀ {path}, Known path → next path = next' path)
    {scope : ModuleScope} (hscope : i.scope? (modulePath module) = some scope) (name : String)
    (rest : List String) :
    i.redirect steps next module scope name rest =
      j.redirect steps next' module scope name rest := by
  obtain rfl := eq_of_scope? hscope
  have habsolutize : ∀ {target : List String}, (∀ n ∈ target.head?, i.knows n = j.knows n) →
      i.absolutize steps module none true target = j.absolutize steps module none true target :=
    h.absolutize_eq hmodule steps (by simp)
  have hbases := h.known_of_globs hmodule steps
  unfold redirect
  dsimp only
  split
  · next target htarget =>
    have htargets := h.imports (mem_of_lookupLast htarget)
    rw [← habsolutize fun n hn => h.global (htargets n hn)]
    refine Option.bind_congr fun path hpath => hnext (h.append rest ?_)
    exact h.standsFor hmodule (standsFor_of_absolutize hpath) fun _ => htargets
  · rw [← h.map_globs_eq habsolutize, ← h.globDeclaring_eq name hbases]
    refine Option.bind_congr fun path hpath => hnext (h.append _ ?_)
    obtain ⟨base, hbase, hfilter⟩ := List.exists_of_findSome?_eq_some hpath
    exact hbases base hbase path (Option.filter_eq_some_iff.mp hfilter).1

theorem follow_eq (h : Agree i j Known S) {fromCrate : String} {steps : Nat}
    {next next' : List String → Option Symbol}
    (hnext : ∀ {path}, Known path → next path = next' path)
    {names : List String} (hmodule : Known module) :
    i.follow fromCrate steps next module names = j.follow fromCrate steps next' module names := by
  induction names generalizing module with
  | nil => rfl
  | cons name rest ih =>
    unfold follow
    rw [← h.scope hmodule]
    split
    · rfl
    next scope hscope =>
    have hredirect : ∀ rest, i.redirect steps next module scope name rest =
        j.redirect steps next' module scope name rest := h.redirect_eq hmodule hnext hscope name
    cases rest with
    | nil =>
      dsimp only
      rw [hredirect]
    | cons method more =>
      dsimp only
      rw [ih (h.append [name] hmodule), hredirect]
      split
      · rfl
      split
      · next htype =>
        rw [eq_of_scope? hscope] at htype
        rw [h.associated hmodule (by simpa using htype)]
      · rfl

/-- Paths from a crate root arrive at the same. -/
theorem locate_eq (h : Agree i j Known S) (fromCrate : String) (steps : Nat) {path : List String}
    (hpath : Known path) : i.locate fromCrate steps path = j.locate fromCrate steps path := by
  induction steps generalizing path with
  | zero => rfl
  | succ steps ih =>
    cases path with
    | nil => rfl
    | cons root rest => rw [locate, locate, h.crate hpath, h.follow_eq ih (h.root hpath)]

/-- **Calls by a path** resolve alike. -/
theorem resolvePath_eq (h : Agree i j Known S) {s : Scope} (hmodule : Known s.module)
    {path : List String} (hself : ∀ type ∈ s.selfType, ∀ n ∈ type.head?, i.knows n = j.knows n)
    (hpath : ∀ n ∈ path.head?, i.knows n = j.knows n) :
    i.resolvePath s path = j.resolvePath s path := by
  have habsolutize : i.absolutize stepLimit s.module s.selfType false path =
      j.absolutize stepLimit s.module s.selfType false path :=
    h.absolutize_eq hmodule stepLimit hself hpath
  have hlocate : ∀ {absolute},
      i.absolutize stepLimit s.module s.selfType false path = some absolute →
      i.locate s.crate stepLimit absolute = j.locate s.crate stepLimit absolute :=
    fun habsolute => h.locate_eq s.crate stepLimit
      (h.standsFor hmodule (standsFor_of_absolutize habsolute) (by simp))
  cases path with
  | nil => rfl
  | cons first rest =>
    unfold resolvePath
    dsimp only
    split
    · next name =>
      rw [← h.declares_eq hmodule, ← habsolutize]
      split
      · rfl
      · exact Option.bind_congr fun absolute habsolute => hlocate habsolute
    · rw [← habsolutize]
      split
      · next absolute habsolute => exact hlocate habsolute
      · rfl

end Agree

/-! ### The same declarations -/

section SameDeclarations

variable {i j : Index} (hmem : ∀ d, d ∈ i.declarations ↔ d ∈ j.declarations)

include hmem

theorem mem_methodsOf_congr (type name m : String) :
    m ∈ (i.methodsOf type name).map Prod.fst ↔ m ∈ (j.methodsOf type name).map Prod.fst := by
  simp only [mem_map_methodsOf_iff, hmem]

/-- Methods of types depend on which there are and, in each module, on their order. -/
theorem associated_eq (hdeclared : ∀ m, i.declaredIn m = j.declaredIn m)
    (module type name fromCrate : String) :
    i.associated module type name fromCrate = j.associated module type name fromCrate := by
  have hmethods := mem_methodsOf_congr hmem type name
  simp only [associated, contains_congr hmethods, leastText?_congr hmethods,
    lookupLast_methodsOf_eq (hdeclared _)]

/-- **Calls of methods** depend on which declarations there are only. -/
theorem resolveMethod_eq (s : Scope) (onSelf : Bool) (name : String) :
    i.resolveMethod s onSelf name = j.resolveMethod s onSelf name := by
  have htraits : ∀ m, m ∈ i.traitModules name ↔ m ∈ j.traitModules name := by
    simp only [mem_traitModules_iff, hmem, implies_true]
  unfold resolveMethod
  extract_lets here ofSelf candidates ofSelf' candidates'
  have hofSelf : ∀ m, m ∈ ofSelf ↔ m ∈ ofSelf' := by
    intro m
    simp only [ofSelf, ofSelf']
    split
    · exact mem_methodsOf_congr hmem _ name m
    · rfl
  have hcandidates : ∀ m, m ∈ candidates ↔ m ∈ candidates' := by
    simp only [candidates, candidates', mem_methodModules_iff, hmem, implies_true]
  have hempty : candidates.isEmpty = candidates'.isEmpty := by
    rw [Bool.eq_iff_iff, List.isEmpty_iff, List.isEmpty_iff]
    simp only [List.eq_nil_iff_forall_not_mem, hcandidates]
  rw [contains_congr hofSelf, leastText?_congr hofSelf, contains_congr hcandidates,
    only?_congr hcandidates, hempty, only?_congr htraits]

/-- Indexes that hold the same declarations agree if those of each module stand in the same order. -/
theorem agree_of_declaredIn (hdeclared : ∀ m, i.declaredIn m = j.declaredIn m) :
    Agree i j (fun _ => True) fun _ => True where
  scope _ := scope?_eq_of_declaredIn (by simp [hasModule, hmem]) (hdeclared _)
  crate _ := by simp [hasCrate, hmem]
  global _ := by simp [knows, hasCrate, hasExternCrate, hmem]
  associated _ _ := associated_eq hmem hdeclared ..
  imports _ _ _ := trivial
  globs _ _ _ := trivial
  root _ := trivial
  append _ _ := trivial
  standsFor _ _ _ := trivial

end SameDeclarations

end Index

end CallAtlas
