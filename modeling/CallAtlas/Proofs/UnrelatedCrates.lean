import CallAtlas.Proofs.Agreement
import CallAtlas.Proofs.Crates
import CallAtlas.Proofs.Grounding

/-!
# Loading one more crate

A program may be loaded together with a file of a crate that it does not know. The file fills the
tables of its own modules, which no path of the program leads to. In two ways it is noticed all the
same. A crate that it declares as external is known from then on in all files. And methods are found
by the name of their type: where the module of a type does not declare a method itself, the first
module that declares it for a type of this name counts, whatever its crate.

With these two excluded, calls by a path resolve as before. Without, they may not
(`Index.resolvePath_sameTypeName`).

## Main definitions

* `Program.add` — a program with one more file.
* `Program.News` — the crates that only the file makes known.
* `Program.Unrelated` — a file that the program does not notice.

## Main results

* `Index.resolvePath_unrelated` — calls by a path in the program.
-/

namespace CallAtlas

/-- What a file declares in tables, or as a module, is in its own module or further in. -/
theorem Declaration.exists_inner_of_mem_ofUnit {u : SourceUnit} {d : Declaration} {m : String}
    (hd : d ∈ ofUnit u) (hm : d.home? = some m ∨ d = .module m) :
    ∃ inner, m = modulePath (u.module ++ inner) := by
  have hinner : ∀ {path item}, (⟨[u], []⟩ : Program).Indexed path item →
      ∃ inner, path = u.module ++ inner := by
    intro path item hindexed
    obtain ⟨v, hv, inner, rfl⟩ := hindexed.exists_unit
    obtain rfl := List.mem_singleton.mp hv
    exact ⟨_, rfl⟩
  have hmem : d ∈ ofProgram ⟨[u], []⟩ := mem_ofProgram_of_unit (List.mem_singleton.mpr rfl) hd
  rcases hm with hm | rfl
  · obtain ⟨path, item, hindexed, rfl⟩ := exists_indexed_of_home hmem hm
    obtain ⟨inner, rfl⟩ := hinner hindexed
    exact ⟨inner, rfl⟩
  · rcases mem_ofProgram_iff.mp hmem with
      ⟨_, -, h⟩ | ⟨v, hv, hcrate | h⟩ | ⟨path, item, hindexed, hown⟩
    · cases h
    · obtain ⟨_, -, h⟩ := List.mem_map.mp hcrate
      cases h
    · obtain rfl := List.mem_singleton.mp hv
      cases h
      exact ⟨[], by rw [List.append_nil]⟩
    · obtain ⟨inner, rfl⟩ := hinner hindexed
      cases owned_of_mem_own hown with
      | @module name => exact ⟨inner ++ [name.text], by rw [List.append_assoc]⟩
      | imports himport => cases himport

/-! ### Files that a program does not notice -/

namespace Program

/-- The program together with one more file, which is loaded last. -/
def add (p : Program) (u : SourceUnit) : Program where
  units := p.units ++ [u]
  externs := p.externs

/-- A crate that the file makes known and that the program does not know. -/
def News (p : Program) (u : SourceUnit) (name : String) : Prop :=
  (.crate name ∈ Declaration.ofUnit u ∨ .externCrate name ∈ Declaration.ofUnit u) ∧
    (Index.ofProgram p).knows name = false

/-- A file of another crate that the program does not notice. -/
structure Unrelated (p : Program) (u : SourceUnit) : Prop where
  /-- It belongs to a crate that the program does not know. -/
  crate : ∃ crate inner, u.module = crate :: inner ∧ isIdent crate.toList = true ∧
    (Index.ofProgram p).knows crate = false
  /-- No import of the program starts with a crate that only the file makes known. -/
  imports : ∀ {m newName : String} {target : List String},
    .imported m newName target ∈ Declaration.ofProgram p → ∀ n ∈ target.head?, ¬ p.News u n
  /-- Neither does a glob import. -/
  globs : ∀ {m : String} {target : List String},
    .glob m target ∈ Declaration.ofProgram p → ∀ n ∈ target.head?, ¬ p.News u n
  /-- A method that it declares for a type that has the name of one of the program is declared in the
  program, too: in the module of that type, or in one that comes before the module of the file. -/
  methods : ∀ {m type m' name : String} {isPublic : Bool},
    .type m type ∈ Declaration.ofProgram p → .method m' type name isPublic ∈ Declaration.ofUnit u →
    ∃ found isPublic', .method found type name isPublic' ∈ Declaration.ofProgram p ∧
      (found = m ∨ found < m')

end Program

namespace Index

open Program

variable {p : Program} {u : SourceUnit}

theorem declarations_append (p : Program) (u : SourceUnit) :
    (ofProgram (p.add u)).declarations = (ofProgram p).declarations ++ Declaration.ofUnit u := by
  simp [ofProgram, Declaration.ofProgram, add]

theorem knows_eq_of_not_news {name : String} (h : ¬ p.News u name) :
    (ofProgram p).knows name = (ofProgram (p.add u)).knows name := by
  have hnew : (ofProgram (p.add u)).knows name = true ↔
      (ofProgram p).knows name = true ∨
        (.crate name ∈ Declaration.ofUnit u ∨ .externCrate name ∈ Declaration.ofUnit u) := by
    simp [knows, hasCrate, hasExternCrate, declarations_append, or_assoc, or_left_comm]
  rw [Bool.eq_iff_iff, hnew]
  refine ⟨Or.inl, fun hknown => hknown.elim id fun hdeclared => ?_⟩
  exact eq_true_of_ne_false fun hunknown => h ⟨hdeclared, hunknown⟩

/-- A name that paths of the program may start with. -/
def Familiar (p : Program) (u : SourceUnit) (name : String) : Prop :=
  isIdent name.toList = true ∧ ¬ p.News u name

theorem rootedIn_familiar (hp : p.Identified) (hu : p.Unrelated u) :
    (ofProgram p).RootedIn (Familiar p u) where
  standard := ⟨by decide, fun ⟨_, hunknown⟩ => by
    simp [knows, hasExternCrate, ofProgram, Declaration.ofProgram, Declaration.standardCrates]
      at hunknown⟩
  known h := ⟨(rootedIn_ofProgram hp).known h, fun ⟨_, hunknown⟩ => by simp [h] at hunknown⟩
  imports htarget n hn :=
    ⟨(rootedIn_ofProgram hp).imports htarget n hn, hu.imports (mem_imports_iff.mp htarget) n hn⟩
  globs htarget n hn :=
    ⟨(rootedIn_ofProgram hp).globs htarget n hn, hu.globs (mem_globs_iff.mp htarget) n hn⟩

/-- A module of the program is none of the file. -/
theorem not_mem_ofUnit_of_familiar (hu : p.Unrelated u) {root : String} (hroot : Familiar p u root)
    (rest : List String) {d : Declaration} (hd : d ∈ Declaration.ofUnit u) :
    d.home? ≠ some (modulePath (root :: rest)) ∧ d ≠ .module (modulePath (root :: rest)) := by
  obtain ⟨crate, inner, hmodule, hcrate, hunknown⟩ := hu.crate
  have hne : root ≠ crate := by
    rintro rfl
    refine hroot.2 ⟨Or.inl ?_, hunknown⟩
    exact List.mem_append_left _ (by simp [Declaration.crateOf, hmodule])
  have hapart : ∀ {m}, d.home? = some m ∨ d = .module m → m ≠ modulePath (root :: rest) := by
    rintro m hm rfl
    obtain ⟨more, heq⟩ := Declaration.exists_inner_of_mem_ofUnit hd hm
    rw [hmodule, List.cons_append] at heq
    exact hne (head_eq_of_modulePath_eq hroot.1 hcrate heq)
  exact ⟨fun h => hapart (Or.inl h) rfl, fun h => hapart (Or.inr h) rfl⟩

theorem declaredIn_familiar (hu : p.Unrelated u) {root : String} (hroot : Familiar p u root)
    (rest : List String) :
    (ofProgram p).declaredIn (modulePath (root :: rest)) =
      (ofProgram (p.add u)).declaredIn (modulePath (root :: rest)) := by
  have hempty :
      (Declaration.ofUnit u).filter (·.home? == some (modulePath (root :: rest))) = [] := by
    refine List.filter_eq_nil_iff.mpr fun d hd => ?_
    simpa using (not_mem_ofUnit_of_familiar hu hroot rest hd).1
  rw [declaredIn, declaredIn, declarations_append, List.filter_append, hempty, List.append_nil]

/-- A module of the program in which something is declared starts with a crate of the program. -/
theorem exists_familiar_of_home (hp : p.Identified) (hunits : ∀ v ∈ p.units, v.module ≠ [])
    {d : Declaration} {m : String} (hd : d ∈ Declaration.ofProgram p) (hm : d.home? = some m) :
    ∃ root rest, m = modulePath (root :: rest) ∧ Familiar p u root := by
  obtain ⟨path, item, hindexed, rfl⟩ := Declaration.exists_indexed_of_home hd hm
  obtain ⟨v, hv, inner, rfl⟩ := hindexed.exists_unit
  obtain ⟨root, rest, hmodule⟩ := List.exists_cons_of_ne_nil (hunits v hv)
  have hroot : (ofProgram p).hasCrate root = true := hasCrate_of_unit hv (by rw [hmodule]; rfl)
  refine ⟨root, _, by rw [hmodule]; rfl, hp.isIdent_of_hasCrate hroot, ?_⟩
  rintro ⟨-, hunknown⟩
  simp [knows, hroot] at hunknown

/-! ### Methods of the types of a program -/

/-- Texts that come after others do not change the least one. -/
theorem leastText?_append {texts others : List String}
    (h : ∀ other ∈ others, ∃ text ∈ texts, text < other) :
    leastText? (texts ++ others) = leastText? texts := by
  refine Option.ext fun text => ?_
  rw [leastText?_eq_some_iff, leastText?_eq_some_iff]
  constructor
  · rintro ⟨hmem, hleast⟩
    refine ⟨(List.mem_append.mp hmem).resolve_right fun hother => ?_,
      fun other hother => hleast other (List.mem_append_left _ hother)⟩
    obtain ⟨less, hless, hlt⟩ := h text hother
    exact String.not_lt.mpr (hleast less (List.mem_append_left _ hless)) hlt
  · rintro ⟨hmem, hleast⟩
    refine ⟨List.mem_append_left _ hmem, List.forall_mem_append.mpr ⟨hleast, ?_⟩⟩
    intro other hother
    obtain ⟨less, hless, hlt⟩ := h other hother
    exact String.le_trans (hleast less hless) (String.not_lt.mp (String.lt_asymm hlt))

/-- The modules that declare a method are those of the program and then those of the file. -/
theorem map_methodsOf_add (p : Program) (u : SourceUnit) (type name : String) :
    ((ofProgram (p.add u)).methodsOf type name).map Prod.fst =
      ((ofProgram p).methodsOf type name).map Prod.fst ++
        ((⟨Declaration.ofUnit u⟩ : Index).methodsOf type name).map Prod.fst := by
  rw [methodsOf, declarations_append, List.filterMap_append, List.map_append]
  rfl

/-- Which method counts in a module of the program does not change. -/
theorem lookupLast_methodsOf_add (hp : p.Identified) (hunits : ∀ v ∈ p.units, v.module ≠ [])
    (hu : p.Unrelated u) {type name found : String}
    (hfound : found ∈ ((ofProgram p).methodsOf type name).map Prod.fst) :
    lookupLast found ((ofProgram p).methodsOf type name) =
      lookupLast found ((ofProgram (p.add u)).methodsOf type name) := by
  obtain ⟨isPublic, hd⟩ := mem_map_methodsOf_iff.mp hfound
  obtain ⟨root, rest, rfl, hroot⟩ := exists_familiar_of_home (u := u) hp hunits hd rfl
  exact lookupLast_methodsOf_eq (declaredIn_familiar hu hroot rest) type name

/-- The first module that declares a method for a type does not change, if the module of the type is
none that does. -/
theorem leastText?_methodsOf_add (hu : p.Unrelated u) {m type name : String}
    (htype : .type m type ∈ Declaration.ofProgram p)
    (hm : m ∉ ((ofProgram p).methodsOf type name).map Prod.fst) :
    leastText? (((ofProgram (p.add u)).methodsOf type name).map Prod.fst) =
      leastText? (((ofProgram p).methodsOf type name).map Prod.fst) := by
  rw [map_methodsOf_add]
  refine leastText?_append fun other hother => ?_
  obtain ⟨isPublic, hd⟩ := mem_map_methodsOf_iff.mp hother
  obtain ⟨found, isPublic', hfound, hfirst⟩ := hu.methods htype hd
  have hmem := mem_map_methodsOf_iff.mpr ⟨isPublic', hfound⟩
  exact ⟨found, hmem, hfirst.resolve_left fun heq => hm (heq ▸ hmem)⟩

theorem associated_familiar (hp : p.Identified) (hunits : ∀ v ∈ p.units, v.module ≠ [])
    (hu : p.Unrelated u) {root : String} (hroot : Familiar p u root) {rest : List String}
    {type : String} (htype : .type (modulePath (root :: rest)) type ∈ Declaration.ofProgram p)
    (name fromCrate : String) :
    (ofProgram p).associated (modulePath (root :: rest)) type name fromCrate =
      (ofProgram (p.add u)).associated (modulePath (root :: rest)) type name fromCrate := by
  generalize hm : modulePath (root :: rest) = m at htype
  have hother : m ∉ ((⟨Declaration.ofUnit u⟩ : Index).methodsOf type name).map Prod.fst := by
    intro hmem
    obtain ⟨isPublic, hd⟩ := mem_map_methodsOf_iff.mp hmem
    exact (not_mem_ofUnit_of_familiar hu hroot rest hd).1 (congrArg some hm.symm)
  unfold associated
  dsimp only
  by_cases hhere : m ∈ ((ofProgram p).methodsOf type name).map Prod.fst
  · have hadded : m ∈ ((ofProgram (p.add u)).methodsOf type name).map Prod.fst :=
      map_methodsOf_add p u type name ▸ List.mem_append_left _ hhere
    rw [if_pos (List.contains_iff_mem.mpr hhere), if_pos (List.contains_iff_mem.mpr hadded),
      Option.bind_some, Option.bind_some, lookupLast_methodsOf_add hp hunits hu hhere]
  · have hadded : m ∉ ((ofProgram (p.add u)).methodsOf type name).map Prod.fst := by
      rw [map_methodsOf_add]
      exact fun hmem => (List.mem_append.mp hmem).elim hhere hother
    rw [if_neg (mt List.contains_iff_mem.mp hhere), if_neg (mt List.contains_iff_mem.mp hadded),
      leastText?_methodsOf_add hu htype hhere]
    refine Option.bind_congr fun found hfound => ?_
    rw [lookupLast_methodsOf_add hp hunits hu (mem_of_leastText? hfound)]

/-! ### Calls in a program -/

theorem agree_familiar (hp : p.Identified) (hunits : ∀ v ∈ p.units, v.module ≠ [])
    (hu : p.Unrelated u) :
    Agree (ofProgram p) (ofProgram (p.add u)) (Rooted (Familiar p u)) (Familiar p u) where
  scope := by
    rintro _ ⟨root, rest, rfl, hroot⟩
    refine scope?_eq_of_declaredIn ?_ (declaredIn_familiar hu hroot rest)
    have hnone : .module (modulePath (root :: rest)) ∉ Declaration.ofUnit u :=
      fun hd => (not_mem_ofUnit_of_familiar hu hroot rest hd).2 rfl
    rw [hasModule, hasModule, declarations_append]
    simp [hnone]
  crate := by
    rintro root rest ⟨_, _, heq, hroot⟩
    cases heq
    obtain ⟨crate, inner, hmodule, -, hunknown⟩ := hu.crate
    have hnone : .crate root ∉ Declaration.ofUnit u := by
      intro hd
      have hmem : .crate root ∈ Declaration.ofProgram ⟨[u], []⟩ :=
        Declaration.mem_ofProgram_of_unit (List.mem_singleton.mpr rfl) hd
      obtain ⟨v, hv, hhead⟩ := exists_unit_of_crate hmem
      obtain rfl := List.mem_singleton.mp hv
      obtain rfl : crate = root := by simpa [hmodule] using hhead
      exact hroot.2 ⟨Or.inl hd, hunknown⟩
    rw [hasCrate, hasCrate, declarations_append]
    simp [hnone]
  global h := knows_eq_of_not_news h.2
  associated := by
    rintro _ type name fromCrate ⟨root, rest, rfl, hroot⟩ htype
    exact associated_familiar hp hunits hu hroot (mem_types_iff.mp htype) name fromCrate
  imports h := (rootedIn_familiar hp hu).imports h
  globs h := (rootedIn_familiar hp hu).globs h
  root := by
    rintro root rest ⟨_, _, heq, hroot⟩
    cases heq
    exact ⟨root, [], rfl, hroot⟩
  append rest h := h.append rest
  standsFor hmodule hstands hpath := hstands.rooted (rootedIn_familiar hp hu) hmodule hpath

/-- **Loading an unrelated crate.** Let a program be loaded together with a file of a crate that it
does not know, and let the file be one that it does not notice. Then a call by a path in the program
resolves as before, if neither the path nor that of the type around the call starts with a crate that
only the file makes known. -/
theorem resolvePath_unrelated (hp : p.Identified) (hunits : ∀ v ∈ p.units, v.module ≠ [])
    (hu : p.Unrelated u) {s : Scope} {crate : String} {inner path : List String}
    (hscope : s.module = crate :: inner) (hcrate : (ofProgram p).hasCrate crate = true)
    (hself : ∀ type ∈ s.selfType, ∀ n ∈ type.head?, ¬ p.News u n)
    (hpath : ∀ n ∈ path.head?, ¬ p.News u n) :
    (ofProgram (p.add u)).resolvePath s path = (ofProgram p).resolvePath s path := by
  have hfamiliar : Familiar p u crate :=
    (rootedIn_familiar hp hu).known (by simp [knows, hcrate])
  refine ((agree_familiar hp hunits hu).resolvePath_eq ⟨crate, inner, hscope, hfamiliar⟩ ?_ ?_).symm
  · exact fun type htype n hn => knows_eq_of_not_news (hself type htype n hn)
  · exact fun n hn => knows_eq_of_not_news (hpath n hn)

/-! ### Two types of one name -/

namespace Circles

def circle : Ident := ⟨"Circle", by decide⟩

def new : Name := ⟨⟨"new", by decide⟩, by decide⟩

def imp : Ident := ⟨"imp", by decide⟩

def parent : Ident := ⟨"super", by decide⟩

def foo : Ident := ⟨"foo", by decide⟩

/-- `pub struct Circle; impl Circle { pub fn new() {} }` -/
def inPlace (crate : String) : SourceUnit :=
  crateRoot crate
    [.type circle [], .impl (.path false [circle]) false [] [.function true (.mk new [] [] [])]]

/-- `pub struct Circle; mod imp { impl super::Circle { pub fn new() {} } }` -/
def inModule (crate : String) : SourceUnit :=
  crateRoot crate
    [.type circle [],
      .module ⟨false, none⟩ imp []
        [.impl (.path false [parent, circle]) false [] [.function true (.mk new [] [] [])]]]

/-- `extern crate foo;` -/
def announcing (crate : String) : SourceUnit :=
  crateRoot crate [.externCrate foo none []]

theorem identified : (⟨[inPlace "demo"], []⟩ : Program).Identified := ⟨by decide, by decide⟩

theorem ofUnit_inPlace (crate : String) : Declaration.ofUnit (inPlace crate) =
    [.crate crate, .module (modulePath [crate]), .type (modulePath [crate]) "Circle",
      .method (modulePath [crate]) "Circle" "new" true] := rfl

theorem not_news {name : String} (h : name ≠ "a") :
    ¬ (⟨[inPlace "demo"], []⟩ : Program).News (inPlace "a") name := by
  rintro ⟨hmem, -⟩
  simp [ofUnit_inPlace, h] at hmem

theorem ofProgram_inPlace : Declaration.ofProgram ⟨[inPlace "demo"], []⟩ =
    Declaration.standardCrates.map .externCrate ++ Declaration.ofUnit (inPlace "demo") := by
  simp [Declaration.ofProgram]

theorem unrelated : (⟨[inPlace "demo"], []⟩ : Program).Unrelated (inPlace "a") where
  crate := ⟨"a", [], rfl, by decide, by decide +kernel⟩
  imports h := by simp [ofProgram_inPlace, ofUnit_inPlace] at h
  globs h := by simp [ofProgram_inPlace, ofUnit_inPlace] at h
  methods htype hmethod := by
    rw [ofProgram_inPlace, ofUnit_inPlace] at htype
    rw [ofUnit_inPlace] at hmethod
    obtain ⟨rfl, rfl⟩ : _ = modulePath ["demo"] ∧ _ = "Circle" := by simpa using htype
    obtain ⟨-, rfl, -⟩ : _ = modulePath ["a"] ∧ _ = "new" ∧ _ := by simpa using hmethod
    refine ⟨modulePath ["demo"], true, ?_, Or.inl rfl⟩
    simp [ofProgram_inPlace, ofUnit_inPlace]

end Circles

theorem resolvePath_unrelated_inPlace :
    (⟨[Circles.inPlace "demo"], []⟩ : Program).Unrelated (Circles.inPlace "a") ∧
      (ofProgram ⟨[Circles.inPlace "demo"], []⟩).resolvePath ⟨["demo"], some ["Circle"]⟩
        ["Self", "new"] = some ⟨some "demo", "new"⟩ ∧
      (ofProgram (add ⟨[Circles.inPlace "demo"], []⟩ (Circles.inPlace "a"))).resolvePath
        ⟨["demo"], some ["Circle"]⟩ ["Self", "new"] = some ⟨some "demo", "new"⟩ := by
  have hresolve : (ofProgram ⟨[Circles.inPlace "demo"], []⟩).resolvePath ⟨["demo"], some ["Circle"]⟩
      ["Self", "new"] = some ⟨some "demo", "new"⟩ := by decide +kernel
  have hscope : (Scope.mk ["demo"] (some ["Circle"])).module = "demo" :: [] := rfl
  have hunits : ∀ v ∈ [Circles.inPlace "demo"], v.module ≠ [] := by
    simp [Circles.inPlace, crateRoot]
  refine ⟨Circles.unrelated, hresolve, Eq.trans ?_ hresolve⟩
  refine resolvePath_unrelated Circles.identified hunits Circles.unrelated hscope
    (by decide +kernel) ?_ ?_
  · rintro _ ⟨⟩ _ ⟨⟩
    exact Circles.not_news (by decide)
  · rintro _ ⟨⟩
    exact Circles.not_news (by decide)

/-- A file of another crate may be noticed. A type of the same name takes over a method that the
program declares in another module than its own type. And a crate that is external there is known
here, too. -/
theorem resolvePath_sameTypeName :
    (ofProgram ⟨[Circles.inModule "demo"], []⟩).knows "a" = false ∧
      (ofProgram ⟨[Circles.inModule "demo"], []⟩).resolvePath ⟨["demo"], none⟩ ["Circle", "new"] =
        some ⟨some "demo::imp", "new"⟩ ∧
      (ofProgram (add ⟨[Circles.inModule "demo"], []⟩ (Circles.inPlace "a"))).resolvePath
        ⟨["demo"], none⟩ ["Circle", "new"] = some ⟨some "a", "new"⟩ ∧
      (ofProgram ⟨[Circles.inModule "demo"], []⟩).resolvePath ⟨["demo"], none⟩ ["foo", "bar"] =
        none ∧
      (ofProgram (add ⟨[Circles.inModule "demo"], []⟩ (Circles.announcing "a"))).resolvePath
        ⟨["demo"], none⟩ ["foo", "bar"] = some ⟨some "foo", "bar"⟩ := by
  decide +kernel

end Index

end CallAtlas
