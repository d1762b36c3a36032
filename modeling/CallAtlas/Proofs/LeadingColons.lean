import CallAtlas.Proofs.SelfPaths
import CallAtlas.Proofs.Universe

/-!
# Paths with a leading colon

A call `::c::f()` names a function of the crate `c`, whatever the module of the call calls `c`. The
colons are looked at only if a single name stands behind them: this is then not the name of a local
value. In all other paths they make no difference, and the first name is looked up in the module before
it is taken for a crate. So the call leads to the crate if the module passes over the name
(`Index.PassesOver`), and to what the module makes of the name if not.

Where a path from a crate root leads depends on the crate, and on the crates that its imports lead to.
A list of such crates is a `Region`, if no import in it leads out of it. Two programs with the same
declarations in a region resolve all paths into it alike. The rest of the two programs may differ, and
with it all that the module of a call declares.

## Main definitions

* `Region`, `Index.within` — a part of a program, and what is declared in it.
* `Index.Closed` — no import leads out of the part.
* `Walk.callee?` — the function that a callee names.

## Main results

* `Index.locate_eq_of_within` — paths into a part of two programs.
* `Walk.leadingColons_callee` — calls by a path with a leading colon.
-/

namespace CallAtlas

/-! ### A part of a program -/

/-- A part of a program: some crates, and some types, wherever those have methods. -/
structure Region where
  /-- The crates, and all other names that an import in them may start with. -/
  roots : List String
  types : List String

/-- Is a declaration one of the part? -/
def Region.holds (r : Region) : Declaration → Bool
  | .crate name | .externCrate name => r.roots.contains name
  | .module m | .function m _ _ | .type m _ | .submodule m _ | .imported m _ _ | .glob m _ =>
    r.roots.contains (crateOfModule m)
  | .method _ type _ _ => r.types.contains type
  | .traitMethod _ _ => false

namespace Index

/-- What is declared in a part of a program. -/
def within (i : Index) (r : Region) : Index :=
  ⟨i.declarations.filter r.holds⟩

/-- No import in the part leads out of it, and its types are listed. -/
structure Closed (i : Index) (r : Region) : Prop where
  standard : "std" ∈ r.roots
  colon : ∀ root ∈ r.roots, ':' ∉ root.toList
  imports : ∀ {m newName : String} {target : List String},
    .imported m newName target ∈ (i.within r).declarations → ∀ n ∈ target.head?, n ∈ r.roots
  globs : ∀ {m : String} {target : List String},
    .glob m target ∈ (i.within r).declarations → ∀ n ∈ target.head?, n ∈ r.roots
  types : ∀ {m name : String}, .type m name ∈ (i.within r).declarations → name ∈ r.types

variable {i j : Index} {r : Region}

theorem mem_within_iff {d : Declaration} :
    d ∈ (i.within r).declarations ↔ d ∈ i.declarations ∧ r.holds d = true :=
  List.mem_filter

/-- A table that lists declarations of the part is that of the program. -/
theorem filterMap_within {β : Type} {f : Declaration → Option β}
    (hf : ∀ d, r.holds d = false → f d = none) :
    (i.within r).declarations.filterMap f = i.declarations.filterMap f := by
  rw [within, List.filterMap_filter]
  congr 1
  funext d
  split
  · rfl
  · next h => exact (hf d (by simpa using h)).symm

theorem hasCrate_within {name : String} (h : name ∈ r.roots) :
    (i.within r).hasCrate name = i.hasCrate name := by
  simp [hasCrate, mem_within_iff, Region.holds, h]

theorem knows_within {name : String} (h : name ∈ r.roots) :
    (i.within r).knows name = i.knows name := by
  simp [knows, hasCrate, hasExternCrate, mem_within_iff, Region.holds, h]

theorem mem_roots_of_knows {name : String} (h : (i.within r).knows name = true) :
    name ∈ r.roots := by
  have hheld : ∀ d ∈ (i.within r).declarations, d = .crate name ∨ d = .externCrate name →
      name ∈ r.roots := by
    rintro d hd (rfl | rfl)
    all_goals simpa [Region.holds] using (mem_within_iff.mp hd).2
  rcases Bool.or_eq_true_iff.mp h with hcrate | hextern
  · exact hheld _ (List.contains_iff_mem.mp hcrate) (Or.inl rfl)
  · exact hheld _ (List.contains_iff_mem.mp hextern) (Or.inr rfl)

/-- A module of the part declares the same. -/
theorem scope?_within {m : String} (h : crateOfModule m ∈ r.roots) :
    (i.within r).scope? m = i.scope? m := by
  have hmodule : (i.within r).hasModule m = i.hasModule m := by
    simp [hasModule, mem_within_iff, Region.holds, h]
  have hout : ∀ {m'}, r.roots.contains (crateOfModule m') = false → m' ≠ m := by
    rintro m' hm' rfl
    rw [List.contains_iff_mem.mpr h] at hm'
    cases hm'
  rw [scope?, scope?, hmodule]
  split
  · congr 2
    all_goals
      refine filterMap_within fun d hd => ?_
      cases d <;> first | rfl | exact if_neg (hout hd)
  · rfl

/-- A type of the part has the same methods, wherever they are declared. -/
theorem associated_within {type : String} (h : type ∈ r.types) (m name fromCrate : String) :
    (i.within r).associated m type name fromCrate = i.associated m type name fromCrate := by
  have hmethods : (i.within r).methodsOf type name = i.methodsOf type name := by
    refine filterMap_within fun d hd => ?_
    cases d with
    | method m' type' name' isPublic =>
      refine if_neg ?_
      rintro ⟨rfl, -⟩
      simp [Region.holds, h] at hd
    | _ => rfl
  rw [associated, associated, hmethods]

namespace Closed

theorem rootedIn (h : i.Closed r) : (i.within r).RootedIn (· ∈ r.roots) where
  standard := h.standard
  known := mem_roots_of_knows
  imports htarget := h.imports (mem_imports_iff.mp htarget)
  globs htarget := h.globs (mem_globs_iff.mp htarget)

/-- A search that starts in the part meets nothing else. -/
theorem agree (h : i.Closed r) : Agree (i.within r) i (Rooted (· ∈ r.roots)) (· ∈ r.roots) where
  scope := by
    rintro _ ⟨root, rest, rfl, hroot⟩
    have hcrate : crateOfModule (modulePath (root :: rest)) = root :=
      crateOfModule_modulePath_headD (h.colon root hroot)
    exact scope?_within (hcrate.symm ▸ hroot)
  crate := by
    rintro root rest ⟨_, _, heq, hroot⟩
    cases heq
    exact hasCrate_within hroot
  global := knows_within
  associated _ htype := associated_within (h.types (mem_types_iff.mp htype)) ..
  imports := h.rootedIn.imports
  globs := h.rootedIn.globs
  root := by
    rintro root rest ⟨_, _, heq, hroot⟩
    cases heq
    exact ⟨root, [], rfl, hroot⟩
  append rest hpath := hpath.append rest
  standsFor hmodule hstands hpath := hstands.rooted h.rootedIn hmodule hpath

/-- The other program is closed in the part, too. -/
theorem of_within (h : i.Closed r) (hwithin : i.within r = j.within r) : j.Closed r where
  standard := h.standard
  colon := h.colon
  imports himport := h.imports (hwithin ▸ himport)
  globs hglob := h.globs (hwithin ▸ hglob)
  types htype := h.types (hwithin ▸ htype)

end Closed

/-- **Paths into a part** of two programs that declare the same in it lead to the same. -/
theorem locate_eq_of_within (h : i.Closed r) (hwithin : i.within r = j.within r) {root : String}
    (hroot : root ∈ r.roots) (fromCrate : String) (steps : Nat) (rest : List String) :
    i.locate fromCrate steps (root :: rest) = j.locate fromCrate steps (root :: rest) := by
  have hrooted : Rooted (· ∈ r.roots) (root :: rest) := ⟨root, rest, rfl, hroot⟩
  calc i.locate fromCrate steps (root :: rest)
      = (i.within r).locate fromCrate steps (root :: rest) :=
        (h.agree.locate_eq fromCrate steps hrooted).symm
    _ = (j.within r).locate fromCrate steps (root :: rest) := by rw [hwithin]
    _ = j.locate fromCrate steps (root :: rest) :=
        (h.of_within hwithin).agree.locate_eq fromCrate steps hrooted

/-! ### Paths that start with a crate -/

/-- A path that starts with a crate stands for what the module makes of it, or else for itself. -/
theorem absolutize_of_knows {name : String} (hword : name ∉ pathKeywords)
    (hknows : i.knows name = true) (s : Scope) (rest : List String) :
    i.absolutize stepLimit s.module s.selfType false (name :: rest) =
      some ((i.fromModule (stepLimit - 1) s.module name rest).getD (name :: rest)) := by
  have hglobal : i.globalPath false name (name :: rest) = some (name :: rest) := if_pos hknows
  rw [stepLimit, absolutize_of_not_keyword hword, hglobal]
  cases i.fromModule 16 s.module name rest <;> rfl

/-- A call by such a path leads there, unless it is one of a function of a primitive type. -/
theorem resolvePath_of_knows {name : String} {rest : List String} (hword : name ∉ pathKeywords)
    (hprimitive : rest.length = 1 → name ∉ primitiveTypes) (hknows : i.knows name = true)
    (s : Scope) : i.resolvePath s (name :: rest) =
      i.locate s.crate stepLimit
        ((i.fromModule (stepLimit - 1) s.module name rest).getD (name :: rest)) := by
  have habsolute := absolutize_of_knows hword hknows s
  rw [resolvePath_eq_bind, habsolute, Option.bind_some]
  · intro hlength htype
    exact absurd htype (hprimitive hlength)
  · intro _ _
    rw [habsolute]
    exact Option.some_ne_none _

end Index

/-! ### Calls -/

namespace Walk

/-- The function that a callee names. -/
def callee? (x : Context) (locals : Locals) (callee : Expr) : Option Symbol :=
  (target? callee).bind (resolve x locals)

variable {x y : Context} {c : Ident} {names : List Ident}

open Index

/-- Behind a leading colon no name is one of a local value. A crate is what the module makes of its
name, or else the crate. -/
theorem callee?_rooted (hword : c.text ∉ pathKeywords)
    (hprimitive : names.length = 1 → c.text ∉ primitiveTypes) (hknows : x.index.knows c.text = true)
    (locals : Locals) (attrs args : List Expr) :
    callee? x locals (.path attrs (.plain true) (c :: names) args) =
      x.index.locate x.scope.crate stepLimit
        ((x.index.fromModule (stepLimit - 1) x.module c.text (texts names)).getD
          (texts (c :: names))) := by
  have hlength : (texts names).length = 1 → c.text ∉ primitiveTypes := by
    rwa [texts, List.length_map]
  exact resolvePath_of_knows hword hlength hknows x.scope

theorem callee?_of_passesOver (hword : c.text ∉ pathKeywords)
    (hprimitive : names.length = 1 → c.text ∉ primitiveTypes) (hknows : x.index.knows c.text = true)
    (hover : x.index.PassesOver x.module c.text) (locals : Locals) (attrs args : List Expr) :
    callee? x locals (.path attrs (.plain true) (c :: names) args) =
      x.index.locate x.scope.crate stepLimit (texts (c :: names)) := by
  rw [callee?_rooted hword hprimitive hknows, fromModule_eq_none_iff.mpr hover, Option.getD_none]

/-- **A leading colon.** Let the crate `c` be known in two programs, which declare the same in a part
that holds `c` and that no import leads out of. A call `::c::f()` leads to what `c::f` is from the root
of the crate, if the module of the call passes over the name `c`; in both programs this is the same,
whatever else the module declares. If the module makes something of the name, then the call leads
there. -/
theorem leadingColons_callee (x y : Context) (hmodule : x.module = y.module) (r : Region)
    (hclosed : x.index.Closed r) (hwithin : x.index.within r = y.index.within r) (c : Ident)
    (hroot : c.text ∈ r.roots) (hknows : x.index.knows c.text = true)
    (hword : c.text ∉ pathKeywords) (names : List Ident)
    (hprimitive : names.length = 1 → c.text ∉ primitiveTypes) (locals : Locals)
    (attrs args : List Expr) :
    let callee := Expr.path attrs (.plain true) (c :: names) args
    (x.index.PassesOver x.module c.text →
      callee? x locals callee = x.index.locate x.scope.crate stepLimit (texts (c :: names)) ∧
      ∀ locals', y.index.PassesOver y.module c.text →
        callee? y locals' callee = callee? x locals callee) ∧
    ∀ found, x.index.fromModule (stepLimit - 1) x.module c.text (texts names) = some found →
      callee? x locals callee = x.index.locate x.scope.crate stepLimit found := by
  intro callee
  have hknows' : y.index.knows c.text = true := by
    rw [← knows_within hroot, ← hwithin, knows_within hroot, hknows]
  have hcrate : y.scope.crate = x.scope.crate := congrArg (·.headD "") hmodule.symm
  refine ⟨fun hover => ⟨?_, fun locals' hover' => ?_⟩, fun found hfound => ?_⟩
  · exact callee?_of_passesOver hword hprimitive hknows hover locals attrs args
  · calc callee? y locals' callee
        = y.index.locate y.scope.crate stepLimit (texts (c :: names)) :=
          callee?_of_passesOver hword hprimitive hknows' hover' locals' attrs args
      _ = x.index.locate x.scope.crate stepLimit (texts (c :: names)) := by
          rw [hcrate]
          exact (locate_eq_of_within hclosed hwithin hroot _ _ _).symm
      _ = callee? x locals callee :=
          (callee?_of_passesOver hword hprimitive hknows hover locals attrs args).symm
  · rw [callee?_rooted hword hprimitive hknows, hfound, Option.getD_some]

/-! ### A module of the name of a crate -/

namespace Facade

open Reexport

/-- A crate `app`, with the crates `facade` and `engine` beside it. -/
def program (items : List Item) : Program where
  units := crateRoot "app" items :: Reexport.program.units.tail
  externs := ["u8"]

/-- `use facade; use facade::prelude::*;`. -/
def importing : Program :=
  program [.use (.name facade) [], .use (.path facade (.path prelude .glob)) []]

/-- `fn start() {}`. -/
def apart : Program :=
  program [.function false (.mk start [] [] [])]

/-- `mod facade { pub mod prelude { pub fn go() {} } }`. -/
def ownModule : Program :=
  program [.module ⟨false, none⟩ facade []
    [.module ⟨false, none⟩ prelude [] [.function true (.mk ⟨go, by decide⟩ [] [] [])]]]

def app : Ident := ⟨"app", by decide⟩

/-- `app` again, with a crate `facade` that leads back to it: it holds
`mod prelude { pub use engine::start as go; } pub use app::facade::prelude::go as start;`. -/
def circular (items : List Item) : Program where
  units :=
    [crateRoot "app" items,
      crateRoot "facade"
        [.module ⟨false, none⟩ prelude [] [.use (.path engine (.rename start.toIdent go)) []],
          .use (.path app (.path facade (.path prelude (.rename go start.toIdent)))) []],
      crateRoot "engine" [.function true (.mk start [] [] [])]]
  externs := []

/-- The root of `app`. -/
def context (p : Program) : Context where
  index := ofProgram p
  macros := true
  file := "lib.rs"
  module := ["app"]
  selfType := none
  caller := none

/-- The callee of `::facade::prelude::go()`. -/
def callee : Expr :=
  .path [] (.plain true) [facade, prelude, go] []

/-- The crates that `facade` leads to. -/
def region : Region where
  roots := ["std", "facade", "engine"]
  types := []

theorem within_eq : ((ofProgram importing).within region).declarations =
    [.externCrate "std", .crate "facade", .module "facade", .submodule "facade" "prelude",
      .module "facade::prelude", .imported "facade::prelude" "go" ["engine", "start"],
      .crate "engine", .module "engine", .function "engine" "start" true] := by
  decide

theorem closed : (ofProgram importing).Closed region where
  standard := by decide
  colon := by decide
  imports h := by
    rw [within_eq] at h
    obtain ⟨-, -, rfl⟩ : _ = "facade::prelude" ∧ _ = "go" ∧ _ = ["engine", "start"] := by
      simpa using h
    decide
  globs h := by simp [within_eq] at h
  types h := by simp [within_eq] at h

theorem passesOver {p : Program}
    (h : (ofProgram p).fromModule (stepLimit - 1) ["app"] "facade" [] = none) :
    (ofProgram p).PassesOver ["app"] "facade" :=
  fromModule_eq_none_iff.mp h

end Facade

theorem leadingColons_callee_facade :
    (ofProgram Facade.importing).Closed Facade.region ∧
      (ofProgram Facade.importing).within Facade.region =
        (ofProgram Facade.apart).within Facade.region ∧
      callee? (Facade.context Facade.importing) [["facade"]] Facade.callee =
        some ⟨some "engine", "start"⟩ ∧
      callee? (Facade.context Facade.apart) [] Facade.callee = some ⟨some "engine", "start"⟩ := by
  have hwithin : (ofProgram Facade.importing).within Facade.region =
      (ofProgram Facade.apart).within Facade.region :=
    congrArg Index.mk (Facade.within_eq.trans (by decide))
  obtain ⟨hsame, -⟩ := leadingColons_callee (Facade.context Facade.importing)
    (Facade.context Facade.apart) rfl Facade.region Facade.closed hwithin Reexport.facade (by decide)
    (by decide) (by decide) [Reexport.prelude, Reexport.go] (by decide) [["facade"]] [] []
  obtain ⟨habsolute, hapart⟩ := hsame (Facade.passesOver (by decide))
  have hstart : callee? (Facade.context Facade.importing) [["facade"]] Facade.callee =
      some ⟨some "engine", "start"⟩ :=
    habsolute.trans (by decide)
  exact ⟨Facade.closed, hwithin, hstart, (hapart [] (Facade.passesOver (by decide))).trans hstart⟩

/-- A module of the name of a crate takes over its functions, also behind a leading colon. A crate of
the name of a primitive type is not found. And where a crate leads back to the module of the call,
there an import of the crate makes a difference, although the module passes over the name with it and
without. -/
theorem leadingColons_not_heeded :
    (ofProgram Facade.ownModule).knows "facade" = true ∧
      (ofProgram Facade.ownModule).within Facade.region =
        (ofProgram Facade.apart).within Facade.region ∧
      callee? (Facade.context Facade.apart) [] Facade.callee = some ⟨some "engine", "start"⟩ ∧
      callee? (Facade.context Facade.ownModule) [] Facade.callee =
        some ⟨some "app::facade::prelude", "go"⟩ ∧
      (ofProgram Facade.apart).knows "u8" = true ∧
      callee? (Facade.context Facade.apart) []
        (.path [] (.plain true) [Types.byte, Reexport.go] []) = some (.bare "go") ∧
      callee? (Facade.context (Facade.circular [.use (.name Reexport.facade) []])) []
        (.path [] (.plain true) [Reexport.facade, Reexport.start.toIdent] []) =
        some ⟨some "engine", "start"⟩ ∧
      callee? (Facade.context (Facade.circular [])) []
        (.path [] (.plain true) [Reexport.facade, Reexport.start.toIdent] []) = none := by
  refine ⟨by decide, congrArg Index.mk ?_, ?_⟩
  all_goals decide

end Walk

end CallAtlas
