import CallAtlas.Proofs.Additions
import CallAtlas.Proofs.Crates

/-!
# Functions and imports in the body of a function

What the items in the body of a function declare stands in the tables of the module around it. So
they may change what a call in another function, module or crate names, if they hide or redirect a
name that is in use. They change nothing that such a call names if they respect the rest of the
program. What stands inside of expressions never does.

## Main results

* `Index.resolvePath_emptied` — what a call by a path names without a body it names with it.
* `Index.bodies_interfere` — bodies that hide and redirect what calls elsewhere name.
-/

namespace CallAtlas

namespace Index

/-! ### A program with and without a body -/

theorem adds_of_emptied {p p' : Program} {body : List Stmt} {hole : List String}
    (h : p.Emptied body hole p')
    (hbody : ∀ item ∈ body.filterMap Stmt.item?, item.UseOrFunction) :
    (ofProgram p').Adds (ofProgram p) (modulePath hole) :=
  ⟨Declaration.ofStmts hole body, Declaration.ofProgram_emptied h,
    Declaration.ofStmts_useOrFunction hbody⟩

/-- **Bodies that do not interfere.** What is inside of expressions makes no difference to calls by a
path, bodies of functions included. Nor does the body of a function in the open take anything from
such a call, from wherever it is made, if it holds only imports and functions and respects what the
rest of the program declares: what the call names without the body it names with it. -/
theorem resolvePath_emptied (p p' : Program) :
    (p.skeleton = p'.skeleton → ∀ s path,
      (ofProgram p).resolvePath s path = (ofProgram p').resolvePath s path) ∧
    ∀ body hole, p.Emptied body hole p' →
      (∀ item ∈ body.filterMap Stmt.item?, item.UseOrFunction) →
      Respects (ofProgram p') (ofProgram p) (modulePath hole) →
      ∀ s path symbol, (ofProgram p').resolvePath s path = some symbol →
        (ofProgram p).resolvePath s path = some symbol := by
  constructor
  · intro hskeleton s path
    have hsame : Declaration.ofProgram p = Declaration.ofProgram p' := by
      rw [← Declaration.ofProgram_skeleton, hskeleton, Declaration.ofProgram_skeleton]
    rw [ofProgram, ofProgram, hsame]
  · intro body hole hemptied hbody hrespects s path symbol hpath
    exact hrespects.resolvePath_mono (adds_of_emptied hemptied hbody) hpath

namespace Swaps

def std : Ident := ⟨"std", by decide⟩

def mem : Ident := ⟨"mem", by decide⟩

def other : Ident := ⟨"other", by decide⟩

def take : Ident := ⟨"take", by decide⟩

def swap : Name := ⟨⟨"swap", by decide⟩, by decide⟩

def inside : Name := ⟨⟨"inside", by decide⟩, by decide⟩

def outer : Name := ⟨⟨"outer", by decide⟩, by decide⟩

/-- `use std::mem::...;` -/
def useMem (name : Ident) : Item :=
  .use (.path std (.path mem (.name name))) []

/-- `use other::swap;` -/
def otherSwap : Item :=
  .use (.path other (.name swap.toIdent)) []

/-- `fn ...() {}` -/
def emptyFunction (isPublic : Bool) (name : Name) : Item :=
  .function isPublic (.mk name [] [] [])

/-- A crate `demo` with one item and `fn outer() { ... }`. -/
def program (first : Item) (body : List Stmt) : Program where
  units := [crateRoot "demo" [first, .function false (.mk outer [] [] body)]]
  externs := []

theorem emptied (first : Item) (body : List Stmt) :
    (program first body).Emptied body ["demo"] (program first []) :=
  @Program.Emptied.intro body ["demo"] [] [] [] (crateRoot "demo" []) [] [first] [] _ _
    (.function .whole)

/-- `use std::mem::take; fn inside() {}` -/
def body : List Stmt := [.item (useMem take), .item (emptyFunction false inside)]

/-- `pub use std::mem::swap; fn outer() {}` -/
def without : Program := program (useMem swap.toIdent) []

/-- `pub use std::mem::swap; fn outer() { use std::mem::take; fn inside() {} }` -/
def full : Program := program (useMem swap.toIdent) body

/-- `pub use std::mem::swap; fn outer() { { use std::mem::take; fn inside() {} } }` -/
def inBlock : Program := program (useMem swap.toIdent) [.expr (.block [] body)]

theorem useOrFunction_emptyFunction (isPublic : Bool) (name : Name) :
    (emptyFunction isPublic name).UseOrFunction :=
  .function fun _ hitem => nomatch hitem

theorem useOrFunction_body : ∀ item ∈ body.filterMap Stmt.item?, item.UseOrFunction :=
  List.forall_mem_cons.mpr
    ⟨.use, List.forall_mem_singleton.mpr (useOrFunction_emptyFunction false inside)⟩

theorem imports_without :
    (ofProgram without).imports "demo" = [("swap", ["std", "mem", "swap"])] := by
  decide

theorem imports_full : (ofProgram full).imports "demo" =
    [("swap", ["std", "mem", "swap"]), ("take", ["std", "mem", "take"])] := by
  decide

theorem functions_without : (ofProgram without).functions "demo" = [("outer", false)] := by
  decide

theorem functions_full :
    (ofProgram full).functions "demo" = [("outer", false), ("inside", false)] := by
  decide

theorem globs_without (m : String) : (ofProgram without).globs m = [] := rfl

theorem not_base {module base : List String} : ¬ (ofProgram without).Base module base := by
  rintro ⟨-, target, htarget, -⟩
  rw [globs_without] at htarget
  cases htarget

theorem globs_full (m : String) : (ofProgram full).globs m = [] := rfl

theorem eq_of_news {name : String} (h : News (ofProgram without) (ofProgram full) "demo" name) :
    name = "take" ∨ name = "inside" := by
  refine Decidable.byContradiction fun hname => not_news_iff.mpr ?_ h
  obtain ⟨htake, hinside⟩ := not_or.mp hname
  rw [functions_without, functions_full, imports_without, imports_full]
  have hfunctions : lookupLast name [("outer", false), ("inside", false)] =
      lookupLast name [("outer", false)] :=
    lookupLast_congr (by simp [List.filter_cons, Ne.symm hinside])
  refine ⟨fun hnone => hfunctions.trans hnone, lookupLast_congr ?_⟩
  simp [List.filter_cons, Ne.symm htake]

theorem respects : Respects (ofProgram without) (ofProgram full) "demo" where
  visible name hname := by
    rw [functions_without] at hname
    simpa using mem_of_lookupLast hname
  names name hnews module hmodule := by
    have hstart : ∀ path, (ofProgram without).ImportsPath "demo" path → path.head? = some "std" := by
      rintro path (hpath | ⟨newName, hpath⟩)
      · rw [globs_without] at hpath
        cases hpath
      · rw [imports_without] at hpath
        obtain ⟨-, rfl⟩ : newName = "swap" ∧ path = ["std", "mem", "swap"] := by simpa using hpath
        rfl
    refine ⟨?_, fun base h => absurd h not_base, Or.inr ?_⟩
    · rw [hmodule, imports_without]
      rcases eq_of_news hnews with rfl | rfl <;> decide
    · rw [hmodule]
      rcases eq_of_news hnews with rfl | rfl
      all_goals
        refine ⟨by decide, by decide, by decide, by decide, ?_⟩
        intro path hpath
        rw [hstart path hpath]
        decide
  seen name _ module base hbase := absurd hbase not_base
  order := rfl
  globs module base name _ hnew _ := by
    obtain ⟨-, target, htarget, -⟩ := hnew
    rw [globs_full] at htarget
    cases htarget

end Swaps

theorem resolvePath_emptied_newNames :
    Swaps.inBlock.skeleton = Swaps.without.skeleton ∧
      (∀ s path, (ofProgram Swaps.inBlock).resolvePath s path =
        (ofProgram Swaps.without).resolvePath s path) ∧
      Swaps.full.Emptied Swaps.body ["demo"] Swaps.without ∧
      (∀ item ∈ Swaps.body.filterMap Stmt.item?, item.UseOrFunction) ∧
      Respects (ofProgram Swaps.without) (ofProgram Swaps.full) (modulePath ["demo"]) ∧
      (ofProgram Swaps.without).resolvePath ⟨["app"], none⟩ ["demo", "swap"] =
        some ⟨some "std::mem", "swap"⟩ ∧
      (ofProgram Swaps.full).resolvePath ⟨["app"], none⟩ ["demo", "swap"] =
        some ⟨some "std::mem", "swap"⟩ := by
  have hemptied := Swaps.emptied (Swaps.useMem Swaps.swap.toIdent) Swaps.body
  have hresolve : (ofProgram Swaps.without).resolvePath ⟨["app"], none⟩ ["demo", "swap"] =
      some ⟨some "std::mem", "swap"⟩ := by decide +kernel
  exact ⟨rfl, (resolvePath_emptied Swaps.inBlock Swaps.without).1 rfl, hemptied,
    Swaps.useOrFunction_body, Swaps.respects, hresolve,
    (resolvePath_emptied Swaps.full Swaps.without).2 Swaps.body ["demo"] hemptied
      Swaps.useOrFunction_body Swaps.respects _ _ _ hresolve⟩

/-- A body may interfere with calls from elsewhere. A private function in it hides a public one of the
same name from other crates, and a function or an import in it takes the place of an import. -/
theorem bodies_interfere :
    (∃ body, (∀ item ∈ body.filterMap Stmt.item?, item.UseOrFunction) ∧
      (Swaps.program (Swaps.emptyFunction true Swaps.swap) body).Emptied body ["demo"]
        (Swaps.program (Swaps.emptyFunction true Swaps.swap) []) ∧
      (ofProgram (Swaps.program (Swaps.emptyFunction true Swaps.swap) [])).resolvePath
        ⟨["app"], none⟩ ["demo", "swap"] = some ⟨some "demo", "swap"⟩ ∧
      (ofProgram (Swaps.program (Swaps.emptyFunction true Swaps.swap) body)).resolvePath
        ⟨["app"], none⟩ ["demo", "swap"] = none) ∧
    ∀ item ∈ [Swaps.emptyFunction false Swaps.swap, Swaps.otherSwap],
      item.UseOrFunction ∧
      (Swaps.program (Swaps.useMem Swaps.swap.toIdent) [.item item]).Emptied [.item item] ["demo"]
        (Swaps.program (Swaps.useMem Swaps.swap.toIdent) []) ∧
      (ofProgram (Swaps.program (Swaps.useMem Swaps.swap.toIdent) [])).resolvePath
        ⟨["demo"], none⟩ ["swap"] = some ⟨some "std::mem", "swap"⟩ ∧
      (ofProgram (Swaps.program (Swaps.useMem Swaps.swap.toIdent) [.item item])).resolvePath
        ⟨["demo"], none⟩ ["swap"] ≠ some ⟨some "std::mem", "swap"⟩ := by
  have hfunction := Swaps.useOrFunction_emptyFunction
  refine ⟨⟨[.item (Swaps.emptyFunction false Swaps.swap)], ?_, Swaps.emptied _ _, ?_, ?_⟩, ?_⟩
  · exact List.forall_mem_singleton.mpr (hfunction false Swaps.swap)
  · decide +kernel
  · decide +kernel
  · refine List.forall_mem_cons.mpr ⟨?_, List.forall_mem_singleton.mpr ?_⟩
    · exact ⟨hfunction false Swaps.swap, Swaps.emptied _ _, by decide +kernel, by decide +kernel⟩
    · exact ⟨.use, Swaps.emptied _ _, by decide +kernel, by decide +kernel⟩

end Index

end CallAtlas
