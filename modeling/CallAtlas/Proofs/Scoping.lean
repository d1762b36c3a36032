import CallAtlas.Load.Source
import CallAtlas.Proofs.Attribution

/-!
# Lexical scoping

A call `f(...)` goes through a local value if `f` is bound where the call stands. `InScope` says
which patterns are bound there, as a matter of position: the parameters of the innermost function,
the `let`s that have ended before in a construct that holds the call as well, and the patterns of
the loops, closures and arms around the call. Nothing that a function further out binds counts.

A `let` that is a statement stands in a block and is bound to its end. A `let` that is an expression
may stand deep inside of other expressions; it is bound to the end of the innermost construct around
it that holds such names. `InScope` has the choice of these constructs as a parameter, since one of
them is easily missed: a function. A `let` expression in the head of a function, as in the length of
an array, is bound in its body too.

## Main definitions

* `Outline.Trail.Inside` — going outwards on a trail without leaving a function.
* `Outline.Loose` — a `let` expression that no construct on the way holds back.
* `Outline.InScope` — the patterns that are bound at a node.

## Main results

* `Outline.mem_binders_iff` — `InScope` describes what a walk knows.
* `Walk.direct_call_through_local` — when a call goes through a local value.
* `Walk.LetInHead.eq_of_inScope_opensScope` — the constructs that open a scope do not suffice: a `let`
  in the head of a function is bound as well.
-/

namespace CallAtlas

namespace Outline

/-! ### Binders in scope -/

/-- `rest` is what is left of a trail after some steps outwards, none of which leaves a function. -/
def Trail.Inside (rest trail : Trail) : Prop :=
  ∃ inner : Trail, trail = inner ++ rest ∧ ∀ f ∈ inner, f.label.isFunction = false

namespace Trail.Inside

theorem refl (trail : Trail) : Inside trail trail :=
  ⟨[], rfl, by simp⟩

theorem cons {rest trail : Trail} {f : Frame} (hf : f.label.isFunction = false)
    (h : Inside rest trail) : Inside rest (f :: trail) := by
  obtain ⟨inner, rfl, hinner⟩ := h
  refine ⟨f :: inner, rfl, ?_⟩
  simpa [hf] using hinner

/-- The innermost step of a trail is where one stays, or it leaves no function. -/
theorem cons_inv {rest trail : Trail} {f : Frame} (h : Inside rest (f :: trail)) :
    rest = f :: trail ∨ f.label.isFunction = false ∧ Inside rest trail := by
  obtain ⟨inner, htrail, hinner⟩ := h
  cases inner with
  | nil => exact Or.inl htrail.symm
  | cons g inner =>
    rw [List.cons_append, List.cons.injEq] at htrail
    obtain ⟨rfl, rfl⟩ := htrail
    exact Or.inr ⟨hinner f List.mem_cons_self, inner, rfl, fun g hg =>
      hinner g (List.mem_cons_of_mem _ hg)⟩

end Trail.Inside

/-- A `let` expression in an outline, where none of the constructs around it in the outline holds its
names. Which constructs do is a parameter. -/
inductive Loose (holds : Label → Bool) : Outline → Pattern → Prop where
  | here {pattern : Pattern} {parts : List Outline} :
    Loose holds (.node (.condition pattern) parts) pattern
  | part {label : Label} {parts : List Outline} {part : Outline} {pattern : Pattern} :
    holds label = false → part ∈ parts → Loose holds part pattern →
      Loose holds (.node label parts) pattern

/-- The patterns that are bound at a node with a trail. `holds` says which constructs hold the names
of `let` expressions. -/
inductive InScope (holds : Label → Bool) (trail : Trail) : Pattern → Prop where
  /-- A parameter of the innermost function. -/
  | param {name : Ident} {params : List Pattern} {earlier : List Outline} {outer : Trail}
      {pattern : Pattern} :
    Trail.Inside (⟨.function name params, earlier⟩ :: outer) trail → pattern ∈ params →
      InScope holds trail pattern
  /-- A `let` statement that has ended before in a block around the node. -/
  | letStatement {earlier parts : List Outline} {outer : Trail} {pattern : Pattern} :
    Trail.Inside (⟨.block, earlier⟩ :: outer) trail → .node (.binding pattern) parts ∈ earlier →
      InScope holds trail pattern
  /-- A `let` expression that has ended before. The innermost construct that holds its names is an
  ancestor of the node as well. -/
  | letExpression {label : Label} {earlier : List Outline} {outer around : Trail} {part : Outline}
      {holder : Frame} {pattern : Pattern} :
    Trail.Inside (⟨label, earlier⟩ :: outer) trail → part ∈ earlier → Loose holds part pattern →
      Trail.Inside (holder :: around) (⟨label, earlier⟩ :: outer) → holds holder.label = true →
      InScope holds trail pattern
  /-- The pattern of a `for` around the node, which stands in its body. -/
  | forLoop {earlier : List Outline} {outer : Trail} {pattern : Pattern} :
    Trail.Inside (⟨.forBody pattern, earlier⟩ :: outer) trail → InScope holds trail pattern
  /-- A parameter of a closure around the node. -/
  | closure {params : List Pattern} {earlier : List Outline} {outer : Trail} {pattern : Pattern} :
    Trail.Inside (⟨.closure params, earlier⟩ :: outer) trail → pattern ∈ params →
      InScope holds trail pattern
  /-- The pattern of an arm around the node, which stands in its guard or its body. -/
  | arm {earlier : List Outline} {outer : Trail} {pattern : Pattern} :
    Trail.Inside (⟨.arm pattern, earlier⟩ :: outer) trail → InScope holds trail pattern

/-! ### What a walk knows -/

/-- What an outline leaves bound: the `let` expressions in it that nothing holds, and itself if it is
a `let` statement. -/
theorem mem_left_iff {o : Outline} (h : o.Formed) (pattern : Pattern) :
    pattern ∈ o.left ↔
      Loose Label.confines o pattern ∨ ∃ parts, o = .node (.binding pattern) parts := by
  induction h with
  | @node label parts hnamed hlabel hparts ih =>
    rw [left, leftOfParts_eq_flatMap]
    cases hc : label.confines with
    | true =>
      simp only [if_true, List.not_mem_nil, false_iff, not_or]
      refine ⟨fun hloose => ?_, ?_⟩
      · cases hloose with
        | here => simp [Label.confines, Label.opensScope, Label.isFunction] at hc
        | part hfalse => simp [hc] at hfalse
      · rintro ⟨_, heq⟩
        cases heq
        simp [Label.confines, Label.opensScope, Label.isFunction] at hc
    | false =>
      have hstatement : ∀ part ∈ parts, part.isStatement = false := by
        rcases hlabel with rfl | h
        · simp [Label.confines, Label.opensScope] at hc
        · exact h
      have hpart : ∀ part ∈ parts, (pattern ∈ part.left ↔ Loose Label.confines part pattern) := by
        intro part hmem
        rw [ih part hmem, or_iff_left]
        rintro ⟨_, rfl⟩
        simpa [isStatement] using hstatement _ hmem
      simp only [Bool.false_eq_true, if_false, List.mem_append, List.mem_flatMap]
      constructor
      · rintro (⟨part, hmem, hleft⟩ | hleaves)
        · exact Or.inl (.part hc hmem ((hpart part hmem).mp hleft))
        · cases label with
          | condition p =>
            obtain rfl : pattern = p := by simpa [Label.leaves] using hleaves
            exact Or.inl .here
          | binding p =>
            obtain rfl : pattern = p := by simpa [Label.leaves] using hleaves
            exact Or.inr ⟨parts, rfl⟩
          | _ => simp [Label.leaves] at hleaves
      · rintro (hloose | ⟨_, heq⟩)
        · cases hloose with
          | here => exact Or.inr (by simp [Label.leaves])
          | part _ hmem hloose => exact Or.inl ⟨_, hmem, (hpart _ hmem).mpr hloose⟩
        · cases heq
          exact Or.inr (by simp [Label.leaves])

/-- What is bound on a trail is bound by an ancestor up to the innermost function. -/
theorem mem_binders_iff_exists_inside {trail : Trail} {pattern : Pattern} :
    pattern ∈ trail.binders ↔
      ∃ f outer, Trail.Inside (f :: outer) trail ∧ pattern ∈ f.binders := by
  induction trail with
  | nil =>
    simp only [Trail.binders, List.not_mem_nil, false_iff, not_exists, not_and]
    rintro f outer ⟨inner, h, -⟩
    simp at h
  | cons f outer ih =>
    rw [Trail.binders, List.mem_append]
    constructor
    · rintro (h | h)
      · exact ⟨f, outer, .refl _, h⟩
      · cases hf : f.label.isFunction with
        | true => simp [hf] at h
        | false =>
          rw [hf] at h
          obtain ⟨g, around, hinside, hg⟩ := ih.mp (by simpa using h)
          exact ⟨g, around, hinside.cons hf, hg⟩
    · rintro ⟨g, around, hinside, hg⟩
      rcases hinside.cons_inv with heq | ⟨hf, hinside⟩
      · cases heq
        exact Or.inl hg
      · rw [hf]
        exact Or.inr (by simpa using ih.mpr ⟨g, around, hinside, hg⟩)

theorem Frame.mem_binders_iff {f : Frame} (h : f.Formed) (pattern : Pattern) :
    pattern ∈ f.binders ↔ pattern ∈ f.label.params ∨
      (∃ part ∈ f.earlier, Loose Label.confines part pattern) ∨
        f.label = .block ∧ ∃ parts, .node (.binding pattern) parts ∈ f.earlier := by
  obtain ⟨hlabel, hearlier⟩ := h
  rw [Frame.binders, List.mem_append, leftOfParts_eq_flatMap, List.mem_flatMap]
  refine or_congr_right ⟨?_, ?_⟩
  · rintro ⟨part, hmem, hleft⟩
    rcases (mem_left_iff (hearlier part hmem) pattern).mp hleft with hloose | ⟨parts, rfl⟩
    · exact Or.inl ⟨part, hmem, hloose⟩
    · refine Or.inr ⟨hlabel.resolve_right fun hall => ?_, parts, hmem⟩
      simpa [isStatement] using hall _ hmem
  · rintro (⟨part, hmem, hloose⟩ | ⟨-, parts, hmem⟩)
    · exact ⟨part, hmem, (mem_left_iff (hearlier part hmem) pattern).mpr (Or.inl hloose)⟩
    · exact ⟨_, hmem, (mem_left_iff (hearlier _ hmem) pattern).mpr (Or.inr ⟨parts, rfl⟩)⟩

/-- Going outwards without leaving a function leads to no other caller. -/
theorem Trail.Inside.caller {rest trail : Trail} (h : Trail.Inside rest trail)
    (base : List String) : trail.caller base = Trail.caller base rest := by
  obtain ⟨inner, rfl, hinner⟩ := h
  induction inner with
  | nil => rfl
  | cons f inner ih =>
    rw [List.cons_append, Trail.caller_cons_of_not_function (hinner f List.mem_cons_self)]
    exact ih fun g hg => hinner g (List.mem_cons_of_mem _ hg)

/-- Where there is a caller, going outwards leads to a function. -/
theorem exists_function_inside {base : List String} {trail : Trail} {caller : String}
    (h : trail.caller base = some caller) :
    ∃ f outer, Trail.Inside (f :: outer) trail ∧ f.label.isFunction = true := by
  induction trail with
  | nil => simp [Trail.caller] at h
  | cons f outer ih =>
    cases hf : f.label.isFunction with
    | true => exact ⟨f, outer, .refl _, hf⟩
    | false =>
      rw [Trail.caller_cons_of_not_function hf] at h
      obtain ⟨g, around, hinside, hg⟩ := ih h
      exact ⟨g, around, hinside.cons hf, hg⟩

/-- **What is bound at a node in a function.** A walk that is there knows the patterns that are in
scope there, functions being among the constructs that hold `let` expressions. -/
theorem mem_binders_iff {base : List String} {trail : Trail} {caller : String}
    (hformed : ∀ f ∈ trail, f.Formed) (hcaller : trail.caller base = some caller)
    (pattern : Pattern) : pattern ∈ trail.binders ↔ InScope Label.confines trail pattern := by
  rw [mem_binders_iff_exists_inside]
  constructor
  · rintro ⟨f, outer, hinside, hf⟩
    have hmem : f ∈ trail := by
      obtain ⟨inner, rfl, -⟩ := hinside
      simp
    obtain ⟨label, earlier⟩ := f
    rcases (Frame.mem_binders_iff (hformed _ hmem) pattern).mp hf with
      hparams | ⟨part, hpart, hloose⟩ | ⟨rfl, parts, hparts⟩
    · cases label with
      | forBody p =>
        obtain rfl : pattern = p := by simpa [Label.params] using hparams
        exact .forLoop hinside
      | arm p =>
        obtain rfl : pattern = p := by simpa [Label.params] using hparams
        exact .arm hinside
      | closure params => exact .closure hinside hparams
      | function name params => exact .param hinside hparams
      | _ => simp [Label.params] at hparams
    · -- the function itself holds the names, if nothing further inside does
      rw [hinside.caller] at hcaller
      obtain ⟨holder, around, hholder, hfunction⟩ := exists_function_inside hcaller
      exact .letExpression hinside hpart hloose hholder (by simp [Label.confines, hfunction])
    · exact .letStatement hinside hparts
  · have hmem : ∀ {f : Frame} {outer : Trail}, Trail.Inside (f :: outer) trail → f.Formed := by
      rintro f outer ⟨inner, rfl, -⟩
      exact hformed f (by simp)
    intro h
    cases h with
    | param hinside hp =>
      exact ⟨_, _, hinside, (Frame.mem_binders_iff (hmem hinside) _).mpr (Or.inl hp)⟩
    | letStatement hinside hp =>
      exact ⟨_, _, hinside,
        (Frame.mem_binders_iff (hmem hinside) _).mpr (Or.inr (Or.inr ⟨rfl, _, hp⟩))⟩
    | letExpression hinside hpart hloose _ _ =>
      exact ⟨_, _, hinside,
        (Frame.mem_binders_iff (hmem hinside) _).mpr (Or.inr (Or.inl ⟨_, hpart, hloose⟩))⟩
    | forLoop hinside =>
      exact ⟨_, _, hinside,
        (Frame.mem_binders_iff (hmem hinside) _).mpr (Or.inl (by simp [Label.params]))⟩
    | closure hinside hp =>
      exact ⟨_, _, hinside, (Frame.mem_binders_iff (hmem hinside) _).mpr (Or.inl hp)⟩
    | arm hinside =>
      exact ⟨_, _, hinside,
        (Frame.mem_binders_iff (hmem hinside) _).mpr (Or.inl (by simp [Label.params]))⟩

end Outline

namespace Walk

open Outline

/-- **Calls through local values.** A call `name(...)` in a function contributes nothing where `name`
is bound by a pattern in scope. Everywhere else it contributes the function that `name` stands for in
the module and for the type around the call. -/
theorem direct_call_through_local (index : Index) (macros : Bool) (u : SourceUnit)
    {before after : List (Trail × Outline)} {trail : Trail} {place : Place} {name caller : String}
    {parts : List Outline}
    (hnode : nodesOf macros u =
      before ++ (trail, .node (.call place (some (.direct name))) parts) :: after)
    (hcaller : trail.caller u.module = some caller) :
    ∃ found : List Event,
      Walk.unit index macros u =
        (before.flatMap fun x => x.2.label.events index u x.1) ++ found ++
          (after.flatMap fun x => x.2.label.events index u x.1) ∧
      ((∃ pattern, InScope Label.confines trail pattern ∧ name ∈ Binders.ofPattern pattern) →
        found = []) ∧
      ((∀ pattern, InScope Label.confines trail pattern → name ∉ Binders.ofPattern pattern) →
        found = match index.resolvePath ⟨trail.module u.module, trail.selfType⟩ [name] with
          | none => []
          | some symbol =>
            if symbol.qualifiedName = "" then []
            else [.call caller ⟨symbol.qualifiedName, .ofPlace u.path place⟩]) := by
  have hformed : ∀ f ∈ trail, f.Formed :=
    (formed_of_mem_nodes (x := (trail, _)) (ofFile_plain macros u.file).1 (by simp)
      (hnode ▸ List.mem_append_right _ List.mem_cons_self)).2
  have hlocal : name ∈ namesOf trail.binders ↔
      ∃ pattern, InScope Label.confines trail pattern ∧ name ∈ Binders.ofPattern pattern := by
    simp [namesOf, mem_binders_iff hformed hcaller]
  refine ⟨(Label.call place (some (.direct name))).events index u trail, ?_, ?_, ?_⟩
  · rw [unit_eq_flatMap_nodes, hnode]
    simp [Outline.label]
  · intro h
    simp [Label.events, Trail.callee, hcaller, hlocal.mpr h]
  · intro h
    have hnot : name ∉ namesOf trail.binders := fun hmem => by
      obtain ⟨pattern, hscope, hname⟩ := hlocal.mp hmem
      exact h pattern hscope hname
    simp only [Label.events, Trail.callee, hcaller, hnot, if_false]
    cases index.resolvePath ⟨trail.module u.module, trail.selfType⟩ [name] <;> rfl

/-! ### A `let` in the head of a function -/

namespace LetInHead

/-- A pattern that is a name. -/
def named (name : Ident) : Pattern :=
  .binder [] name (.group [])

def f : Name := ⟨⟨"f", by decide⟩, by decide⟩

def x : Name := ⟨⟨"x", by decide⟩, by decide⟩

def y : Name := ⟨⟨"y", by decide⟩, by decide⟩

/-- A file with `fn y() {}` and, on its second line, `fn f(x: [u8; let y = 1]) { y() }`. -/
def unit : SourceUnit where
  crate := "demo"
  module := ["demo"]
  path := "x.rs"
  file :=
    { attrs := []
      items :=
        [.function false (.mk y [] [] []),
          .function false
            (.mk f [.binding [] (named y) (.node .plain [])] [named x]
              [.expr (.call ⟨2, 28⟩ [] (.path [] (.plain false) [y] []) [])])] }

/-- The trail of the call. -/
def trail : Trail :=
  [⟨.block, []⟩,
    ⟨.function f [named x], [.node (.condition (named y)) [.node .other []]]⟩,
    ⟨.other, [.node (.function y []) [.node .block []]]⟩]

/-- The call. -/
def call : Outline :=
  .node (.call ⟨2, 28⟩ (some (.direct "y"))) [.node .other []]

theorem nodesOf_unit : nodesOf true unit =
    (nodesOf true unit).take 7 ++ (trail, call) :: (nodesOf true unit).drop 8 := rfl

/-- The function holds the `let` in its head. -/
theorem inScope_confines : InScope Label.confines trail (named y) :=
  .letExpression (.cons rfl (.refl _)) (List.mem_singleton.mpr rfl) .here (.refl _) rfl

/-- Nothing else holds it: only the parameter is left. -/
theorem eq_of_inScope_opensScope {pattern : Pattern} (h : InScope Label.opensScope trail pattern) :
    pattern = named x := by
  have hinside : ∀ {g : Frame} {outer : Trail}, Trail.Inside (g :: outer) trail →
      g :: outer = trail ∨ g :: outer = trail.tail := by
    intro g outer h
    rcases h.cons_inv with heq | ⟨-, h⟩
    · exact Or.inl heq
    · rcases h.cons_inv with heq | ⟨hfunction, -⟩
      · exact Or.inr heq
      · simp [Label.isFunction] at hfunction
  cases h with
  | letExpression h hpart hloose hholder hopens =>
    rcases hinside h with heq | heq
    · cases heq
      simp at hpart
    · cases heq
      -- the head belongs to the function, which does not count here
      rcases hholder.cons_inv with heq | ⟨hfunction, -⟩
      · cases heq
        simp [Label.opensScope] at hopens
      · simp [Label.isFunction] at hfunction
  | param h hp =>
    rcases hinside h with heq | heq
    · cases heq
    · cases heq
      exact List.mem_singleton.mp hp
  | letStatement h hp =>
    rcases hinside h with heq | heq
    · cases heq
      simp at hp
    · cases heq
  | closure h hp => rcases hinside h with heq | heq <;> cases heq
  | forLoop h | arm h => rcases hinside h with heq | heq <;> cases heq

end LetInHead

theorem direct_call_through_local_letInHead :
    let index := Index.ofProgram ⟨[LetInHead.unit], []⟩
    LetInHead.trail.caller LetInHead.unit.module = some "demo.f" ∧
      InScope Label.confines LetInHead.trail (LetInHead.named LetInHead.y) ∧
      Walk.unit index true LetInHead.unit =
        (((nodesOf true LetInHead.unit).take 7).flatMap fun x =>
            x.2.label.events index LetInHead.unit x.1) ++
          ((nodesOf true LetInHead.unit).drop 8).flatMap fun x =>
            x.2.label.events index LetInHead.unit x.1 := by
  refine ⟨rfl, LetInHead.inScope_confines, ?_⟩
  obtain ⟨found, hunit, hbound, -⟩ := direct_call_through_local
    (Index.ofProgram ⟨[LetInHead.unit], []⟩) true LetInHead.unit LetInHead.nodesOf_unit rfl
  have hfound : found = [] :=
    hbound ⟨_, LetInHead.inScope_confines, List.mem_singleton.mpr rfl⟩
  rw [hunit, hfound, List.append_nil]

/-- The constructs that open a scope are not all that hold `let` expressions. Here a call in a
function names a function, and no pattern that they hold binds the name. The call is not listed, as
there is a `let` in the head of the function. -/
theorem letInHead_not_inScope :
    (LetInHead.trail, LetInHead.call) ∈ nodesOf true LetInHead.unit ∧
      LetInHead.trail.caller LetInHead.unit.module = some "demo.f" ∧
      (∀ pattern, InScope Label.opensScope LetInHead.trail pattern →
        "y" ∉ Binders.ofPattern pattern) ∧
      (Index.ofProgram ⟨[LetInHead.unit], []⟩).resolvePath
          ⟨LetInHead.trail.module LetInHead.unit.module, LetInHead.trail.selfType⟩ ["y"] =
        some (.inPackage "demo" "y") ∧
      Walk.unit (Index.ofProgram ⟨[LetInHead.unit], []⟩) true LetInHead.unit =
        [.declare "demo.y", .declare "demo.f"] := by
  refine ⟨?_, rfl, ?_, by decide +kernel, by decide +kernel⟩
  · rw [LetInHead.nodesOf_unit]
    exact List.mem_append_right _ List.mem_cons_self
  · intro pattern h
    rw [LetInHead.eq_of_inScope_opensScope h]
    decide

end Walk

end CallAtlas
