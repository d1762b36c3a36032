import CallAtlas.Proofs.Scoping

/-!
# Patterns and the names they bind

The names that a pattern binds are collected from all that it holds, expressions too. A pattern has
binders of its own, at any depth of groups and behind `@`, and it has expressions, in its types,
paths, ranges and constants. So what is collected are the binders of the pattern, in order, and in
between whatever the expressions bind somewhere inside. The two agree if and only if no expression
in the pattern binds a name.

They need not agree. The length of an array may be a block with a `let` in it, so a pattern with a
type may hide a function of the same name from the calls that follow.

## Main definitions

* `Pattern.binders` — the names in binding position.
* `Pattern.contents` — these and the expressions in between.
* `Expr.Within`, `Expr.Binds` — an expression stands in another; an expression binds a name.

## Main results

* `Binders.ofPattern_eq_contents`, `Binders.ofExpr_eq_inside` — what is collected, level by level.
* `Binders.mem_ofExpr_iff` — what an expression adds.
* `Binders.ofPattern_iff_binders` — what a pattern adds.
-/

namespace CallAtlas

/-! ### Patterns -/

namespace Pattern

mutual
/-- The names in binding position, in source order. -/
def binders : Pattern → List String
  | .binder _ name inner => name.text :: inner.binders
  | .group parts => bindersList parts
  | .embedded _ => []

/-- The names in binding position of several patterns. -/
def bindersList : List Pattern → List String
  | [] => []
  | p :: rest => p.binders ++ bindersList rest
end

mutual
/-- The names in binding position and the expressions, in source order. -/
def contents : Pattern → List (String ⊕ Expr)
  | .binder attrs name inner => .inl name.text :: (attrs.map .inr ++ inner.contents)
  | .group parts => contentsList parts
  | .embedded value => [.inr value]

/-- The names and the expressions of several patterns. -/
def contentsList : List Pattern → List (String ⊕ Expr)
  | [] => []
  | p :: rest => p.contents ++ contentsList rest
end

mutual
/-- The names among the contents are the binders. -/
theorem filterMap_contents_getLeft? : ∀ p : Pattern,
    p.contents.filterMap Sum.getLeft? = p.binders
  | .binder attrs name inner => by
    rw [contents, binders]
    simp [filterMap_contents_getLeft? inner]
  | .group parts => by rw [contents, binders, filterMap_contentsList_getLeft? parts]
  | .embedded _ => rfl

theorem filterMap_contentsList_getLeft? : ∀ parts : List Pattern,
    (contentsList parts).filterMap Sum.getLeft? = bindersList parts
  | [] => rfl
  | p :: rest => by
    rw [contentsList, bindersList, List.filterMap_append, filterMap_contents_getLeft? p,
      filterMap_contentsList_getLeft? rest]
end

mutual
/-- The rest are the expressions. -/
theorem filterMap_contents_getRight? : ∀ p : Pattern,
    p.contents.filterMap Sum.getRight? = p.exprs
  | .binder attrs name inner => by
    rw [contents, exprs, List.filterMap_cons_none rfl, List.filterMap_append, List.filterMap_map,
      filterMap_contents_getRight? inner]
    simp [Function.comp_def]
  | .group parts => by rw [contents, exprs, filterMap_contentsList_getRight? parts]
  | .embedded _ => rfl

theorem filterMap_contentsList_getRight? : ∀ parts : List Pattern,
    (contentsList parts).filterMap Sum.getRight? = exprsList parts
  | [] => rfl
  | p :: rest => by
    rw [contentsList, exprsList, List.filterMap_append, filterMap_contents_getRight? p,
      filterMap_contentsList_getRight? rest]
end

theorem inl_mem_contents_iff {p : Pattern} {name : String} :
    .inl name ∈ p.contents ↔ name ∈ p.binders := by
  simp [← filterMap_contents_getLeft?]

theorem inr_mem_contents_iff {p : Pattern} {e : Expr} : .inr e ∈ p.contents ↔ e ∈ p.exprs := by
  simp [← filterMap_contents_getRight?]

end Pattern

/-! ### Expressions -/

/-- The patterns and the expressions right inside a statement, in source order. An item has none:
what it binds is not seen outside. -/
def Stmt.inside : Stmt → List (Pattern ⊕ Expr)
  | .binding attrs pattern value otherwise =>
    attrs.map .inr ++ [.inl pattern, .inr value, .inr otherwise]
  | .item _ => []
  | .expr value => [.inr value]

/-- The patterns and the expressions right inside an arm. -/
def Arm.inside : Arm → List (Pattern ⊕ Expr)
  | .mk attrs pattern guard body => attrs.map .inr ++ [.inl pattern, .inr guard, .inr body]

namespace Expr

/-- The patterns and the expressions right inside an expression, in source order. The arguments of a
macro are left out. -/
def inside : Expr → List (Pattern ⊕ Expr)
  | .path attrs _ _ args => attrs.map .inr ++ args.map .inr
  | .call _ attrs callee args => attrs.map .inr ++ .inr callee :: args.map .inr
  | .methodCall _ attrs receiver _ args => attrs.map .inr ++ .inr receiver :: args.map .inr
  | .block attrs body => attrs.map .inr ++ body.flatMap Stmt.inside
  | .binding attrs pattern value => attrs.map .inr ++ [.inl pattern, .inr value]
  | .branch attrs condition body otherwise =>
    attrs.map .inr ++ .inr condition :: (body.flatMap Stmt.inside ++ [.inr otherwise])
  | .whileLoop attrs condition body =>
    attrs.map .inr ++ .inr condition :: body.flatMap Stmt.inside
  | .forLoop attrs pattern source body =>
    attrs.map .inr ++ .inl pattern :: .inr source :: body.flatMap Stmt.inside
  | .closure attrs params output body =>
    attrs.map .inr ++ params.map .inl ++ output.map .inr ++ [.inr body]
  | .choice attrs subject arms => attrs.map .inr ++ .inr subject :: arms.flatMap Arm.inside
  | .invocation attrs _ _ _ => attrs.map .inr
  | .node _ parts => parts.map .inr

/-- An expression stands in another, where it may stand in a pattern on the way. -/
inductive Within : Expr → Expr → Prop where
  | refl (e : Expr) : Within e e
  | inExpr {e part found : Expr} : .inr part ∈ e.inside → Within part found → Within e found
  | inPattern {e part found : Expr} {p : Pattern} :
    .inl p ∈ e.inside → part ∈ p.exprs → Within part found → Within e found

/-- An expression binds a name: it is a binder of a pattern somewhere inside. -/
def Binds (e : Expr) (name : String) : Prop :=
  ∃ found p, e.Within found ∧ .inl p ∈ found.inside ∧ name ∈ p.binders

end Expr

namespace Binders

open Outline (namesOf ofPatterns_eq_namesOf)

theorem ofExprs_eq_flatMap (es : List Expr) : ofExprs es = es.flatMap ofExpr := by
  induction es with
  | nil => rfl
  | cons e rest ih => rw [ofExprs, ih, List.flatMap_cons]

mutual
/-- What is collected from a pattern, content by content. -/
theorem ofPattern_eq_contents : ∀ p : Pattern,
    ofPattern p = p.contents.flatMap (Sum.elim (fun name => [name]) ofExpr)
  | .binder attrs name inner => by
    rw [ofPattern, ofExprs_eq_flatMap, ofPattern_eq_contents inner, Pattern.contents]
    simp [List.flatMap_map]
  | .group parts => by rw [ofPattern, Pattern.contents, ofPatterns_eq_contentsList parts]
  | .embedded value => by simp [ofPattern, Pattern.contents]

theorem ofPatterns_eq_contentsList : ∀ parts : List Pattern,
    ofPatterns parts = (Pattern.contentsList parts).flatMap (Sum.elim (fun name => [name]) ofExpr)
  | [] => rfl
  | p :: rest => by
    rw [ofPatterns, Pattern.contentsList, List.flatMap_append, ofPattern_eq_contents p,
      ofPatterns_eq_contentsList rest]
end

theorem ofArms_eq_inside (arms : List Arm) :
    ofArms arms = (arms.flatMap Arm.inside).flatMap (Sum.elim ofPattern ofExpr) := by
  induction arms with
  | nil => rfl
  | cons arm rest ih =>
    obtain ⟨attrs, pattern, guard, body⟩ := arm
    simp [ofArms, ih, Arm.inside, ofExprs_eq_flatMap, List.flatMap_map]

theorem ofStmts_eq_inside (body : List Stmt) :
    ofStmts body = (body.flatMap Stmt.inside).flatMap (Sum.elim ofPattern ofExpr) := by
  induction body with
  | nil => rfl
  | cons stmt rest ih =>
    cases stmt <;> simp [ofStmts, ih, Stmt.inside, ofExprs_eq_flatMap, List.flatMap_map]

/-- What is collected from an expression, part by part. -/
theorem ofExpr_eq_inside (e : Expr) :
    ofExpr e = e.inside.flatMap (Sum.elim ofPattern ofExpr) := by
  cases e <;>
    simp [ofExpr, Expr.inside, ofExprs_eq_flatMap, ofPatterns_eq_namesOf, namesOf,
      ofArms_eq_inside, ofStmts_eq_inside, List.flatMap_map]

/-- What a pattern binds, its own binders apart, its expressions bind. -/
theorem mem_ofPattern_iff {p : Pattern} {name : String} :
    name ∈ ofPattern p ↔ name ∈ p.binders ∨ ∃ e ∈ p.exprs, name ∈ ofExpr e := by
  rw [ofPattern_eq_contents, List.mem_flatMap, Sum.exists]
  simp [Pattern.inl_mem_contents_iff, Pattern.inr_mem_contents_iff]

end Binders

/-! ### Names deep inside -/

mutual
theorem Pattern.sizeOf_lt_of_mem_exprs {e : Expr} : ∀ p : Pattern, e ∈ p.exprs →
    sizeOf e < sizeOf p
  | .binder attrs name inner, h => by
    rcases List.mem_append.mp h with h | h
    · have hlt := List.sizeOf_lt_of_mem h
      simp only [Pattern.binder.sizeOf_spec]
      omega
    · have hlt := inner.sizeOf_lt_of_mem_exprs h
      simp only [Pattern.binder.sizeOf_spec]
      omega
  | .group parts, h => by
    have hlt := Pattern.sizeOf_lt_of_mem_exprsList parts h
    simp only [Pattern.group.sizeOf_spec]
    omega
  | .embedded value, h => by
    obtain rfl := List.mem_singleton.mp h
    simp

theorem Pattern.sizeOf_lt_of_mem_exprsList {e : Expr} : ∀ parts : List Pattern,
    e ∈ exprsList parts → sizeOf e < sizeOf parts
  | p :: rest, h => by
    rcases List.mem_append.mp h with h | h
    · have hlt := p.sizeOf_lt_of_mem_exprs h
      simp only [List.cons.sizeOf_spec]
      omega
    · have hlt := sizeOf_lt_of_mem_exprsList rest h
      simp only [List.cons.sizeOf_spec]
      omega
end

section Sizes

variable {x : Pattern ⊕ Expr}

theorem sizeOf_lt_of_mem_map_inr {es : List Expr} (h : x ∈ es.map .inr) :
    x.elim sizeOf sizeOf < sizeOf es := by
  obtain ⟨e, he, rfl⟩ := List.mem_map.mp h
  exact List.sizeOf_lt_of_mem he

theorem sizeOf_lt_of_mem_map_inl {ps : List Pattern} (h : x ∈ ps.map .inl) :
    x.elim sizeOf sizeOf < sizeOf ps := by
  obtain ⟨p, hp, rfl⟩ := List.mem_map.mp h
  exact List.sizeOf_lt_of_mem hp

theorem Stmt.sizeOf_lt_of_mem_inside {body : List Stmt} (h : x ∈ body.flatMap inside) :
    x.elim sizeOf sizeOf < sizeOf body := by
  obtain ⟨stmt, hstmt, hx⟩ := List.mem_flatMap.mp h
  have hbody := List.sizeOf_lt_of_mem hstmt
  cases stmt <;> grind [inside, → sizeOf_lt_of_mem_map_inr]

theorem Arm.sizeOf_lt_of_mem_inside {arms : List Arm} (h : x ∈ arms.flatMap inside) :
    x.elim sizeOf sizeOf < sizeOf arms := by
  obtain ⟨arm, harm, hx⟩ := List.mem_flatMap.mp h
  have harms := List.sizeOf_lt_of_mem harm
  obtain ⟨attrs, pattern, guard, body⟩ := arm
  grind [inside, → sizeOf_lt_of_mem_map_inr]

theorem Expr.sizeOf_lt_of_mem_inside {e : Expr} (h : x ∈ e.inside) :
    x.elim sizeOf sizeOf < sizeOf e := by
  cases e <;>
    grind [inside, → sizeOf_lt_of_mem_map_inr, → sizeOf_lt_of_mem_map_inl,
      → Stmt.sizeOf_lt_of_mem_inside, → Arm.sizeOf_lt_of_mem_inside]

end Sizes

namespace Binders

open Outline (namesOf ofPatterns_eq_namesOf)

/-- What an expression inside of another binds, the other binds. -/
theorem mem_ofExpr_of_within {e found : Expr} {name : String} (h : e.Within found)
    (hname : name ∈ ofExpr found) : name ∈ ofExpr e := by
  induction h with
  | refl e => exact hname
  | inExpr hpart _ ih =>
    rw [ofExpr_eq_inside]
    exact List.mem_flatMap.mpr ⟨_, hpart, ih hname⟩
  | inPattern hp hpart _ ih =>
    rw [ofExpr_eq_inside]
    exact List.mem_flatMap.mpr ⟨_, hp, mem_ofPattern_iff.mpr (Or.inr ⟨_, hpart, ih hname⟩)⟩

theorem binds_of_mem_ofExpr {e : Expr} {name : String} (h : name ∈ ofExpr e) : e.Binds name := by
  rw [ofExpr_eq_inside, List.mem_flatMap] at h
  obtain ⟨x, hx, hname⟩ := h
  have hsize := Expr.sizeOf_lt_of_mem_inside hx
  cases x with
  | inl p =>
    rcases mem_ofPattern_iff.mp hname with hbinder | ⟨part, hpart, hname⟩
    · exact ⟨e, p, .refl e, hx, hbinder⟩
    · have hlt := p.sizeOf_lt_of_mem_exprs hpart
      obtain ⟨found, q, hwithin, hq, hbinder⟩ := binds_of_mem_ofExpr hname
      exact ⟨found, q, .inPattern hx hpart hwithin, hq, hbinder⟩
  | inr part =>
    obtain ⟨found, p, hwithin, hp, hbinder⟩ := binds_of_mem_ofExpr hname
    exact ⟨found, p, .inExpr hx hwithin, hp, hbinder⟩
termination_by sizeOf e
decreasing_by
  · exact Nat.lt_trans hlt hsize
  · exact hsize

/-- **What an expression adds.** The names are the binders of patterns somewhere inside. -/
theorem mem_ofExpr_iff {e : Expr} {name : String} : name ∈ ofExpr e ↔ e.Binds name := by
  refine ⟨binds_of_mem_ofExpr, ?_⟩
  rintro ⟨found, p, hwithin, hp, hbinder⟩
  refine mem_ofExpr_of_within hwithin ?_
  rw [ofExpr_eq_inside]
  exact List.mem_flatMap.mpr ⟨_, hp, mem_ofPattern_iff.mpr (Or.inl hbinder)⟩

/-- Nothing is added by expressions that bind no names. -/
theorem flatMap_ofExpr_eq_nil_iff {es : List Expr} :
    es.flatMap ofExpr = [] ↔ ∀ e ∈ es, ∀ name, ¬ e.Binds name := by
  rw [List.flatMap_eq_nil_iff]
  simp only [List.eq_nil_iff_forall_not_mem, mem_ofExpr_iff]

theorem ofPattern_ofExprs (es : List Expr) : ofPattern (.ofExprs es) = es.flatMap ofExpr := by
  rw [Pattern.ofExprs, ofPattern, ofPatterns_eq_namesOf, namesOf, List.flatMap_map]
  rfl

/-- The binders come in order, in between what the expressions add. -/
theorem binders_sublist_ofPattern (p : Pattern) : p.binders.Sublist (ofPattern p) := by
  rw [ofPattern_eq_contents, ← Pattern.filterMap_contents_getLeft?]
  induction p.contents with
  | nil => exact List.Sublist.refl _
  | cons x rest ih =>
    cases x with
    | inl name => exact ih.cons_cons name
    | inr e => exact ih.trans (List.sublist_append_right (ofExpr e) _)

/-- Each name is collected as often as it is bound. -/
theorem ofPattern_perm (p : Pattern) :
    (ofPattern p).Perm (p.binders ++ p.exprs.flatMap ofExpr) := by
  rw [ofPattern_eq_contents, ← Pattern.filterMap_contents_getLeft?,
    ← Pattern.filterMap_contents_getRight?]
  induction p.contents with
  | nil => exact List.Perm.refl _
  | cons x rest ih =>
    cases x with
    | inl name => exact ih.cons name
    | inr e =>
      have hmove := List.perm_append_comm_assoc (ofExpr e) (rest.filterMap Sum.getLeft?)
        ((rest.filterMap Sum.getRight?).flatMap ofExpr)
      exact (ih.append_left (ofExpr e)).trans hmove

/-- The names of a pattern are its binders if its expressions bind none. -/
theorem ofPattern_eq_binders_iff {p : Pattern} :
    ofPattern p = p.binders ↔ ∀ e ∈ p.exprs, ∀ name, ¬ e.Binds name := by
  have hlength := (ofPattern_perm p).length_eq
  rw [List.length_append] at hlength
  rw [← flatMap_ofExpr_eq_nil_iff, ← List.length_eq_zero_iff]
  constructor
  · intro h
    rw [h] at hlength
    omega
  · intro h
    refine ((binders_sublist_ofPattern p).eq_of_length ?_).symm
    omega

/-- **The names of a pattern.** The binders of a pattern are collected in order, with the names in
between that its expressions bind, in types, paths and constants. So exactly the binders are
collected if and only if no expression in the pattern binds a name, and a type behind a pattern
makes no difference if and only if none of its expressions does. -/
theorem ofPattern_binders_and_inside (p : Pattern) :
    p.binders.Sublist (ofPattern p) ∧
      (ofPattern p).Perm (p.binders ++ p.exprs.flatMap ofExpr) ∧
      (∀ name, name ∈ ofPattern p ↔ name ∈ p.binders ∨ ∃ e ∈ p.exprs, e.Binds name) ∧
      (ofPattern p = p.binders ↔ ∀ e ∈ p.exprs, ∀ name, ¬ e.Binds name) ∧
      (∀ types : List Expr, ofPattern (.group [p, .ofExprs types]) = ofPattern p ↔
        ∀ e ∈ types, ∀ name, ¬ e.Binds name) ∧
      ∀ attrs types : List Expr,
        ofPattern (.group [.ofExprs attrs, p, .ofExprs types]) =
            ofPattern (.group [.ofExprs attrs, p]) ↔
          ∀ e ∈ types, ∀ name, ¬ e.Binds name := by
  refine ⟨binders_sublist_ofPattern p, ofPattern_perm p, fun name => ?_, ofPattern_eq_binders_iff,
    fun types => ?_, fun attrs types => ?_⟩
  · simp only [mem_ofPattern_iff, mem_ofExpr_iff]
  · rw [← flatMap_ofExpr_eq_nil_iff, ofPattern, ofPatterns_eq_namesOf]
    simp [namesOf, ofPattern_ofExprs]
  · rw [← flatMap_ofExpr_eq_nil_iff, ofPattern, ofPattern, ofPatterns_eq_namesOf,
      ofPatterns_eq_namesOf]
    simp [namesOf, ofPattern_ofExprs]

end Binders

namespace Walk

open LetInHead (f x y named)

namespace LetInType

/-- The block `{ let y = 1; 3 }`. -/
def length : Expr :=
  .block [] [.binding [] (.group [named y, .ofExprs []]) (.node .plain []) .nothing,
    .expr (.node .plain [])]

/-- The name `x` with the type `[u8; { let y = 1; 3 }]`. -/
def ascribed : Pattern :=
  .group [named x, .ofExprs [length]]

/-- A file with `fn y() {}` and, on its second line, a function `f` where a `let` with the pattern
is followed by the call `y()`. -/
def unit (pattern : Pattern) : SourceUnit where
  crate := "demo"
  module := ["demo"]
  path := "x.rs"
  file :=
    { attrs := []
      items :=
        [.function false (.mk y [] [] []),
          .function false (.mk f [] []
            [.binding [] pattern (.node .plain []) .nothing,
              .expr (.call ⟨2, 50⟩ [] (.path [] (.plain false) [y] []) [])])] }

end LetInType

/-- A type adds a name to those of its pattern. Both patterns have the binder `x` only, but the call
of `y` that follows is listed just for the one without a type. -/
theorem unit_letInType :
    LetInType.ascribed.binders = ["x"] ∧ Binders.ofPattern LetInType.ascribed = ["x", "y"] ∧
      unit (Index.ofProgram ⟨[LetInType.unit LetInType.ascribed], []⟩) true
          (LetInType.unit LetInType.ascribed) =
        [.declare "demo.y", .declare "demo.f"] ∧
      (named x).binders = ["x"] ∧
      unit (Index.ofProgram ⟨[LetInType.unit (named x)], []⟩) true (LetInType.unit (named x)) =
        [.declare "demo.y", .declare "demo.f",
          .call "demo.f" ⟨"demo.y", .ofPlace "x.rs" ⟨2, 50⟩⟩] := by
  refine ⟨?_, ?_, ?_, ?_, ?_⟩ <;> decide

end Walk

end CallAtlas
