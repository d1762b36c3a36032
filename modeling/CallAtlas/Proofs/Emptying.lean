import CallAtlas.Proofs.Indexed

/-!
# Emptying the body of a function

A program with the body of one function replaced by an empty one. The list of declarations is read
off the items alone, and not off expressions. So there are two kinds of bodies. One that stands in
an expression is not looked into, and emptying it changes no declaration: it leaves the skeleton of
the program as it was. One that stands among items takes exactly its own declarations out of the
list, in one piece.

## Main definitions

* `Program.skeleton` — a program without its expressions.
* `Program.Emptied` — a program and the same with one body emptied.
* `Cut` — a list and the same without one piece.

## Main results

* `Declaration.ofProgram_skeleton` — expressions declare nothing.
* `Declaration.ofProgram_emptied` — the declarations of a body are one piece of those of the program.
-/

namespace CallAtlas

/-! ### Programs without expressions -/

mutual
/-- An item without the expressions in it, and without what an `impl` block for a type without a name
holds. -/
def Item.skeleton : Item → Item
  | .function isPublic f => .function isPublic f.skeleton
  | .type name _ => .type name []
  | .trait isPublic name _ members => .trait isPublic name [] (Member.skeletons members)
  | .impl form ofTrait _ members =>
    match form.lastName? with
    | some _ => .impl form ofTrait [] (Member.skeletons members)
    | none => .other []
  | .module attributes name _ items => .module attributes name [] (Item.skeletons items)
  | .moduleFile attributes name _ => .moduleFile attributes name []
  | .use tree _ => .use tree []
  | .externCrate name newName _ => .externCrate name newName []
  | .other _ => .other []

/-- Several items without expressions. -/
def Item.skeletons : List Item → List Item
  | [] => []
  | item :: rest => item.skeleton :: Item.skeletons rest

/-- A function without the expressions in it. -/
def Function.skeleton : Function → Function
  | .mk name _ _ body => .mk name [] [] (Stmt.skeletons body)

/-- The items among some statements, without expressions. -/
def Stmt.skeletons : List Stmt → List Stmt
  | [] => []
  | .item item :: rest => .item item.skeleton :: Stmt.skeletons rest
  | _ :: rest => Stmt.skeletons rest

/-- The functions among some members, without expressions. -/
def Member.skeletons : List Member → List Member
  | [] => []
  | .function isPublic f :: rest => .function isPublic f.skeleton :: Member.skeletons rest
  | .required name _ :: rest => .required name [] :: Member.skeletons rest
  | .other _ :: rest => Member.skeletons rest
end

/-- A file without expressions. -/
def SourceUnit.skeleton (u : SourceUnit) : SourceUnit :=
  { u with file := { attrs := [], items := Item.skeletons u.file.items } }

/-- A program without expressions. -/
def Program.skeleton (p : Program) : Program :=
  { p with units := p.units.map SourceUnit.skeleton }

namespace Declaration

mutual
theorem ofItem_skeleton (path : List String) : ∀ item : Item,
    ofItem path item.skeleton = ofItem path item
  | .function isPublic (.mk name header params body) => by
    rw [Item.skeleton, Function.skeleton, ofItem, ofItem, ofStmts_skeletons path body]
  | .trait isPublic name parts members => by
    rw [Item.skeleton, ofItem, ofItem, ofTraitMembers_skeletons path name.text isPublic members]
  | .impl form ofTrait parts members => by
    rw [Item.skeleton]
    split
    · next name hname =>
      rw [ofItem, ofItem, hname]
      exact ofImplMembers_skeletons path name.text ofTrait members
    · next hname => rw [ofItem, ofItem, hname]
  | .module attributes name parts items => by
    rw [Item.skeleton, ofItem, ofItem, ofItems_skeletons (path ++ [name.text]) items]
  | .type _ _ | .moduleFile _ _ _ | .use _ _ | .externCrate _ _ _ | .other _ => by
    simp only [Item.skeleton, ofItem]

theorem ofItems_skeletons (path : List String) : ∀ items : List Item,
    ofItems path (Item.skeletons items) = ofItems path items
  | [] => rfl
  | item :: rest => by
    rw [Item.skeletons, ofItems, ofItems, ofItem_skeleton path item, ofItems_skeletons path rest]

theorem ofStmts_skeletons (path : List String) : ∀ body : List Stmt,
    ofStmts path (Stmt.skeletons body) = ofStmts path body
  | [] => rfl
  | .item item :: rest => by
    rw [Stmt.skeletons, ofStmts, ofStmts, ofItem_skeleton path item, ofStmts_skeletons path rest]
  | .binding _ _ _ _ :: rest | .expr _ :: rest => by
    simp only [Stmt.skeletons, ofStmts, ofStmts_skeletons path rest]

theorem ofTraitMembers_skeletons (path : List String) (type : String) (isPublic : Bool) :
    ∀ members : List Member, ofTraitMembers path type isPublic (Member.skeletons members) =
      ofTraitMembers path type isPublic members
  | [] => rfl
  | .function _ (.mk name header params body) :: rest => by
    rw [Member.skeletons, Function.skeleton, ofTraitMembers, ofTraitMembers,
      ofStmts_skeletons path body, ofTraitMembers_skeletons path type isPublic rest]
  | .required _ _ :: rest => by
    rw [Member.skeletons, ofTraitMembers, ofTraitMembers,
      ofTraitMembers_skeletons path type isPublic rest]
  | .other _ :: rest => by
    rw [Member.skeletons, ofTraitMembers, ofTraitMembers_skeletons path type isPublic rest]

theorem ofImplMembers_skeletons (path : List String) (type : String) (ofTrait : Bool) :
    ∀ members : List Member, ofImplMembers path type ofTrait (Member.skeletons members) =
      ofImplMembers path type ofTrait members
  | [] => rfl
  | .function _ (.mk name header params body) :: rest => by
    rw [Member.skeletons, Function.skeleton, ofImplMembers, ofImplMembers,
      ofStmts_skeletons path body, ofImplMembers_skeletons path type ofTrait rest]
  | .required _ _ :: rest => by
    simp only [Member.skeletons, ofImplMembers, ofImplMembers_skeletons path type ofTrait rest]
  | .other _ :: rest => by
    simp only [Member.skeletons, ofImplMembers, ofImplMembers_skeletons path type ofTrait rest]
end

/-- **Expressions declare nothing.** -/
theorem ofProgram_skeleton (p : Program) : ofProgram p.skeleton = ofProgram p := by
  have hunit : ∀ u : SourceUnit, ofUnit u.skeleton = ofUnit u := by
    intro u
    rw [ofUnit, ofUnit]
    congr 2
    exact ofItems_skeletons u.module u.file.items
  rw [ofProgram, ofProgram, Program.skeleton, List.flatMap_map]
  simp only [hunit]

end Declaration

/-! ### Lists without one piece -/

/-- The last list is the one before without a piece. -/
def Cut {α : Type} (piece full rest : List α) : Prop :=
  ∃ before after, full = before ++ piece ++ after ∧ rest = before ++ after

namespace Cut

variable {α : Type} {piece full rest : List α}

theorem whole (piece : List α) : Cut piece piece [] :=
  ⟨[], [], by simp, rfl⟩

theorem append_left (h : Cut piece full rest) (front : List α) :
    Cut piece (front ++ full) (front ++ rest) := by
  obtain ⟨before, after, rfl, rfl⟩ := h
  exact ⟨front ++ before, after, by simp, by simp⟩

theorem append_right (h : Cut piece full rest) (back : List α) :
    Cut piece (full ++ back) (rest ++ back) := by
  obtain ⟨before, after, rfl, rfl⟩ := h
  exact ⟨before, after ++ back, by simp, by simp⟩

theorem cons (h : Cut piece full rest) (x : α) : Cut piece (x :: full) (x :: rest) :=
  h.append_left [x]

theorem mem_iff (h : Cut piece full rest) {x : α} : x ∈ full ↔ x ∈ piece ∨ x ∈ rest := by
  obtain ⟨before, after, rfl, rfl⟩ := h
  simp only [List.mem_append]
  rw [or_assoc, or_left_comm]

/-- A view that shows nothing of the piece is the same for both lists. -/
theorem filterMap_eq (h : Cut piece full rest) {β : Type} {f : α → Option β}
    (hf : ∀ x ∈ piece, f x = none) : full.filterMap f = rest.filterMap f := by
  obtain ⟨before, after, rfl, rfl⟩ := h
  have hpiece : piece.filterMap f = [] := List.filterMap_eq_nil_iff.mpr hf
  rw [List.filterMap_append, List.filterMap_append, List.filterMap_append, hpiece, List.append_nil]

end Cut

/-! ### Programs with one body emptied -/

mutual
/-- The second item is the first with the given body of one function emptied. The items stand in a
module, and the function in the module `hole`. The function stands in the open: on the way down to
it are modules, bodies of functions, traits and `impl` blocks of types with a name. -/
inductive Item.Emptied (body : List Stmt) (hole : List String) :
    List String → Item → Item → Prop where
  | function {path : List String} {isPublic : Bool} {f f' : Function} :
    Function.Emptied body hole path f f' →
      Item.Emptied body hole path (.function isPublic f) (.function isPublic f')
  | trait {path : List String} {isPublic isPublic' : Bool} {name : Ident} {parts : List Expr}
      {before after : List Member} {f f' : Function} :
    Function.Emptied body hole path f f' →
      Item.Emptied body hole path
        (.trait isPublic name parts (before ++ .function isPublic' f :: after))
        (.trait isPublic name parts (before ++ .function isPublic' f' :: after))
  | impl {path : List String} {form : TypeForm} {ofTrait isPublic : Bool} {parts : List Expr}
      {before after : List Member} {f f' : Function} :
    form.lastName?.isSome → Function.Emptied body hole path f f' →
      Item.Emptied body hole path
        (.impl form ofTrait parts (before ++ .function isPublic f :: after))
        (.impl form ofTrait parts (before ++ .function isPublic f' :: after))
  | module {path : List String} {attributes : ModuleAttributes} {name : Ident} {parts : List Expr}
      {before after : List Item} {item item' : Item} :
    Item.Emptied body hole (path ++ [name.text]) item item' →
      Item.Emptied body hole path
        (.module attributes name parts (before ++ item :: after))
        (.module attributes name parts (before ++ item' :: after))

/-- The second function is the first with its body emptied, or the body of a function in it. -/
inductive Function.Emptied (body : List Stmt) (hole : List String) :
    List String → Function → Function → Prop where
  | whole {name : Name} {header : List Expr} {params : List Pattern} :
    Function.Emptied body hole hole (.mk name header params body) (.mk name header params [])
  | inside {path : List String} {name : Name} {header : List Expr} {params : List Pattern}
      {before after : List Stmt} {item item' : Item} :
    Item.Emptied body hole path item item' →
      Function.Emptied body hole path
        (.mk name header params (before ++ .item item :: after))
        (.mk name header params (before ++ .item item' :: after))
end

/-- The second program is the first with the given body of one function in the open emptied, which
stands in the module `hole`. -/
inductive Program.Emptied (body : List Stmt) (hole : List String) : Program → Program → Prop where
  | intro {before after : List SourceUnit} {externs : List String} {u : SourceUnit}
      {attrs : List Expr} {front back : List Item} {item item' : Item} :
    Item.Emptied body hole u.module item item' →
      Program.Emptied body hole
        ⟨before ++ { u with file := ⟨attrs, front ++ item :: back⟩ } :: after, externs⟩
        ⟨before ++ { u with file := ⟨attrs, front ++ item' :: back⟩ } :: after, externs⟩

namespace Declaration

variable {body : List Stmt} {hole : List String}

theorem ofItems_append (path : List String) (items others : List Item) :
    ofItems path (items ++ others) = ofItems path items ++ ofItems path others := by
  induction items with
  | nil => rfl
  | cons item rest ih => simp only [List.cons_append, ofItems, ih, List.append_assoc]

/-- A piece that is cut out of what one item declares is cut out of what several declare. -/
theorem ofItems_cut {path : List String} {piece : List Declaration} {item item' : Item}
    (front back : List Item) (h : Cut piece (ofItem path item) (ofItem path item')) :
    Cut piece (ofItems path (front ++ item :: back)) (ofItems path (front ++ item' :: back)) := by
  rw [ofItems_append, ofItems_append, ofItems, ofItems]
  exact (h.append_right _).append_left _

theorem ofStmts_append (path : List String) (stmts others : List Stmt) :
    ofStmts path (stmts ++ others) = ofStmts path stmts ++ ofStmts path others := by
  induction stmts with
  | nil => rfl
  | cons stmt rest ih => cases stmt <;> simp only [List.cons_append, ofStmts, ih, List.append_assoc]

theorem ofTraitMembers_append (path : List String) (type : String) (isPublic : Bool)
    (members others : List Member) : ofTraitMembers path type isPublic (members ++ others) =
      ofTraitMembers path type isPublic members ++ ofTraitMembers path type isPublic others := by
  induction members with
  | nil => rfl
  | cons member rest ih =>
    cases member with
    | function isPublic' f => cases f; simp [ofTraitMembers, ih]
    | _ => simp [ofTraitMembers, ih]

theorem ofImplMembers_append (path : List String) (type : String) (ofTrait : Bool)
    (members others : List Member) : ofImplMembers path type ofTrait (members ++ others) =
      ofImplMembers path type ofTrait members ++ ofImplMembers path type ofTrait others := by
  induction members with
  | nil => rfl
  | cons member rest ih =>
    cases member with
    | function isPublic f => cases f; simp [ofImplMembers, ih]
    | _ => simp [ofImplMembers, ih]

theorem ofItem_function (path : List String) (isPublic : Bool) (f : Function) :
    ofItem path (.function isPublic f) =
      .function (modulePath path) f.name.text isPublic :: ofStmts path f.body := by
  cases f
  rfl

theorem ofTraitMember_function (path : List String) (type : String) (isPublic isPublic' : Bool)
    (f : Function) : ofTraitMember path type isPublic (.function isPublic' f) =
      [.method (modulePath path) type f.name.text isPublic,
        .traitMethod (modulePath path) f.name.text] := by
  cases f
  rfl

theorem ofImplMember_function (path : List String) (type : String) (ofTrait isPublic : Bool)
    (f : Function) : ofImplMember path type ofTrait (.function isPublic f) =
      [.method (modulePath path) type f.name.text (ofTrait || isPublic)] := by
  cases f
  rfl

-- Around the hole nothing changes: what stands before and after it on one level is appended.
mutual
theorem ofItem_emptied : ∀ {path : List String} {item item' : Item},
    Item.Emptied body hole path item item' →
      Cut (ofStmts hole body) (ofItem path item) (ofItem path item')
  | path, _, _, .function h => by
    obtain ⟨hname, hcut⟩ := ofBody_emptied h
    rw [ofItem_function, ofItem_function, hname]
    exact hcut.cons _
  | path, _, _, .trait h => by
    obtain ⟨hname, hcut⟩ := ofBody_emptied h
    rw [ofItem, ofItem, ofTraitMembers_append, ofTraitMembers_append, ofTraitMembers_function,
      ofTraitMembers_function, ofTraitMember_function, ofTraitMember_function, hname]
    exact (((hcut.append_right _).append_left _).append_left _).cons _
  | path, _, _, .impl hform h => by
    obtain ⟨hname, hcut⟩ := ofBody_emptied h
    obtain ⟨name, hform⟩ := Option.isSome_iff_exists.mp hform
    simp only [ofItem, hform]
    rw [ofImplMembers_append, ofImplMembers_append, ofImplMembers_function,
      ofImplMembers_function, ofImplMember_function, ofImplMember_function, hname]
    exact ((hcut.append_right _).append_left _).append_left _
  | path, _, _, .module h => by
    rw [ofItem, ofItem]
    exact ((ofItems_cut _ _ (ofItem_emptied h)).cons _).cons _

theorem ofBody_emptied : ∀ {path : List String} {f f' : Function},
    Function.Emptied body hole path f f' →
      f'.name = f.name ∧ Cut (ofStmts hole body) (ofStmts path f.body) (ofStmts path f'.body)
  | _, _, _, .whole => ⟨rfl, Cut.whole _⟩
  | path, _, _, .inside h => by
    have hcut := ofItem_emptied h
    refine ⟨rfl, ?_⟩
    rw [Function.body, Function.body, ofStmts_append, ofStmts_append, ofStmts, ofStmts]
    exact (hcut.append_right _).append_left _
end

/-- **Emptying a body** takes its declarations out of those of the program, in one piece. -/
theorem ofProgram_emptied {p p' : Program} (h : p.Emptied body hole p') :
    Cut (ofStmts hole body) (ofProgram p) (ofProgram p') := by
  obtain @⟨before, after, externs, u, attrs, front, back, item, item', h⟩ := h
  have hitems := ofItems_cut front back (ofItem_emptied h)
  simp only [ofProgram, List.flatMap_append, List.flatMap_cons, ofUnit]
  exact ((((hitems.cons _).append_left _).append_right _).append_left _).append_left _

/-! ### Bodies with imports and functions only -/

/-- A declaration of a function or by an import in a module. -/
inductive UseOrFunction (m : String) : Declaration → Prop where
  | function (name : String) (isPublic : Bool) : UseOrFunction m (.function m name isPublic)
  | imported (newName : String) (path : List String) : UseOrFunction m (.imported m newName path)
  | glob (path : List String) : UseOrFunction m (.glob m path)

end Declaration

/-- An import or a function, in whose body there are no other items either. -/
inductive Item.UseOrFunction : Item → Prop where
  | use {tree : UseTree} {parts : List Expr} : UseOrFunction (.use tree parts)
  | function {isPublic : Bool} {f : Function} :
    (∀ item ∈ f.items, UseOrFunction item) → UseOrFunction (.function isPublic f)

namespace Declaration

theorem ofItem_useOrFunction {path : List String} {item : Item} (hitem : item.UseOrFunction) :
    ∀ d ∈ ofItem path item, d.UseOrFunction (modulePath path) := by
  induction hitem with
  | use =>
    intro d hd
    cases ofUse_of_mem_ofUseTree identifiers_nil hd with
    | imported => exact .imported _ _
    | glob => exact .glob _
  | @function isPublic f _ ih =>
    intro d hd
    rw [ofItem_function, List.mem_cons, mem_ofStmts_iff] at hd
    rcases hd with rfl | ⟨item, hitem, hd⟩
    · exact .function f.name.text isPublic
    · exact ih item hitem d hd

/-- What a body declares that holds only imports and functions. -/
theorem ofStmts_useOrFunction {path : List String} {body : List Stmt}
    (hbody : ∀ item ∈ body.filterMap Stmt.item?, item.UseOrFunction) :
    ∀ d ∈ ofStmts path body, d.UseOrFunction (modulePath path) := by
  intro d hd
  obtain ⟨item, hitem, hd⟩ := mem_ofStmts_iff.mp hd
  exact ofItem_useOrFunction (hbody item hitem) d hd

end Declaration

end CallAtlas
