import CallAtlas.Index
import CallAtlas.Proofs.Names

/-!
# Where declarations come from

The declarations of a program are listed by one recursion over its syntax. Here they are told apart
by the item that makes each of them: `Program.Indexed` says which items the recursion reaches, and
with which module path, and `Declaration.own` what such an item declares by itself, the items inside
of it apart.

An item inside of another is in the body of one of its functions, or in the braces of a module. The
items in blocks inside a body are not reached, nor those in an `impl` block of a type without a
name.

## Main definitions

* `Item.functions`, `Item.required` — the functions of an item, with a body and without.
* `Item.inner` — the items inside an item, one level down.
* `Program.Indexed` — the items whose declarations are listed.
* `Declaration.Owned`, `Declaration.OfImport` — the forms of what an item declares.

## Main results

* `Program.Indexed.exists_unit` — where the modules of indexed items are.
* `Declaration.mem_ofProgram_iff` — a declaration is listed for a crate, for a file, or for an item.
* `Declaration.exists_owned` — what indexed items can declare, in forms.
-/

namespace CallAtlas

/-! ### Items inside items -/

/-- The item that a statement is, if it is one. -/
def Stmt.item? : Stmt → Option Item
  | .item found => some found
  | _ => none

/-- The items in the body of a function, outside of any block in it. -/
def Function.items (f : Function) : List Item :=
  f.body.filterMap Stmt.item?

/-- The function with a body that a member is, if it is one. -/
def Member.function? : Member → Option Function
  | .function _ found => some found
  | _ => none

/-- The name of the function without a body that a member is, if it is one. -/
def Member.required? : Member → Option Ident
  | .required name _ => some name
  | _ => none

namespace Item

/-- The functions with a body that an item declares, other items inside of it apart. The functions in
an `impl` block count if its type has a name. -/
def functions : Item → List Function
  | .function _ found => [found]
  | .trait _ _ _ members => members.filterMap Member.function?
  | .impl form _ _ members =>
    if form.lastName?.isSome then members.filterMap Member.function? else []
  | _ => []

/-- The functions without a body that a trait declares, by name. -/
def required : Item → List Ident
  | .trait _ _ _ members => members.filterMap Member.required?
  | _ => []

/-- The items inside an item at a path, one level down, with their paths. -/
def inner (path : List String) : Item → List (List String × Item)
  | .module _ name _ items => items.map (path ++ [name.text], ·)
  | item => (item.functions.flatMap Function.items).map (path, ·)

theorem sizeOf_lt_of_mem_items {f : Function} {item : Item} (h : item ∈ f.items) :
    sizeOf item < sizeOf f := by
  obtain ⟨name, header, params, body⟩ := f
  obtain ⟨stmt, hstmt, hitem⟩ := List.mem_filterMap.mp h
  cases stmt with
  | item found =>
    obtain rfl : found = item := by simpa [Stmt.item?] using hitem
    have hlt : sizeOf (Stmt.item found) < sizeOf body := List.sizeOf_lt_of_mem hstmt
    simp only [Stmt.item.sizeOf_spec, Function.mk.sizeOf_spec] at hlt ⊢
    omega
  | _ => simp [Stmt.item?] at hitem

theorem sizeOf_lt_of_mem_function? {members : List Member} {f : Function}
    (h : f ∈ members.filterMap Member.function?) : sizeOf f < sizeOf members := by
  obtain ⟨member, hmember, hf⟩ := List.mem_filterMap.mp h
  cases member with
  | function isPublic found =>
    obtain rfl : found = f := by simpa [Member.function?] using hf
    have hlt : sizeOf (Member.function isPublic found) < sizeOf members :=
      List.sizeOf_lt_of_mem hmember
    simp only [Member.function.sizeOf_spec] at hlt
    omega
  | _ => simp [Member.function?] at hf

theorem sizeOf_lt_of_mem_functions {item : Item} {f : Function} (h : f ∈ item.functions) :
    sizeOf f < sizeOf item := by
  cases item with
  | function isPublic found =>
    obtain rfl : f = found := by simpa [functions] using h
    simp only [Item.function.sizeOf_spec]
    omega
  | trait isPublic name parts members =>
    have hlt := sizeOf_lt_of_mem_function? h
    simp only [Item.trait.sizeOf_spec]
    omega
  | impl form ofTrait parts members =>
    simp only [functions] at h
    split at h
    · have hlt := sizeOf_lt_of_mem_function? h
      simp only [Item.impl.sizeOf_spec]
      omega
    · simp at h
  | _ => simp [functions] at h

theorem sizeOf_lt_of_mem_inner {path : List String} {item : Item} {x : List String × Item}
    (h : x ∈ item.inner path) : sizeOf x.2 < sizeOf item := by
  have hbody : x ∈ (item.functions.flatMap Function.items).map (path, ·) →
      sizeOf x.2 < sizeOf item := by
    intro hx
    obtain ⟨found, hfound, rfl⟩ := List.mem_map.mp hx
    obtain ⟨f, hf, hitem⟩ := List.mem_flatMap.mp hfound
    exact Nat.lt_trans (sizeOf_lt_of_mem_items hitem) (sizeOf_lt_of_mem_functions hf)
  cases item with
  | module attributes name parts items =>
    obtain ⟨found, hfound, rfl⟩ := List.mem_map.mp h
    have hlt : sizeOf found < sizeOf items := List.sizeOf_lt_of_mem hfound
    simp only [Item.module.sizeOf_spec]
    omega
  | _ => exact hbody h

/-- The items inside an item are in the same module or, for a module, one further in. -/
theorem path_of_mem_inner {path : List String} {item : Item} {x : List String × Item}
    (h : x ∈ item.inner path) : x.1 = path ∨ ∃ name : Ident, x.1 = path ++ [name.text] := by
  cases item with
  | module attributes name parts items =>
    obtain ⟨found, -, rfl⟩ := List.mem_map.mp h
    exact Or.inr ⟨name, rfl⟩
  | _ =>
    obtain ⟨found, -, rfl⟩ := List.mem_map.mp h
    exact Or.inl rfl

end Item

/-- The items of a program whose declarations are listed, with the paths of their modules. -/
inductive Program.Indexed (p : Program) : List String → Item → Prop where
  /-- An item of a file. -/
  | ofUnit {u : SourceUnit} {item : Item} :
    u ∈ p.units → item ∈ u.file.items → p.Indexed u.module item
  /-- An item inside of another. -/
  | inside {path : List String} {item : Item} {x : List String × Item} :
    p.Indexed path item → x ∈ item.inner path → p.Indexed x.1 x.2

/-- The module of an indexed item is that of a file or further in. -/
theorem Program.Indexed.exists_unit {p : Program} {path : List String} {item : Item}
    (h : p.Indexed path item) :
    ∃ u ∈ p.units, ∃ inner : List Ident, path = u.module ++ Walk.texts inner := by
  induction h with
  | @ofUnit u item hu _ => exact ⟨u, hu, [], (List.append_nil _).symm⟩
  | @inside path item x _ hx ih =>
    obtain ⟨u, hu, inner, rfl⟩ := ih
    rcases Item.path_of_mem_inner hx with hpath | ⟨name, hpath⟩
    · exact ⟨u, hu, inner, hpath⟩
    · refine ⟨u, hu, inner ++ [name], ?_⟩
      rw [hpath, List.append_assoc]
      simp [Walk.texts]

namespace Declaration

/-! ### What an item declares by itself -/

/-- What a member of a trait declares. -/
def ofTraitMember (path : List String) (type : String) (isPublic : Bool) :
    Member → List Declaration
  | .function _ found =>
    [.method (modulePath path) type found.name.text isPublic,
      .traitMethod (modulePath path) found.name.text]
  | .required name _ =>
    [.method (modulePath path) type name.text isPublic, .traitMethod (modulePath path) name.text]
  | .other _ => []

/-- What a member of an `impl` block declares. -/
def ofImplMember (path : List String) (type : String) (ofTrait : Bool) :
    Member → List Declaration
  | .function isPublic found =>
    [.method (modulePath path) type found.name.text (ofTrait || isPublic)]
  | _ => []

/-- What an item declares, the items inside of it apart. -/
def own (path : List String) : Item → List Declaration
  | .function isPublic found => [.function (modulePath path) found.name.text isPublic]
  | .type name _ => [.type (modulePath path) name.text]
  | .trait isPublic name _ members =>
    .type (modulePath path) name.text ::
      members.flatMap (ofTraitMember path name.text isPublic)
  | .impl form ofTrait _ members =>
    match form.lastName? with
    | some name => members.flatMap (ofImplMember path name.text ofTrait)
    | none => []
  | .module _ name _ _ =>
    [.submodule (modulePath path) name.text, .module (modulePath (path ++ [name.text]))]
  | .moduleFile _ name _ => [.submodule (modulePath path) name.text]
  | .use tree _ => ofUseTree (modulePath path) [] tree
  | .externCrate name newName _ => ofExternCrate (modulePath path) name newName
  | .other _ => []

/-! ### One level of the recursion -/

theorem mem_ofItems_iff {path : List String} {items : List Item} {d : Declaration} :
    d ∈ ofItems path items ↔ ∃ item ∈ items, d ∈ ofItem path item := by
  induction items with
  | nil => simp [ofItems]
  | cons item rest ih => simp [ofItems, ih]

theorem mem_ofStmts_iff {path : List String} {body : List Stmt} {d : Declaration} :
    d ∈ ofStmts path body ↔ ∃ item ∈ body.filterMap Stmt.item?, d ∈ ofItem path item := by
  induction body with
  | nil => simp [ofStmts]
  | cons stmt rest ih => cases stmt <;> simp [ofStmts, ih, Stmt.item?]

theorem ofTraitMembers_function (path : List String) (type : String) (isPublic isPublic' : Bool)
    (f : Function) (rest : List Member) :
    ofTraitMembers path type isPublic (.function isPublic' f :: rest) =
      ofTraitMember path type isPublic (.function isPublic' f) ++
        (ofStmts path f.body ++ ofTraitMembers path type isPublic rest) := by
  cases f
  rfl

theorem ofImplMembers_function (path : List String) (type : String) (ofTrait isPublic : Bool)
    (f : Function) (rest : List Member) :
    ofImplMembers path type ofTrait (.function isPublic f :: rest) =
      ofImplMember path type ofTrait (.function isPublic f) ++
        (ofStmts path f.body ++ ofImplMembers path type ofTrait rest) := by
  cases f
  rfl

theorem mem_ofTraitMembers_iff {path : List String} {type : String} {isPublic : Bool}
    {members : List Member} {d : Declaration} :
    d ∈ ofTraitMembers path type isPublic members ↔
      d ∈ members.flatMap (ofTraitMember path type isPublic) ∨
        ∃ f ∈ members.filterMap Member.function?, d ∈ ofStmts path f.body := by
  induction members with
  | nil => simp [ofTraitMembers]
  | cons member rest ih =>
    cases member with
    | function isPublic' found =>
      rw [ofTraitMembers_function, List.mem_append, List.mem_append, ih, List.flatMap_cons,
        List.mem_append]
      simp [Member.function?, or_assoc, or_left_comm]
    | required name parts =>
      simp [ofTraitMembers, ih, ofTraitMember, Member.function?, or_assoc]
    | other parts => simp [ofTraitMembers, ih, ofTraitMember, Member.function?]

theorem mem_ofImplMembers_iff {path : List String} {type : String} {ofTrait : Bool}
    {members : List Member} {d : Declaration} :
    d ∈ ofImplMembers path type ofTrait members ↔
      d ∈ members.flatMap (ofImplMember path type ofTrait) ∨
        ∃ f ∈ members.filterMap Member.function?, d ∈ ofStmts path f.body := by
  induction members with
  | nil => simp [ofImplMembers]
  | cons member rest ih =>
    cases member with
    | function isPublic found =>
      rw [ofImplMembers_function, List.mem_append, List.mem_append, ih, List.flatMap_cons,
        List.mem_append]
      simp [Member.function?, or_assoc, or_left_comm]
    | required name parts => simp [ofImplMembers, ih, ofImplMember, Member.function?]
    | other parts => simp [ofImplMembers, ih, ofImplMember, Member.function?]

/-- What is declared in the bodies of an item's functions is declared by the items there. -/
theorem exists_mem_ofStmts_iff {path : List String} {functions : List Function} {d : Declaration} :
    (∃ f ∈ functions, d ∈ ofStmts path f.body) ↔
      ∃ x ∈ (functions.flatMap Function.items).map (path, ·), d ∈ ofItem x.1 x.2 := by
  simp only [mem_ofStmts_iff, List.mem_map, List.mem_flatMap, Function.items]
  constructor
  · rintro ⟨f, hf, item, hitem, hd⟩
    exact ⟨(path, item), ⟨item, ⟨f, hf, hitem⟩, rfl⟩, hd⟩
  · rintro ⟨_, ⟨item, ⟨f, hf, hitem⟩, rfl⟩, hd⟩
    exact ⟨f, hf, item, hitem, hd⟩

/-- **One level.** An item declares something by itself, or an item inside of it declares it. -/
theorem mem_ofItem_iff {path : List String} {item : Item} {d : Declaration} :
    d ∈ ofItem path item ↔
      d ∈ own path item ∨ ∃ x ∈ item.inner path, d ∈ ofItem x.1 x.2 := by
  cases item with
  | function isPublic found =>
    obtain ⟨name, header, params, body⟩ := found
    rw [ofItem, own, List.mem_cons, List.mem_singleton, Item.inner, ← exists_mem_ofStmts_iff]
    · simp [Item.functions, Function.name, Function.body]
    · nofun
  | trait isPublic name parts members =>
    rw [ofItem, own, List.mem_cons, List.mem_cons, mem_ofTraitMembers_iff, or_assoc, Item.inner,
      ← exists_mem_ofStmts_iff]
    · rfl
    · nofun
  | impl form ofTrait parts members =>
    rw [ofItem, own, Item.inner, ← exists_mem_ofStmts_iff, Item.functions]
    · cases form.lastName? with
      | none => simp
      | some name => simpa using mem_ofImplMembers_iff
    · nofun
  | module attributes name parts items =>
    have hinner : (∃ x ∈ (Item.module attributes name parts items).inner path,
        d ∈ ofItem x.1 x.2) ↔ d ∈ ofItems (path ++ [name.text]) items := by
      rw [mem_ofItems_iff, Item.inner]
      constructor
      · rintro ⟨_, hx, hd⟩
        obtain ⟨item, hitem, rfl⟩ := List.mem_map.mp hx
        exact ⟨item, hitem, hd⟩
      · rintro ⟨item, hitem, hd⟩
        exact ⟨_, List.mem_map.mpr ⟨item, hitem, rfl⟩, hd⟩
    rw [hinner, ofItem, own]
    simp [or_assoc]
  | _ => simp [ofItem, own, Item.inner, Item.functions]

/-! ### The whole recursion -/

/-- What an item declares is declared by an item that is indexed if it is. -/
theorem exists_indexed_of_mem_ofItem {p : Program} {path : List String} {item : Item}
    {d : Declaration} (hindexed : p.Indexed path item) (hd : d ∈ ofItem path item) :
    ∃ path' item', p.Indexed path' item' ∧ d ∈ own path' item' := by
  rcases mem_ofItem_iff.mp hd with hown | ⟨x, hx, hd⟩
  · exact ⟨path, item, hindexed, hown⟩
  · exact exists_indexed_of_mem_ofItem (hindexed.inside hx) hd
termination_by sizeOf item
decreasing_by exact Item.sizeOf_lt_of_mem_inner hx

theorem mem_ofProgram_of_unit {p : Program} {u : SourceUnit} {d : Declaration} (hu : u ∈ p.units)
    (hd : d ∈ ofUnit u) : d ∈ ofProgram p :=
  List.mem_append_right _ (List.mem_flatMap.mpr ⟨u, hu, hd⟩)

/-- What an indexed item declares is declared by the program. -/
theorem mem_ofProgram_of_indexed {p : Program} {path : List String} {item : Item}
    {d : Declaration} (hindexed : p.Indexed path item) (hd : d ∈ ofItem path item) :
    d ∈ ofProgram p := by
  induction hindexed with
  | ofUnit hu hitem =>
    refine mem_ofProgram_of_unit hu (List.mem_append_right _ (List.mem_cons_of_mem _ ?_))
    exact mem_ofItems_iff.mpr ⟨_, hitem, hd⟩
  | inside _ hx ih => exact ih (mem_ofItem_iff.mpr (Or.inr ⟨_, hx, hd⟩))

/-- **Where declarations come from.** A declaration is listed for a crate that is known without its
sources, for a file, or for an indexed item. -/
theorem mem_ofProgram_iff {p : Program} {d : Declaration} :
    d ∈ ofProgram p ↔
      (∃ name ∈ standardCrates ++ p.externs, d = .externCrate name) ∨
      (∃ u ∈ p.units, d ∈ crateOf u.module ∨ d = .module (modulePath u.module)) ∨
      ∃ path item, p.Indexed path item ∧ d ∈ own path item := by
  constructor
  · intro hd
    rcases List.mem_append.mp hd with hd | hd
    · obtain ⟨name, hname, rfl⟩ := List.mem_map.mp hd
      exact Or.inl ⟨name, hname, rfl⟩
    · obtain ⟨u, hu, hd⟩ := List.mem_flatMap.mp hd
      rcases List.mem_append.mp hd with hd | hd
      · exact Or.inr (Or.inl ⟨u, hu, Or.inl hd⟩)
      rcases List.mem_cons.mp hd with hd | hd
      · exact Or.inr (Or.inl ⟨u, hu, Or.inr hd⟩)
      · obtain ⟨item, hitem, hd⟩ := mem_ofItems_iff.mp hd
        exact Or.inr (Or.inr (exists_indexed_of_mem_ofItem (.ofUnit hu hitem) hd))
  · rintro (⟨name, hname, rfl⟩ | ⟨u, hu, hd⟩ | ⟨path, item, hindexed, hd⟩)
    · exact List.mem_append_left _ (List.mem_map.mpr ⟨name, hname, rfl⟩)
    · refine mem_ofProgram_of_unit hu ?_
      rcases hd with hd | rfl
      · exact List.mem_append_left _ hd
      · exact List.mem_append_right _ List.mem_cons_self
    · exact mem_ofProgram_of_indexed hindexed (mem_ofItem_iff.mpr (Or.inl hd))

/-! ### What an import declares -/

/-- What a `use` in a module may declare: a name or a glob that stands for a path of identifiers. -/
inductive OfUse (module : String) : Declaration → Prop where
  | imported {newName : String} {path : List String} :
    Identifiers path → OfUse module (.imported module newName path)
  | glob {path : List String} : Identifiers path → OfUse module (.glob module path)

/-- What any import in a module may declare: what a `use` may, or a crate. -/
inductive OfImport (module : String) : Declaration → Prop where
  | imported {newName : String} {path : List String} :
    Identifiers path → OfImport module (.imported module newName path)
  | glob {path : List String} : Identifiers path → OfImport module (.glob module path)
  | externCrate {name : Ident} : OfImport module (.externCrate name.text)

theorem OfUse.ofImport {module : String} {d : Declaration} : d.OfUse module → d.OfImport module
  | .imported hpath => .imported hpath
  | .glob hpath => .glob hpath

mutual
theorem ofUse_of_mem_ofUseTree {module : String} : ∀ {tree : UseTree} {before : List String}
    {d : Declaration}, Identifiers before → d ∈ ofUseTree module before tree → d.OfUse module
  | .path name tree, before, d, hbefore, hd => by
    rw [ofUseTree] at hd
    exact ofUse_of_mem_ofUseTree
      (identifiers_append.mpr ⟨hbefore, name.identifiers_singleton⟩) hd
  | .name name, before, d, hbefore, hd => by
    rw [ofUseTree] at hd
    split at hd
    · split at hd
      · obtain rfl := List.mem_singleton.mp hd
        exact .imported hbefore
      · simp at hd
    · obtain rfl := List.mem_singleton.mp hd
      exact .imported (identifiers_append.mpr ⟨hbefore, name.identifiers_singleton⟩)
  | .rename name newName, before, d, hbefore, hd => by
    rw [ofUseTree] at hd
    split at hd
    · simp at hd
    · obtain rfl := List.mem_singleton.mp hd
      refine .imported ?_
      split
      · exact hbefore
      · exact identifiers_append.mpr ⟨hbefore, name.identifiers_singleton⟩
  | .glob, before, d, hbefore, hd => by
    rw [ofUseTree] at hd
    obtain rfl := List.mem_singleton.mp hd
    exact .glob hbefore
  | .group trees, before, d, hbefore, hd => by
    rw [ofUseTree] at hd
    exact ofUse_of_mem_ofUseTrees hbefore hd

theorem ofUse_of_mem_ofUseTrees {module : String} :
    ∀ {trees : List UseTree} {before : List String} {d : Declaration}, Identifiers before →
      d ∈ ofUseTrees module before trees → d.OfUse module
  | [], _, _, _, hd => by simp [ofUseTrees] at hd
  | tree :: rest, before, d, hbefore, hd => by
    rw [ofUseTrees] at hd
    rcases List.mem_append.mp hd with hd | hd
    · exact ofUse_of_mem_ofUseTree hbefore hd
    · exact ofUse_of_mem_ofUseTrees hbefore hd
end

theorem ofImport_of_mem_ofExternCrate {module : String} {name : Ident} {newName : Option Ident}
    {d : Declaration} (hd : d ∈ ofExternCrate module name newName) : d.OfImport module := by
  rw [ofExternCrate] at hd
  split at hd
  · simp at hd
  · rcases List.mem_cons.mp hd with rfl | hd
    · exact .externCrate
    · obtain rfl := List.mem_singleton.mp hd
      exact .imported name.identifiers_singleton

/-! ### What an item can declare -/

/-- What an item at a path can declare by itself. -/
inductive Owned (path : List String) (item : Item) : Declaration → Prop where
  | function {f : Function} {isPublic : Bool} :
    f ∈ item.functions → Owned path item (.function (modulePath path) f.name.text isPublic)
  | method {f : Function} {type : String} {isPublic : Bool} :
    f ∈ item.functions → Owned path item (.method (modulePath path) type f.name.text isPublic)
  | required {name : Ident} {type : String} {isPublic : Bool} :
    name ∈ item.required → Owned path item (.method (modulePath path) type name.text isPublic)
  | traitMethod {f : Function} :
    f ∈ item.functions → Owned path item (.traitMethod (modulePath path) f.name.text)
  | traitRequired {name : Ident} :
    name ∈ item.required → Owned path item (.traitMethod (modulePath path) name.text)
  | type {name : Ident} : Owned path item (.type (modulePath path) name.text)
  | submodule {name : Ident} : Owned path item (.submodule (modulePath path) name.text)
  | module {name : Ident} : Owned path item (.module (modulePath (path ++ [name.text])))
  | imports {d : Declaration} : d.OfImport (modulePath path) → Owned path item d

theorem owned_of_mem_own {path : List String} {item : Item} {d : Declaration}
    (hd : d ∈ own path item) : Owned path item d := by
  cases item with
  | function isPublic found =>
    obtain rfl := List.mem_singleton.mp hd
    exact .function List.mem_cons_self
  | type name parts =>
    obtain rfl := List.mem_singleton.mp hd
    exact .type
  | trait isPublic name parts members =>
    rcases List.mem_cons.mp hd with rfl | hd
    · exact .type
    obtain ⟨member, hmember, hd⟩ := List.mem_flatMap.mp hd
    cases member with
    | function isPublic' found =>
      have hf : found ∈ (Item.trait isPublic name parts members).functions :=
        List.mem_filterMap.mpr ⟨_, hmember, rfl⟩
      rw [ofTraitMember, List.mem_cons, List.mem_singleton] at hd
      rcases hd with rfl | rfl
      · exact .method hf
      · exact .traitMethod hf
    | required name' parts' =>
      have hname : name' ∈ (Item.trait isPublic name parts members).required :=
        List.mem_filterMap.mpr ⟨_, hmember, rfl⟩
      rw [ofTraitMember, List.mem_cons, List.mem_singleton] at hd
      rcases hd with rfl | rfl
      · exact .required hname
      · exact .traitRequired hname
    | other parts' => simp [ofTraitMember] at hd
  | impl form ofTrait parts members =>
    rw [own] at hd
    split at hd
    · next name hname =>
      obtain ⟨member, hmember, hd⟩ := List.mem_flatMap.mp hd
      cases member with
      | function isPublic found =>
        obtain rfl := List.mem_singleton.mp hd
        refine .method ?_
        rw [Item.functions, hname]
        exact List.mem_filterMap.mpr ⟨_, hmember, rfl⟩
      | _ => simp [ofImplMember] at hd
    · simp at hd
  | module attributes name parts items =>
    rw [own, List.mem_cons, List.mem_singleton] at hd
    rcases hd with rfl | rfl
    · exact .submodule
    · exact .module
  | moduleFile attributes name parts =>
    obtain rfl := List.mem_singleton.mp hd
    exact .submodule
  | use tree parts => exact .imports (ofUse_of_mem_ofUseTree identifiers_nil hd).ofImport
  | externCrate name newName parts => exact .imports (ofImport_of_mem_ofExternCrate hd)
  | other parts => simp [own] at hd

/-- Whatever names no crate and no module is declared by an indexed item. -/
theorem exists_owned {p : Program} {d : Declaration} (hd : d ∈ ofProgram p) :
    (∃ path item, p.Indexed path item ∧ Owned path item d) ∨
      (∃ name, d = .crate name) ∨ (∃ name, d = .externCrate name) ∨ ∃ m, d = .module m := by
  rcases mem_ofProgram_iff.mp hd with
    ⟨name, -, rfl⟩ | ⟨u, -, hcrate | rfl⟩ | ⟨path, item, hindexed, hd⟩
  · exact Or.inr (Or.inr (Or.inl ⟨name, rfl⟩))
  · obtain ⟨name, -, rfl⟩ := List.mem_map.mp hcrate
    exact Or.inr (Or.inl ⟨name, rfl⟩)
  · exact Or.inr (Or.inr (Or.inr ⟨_, rfl⟩))
  · exact Or.inl ⟨path, item, hindexed, owned_of_mem_own hd⟩

/-- A function is listed for an indexed item that declares it with a body. -/
theorem exists_indexed_of_function {p : Program} {m name : String} {isPublic : Bool}
    (h : .function m name isPublic ∈ ofProgram p) :
    ∃ path item, p.Indexed path item ∧ m = modulePath path ∧
      ∃ f ∈ item.functions, name = f.name.text := by
  rcases exists_owned h with ⟨path, item, hindexed, howned⟩ | ⟨_, h⟩ | ⟨_, h⟩ | ⟨_, h⟩
  · cases howned with
    | function hf => exact ⟨path, item, hindexed, rfl, _, hf, rfl⟩
    | imports himport => cases himport
  all_goals cases h

/-- An import stands for a path of identifiers. -/
theorem identifiers_of_imported {p : Program} {m newName : String} {path : List String}
    (h : .imported m newName path ∈ ofProgram p) : Identifiers path := by
  rcases exists_owned h with ⟨_, _, -, howned⟩ | ⟨_, h⟩ | ⟨_, h⟩ | ⟨_, h⟩
  · cases howned with
    | imports himport =>
      cases himport with
      | imported hpath => exact hpath
  all_goals cases h

/-- A glob import stands for a path of identifiers. -/
theorem identifiers_of_glob {p : Program} {m : String} {path : List String}
    (h : .glob m path ∈ ofProgram p) : Identifiers path := by
  rcases exists_owned h with ⟨_, _, -, howned⟩ | ⟨_, h⟩ | ⟨_, h⟩ | ⟨_, h⟩
  · cases howned with
    | imports himport =>
      cases himport with
      | glob hpath => exact hpath
  all_goals cases h

end Declaration

end CallAtlas
