import CallAtlas.Proofs.Additions
import CallAtlas.Proofs.Crates
import Mathlib.Data.List.Basic

/-!
# What imports bind

A `use` may hold groups inside of groups, and what it binds stands at the ends of its branches.
Here the ends are listed from the inside outwards, each with the names that lead to it, while
declarations are made from the outside inwards, with the names so far carried along. Both come to
the same.

All imports of a module go into one table, in source order, also those in bodies of functions that
are looked into. For a name that is bound more than once the last import counts. Some imports bind
nothing: a `use` that gives the name `_`, and `extern crate self`. An external crate with the name
`_` is bound under that name all the same.

## Main definitions

* `UseTree.leaves` — the ends of a tree.
* `Import.binding?`, `Import.globPath?` — what an import stands for.
* `Item.reached`, `Program.indexedItems` — the items whose declarations are listed, in source order.
* `Program.importsOf` — the imports of a module.

## Main results

* `Declaration.ofUseTree_eq_leaves` — trees and their ends.
* `Declaration.filter_isImport_ofProgram` — all imports of a program.
* `Index.imports_of_leaves` — the imports of a module.
-/

namespace CallAtlas

/-! ### Ends of trees -/

/-- What stands at the end of a branch of a `use`. -/
inductive UseEnd where
  | name (name : Ident)
  | rename (name newName : Ident)
  | glob

mutual
/-- The ends of a tree, in source order, each with the names that lead to it. -/
def UseTree.leaves : UseTree → List (List String × UseEnd)
  | .name ident => [([], .name ident)]
  | .rename ident newName => [([], .rename ident newName)]
  | .glob => [([], .glob)]
  | .path ident tree => tree.leaves.map fun leaf => (ident.text :: leaf.1, leaf.2)
  | .group trees => UseTree.leavesOf trees

/-- The ends of several trees. -/
def UseTree.leavesOf : List UseTree → List (List String × UseEnd)
  | [] => []
  | tree :: rest => tree.leaves ++ UseTree.leavesOf rest
end

/-- One thing that is imported: what stands at an end of a `use`, or an external crate. -/
inductive Import where
  /-- An end of a `use`, behind the names that lead to it. -/
  | leaf (before : List String) (last : UseEnd)
  | crate (name : Ident) (newName : Option Ident)

namespace Import

/-- The name that an import binds, and the path that this stands for. -/
def binding? : Import → Option (String × List String)
  | .leaf before (.name name) =>
    if name.text = "self" then before.getLast?.map (·, before)
    else some (name.text, before ++ [name.text])
  | .leaf before (.rename name newName) =>
    if newName.text = "_" then none
    else some (newName.text, if name.text = "self" then before else before ++ [name.text])
  | .leaf _ .glob => none
  | .crate name newName =>
    if name.text = "self" then none else some ((newName.getD name).text, [name.text])

/-- The path of which everything is imported. -/
def globPath? : Import → Option (List String)
  | .leaf before .glob => some before
  | _ => none

/-- What an import declares in a module. -/
def declaration? (module : String) (i : Import) : Option Declaration :=
  match i.binding? with
  | some (newName, path) => some (.imported module newName path)
  | none => i.globPath?.map (.glob module)

/-- The imports that bind no name: globs, names that a `use` changes to `_`, a `self` with nothing
in front, and the crate itself. -/
theorem binding?_eq_none_iff {i : Import} :
    i.binding? = none ↔
      (∃ before, i = .leaf before .glob) ∨
      (∃ before name newName, i = .leaf before (.rename name newName) ∧ newName.text = "_") ∨
      (∃ name, i = .leaf [] (.name name) ∧ name.text = "self") ∨
      ∃ name newName, i = .crate name newName ∧ name.text = "self" := by
  cases i with
  | leaf before last =>
    cases last with
    | name name => by_cases h : name.text = "self" <;> simp +contextual [binding?, h, and_assoc]
    | rename name newName => simp [binding?, and_assoc]
    | glob => simp [binding?]
  | crate name newName => simp [binding?]

/-- An import that binds a name is no glob. -/
theorem globPath?_eq_none {i : Import} {binding : String × List String}
    (h : i.binding? = some binding) : i.globPath? = none := by
  cases i with
  | leaf before last =>
    cases last with
    | glob => cases h
    | _ => rfl
  | crate => rfl

end Import

namespace Declaration

mutual
/-- **Trees flatten.** What a tree declares is declared at its ends, behind all names that lead
there. -/
theorem ofUseTree_eq_leaves (module : String) : ∀ (tree : UseTree) (before : List String),
    ofUseTree module before tree = tree.leaves.filterMap fun leaf =>
      (Import.leaf (before ++ leaf.1) leaf.2).declaration? module
  | .name name, before => by
    rw [ofUseTree, UseTree.leaves]
    by_cases h : name.text = "self"
    · cases hlast : before.getLast? <;>
        simp [Import.declaration?, Import.binding?, Import.globPath?, h, hlast]
    · simp [Import.declaration?, Import.binding?, h]
  | .rename name newName, before => by
    rw [ofUseTree, UseTree.leaves]
    by_cases h : newName.text = "_"
    · simp [Import.declaration?, Import.binding?, Import.globPath?, h]
    · simp [Import.declaration?, Import.binding?, h]
  | .glob, before => by
    simp [ofUseTree, UseTree.leaves, Import.declaration?, Import.binding?, Import.globPath?]
  | .path name tree, before => by
    rw [ofUseTree, UseTree.leaves, ofUseTree_eq_leaves module tree, List.filterMap_map]
    simp only [Function.comp_def, List.append_assoc, List.singleton_append]
  | .group trees, before => by
    rw [ofUseTree, UseTree.leaves]
    exact ofUseTrees_eq_leavesOf module trees before

theorem ofUseTrees_eq_leavesOf (module : String) : ∀ (trees : List UseTree) (before : List String),
    ofUseTrees module before trees = (UseTree.leavesOf trees).filterMap fun leaf =>
      (Import.leaf (before ++ leaf.1) leaf.2).declaration? module
  | [], before => rfl
  | tree :: rest, before => by
    rw [ofUseTrees, UseTree.leavesOf, List.filterMap_append, ofUseTree_eq_leaves module tree,
      ofUseTrees_eq_leavesOf module rest]
end

end Declaration

/-! ### Items in source order -/

namespace Item

/-- What an item imports by itself. -/
def imports : Item → List Import
  | .use tree _ => tree.leaves.map fun leaf => .leaf leaf.1 leaf.2
  | .externCrate name newName _ => [.crate name newName]
  | _ => []

/-- The items that are reached from an item, in source order, itself first. -/
def reached (path : List String) (item : Item) : List (List String × Item) :=
  (path, item) :: (item.inner path).attach.flatMap fun x => reached x.1.1 x.1.2
termination_by sizeOf item
decreasing_by exact sizeOf_lt_of_mem_inner x.2

theorem reached_eq (path : List String) (item : Item) :
    item.reached path = (path, item) :: (item.inner path).flatMap fun x => x.2.reached x.1 := by
  rw [reached, List.flatMap_subtype (g := fun x => x.2.reached x.1) fun _ _ => rfl,
    List.unattach_attach]

theorem mem_reached_self (path : List String) (item : Item) :
    (path, item) ∈ item.reached path := by
  rw [reached_eq]
  exact List.mem_cons_self

theorem mem_reached_of_mem_inner {path path' : List String} {item item' : Item}
    {x : List String × Item} (h : (path', item') ∈ item.reached path) (hx : x ∈ item'.inner path') :
    x ∈ item.reached path := by
  rw [reached_eq, List.mem_cons, List.mem_flatMap] at h ⊢
  rcases h with heq | ⟨y, hy, h⟩
  · obtain ⟨rfl, rfl⟩ := Prod.mk.inj heq
    exact Or.inr ⟨x, hx, mem_reached_self x.1 x.2⟩
  · exact Or.inr ⟨y, hy, mem_reached_of_mem_inner h hx⟩
termination_by sizeOf item
decreasing_by exact sizeOf_lt_of_mem_inner hy

end Item

namespace Program

variable {p : Program}

/-- The items of a program whose declarations are listed, in source order, with the paths of their
modules. -/
def indexedItems (p : Program) : List (List String × Item) :=
  p.units.flatMap fun u => u.file.items.flatMap fun item => item.reached u.module

theorem indexed_of_mem_reached {path : List String} {item : Item} (h : p.Indexed path item)
    {x : List String × Item} (hx : x ∈ item.reached path) : p.Indexed x.1 x.2 := by
  rw [Item.reached_eq, List.mem_cons, List.mem_flatMap] at hx
  rcases hx with rfl | ⟨y, hy, hx⟩
  · exact h
  · exact indexed_of_mem_reached (h.inside hy) hx
termination_by sizeOf item
decreasing_by exact Item.sizeOf_lt_of_mem_inner hy

/-- The list holds the items whose declarations are listed, and no others. -/
theorem mem_indexedItems_iff {path : List String} {item : Item} :
    (path, item) ∈ p.indexedItems ↔ p.Indexed path item := by
  simp only [indexedItems, List.mem_flatMap]
  constructor
  · rintro ⟨u, hu, item, hitem, hx⟩
    exact indexed_of_mem_reached (.ofUnit hu hitem) hx
  · intro h
    induction h with
    | @ofUnit u item hu hitem => exact ⟨u, hu, item, hitem, item.mem_reached_self u.module⟩
    | inside _ hx ih =>
      obtain ⟨u, hu, item, hitem, hmem⟩ := ih
      exact ⟨u, hu, item, hitem, Item.mem_reached_of_mem_inner hmem hx⟩

/-- The imports of a module, in source order. -/
def importsOf (p : Program) (m : String) : List Import :=
  p.indexedItems.flatMap fun x => if modulePath x.1 = m then x.2.imports else []

/-- They are those of the items of the module whose declarations are listed. -/
theorem mem_importsOf_iff {m : String} {i : Import} :
    i ∈ p.importsOf m ↔
      ∃ path item, p.Indexed path item ∧ modulePath path = m ∧ i ∈ item.imports := by
  simp only [importsOf, List.mem_flatMap, Prod.exists, mem_indexedItems_iff]
  refine exists_congr fun path => exists_congr fun item => and_congr_right fun _ => ?_
  by_cases h : modulePath path = m <;> simp [h]

end Program

/-! ### Imports among declarations -/

namespace Declaration

/-- Does a declaration belong to an import? -/
def isImport : Declaration → Bool
  | .imported .. | .glob .. => true
  | _ => false

theorem filter_isImport_ofItems (path : List String) (items : List Item) :
    (ofItems path items).filter isImport =
      items.flatMap fun item => (ofItem path item).filter isImport := by
  induction items with
  | nil => rfl
  | cons item rest ih => rw [ofItems, List.filter_append, ih, List.flatMap_cons]

theorem filter_isImport_ofStmts (path : List String) (body : List Stmt) :
    (ofStmts path body).filter isImport =
      (body.filterMap Stmt.item?).flatMap fun item => (ofItem path item).filter isImport := by
  induction body with
  | nil => rfl
  | cons stmt rest ih =>
    cases stmt with
    | item found => simp [ofStmts, Stmt.item?, ih]
    | _ => simp [ofStmts, List.filterMap_cons, Stmt.item?, ih]

theorem filter_isImport_ofTraitMembers (path : List String) (type : String) (isPublic : Bool)
    (members : List Member) :
    (ofTraitMembers path type isPublic members).filter isImport =
      (members.filterMap Member.function?).flatMap fun f =>
        (ofStmts path f.body).filter isImport := by
  induction members with
  | nil => rfl
  | cons member rest ih =>
    cases member with
    | function isPublic' found =>
      rw [ofTraitMembers_function, List.filter_append, List.filter_append, ih]
      simp [ofTraitMember, isImport, Member.function?]
    | _ => simp [ofTraitMembers, isImport, List.filterMap_cons, Member.function?, ih]

theorem filter_isImport_ofImplMembers (path : List String) (type : String) (ofTrait : Bool)
    (members : List Member) :
    (ofImplMembers path type ofTrait members).filter isImport =
      (members.filterMap Member.function?).flatMap fun f =>
        (ofStmts path f.body).filter isImport := by
  induction members with
  | nil => rfl
  | cons member rest ih =>
    cases member with
    | function isPublic found =>
      rw [ofImplMembers_function, List.filter_append, List.filter_append, ih]
      simp [ofImplMember, isImport, Member.function?]
    | _ => simp [ofImplMembers, List.filterMap_cons, Member.function?, ih]

/-- What is imported in the bodies of functions is imported by the items there. -/
theorem flatMap_filter_isImport_ofStmts (path : List String) (functions : List Function) :
    functions.flatMap (fun f => (ofStmts path f.body).filter isImport) =
      ((functions.flatMap Function.items).map (path, ·)).flatMap fun x =>
        (ofItem x.1 x.2).filter isImport := by
  simp only [filter_isImport_ofStmts, List.flatMap_map, List.flatMap_assoc, Function.items]

theorem isImport_of_declaration? {module : String} {i : Import} {d : Declaration}
    (h : i.declaration? module = some d) : d.isImport = true := by
  rw [Import.declaration?] at h
  split at h
  · obtain rfl := Option.some.inj h
    rfl
  · obtain ⟨path, -, rfl⟩ := Option.map_eq_some_iff.mp h
    rfl

/-- **One level, in order.** What an item imports by itself comes first, then what the items inside
of it import. -/
theorem filter_isImport_ofItem (path : List String) (item : Item) :
    (ofItem path item).filter isImport =
      item.imports.filterMap (·.declaration? (modulePath path)) ++
        (item.inner path).flatMap fun x => (ofItem x.1 x.2).filter isImport := by
  cases item with
  | function isPublic found =>
    obtain ⟨name, header, params, body⟩ := found
    rw [ofItem, Item.inner, ← flatMap_filter_isImport_ofStmts]
    · simp [isImport, Item.imports, Item.functions, Function.body]
    · rintro _ _ _ _ ⟨⟩
  | trait isPublic name parts members =>
    rw [ofItem, Item.inner, ← flatMap_filter_isImport_ofStmts]
    · simp [isImport, Item.imports, filter_isImport_ofTraitMembers, Item.functions]
    · rintro _ _ _ _ ⟨⟩
  | impl form ofTrait parts members =>
    rw [ofItem, Item.inner, ← flatMap_filter_isImport_ofStmts, Item.functions]
    · cases form.lastName? with
      | none => rfl
      | some name => simp [Item.imports, filter_isImport_ofImplMembers]
    · rintro _ _ _ _ ⟨⟩
  | module attributes name parts items =>
    simp [ofItem, Item.imports, Item.inner, isImport, filter_isImport_ofItems, List.flatMap_map]
  | use tree parts =>
    -- Nothing but imports comes from a tree, so no declaration of it is dropped.
    have hall : ∀ d ∈ ofUseTree (modulePath path) [] tree, d.isImport = true := by
      intro d hd
      rw [ofUseTree_eq_leaves] at hd
      obtain ⟨leaf, -, hleaf⟩ := List.mem_filterMap.mp hd
      exact isImport_of_declaration? hleaf
    rw [ofItem, List.filter_eq_self.mpr hall, ofUseTree_eq_leaves, Item.imports, List.filterMap_map]
    simp [Item.inner, Item.functions]
  | externCrate name newName parts =>
    by_cases h : name.text = "self" <;>
      simp [ofItem, ofExternCrate, isImport, Item.imports, Import.declaration?, Import.binding?,
        Import.globPath?, Item.inner, Item.functions, h]
  | _ => simp [ofItem, isImport, Item.imports, Item.inner, Item.functions]

/-- **The whole recursion, in order.** -/
theorem filter_isImport_ofItem_eq_reached (path : List String) (item : Item) :
    (ofItem path item).filter isImport =
      (item.reached path).flatMap fun x =>
        x.2.imports.filterMap (·.declaration? (modulePath x.1)) := by
  rw [filter_isImport_ofItem, Item.reached_eq, List.flatMap_cons, List.flatMap_assoc]
  congr 1
  refine List.flatMap_congr fun x hx => ?_
  exact filter_isImport_ofItem_eq_reached x.1 x.2
termination_by sizeOf item
decreasing_by exact Item.sizeOf_lt_of_mem_inner hx

theorem filter_isImport_map {f : String → Declaration} (hf : ∀ name, (f name).isImport = false)
    (names : List String) : (names.map f).filter isImport = [] := by
  simp [List.filter_eq_nil_iff, hf]

/-- The imports of a program are those of its items, one after the other. -/
theorem filter_isImport_ofProgram (p : Program) :
    (ofProgram p).filter isImport =
      p.indexedItems.flatMap fun x =>
        x.2.imports.filterMap (·.declaration? (modulePath x.1)) := by
  have hunit : ∀ u : SourceUnit, (ofUnit u).filter isImport =
      u.file.items.flatMap fun item => (item.reached u.module).flatMap fun x =>
        x.2.imports.filterMap (·.declaration? (modulePath x.1)) := by
    intro u
    rw [ofUnit, List.filter_append, crateOf, filter_isImport_map fun _ => rfl, List.nil_append,
      List.filter_cons_of_neg (by simp [isImport]), filter_isImport_ofItems]
    exact List.flatMap_congr fun item _ => filter_isImport_ofItem_eq_reached u.module item
  rw [ofProgram, List.filter_append, filter_isImport_map fun _ => rfl, List.nil_append,
    List.filter_flatMap, Program.indexedItems]
  simp only [hunit, List.flatMap_assoc]

end Declaration

/-! ### The last entry for a key -/

section LastEntries

variable {α : Type} {key : String} {value : α} {entries : List (String × α)}

theorem lookupLast_cons (name : String) (found : α) (rest : List (String × α)) :
    lookupLast key ((name, found) :: rest) =
      (lookupLast key rest).or (if key = name then some found else none) := by
  rw [lookupLast, lookupLast, List.reverse_cons, List.lookup_append, List.lookup_cons,
    List.lookup_nil]
  by_cases h : key = name
  · simp [h]
  · rw [beq_eq_false_iff_ne.mpr h, if_neg h]

/-- The value of a key is that of an entry after which the key does not come again. -/
theorem lookupLast_eq_some_iff :
    lookupLast key entries = some value ↔
      ∃ earlier later, entries = earlier ++ (key, value) :: later ∧ key ∉ later.map Prod.fst := by
  rw [lookupLast, List.lookup_eq_some_iff]
  constructor
  · rintro ⟨later, earlier, heq, hlater⟩
    refine ⟨earlier.reverse, later.reverse, ?_, ?_⟩
    · rw [← List.reverse_reverse entries, heq]
      simp
    · rintro hmem
      obtain ⟨entry, hentry, rfl⟩ := List.mem_map.mp hmem
      simpa using hlater entry (List.mem_reverse.mp hentry)
  · rintro ⟨earlier, later, rfl, hlater⟩
    refine ⟨later.reverse, earlier.reverse, by simp, fun entry hentry => bne_iff_ne.mpr ?_⟩
    rintro rfl
    exact hlater (List.mem_map_of_mem (List.mem_reverse.mp hentry))

/-- The same for entries that are read off a list: the value comes from a place in that list. -/
theorem lookupLast_filterMap_eq_some_iff {β : Type} {f : β → Option (String × α)} {xs : List β} :
    lookupLast key (xs.filterMap f) = some value ↔
      ∃ earlier last later, xs = earlier ++ last :: later ∧ f last = some (key, value) ∧
        ∀ x ∈ later, ∀ value', f x ≠ some (key, value') := by
  have hlater : ∀ later : List β, key ∉ (later.filterMap f).map Prod.fst ↔
      ∀ x ∈ later, ∀ value', f x ≠ some (key, value') := by
    intro later
    simp only [List.mem_map, List.mem_filterMap]
    constructor
    · intro h x hx value' hvalue
      exact h ⟨_, ⟨x, hx, hvalue⟩, rfl⟩
    · rintro h ⟨⟨_, value'⟩, ⟨x, hx, hvalue⟩, rfl⟩
      exact h x hx value' hvalue
  rw [lookupLast_eq_some_iff]
  constructor
  · rintro ⟨_, _, heq, hkey⟩
    obtain ⟨before, after, rfl, -, hafter⟩ := List.filterMap_eq_append_iff.mp heq
    obtain ⟨skipped, last, later, rfl, -, hlast, rfl⟩ := List.filterMap_eq_cons_iff.mp hafter
    exact ⟨before ++ skipped, last, later, by simp, hlast, (hlater later).mp hkey⟩
  · rintro ⟨earlier, last, later, rfl, hlast, hnone⟩
    refine ⟨earlier.filterMap f, later.filterMap f, ?_, (hlater later).mpr hnone⟩
    rw [List.filterMap_append, List.filterMap_cons_some hlast]

theorem mem_lastEntries_iff :
    (key, value) ∈ lastEntries entries ↔ lookupLast key entries = some value := by
  induction entries with
  | nil => simp [lastEntries, lookupLast]
  | cons entry rest ih =>
    obtain ⟨name, found⟩ := entry
    rw [lastEntries, lookupLast_cons]
    split
    · rename_i hagain
      -- An entry whose key comes again is not found, and is not in the table.
      rw [ih]
      by_cases hkey : key = name
      · obtain ⟨last, hlast⟩ : ∃ last, lookupLast key rest = some last := by
          rw [← Option.ne_none_iff_exists', ne_eq, lookupLast_eq_none_iff, hkey, hagain]
          exact Bool.noConfusion
        rw [hlast, Option.some_or]
      · rw [if_neg hkey, Option.or_none]
    · rename_i hlast
      rw [List.mem_cons, ih]
      by_cases hkey : key = name
      · have hnone : lookupLast key rest = none := by
          rw [lookupLast_eq_none_iff, hkey]
          exact Bool.not_eq_true _ ▸ hlast
        rw [hnone, if_pos hkey]
        simp [hkey, eq_comm]
      · simp [hkey]

theorem lastEntries_sublist (entries : List (String × α)) :
    (lastEntries entries).Sublist entries := by
  induction entries with
  | nil => exact List.Sublist.refl _
  | cons entry rest ih =>
    rw [lastEntries]
    split
    · exact ih.cons entry
    · exact ih.cons_cons entry

theorem nodup_lastEntries (entries : List (String × α)) :
    ((lastEntries entries).map Prod.fst).Nodup := by
  induction entries with
  | nil => exact List.nodup_nil
  | cons entry rest ih =>
    rw [lastEntries]
    split
    · exact ih
    · rename_i hkey
      refine List.nodup_cons.mpr ⟨fun hmem => hkey ?_, ih⟩
      exact List.contains_iff_mem.mpr (((lastEntries_sublist rest).map Prod.fst).subset hmem)

end LastEntries

namespace Index

/-! ### The imports of a module -/

/-- What an index reads off the imports of one module, in order. -/
theorem filterMap_ofProgram {α : Type} {f : Declaration → Option α} {g : Import → Option α}
    (p : Program) (m : String) (hf : ∀ d, d.isImport = false → f d = none)
    (hg : ∀ module i, (i.declaration? module).bind f = if module = m then g i else none) :
    (Declaration.ofProgram p).filterMap f = (p.importsOf m).filterMap g := by
  have himports : (Declaration.ofProgram p).filterMap f =
      ((Declaration.ofProgram p).filter Declaration.isImport).filterMap f := by
    rw [List.filterMap_filter]
    refine List.filterMap_congr fun d _ => ?_
    cases hd : d.isImport with
    | true => rfl
    | false => simpa using hf d hd
  rw [himports, Declaration.filter_isImport_ofProgram, Program.importsOf, List.filterMap_flatMap,
    List.filterMap_flatMap]
  refine List.flatMap_congr fun x _ => ?_
  rw [List.filterMap_filterMap]
  simp only [hg]
  by_cases h : modulePath x.1 = m <;> simp [h]

theorem imports_ofProgram (p : Program) (m : String) :
    (ofProgram p).imports m = (p.importsOf m).filterMap Import.binding? := by
  refine filterMap_ofProgram p m (fun d hd => ?_) fun module i => ?_
  · cases d with
    | imported | glob => cases hd
    | _ => rfl
  · rw [Import.declaration?]
    cases hbinding : i.binding? with
    | some binding => rfl
    | none => cases i.globPath? <;> simp

theorem globs_ofProgram (p : Program) (m : String) :
    (ofProgram p).globs m = (p.importsOf m).filterMap Import.globPath? := by
  refine filterMap_ofProgram p m (fun d hd => ?_) fun module i => ?_
  · cases d with
    | imported | glob => cases hd
    | _ => rfl
  · rw [Import.declaration?]
    cases hbinding : i.binding? with
    | some binding => simp [Import.globPath?_eq_none hbinding]
    | none => cases i.globPath? <;> simp

/-- **Imports of a module.** The names that are bound in a module are those of its imports in source
order, and the table of a module has the last path for each. A glob adds its path to those of which
everything is imported. The rest says which imports bind no name: an external crate is not among
them, whatever it is renamed to, unless it is the crate itself. -/
theorem imports_of_leaves (p : Program) (m : String) :
    (∀ i, i ∈ p.importsOf m ↔
        ∃ path item, p.Indexed path item ∧ modulePath path = m ∧ i ∈ item.imports) ∧
      (ofProgram p).imports m = (p.importsOf m).filterMap Import.binding? ∧
      (ofProgram p).globs m = (p.importsOf m).filterMap Import.globPath? ∧
      (∀ newName path, lookupLast newName ((ofProgram p).imports m) = some path ↔
        ∃ earlier last later, p.importsOf m = earlier ++ last :: later ∧
          last.binding? = some (newName, path) ∧
          ∀ i ∈ later, ∀ path', i.binding? ≠ some (newName, path')) ∧
      (∀ newName path, (newName, path) ∈ lastEntries ((ofProgram p).imports m) ↔
        lookupLast newName ((ofProgram p).imports m) = some path) ∧
      ((lastEntries ((ofProgram p).imports m)).map Prod.fst).Nodup ∧
      (∀ i ∈ p.importsOf m, i.binding? = none ↔
        (∃ before, i = .leaf before .glob) ∨
        (∃ before name newName, i = .leaf before (.rename name newName) ∧ newName.text = "_") ∨
        (∃ name, i = .leaf [] (.name name) ∧ name.text = "self") ∨
        ∃ name newName, i = .crate name newName ∧ name.text = "self") ∧
      ∀ name newName, .crate name (some newName) ∈ p.importsOf m → name.text ≠ "self" →
        (newName.text, [name.text]) ∈ (ofProgram p).imports m := by
  refine ⟨fun i => Program.mem_importsOf_iff, imports_ofProgram p m, globs_ofProgram p m,
    fun newName path => ?_, fun _ _ => mem_lastEntries_iff, nodup_lastEntries _,
    fun _ _ => Import.binding?_eq_none_iff, fun name newName hcrate hname => ?_⟩
  · rw [imports_ofProgram]
    exact lookupLast_filterMap_eq_some_iff
  · rw [imports_ofProgram]
    exact List.mem_filterMap.mpr ⟨_, hcrate, by simp [Import.binding?, hname]⟩

namespace Unnamed

def logger : Ident := ⟨"logger", by decide⟩

def unnamed : Ident := ⟨"_", by decide⟩

/-- A crate with a single item. -/
def program (item : Item) : Program where
  units := [crateRoot "demo" [item]]
  externs := []

end Unnamed

/-- `extern crate logger as _;` binds the name `_`, unlike `use logger as _;`. -/
theorem imports_crate_unnamed :
    (ofProgram (Unnamed.program (.externCrate Unnamed.logger (some Unnamed.unnamed) []))).imports
        "demo" = [("_", ["logger"])] ∧
      (ofProgram (Unnamed.program (.use (.rename Unnamed.logger Unnamed.unnamed) []))).imports
        "demo" = [] := by
  constructor <;> decide

end Index

end CallAtlas
