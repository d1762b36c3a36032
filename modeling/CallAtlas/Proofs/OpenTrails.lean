import CallAtlas.Proofs.Attribution
import CallAtlas.Proofs.Indexed

/-!
# Where declarations are found

The functions of a program are found twice: once for the index, by which calls are resolved, and
once by the walk, which lists them as callers. The walk reaches every construct of a file. What is
declared is found by looking into modules in braces, into traits, into `impl` blocks of types that
have a name, and into the statements of bodies of functions. A block inside of a body, or any other
expression, is not looked into.

So whether a function is declared is a matter of its ancestors: all of them, the file apart, have to
be constructs that are looked into (`Outline.Trail.Open`). Both directions are shown by following
the syntax, from the file down to the function: an indexed item is a node with an open trail
(`Program.Indexed.exists_open`), and a node with an open trail belongs to an indexed item
(`Outline.found_of_open`).

## Main definitions

* `Outline.Label.isOpen`, `Outline.Trail.Open` — constructs that are looked into.
* `Outline.Found` — what is found there.

## Main results

* `Program.Indexed.exists_open`, `Outline.exists_function_node` — indexed items and their functions
  as nodes.
* `Outline.found_of_open` — nodes with an open trail.
-/

namespace CallAtlas

namespace Outline

/-! ### Constructs that are looked into -/

/-- Is what stands in such a construct looked at for declarations? -/
def Label.isOpen : Label → Bool
  | .module _ | .trait _ | .function .. | .block => true
  | .impl form => form.lastName?.isSome
  | _ => false

/-- Are all constructs around a node looked into? The last one is the file. -/
def Trail.Open (trail : Trail) : Prop :=
  ∀ f ∈ trail.dropLast, f.label.isOpen = true

instance (trail : Trail) : Decidable trail.Open :=
  inferInstanceAs (Decidable (∀ f ∈ trail.dropLast, f.label.isOpen = true))

theorem Trail.open_singleton (f : Frame) : Trail.Open [f] := by
  intro g hg
  simp at hg

theorem Trail.open_cons_cons {f g : Frame} {outer : Trail} :
    Trail.Open (f :: g :: outer) ↔ f.label.isOpen = true ∧ Trail.Open (g :: outer) := by
  rw [Trail.Open, List.dropLast_cons_cons, List.forall_mem_cons]
  rfl

theorem Trail.Open.cons {trail : Trail} (h : trail.Open) (hne : trail ≠ []) {f : Frame}
    (hf : f.label.isOpen = true) : Trail.Open (f :: trail) := by
  cases trail with
  | nil => exact absurd rfl hne
  | cons g outer => exact Trail.open_cons_cons.mpr ⟨hf, h⟩

/-- The path of the modules inside of a construct. -/
def Label.into (path : List String) : Label → List String
  | .module name => path ++ [name.text]
  | _ => path

theorem Trail.module_cons (base : List String) (label : Label) (earlier : List Outline)
    (outer : Trail) :
    Trail.module base (⟨label, earlier⟩ :: outer) = label.into (outer.module base) := by
  cases label <;> rfl

/-- A node of a file in which all around it is looked into, and the path of the modules around
it. -/
structure Open (macros : Bool) (u : SourceUnit) (path : List String) (trail : Trail)
    (o : Outline) : Prop where
  /-- It is a node of the file. -/
  node : (trail, o) ∈ nodesOf macros u
  /-- It is not the file itself. -/
  inner : trail ≠ []
  /-- All around it is looked into. -/
  isOpen : trail.Open
  /-- The modules around it are the path. -/
  module : trail.module u.module = path

variable {macros : Bool} {u : SourceUnit} {path : List String} {trail : Trail}

/-- The parts of a construct that is looked into. -/
theorem Open.part {label : Label} {parts : List Outline}
    (h : Open macros u path trail (.node label parts)) (hlabel : label.isOpen = true)
    {part : Outline} (hpart : part ∈ parts) :
    ∃ inner, Open macros u (label.into path) inner part := by
  obtain ⟨earlier, hnode⟩ := exists_mem_nodes_part h.node hpart
  refine ⟨_, hnode, by simp, h.isOpen.cons h.inner hlabel, ?_⟩
  rw [Trail.module_cons, h.module]

/-! ### From items to nodes -/

theorem mem_ofItems {items : List Item} {item : Item} (h : item ∈ items) :
    ofItem macros item ∈ ofItems macros items := by
  induction items with
  | nil => simp at h
  | cons first rest ih =>
    rw [ofItems]
    rcases List.mem_cons.mp h with rfl | h
    · exact List.mem_cons_self
    · exact List.mem_cons_of_mem _ (ih h)

theorem mem_ofStmts {body : List Stmt} {item : Item} (h : item ∈ body.filterMap Stmt.item?) :
    ofItem macros item ∈ ofStmts macros body := by
  induction body with
  | nil => simp at h
  | cons first rest ih =>
    cases first with
    | item found =>
      rw [ofStmts]
      have hcases : item = found ∨ item ∈ rest.filterMap Stmt.item? := by
        simpa [Stmt.item?] using h
      rcases hcases with rfl | h
      · exact List.mem_cons_self
      · exact List.mem_cons_of_mem _ (ih h)
    | binding attrs pattern value otherwise =>
      rw [ofStmts]
      exact List.mem_cons_of_mem _ (ih (by simpa [Stmt.item?] using h))
    | expr value =>
      rw [ofStmts]
      exact List.mem_cons_of_mem _ (ih (by simpa [Stmt.item?] using h))

theorem mem_ofMembers {members : List Member} {f : Function}
    (h : f ∈ members.filterMap Member.function?) :
    ofFunction macros f ∈ ofMembers macros members := by
  induction members with
  | nil => simp at h
  | cons first rest ih =>
    cases first with
    | function isPublic found =>
      rw [ofMembers]
      have hcases : f = found ∨ f ∈ rest.filterMap Member.function? := by
        simpa [Member.function?] using h
      rcases hcases with rfl | h
      · exact List.mem_cons_self
      · exact List.mem_cons_of_mem _ (ih h)
    | required name parts =>
      rw [ofMembers]
      exact List.mem_cons_of_mem _ (ih (by simpa [Member.function?] using h))
    | other parts =>
      rw [ofMembers]
      exact List.mem_cons_of_mem _ (ih (by simpa [Member.function?] using h))

/-- The functions of an item are nodes in the same module. -/
theorem exists_function_node {item : Item} (h : Open macros u path trail (ofItem macros item))
    {f : Function} (hf : f ∈ item.functions) :
    ∃ inner, Open macros u path inner (ofFunction macros f) := by
  cases item with
  | function isPublic found =>
    obtain rfl : f = found := by simpa [Item.functions] using hf
    rw [ofItem] at h
    exact ⟨trail, h⟩
  | trait isPublic name parts members =>
    rw [ofItem] at h
    exact h.part rfl (List.mem_append_right _ (mem_ofMembers hf))
  | impl form ofTrait parts members =>
    rw [ofItem] at h
    rw [Item.functions] at hf
    split at hf
    · next hform => exact h.part hform (List.mem_append_right _ (mem_ofMembers hf))
    · simp at hf
  | _ => simp [Item.functions] at hf

/-- The items in the body of a function are nodes in the same module. -/
theorem exists_item_node {f : Function} (h : Open macros u path trail (ofFunction macros f))
    {item : Item} (hitem : item ∈ f.items) :
    ∃ inner, Open macros u path inner (ofItem macros item) := by
  obtain ⟨name, header, params, body⟩ := f
  rw [ofFunction] at h
  obtain ⟨before, hblock⟩ := h.part rfl (List.mem_append_right _ List.mem_cons_self)
  exact hblock.part rfl (mem_ofStmts hitem)

end Outline

open Outline

/-- An indexed item is a node of a file, and all around it is looked into. -/
theorem Program.Indexed.exists_open {p : Program} {path : List String} {item : Item}
    (h : p.Indexed path item) (macros : Bool) :
    ∃ u ∈ p.units, ∃ trail, Open macros u path trail (Outline.ofItem macros item) := by
  induction h with
  | @ofUnit u item hu hitem =>
    have hroot : ([], ofFile macros u.file) ∈ nodesOf macros u := mem_nodes_self _ _
    rw [ofFile] at hroot
    obtain ⟨earlier, hnode⟩ :=
      exists_mem_nodes_part hroot (List.mem_append_right _ (mem_ofItems hitem))
    exact ⟨u, hu, _, hnode, by simp, Trail.open_singleton _, rfl⟩
  | @inside path item x hindexed hx ih =>
    obtain ⟨u, hu, trail, hopen⟩ := ih
    have hbody : x ∈ (item.functions.flatMap Function.items).map (path, ·) →
        ∃ inner, Open macros u x.1 inner (Outline.ofItem macros x.2) := by
      intro hx
      obtain ⟨found, hfound, rfl⟩ := List.mem_map.mp hx
      obtain ⟨f, hf, hitem⟩ := List.mem_flatMap.mp hfound
      obtain ⟨outer, hfunction⟩ := exists_function_node hopen hf
      exact exists_item_node hfunction hitem
    cases item with
    | module attributes name parts items =>
      obtain ⟨found, hfound, rfl⟩ := List.mem_map.mp hx
      rw [Outline.ofItem] at hopen
      exact ⟨u, hu, hopen.part rfl (List.mem_append_right _ (mem_ofItems hfound))⟩
    | _ => exact ⟨u, hu, hbody hx⟩

/-! ### From nodes to items -/

namespace Outline

mutual
/-- What holds of the root of an outline, and of a part if it holds of the whole, holds of all
nodes. -/
theorem nodes_induction {P : Trail → Outline → Prop}
    (hpart : ∀ {trail label parts} earlier part, part ∈ parts → P trail (.node label parts) →
      P (⟨label, earlier⟩ :: trail) part) :
    ∀ {o : Outline} {trail : Trail} {x : Trail × Outline}, P trail o → x ∈ nodes trail o →
      P x.1 x.2
  | .node label parts, trail, x, ho, hx => by
    rw [nodes] at hx
    rcases List.mem_cons.mp hx with rfl | hx
    · exact ho
    · exact partNodes_induction hpart (fun earlier part hmem => hpart earlier part hmem ho) hx

theorem partNodes_induction {P : Trail → Outline → Prop}
    (hpart : ∀ {trail label parts} earlier part, part ∈ parts → P trail (.node label parts) →
      P (⟨label, earlier⟩ :: trail) part) :
    ∀ {parts earlier : List Outline} {trail : Trail} {label : Label} {x : Trail × Outline},
      (∀ earlier, ∀ part ∈ parts, P (⟨label, earlier⟩ :: trail) part) →
      x ∈ partNodes trail label earlier parts → P x.1 x.2
  | [], _, _, _, _, _, hx => by simp [partNodes] at hx
  | part :: rest, earlier, trail, label, x, hparts, hx => by
    rw [partNodes] at hx
    rcases List.mem_append.mp hx with hx | hx
    · exact nodes_induction hpart (hparts earlier part List.mem_cons_self) hx
    · exact partNodes_induction hpart
        (fun earlier part hmem => hparts earlier part (List.mem_cons_of_mem _ hmem)) hx
end

/-- Expressions are not looked into. -/
theorem isOpen_ofExpr (e : Expr) : (ofExpr macros e).label.isOpen = false := by
  cases e <;> rw [ofExpr] <;> rfl

theorem isOpen_of_mem_ofExprs {es : List Expr} {part : Outline} (h : part ∈ ofExprs macros es) :
    part.label.isOpen = false := by
  induction es with
  | nil => simp [ofExprs] at h
  | cons e rest ih =>
    rw [ofExprs] at h
    rcases List.mem_cons.mp h with rfl | h
    · exact isOpen_ofExpr e
    · exact ih h

theorem exists_item_of_mem_ofItems {items : List Item} {part : Outline}
    (h : part ∈ ofItems macros items) : ∃ item ∈ items, part = ofItem macros item := by
  induction items with
  | nil => simp [ofItems] at h
  | cons first rest ih =>
    rw [ofItems] at h
    rcases List.mem_cons.mp h with rfl | h
    · exact ⟨first, List.mem_cons_self, rfl⟩
    · obtain ⟨item, hitem, rfl⟩ := ih h
      exact ⟨item, List.mem_cons_of_mem _ hitem, rfl⟩

/-- Among statements only items are looked into. -/
theorem exists_item_of_mem_ofStmts {body : List Stmt} {part : Outline}
    (h : part ∈ ofStmts macros body) (hopen : part.label.isOpen = true) :
    ∃ item ∈ body.filterMap Stmt.item?, part = ofItem macros item := by
  induction body with
  | nil => simp [ofStmts] at h
  | cons first rest ih =>
    cases first with
    | item found =>
      rw [ofStmts] at h
      rw [List.filterMap_cons_some (by rfl : Stmt.item? (.item found) = some found)]
      rcases List.mem_cons.mp h with rfl | h
      · exact ⟨found, List.mem_cons_self, rfl⟩
      · obtain ⟨item, hitem, rfl⟩ := ih h
        exact ⟨item, List.mem_cons_of_mem _ hitem, rfl⟩
    | binding attrs pattern value otherwise =>
      rw [ofStmts] at h
      rcases List.mem_cons.mp h with rfl | h
      · cases hopen
      · exact ih h
    | expr value =>
      rw [ofStmts] at h
      rcases List.mem_cons.mp h with rfl | h
      · simp [isOpen_ofExpr] at hopen
      · exact ih h

/-- Among members only functions are looked into. -/
theorem exists_function_of_mem_ofMembers {members : List Member} {part : Outline}
    (h : part ∈ ofMembers macros members) (hopen : part.label.isOpen = true) :
    ∃ f ∈ members.filterMap Member.function?, part = ofFunction macros f := by
  induction members with
  | nil => simp [ofMembers] at h
  | cons first rest ih =>
    cases first with
    | function isPublic found =>
      rw [ofMembers] at h
      rw [List.filterMap_cons_some (by rfl : Member.function? (.function isPublic found) = some found)]
      rcases List.mem_cons.mp h with rfl | h
      · exact ⟨found, List.mem_cons_self, rfl⟩
      · obtain ⟨f, hf, rfl⟩ := ih h
        exact ⟨f, List.mem_cons_of_mem _ hf, rfl⟩
    | required name parts =>
      rw [ofMembers] at h
      rcases List.mem_cons.mp h with rfl | h
      · cases hopen
      · exact ih h
    | other parts =>
      rw [ofMembers] at h
      rcases List.mem_cons.mp h with rfl | h
      · cases hopen
      · exact ih h

/-- What the index finds in a module: an indexed item, one of its functions, or the body of one. -/
inductive Found (p : Program) (macros : Bool) (path : List String) : Outline → Prop where
  | item {item : Item} : p.Indexed path item → Found p macros path (ofItem macros item)
  | function {item : Item} {f : Function} : p.Indexed path item → f ∈ item.functions →
    Found p macros path (ofFunction macros f)
  | body {item : Item} {f : Function} : p.Indexed path item → f ∈ item.functions →
    Found p macros path (.node .block (ofStmts macros f.body))

variable {p : Program}

/-- The items in the body of a function are indexed with the function. -/
theorem indexed_of_mem_items {item : Item} {f : Function} (hindexed : p.Indexed path item)
    (hf : f ∈ item.functions) {inner : Item} (hinner : inner ∈ f.items) : p.Indexed path inner := by
  have hmem : (path, inner) ∈ (item.functions.flatMap Function.items).map (path, ·) :=
    List.mem_map_of_mem (List.mem_flatMap.mpr ⟨f, hf, hinner⟩)
  refine hindexed.inside (x := (path, inner)) ?_
  cases item with
  | module => simp [Item.functions] at hf
  | _ => exact hmem

theorem Found.part_function {item : Item} {f : Function} (hindexed : p.Indexed path item)
    (hf : f ∈ item.functions) {label : Label} {parts : List Outline}
    (ho : ofFunction macros f = .node label parts) {part : Outline} (hpart : part ∈ parts)
    (hopen : part.label.isOpen = true) : Found p macros (label.into path) part := by
  obtain ⟨name, header, params, body⟩ := f
  rw [ofFunction] at ho
  cases ho
  rcases List.mem_append.mp hpart with hpart | hpart
  · simp [isOpen_of_mem_ofExprs hpart] at hopen
  · obtain rfl := List.mem_singleton.mp hpart
    exact .body hindexed hf

/-- What is looked into inside of what is found is found, too. -/
theorem Found.part {o : Outline} (h : Found p macros path o) {label : Label}
    {parts : List Outline} (ho : o = .node label parts) (hlabel : label.isOpen = true)
    {part : Outline} (hpart : part ∈ parts) (hopen : part.label.isOpen = true) :
    Found p macros (label.into path) part := by
  -- what is looked into is none of the expressions in front
  have hbehind : ∀ {es : List Expr} {others : List Outline},
      part ∈ ofExprs macros es ++ others → part ∈ others := by
    intro es others hmem
    refine (List.mem_append.mp hmem).resolve_left fun hes => ?_
    simp [isOpen_of_mem_ofExprs hes] at hopen
  cases h with
  | @item item hindexed =>
    cases item with
    | function isPublic found =>
      rw [ofItem] at ho
      exact .part_function hindexed List.mem_cons_self ho hpart hopen
    | trait isPublic name exprs members =>
      rw [ofItem] at ho
      cases ho
      obtain ⟨f, hf, rfl⟩ := exists_function_of_mem_ofMembers (hbehind hpart) hopen
      exact .function hindexed hf
    | impl form ofTrait exprs members =>
      rw [ofItem] at ho
      cases ho
      obtain ⟨f, hf, rfl⟩ := exists_function_of_mem_ofMembers (hbehind hpart) hopen
      have hform : form.lastName?.isSome = true := hlabel
      refine .function hindexed ?_
      rw [Item.functions, if_pos hform]
      exact hf
    | module attributes name exprs items =>
      rw [ofItem] at ho
      cases ho
      obtain ⟨inner, hinner, rfl⟩ := exists_item_of_mem_ofItems (hbehind hpart)
      exact .item (hindexed.inside (x := (_, inner)) (List.mem_map_of_mem hinner))
    | _ =>
      rw [ofItem] at ho
      cases ho
      cases hlabel
  | function hindexed hf => exact .part_function hindexed hf ho hpart hopen
  | body hindexed hf =>
    cases ho
    obtain ⟨inner, hinner, rfl⟩ := exists_item_of_mem_ofStmts hpart hopen
    exact .item (indexed_of_mem_items hindexed hf hinner)

/-- What is looked into directly in a file is an item. -/
theorem found_of_mem_file (hu : u ∈ p.units) {label : Label} {parts : List Outline}
    (hfile : Outline.node label parts = ofFile macros u.file) {part : Outline}
    (hpart : part ∈ parts) (hopen : part.label.isOpen = true) :
    Found p macros (label.into u.module) part := by
  rw [ofFile] at hfile
  cases hfile
  rcases List.mem_append.mp hpart with hpart | hpart
  · simp [isOpen_of_mem_ofExprs hpart] at hopen
  · obtain ⟨item, hitem, rfl⟩ := exists_item_of_mem_ofItems hpart
    exact .item (.ofUnit hu hitem)

/-- **What is looked into, all the way from the file, is found.** -/
theorem found_of_open (hu : u ∈ p.units) {o : Outline} (h : Open macros u path trail o)
    (ho : o.label.isOpen = true) : Found p macros path o := by
  -- the invariant goes down from the file, of which nothing is said
  let P : Trail → Outline → Prop := fun trail o =>
    (trail = [] → o = ofFile macros u.file) ∧
      (trail ≠ [] → trail.Open → o.label.isOpen = true →
        Found p macros (trail.module u.module) o)
  have hroot : P [] (ofFile macros u.file) := ⟨fun _ => rfl, fun hne => absurd rfl hne⟩
  have hstep : ∀ {trail label parts} earlier part, part ∈ parts → P trail (.node label parts) →
      P (⟨label, earlier⟩ :: trail) part := by
    intro trail label parts earlier part hpart hP
    refine ⟨fun hnil => by simp at hnil, fun _ hopen hlabel => ?_⟩
    rw [Trail.module_cons]
    cases trail with
    | nil => exact found_of_mem_file hu (hP.1 rfl) hpart hlabel
    | cons f outer =>
      obtain ⟨hparent, houter⟩ := Trail.open_cons_cons.mp hopen
      exact (hP.2 (by simp) houter hparent).part rfl hparent hpart hlabel
  have hfound := (nodes_induction hstep hroot h.node).2 h.inner h.isOpen ho
  rwa [h.module] at hfound

end Outline

end CallAtlas
