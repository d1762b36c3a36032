import CallAtlas.Proofs.Names

/-!
# Outlines

The outline of a source file is its syntax as a plain tree: every construct that a walk reaches is a
node, with a label for what it is and its parts in source order. What a walk does not reach, such as
the arguments of a macro when those are skipped, is left out.

An outline makes it possible to say where a node stands without running anything. A *trail* lists
the ancestors of a node, the innermost first, and for each of them the parts in front of the one
that leads to the node. The module, the caller and the names in scope at a node are read off its
trail (`Attribution`, `Scoping`).

## Design

An `if` is a node of two parts: its condition and body, which share a scope, and its `else`, which
does not belong to that scope. For the same reason the body of a `for` is a node of its own, beside
the expression that is iterated over. All other constructs are nodes as they are written.

## Main definitions

* `Outline`, `Outline.Label` — the tree and what its nodes are.
* `Outline.ofFile` — the outline of a source file.
* `Outline.Formed` — what syntax makes sure of.
* `Outline.Trail`, `Outline.nodes` — the nodes of an outline with their trails, in source order.

## Main results

* `Outline.ofFile_plain` and its companions — outlines of syntax are well formed.
* `Outline.exists_mem_nodes_part` — a part of a node is a node, one step further down the trail.
* `Outline.exists_parent` — a node that is not the root is a part of a node.
-/

namespace CallAtlas

/-- The names by which a call names its function. -/
def Walk.Target.names : Walk.Target → List String
  | .direct name => [name]
  | .path names => names
  | .method _ name => [name]

/-- The path by which a call names its function, if it does so by one. -/
def Walk.Target.path? : Walk.Target → Option (List String)
  | .direct name => some [name]
  | .path names => some names
  | .method _ _ => none

/-- What a node of an outline is. -/
inductive Outline.Label where
  /-- A call or a call of a method, where it starts, and how it names its function, if it does. -/
  | call (place : Place) (target : Option Walk.Target)
  /-- `let pattern = value` as an expression. -/
  | condition (pattern : Pattern)
  /-- `let pattern = value else { ... };` as a statement. -/
  | binding (pattern : Pattern)
  /-- Statements in braces. -/
  | block
  /-- The condition and the body of an `if`. -/
  | branch
  /-- The condition and the body of a `while`. -/
  | whileLoop
  /-- The body of a `for`. -/
  | forBody (pattern : Pattern)
  | closure (params : List Pattern)
  /-- The guard and the body of an arm of a `match`. -/
  | arm (pattern : Pattern)
  /-- A function with a body. -/
  | function (name : Ident) (params : List Pattern)
  | trait (name : Ident)
  | impl (form : TypeForm)
  /-- A module with its items in braces. -/
  | module (name : Ident)
  | other

/-- The constructs of a source file that a walk reaches. -/
inductive Outline where
  | node (label : Outline.Label) (parts : List Outline)

namespace Outline

namespace Label

/-- Is it a function? -/
def isFunction : Label → Bool
  | .function .. => true
  | _ => false

/-- Does it open a scope for the names bound in it, functions apart? -/
def opensScope : Label → Bool
  | .block | .branch | .whileLoop | .forBody _ | .closure _ | .arm _ => true
  | _ => false

/-- Does a `let` expression in it bind nothing outside of it? A function is such a construct too: what
is bound in its head is bound in its body as well, and nowhere else. -/
def confines (label : Label) : Bool :=
  label.opensScope || label.isFunction

/-- The patterns that it binds in all of its parts. -/
def params : Label → List Pattern
  | .forBody pattern | .arm pattern => [pattern]
  | .closure params | .function _ params => params
  | _ => []

/-- The patterns that it binds for what follows it. -/
def leaves : Label → List Pattern
  | .condition pattern | .binding pattern => [pattern]
  | _ => []

/-- A construct opens a scope, is a function, or does neither. -/
theorem opensScope_or_function_or_plain (label : Label) :
    label.opensScope = true ∨ (∃ name params, label = .function name params) ∨
      label.opensScope = false ∧ label.isFunction = false := by
  cases label <;> simp [opensScope, isFunction]

end Label

/-- What the root of an outline is. -/
def label : Outline → Label
  | .node label _ => label

/-! ### Outlines of syntax -/

section Syntax

variable (macros : Bool)

mutual
/-- The outline of an expression. -/
def ofExpr : Expr → Outline
  | .path attrs _ _ args => .node .other (ofExprs attrs ++ ofExprs args)
  | .call place attrs callee args =>
    .node (.call place (Walk.target? callee)) (ofExprs attrs ++ ofExpr callee :: ofExprs args)
  | .methodCall place attrs receiver name args =>
    .node (.call place (some (.method receiver.isSelf name.text)))
      (ofExprs attrs ++ ofExpr receiver :: ofExprs args)
  | .block attrs body => .node .other (ofExprs attrs ++ [.node .block (ofStmts body)])
  | .binding _ pattern value => .node (.condition pattern) [ofExpr value]
  | .branch _ condition body otherwise =>
    .node .other
      [.node .branch [ofExpr condition, .node .block (ofStmts body)], ofExpr otherwise]
  | .whileLoop _ condition body =>
    .node .whileLoop [ofExpr condition, .node .block (ofStmts body)]
  | .forLoop _ pattern source body =>
    .node .other [ofExpr source, .node (.forBody pattern) [.node .block (ofStmts body)]]
  | .closure _ params _ body => .node (.closure params) [ofExpr body]
  | .choice attrs subject arms => .node .other (ofExprs attrs ++ ofExpr subject :: ofArms arms)
  | .invocation attrs defines _ args =>
    .node .other (ofExprs attrs ++ if macros && !defines then ofExprs args else [])
  | .node _ parts => .node .other (ofExprs parts)

/-- The outlines of several expressions. -/
def ofExprs : List Expr → List Outline
  | [] => []
  | e :: rest => ofExpr e :: ofExprs rest

/-- The outlines of the arms of a `match`. -/
def ofArms : List Arm → List Outline
  | [] => []
  | .mk _ pattern guard body :: rest =>
    .node (.arm pattern) [ofExpr guard, ofExpr body] :: ofArms rest

/-- The outlines of statements. -/
def ofStmts : List Stmt → List Outline
  | [] => []
  | .binding _ pattern value otherwise :: rest =>
    .node (.binding pattern) [ofExpr value, ofExpr otherwise] :: ofStmts rest
  | .item found :: rest => ofItem found :: ofStmts rest
  | .expr value :: rest => ofExpr value :: ofStmts rest

/-- The outline of a function. -/
def ofFunction : Function → Outline
  | .mk name header params body =>
    .node (.function name params) (ofExprs header ++ [.node .block (ofStmts body)])

/-- The outline of an item. -/
def ofItem : Item → Outline
  | .function _ found => ofFunction found
  | .type _ parts => .node .other (ofExprs parts)
  | .trait _ name parts found => .node (.trait name) (ofExprs parts ++ ofMembers found)
  | .impl form _ parts found => .node (.impl form) (ofExprs parts ++ ofMembers found)
  | .module _ name parts found => .node (.module name) (ofExprs parts ++ ofItems found)
  | .moduleFile _ _ parts => .node .other (ofExprs parts)
  | .use _ parts => .node .other (ofExprs parts)
  | .externCrate _ _ parts => .node .other (ofExprs parts)
  | .other parts => .node .other (ofExprs parts)

/-- The outlines of several items. -/
def ofItems : List Item → List Outline
  | [] => []
  | found :: rest => ofItem found :: ofItems rest

/-- The outlines of the members of a trait or an `impl` block. -/
def ofMembers : List Member → List Outline
  | [] => []
  | .function _ found :: rest => ofFunction found :: ofMembers rest
  | .required _ parts :: rest => .node .other (ofExprs parts) :: ofMembers rest
  | .other parts :: rest => .node .other (ofExprs parts) :: ofMembers rest
end

/-- The outline of a source file. -/
def ofFile (file : SourceFile) : Outline :=
  .node .other (ofExprs macros file.attrs ++ ofItems macros file.items)

end Syntax

/-! ### What syntax makes sure of

A walk does not ask where a `let` statement stands: it binds its names in the innermost scope. That
this is the scope of a block is a fact about syntax. So is that calls name functions by
identifiers. -/

/-- Is it a `let` statement? -/
def isStatement : Outline → Bool
  | .node (.binding _) _ => true
  | _ => false

/-- Does a call name its function by identifiers? -/
def Label.Named : Label → Prop
  | .call _ target => ∀ t ∈ target, Identifiers t.names
  | _ => True

/-- All calls in an outline name functions by identifiers, and all `let` statements stand in
blocks. -/
inductive Formed : Outline → Prop where
  | node {label : Label} {parts : List Outline} :
    label.Named → (label = .block ∨ ∀ part ∈ parts, part.isStatement = false) →
      (∀ part ∈ parts, Formed part) → Formed (.node label parts)

/-- The outline of anything but a `let` statement. -/
def Plain (o : Outline) : Prop :=
  o.Formed ∧ o.isStatement = false

theorem plain_node {label : Label} {parts : List Outline} (hnamed : label.Named)
    (hlabel : ∀ p, label ≠ .binding p) (h : ∀ part ∈ parts, part.Plain) :
    (Outline.node label parts).Plain := by
  refine ⟨.node hnamed (Or.inr fun part hpart => (h part hpart).2) fun part hpart =>
    (h part hpart).1, ?_⟩
  cases label with
  | binding p => exact absurd rfl (hlabel p)
  | _ => rfl

theorem plain_block {parts : List Outline} (h : ∀ part ∈ parts, part.Formed) :
    (Outline.node .block parts).Plain :=
  ⟨.node trivial (Or.inl rfl) h, rfl⟩

/-- A callee names its function by identifiers. -/
theorem target?_names {callee : Expr} {t : Walk.Target} (h : Walk.target? callee = some t) :
    Identifiers t.names := by
  unfold Walk.target? at h
  split at h
  · cases h
    exact Ident.identifiers_singleton _
  · cases h
    exact identifiers_texts _
  · obtain ⟨typeNames, -, rfl⟩ := Option.map_eq_some_iff.mp h
    exact identifiers_append.mpr ⟨identifiers_texts _, identifiers_texts _⟩
  · cases h
    exact identifiers_texts _
  · cases h

section Syntax

variable (macros : Bool)

mutual
theorem ofExpr_plain : ∀ e : Expr, (ofExpr macros e).Plain
  | .path attrs head names args => by
    rw [ofExpr]
    exact plain_node trivial nofun (List.forall_mem_append.mpr ⟨ofExprs_plain attrs, ofExprs_plain args⟩)
  | .call place attrs callee args => by
    rw [ofExpr]
    refine plain_node (fun _ => target?_names) nofun ?_
    refine List.forall_mem_append.mpr ⟨ofExprs_plain attrs, ?_⟩
    exact List.forall_mem_cons.mpr ⟨ofExpr_plain callee, ofExprs_plain args⟩
  | .methodCall place attrs receiver name args => by
    rw [ofExpr]
    refine plain_node ?_ nofun (List.forall_mem_append.mpr ⟨ofExprs_plain attrs, ?_⟩)
    · rintro _ ⟨⟩
      exact name.identifiers_singleton
    · exact List.forall_mem_cons.mpr ⟨ofExpr_plain receiver, ofExprs_plain args⟩
  | .block attrs body => by
    rw [ofExpr]
    refine plain_node trivial nofun (List.forall_mem_append.mpr ⟨ofExprs_plain attrs, ?_⟩)
    simpa using plain_block (ofStmts_formed body)
  | .binding attrs pattern value => by
    rw [ofExpr]
    exact plain_node trivial nofun (by simpa using ofExpr_plain value)
  | .branch attrs condition body otherwise => by
    rw [ofExpr]
    have hbranch : (Outline.node .branch
        [ofExpr macros condition, .node .block (ofStmts macros body)]).Plain :=
      plain_node trivial nofun (by simpa using ⟨ofExpr_plain condition, plain_block (ofStmts_formed body)⟩)
    exact plain_node trivial nofun (by simpa using ⟨hbranch, ofExpr_plain otherwise⟩)
  | .whileLoop attrs condition body => by
    rw [ofExpr]
    refine plain_node trivial nofun ?_
    simpa using ⟨ofExpr_plain condition, plain_block (ofStmts_formed body)⟩
  | .forLoop attrs pattern source body => by
    rw [ofExpr]
    have hbody : (Outline.node (.forBody pattern) [.node .block (ofStmts macros body)]).Plain :=
      plain_node trivial nofun (by simpa using plain_block (ofStmts_formed body))
    exact plain_node trivial nofun (by simpa using ⟨ofExpr_plain source, hbody⟩)
  | .closure attrs params output body => by
    rw [ofExpr]
    exact plain_node trivial nofun (by simpa using ofExpr_plain body)
  | .choice attrs subject arms => by
    rw [ofExpr]
    refine plain_node trivial nofun (List.forall_mem_append.mpr ⟨ofExprs_plain attrs, ?_⟩)
    exact List.forall_mem_cons.mpr ⟨ofExpr_plain subject, ofArms_plain arms⟩
  | .invocation attrs defines delimiter args => by
    rw [ofExpr]
    refine plain_node trivial nofun (List.forall_mem_append.mpr ⟨ofExprs_plain attrs, ?_⟩)
    split
    · exact ofExprs_plain args
    · simp
  | .node form parts => by
    rw [ofExpr]
    exact plain_node trivial nofun (ofExprs_plain parts)

theorem ofExprs_plain : ∀ es : List Expr, ∀ part ∈ ofExprs macros es, part.Plain
  | [] => by simp [ofExprs]
  | e :: rest => by
    rw [ofExprs]
    exact List.forall_mem_cons.mpr ⟨ofExpr_plain e, ofExprs_plain rest⟩

theorem ofArms_plain : ∀ arms : List Arm, ∀ part ∈ ofArms macros arms, part.Plain
  | [] => by simp [ofArms]
  | .mk attrs pattern guard body :: rest => by
    rw [ofArms]
    refine List.forall_mem_cons.mpr ⟨plain_node trivial nofun ?_, ofArms_plain rest⟩
    simpa using ⟨ofExpr_plain guard, ofExpr_plain body⟩

theorem ofStmts_formed : ∀ stmts : List Stmt, ∀ part ∈ ofStmts macros stmts, part.Formed
  | [] => by simp [ofStmts]
  | .binding attrs pattern value otherwise :: rest => by
    rw [ofStmts]
    refine List.forall_mem_cons.mpr ⟨.node trivial (Or.inr ?_) ?_, ofStmts_formed rest⟩
    · simpa using ⟨(ofExpr_plain value).2, (ofExpr_plain otherwise).2⟩
    · simpa using ⟨(ofExpr_plain value).1, (ofExpr_plain otherwise).1⟩
  | .item found :: rest => by
    rw [ofStmts]
    exact List.forall_mem_cons.mpr ⟨(ofItem_plain found).1, ofStmts_formed rest⟩
  | .expr value :: rest => by
    rw [ofStmts]
    exact List.forall_mem_cons.mpr ⟨(ofExpr_plain value).1, ofStmts_formed rest⟩

theorem ofFunction_plain : ∀ f : Function, (ofFunction macros f).Plain
  | .mk name header params body => by
    rw [ofFunction]
    refine plain_node trivial nofun (List.forall_mem_append.mpr ⟨ofExprs_plain header, ?_⟩)
    simpa using plain_block (ofStmts_formed body)

theorem ofItem_plain : ∀ item : Item, (ofItem macros item).Plain
  | .function isPublic found => by
    rw [ofItem]
    exact ofFunction_plain found
  | .trait isPublic name parts found => by
    rw [ofItem]
    exact plain_node trivial nofun (List.forall_mem_append.mpr ⟨ofExprs_plain parts, ofMembers_plain found⟩)
  | .impl form ofTrait parts found => by
    rw [ofItem]
    exact plain_node trivial nofun (List.forall_mem_append.mpr ⟨ofExprs_plain parts, ofMembers_plain found⟩)
  | .module attributes name parts found => by
    rw [ofItem]
    exact plain_node trivial nofun (List.forall_mem_append.mpr ⟨ofExprs_plain parts, ofItems_plain found⟩)
  | .type name parts | .moduleFile attributes name parts | .use tree parts
  | .externCrate name newName parts | .other parts => by
    rw [ofItem]
    exact plain_node trivial nofun (ofExprs_plain parts)

theorem ofItems_plain : ∀ items : List Item, ∀ part ∈ ofItems macros items, part.Plain
  | [] => by simp [ofItems]
  | found :: rest => by
    rw [ofItems]
    exact List.forall_mem_cons.mpr ⟨ofItem_plain found, ofItems_plain rest⟩

theorem ofMembers_plain : ∀ members : List Member, ∀ part ∈ ofMembers macros members, part.Plain
  | [] => by simp [ofMembers]
  | .function isPublic found :: rest => by
    rw [ofMembers]
    exact List.forall_mem_cons.mpr ⟨ofFunction_plain found, ofMembers_plain rest⟩
  | .required name parts :: rest | .other parts :: rest => by
    rw [ofMembers]
    exact List.forall_mem_cons.mpr ⟨plain_node trivial nofun (ofExprs_plain parts), ofMembers_plain rest⟩
end

theorem ofFile_plain (file : SourceFile) : (ofFile macros file).Plain := by
  rw [ofFile]
  refine plain_node trivial nofun (List.forall_mem_append.mpr ?_)
  exact ⟨ofExprs_plain macros file.attrs, ofItems_plain macros file.items⟩

end Syntax

/-! ### Trails -/

/-- An ancestor of a node, and its parts in front of the one that leads to the node. -/
structure Frame where
  /-- What the ancestor is. -/
  label : Label
  /-- The parts in front. -/
  earlier : List Outline

/-- The ancestors of a node, the innermost first. -/
abbrev Trail := List Frame

mutual
/-- The nodes of an outline that stands at a trail, each with its own trail, in source order. -/
def nodes (trail : Trail) : Outline → List (Trail × Outline)
  | .node label parts => (trail, .node label parts) :: partNodes trail label [] parts

/-- The nodes of the last parts of a node, behind its earlier parts. -/
def partNodes (trail : Trail) (label : Label) (earlier : List Outline) :
    List Outline → List (Trail × Outline)
  | [] => []
  | part :: rest =>
    nodes (⟨label, earlier⟩ :: trail) part ++ partNodes trail label (earlier ++ [part]) rest
end

theorem mem_nodes_self (trail : Trail) (o : Outline) : (trail, o) ∈ nodes trail o := by
  cases o with
  | node label parts => simp [nodes]

/-- The nodes of one part are among the nodes of all parts. -/
theorem nodes_subset_partNodes (trail : Trail) (label : Label) (part : Outline)
    (after : List Outline) : ∀ before earlier : List Outline,
    nodes (⟨label, earlier ++ before⟩ :: trail) part ⊆
      partNodes trail label earlier (before ++ part :: after) := by
  intro before
  induction before with
  | nil =>
    intro earlier x hx
    rw [List.append_nil] at hx
    simpa [partNodes] using Or.inl hx
  | cons first before ih =>
    intro earlier x hx
    rw [List.cons_append, partNodes]
    refine List.mem_append_right _ (ih (earlier ++ [first]) ?_)
    simpa using hx

mutual
/-- What is a node of a node is a node of the whole. -/
theorem nodes_trans {trail : Trail} : ∀ {o : Outline} {x : Trail × Outline},
    x ∈ nodes trail o → nodes x.1 x.2 ⊆ nodes trail o
  | .node label parts, x, hx => by
    rw [nodes] at hx ⊢
    rcases List.mem_cons.mp hx with rfl | hx
    · rw [nodes]
      exact List.Subset.refl _
    · exact fun y hy => List.mem_cons_of_mem _ (partNodes_trans hx hy)

theorem partNodes_trans {trail : Trail} {label : Label} :
    ∀ {parts earlier : List Outline} {x : Trail × Outline},
    x ∈ partNodes trail label earlier parts →
      nodes x.1 x.2 ⊆ partNodes trail label earlier parts
  | part :: rest, earlier, x, hx => by
    rw [partNodes] at hx ⊢
    rcases List.mem_append.mp hx with hx | hx
    · exact fun y hy => List.mem_append_left _ (nodes_trans hx hy)
    · exact fun y hy => List.mem_append_right _ (partNodes_trans hx hy)
end

/-- A part of a node is a node, one step further down the trail. -/
theorem exists_mem_nodes_part {start trail : Trail} {o part : Outline} {label : Label}
    {parts : List Outline} (h : (trail, .node label parts) ∈ nodes start o) (hpart : part ∈ parts) :
    ∃ earlier, (⟨label, earlier⟩ :: trail, part) ∈ nodes start o := by
  obtain ⟨before, after, rfl⟩ := List.append_of_mem hpart
  refine ⟨before, nodes_trans h ?_⟩
  rw [nodes]
  refine List.mem_cons_of_mem _ (nodes_subset_partNodes trail label part after before [] ?_)
  exact mem_nodes_self _ part

mutual
/-- A node that is not the root is a part of a node, one step further up the trail. -/
theorem exists_parent {start : Trail} : ∀ {o part : Outline} {f : Frame} {outer : Trail},
    (f :: outer, part) ∈ nodes start o →
    f :: outer = start ∨ ∃ parts, (outer, .node f.label parts) ∈ nodes start o
  | .node label parts, part, f, outer, h => by
    rw [nodes] at h ⊢
    rcases List.mem_cons.mp h with h | h
    · exact Or.inl (congrArg Prod.fst h)
    · rcases exists_parent_of_mem_partNodes h with ⟨rfl, hlabel⟩ | ⟨found, hfound⟩
      · exact Or.inr ⟨parts, hlabel ▸ List.mem_cons_self⟩
      · exact Or.inr ⟨found, List.mem_cons_of_mem _ hfound⟩

theorem exists_parent_of_mem_partNodes {trail : Trail} {label : Label} :
    ∀ {parts earlier : List Outline} {part : Outline} {f : Frame} {outer : Trail},
    (f :: outer, part) ∈ partNodes trail label earlier parts →
    outer = trail ∧ f.label = label ∨
      ∃ found, (outer, .node f.label found) ∈ partNodes trail label earlier parts
  | first :: rest, earlier, part, f, outer, h => by
    rw [partNodes] at h ⊢
    rcases List.mem_append.mp h with h | h
    · rcases exists_parent h with heq | ⟨found, hfound⟩
      · cases heq
        exact Or.inl ⟨rfl, rfl⟩
      · exact Or.inr ⟨found, List.mem_append_left _ hfound⟩
    · rcases exists_parent_of_mem_partNodes h with hroot | ⟨found, hfound⟩
      · exact Or.inl hroot
      · exact Or.inr ⟨found, List.mem_append_right _ hfound⟩
end

/-- The parts in front on a trail are parts of outlines of syntax. -/
def Frame.Formed (f : Frame) : Prop :=
  (f.label = .block ∨ ∀ part ∈ f.earlier, part.isStatement = false) ∧
    ∀ part ∈ f.earlier, part.Formed

mutual
/-- The nodes of an outline of syntax are outlines of syntax themselves, and so is all that stands on
their trails. -/
theorem formed_of_mem_nodes : ∀ {o : Outline} {trail : Trail} {x : Trail × Outline}, o.Formed →
    (∀ f ∈ trail, f.Formed) → x ∈ o.nodes trail → x.2.Formed ∧ ∀ f ∈ x.1, f.Formed
  | .node label parts, trail, x, ho, htrail, hx => by
    rw [nodes] at hx
    rcases List.mem_cons.mp hx with rfl | hx
    · exact ⟨ho, htrail⟩
    · obtain ⟨-, hlabel, hparts⟩ := ho
      exact formed_of_mem_partNodes [] hlabel hparts htrail hx

theorem formed_of_mem_partNodes : ∀ {parts : List Outline} (earlier : List Outline) {label : Label}
    {trail : Trail} {x : Trail × Outline},
    (label = .block ∨ ∀ part ∈ earlier ++ parts, part.isStatement = false) →
    (∀ part ∈ earlier ++ parts, part.Formed) → (∀ f ∈ trail, f.Formed) →
    x ∈ partNodes trail label earlier parts → x.2.Formed ∧ ∀ f ∈ x.1, f.Formed
  | [], _, _, _, _, _, _, _, hx => by simp [partNodes] at hx
  | part :: rest, earlier, label, trail, x, hlabel, hparts, htrail, hx => by
    have hframe : (⟨label, earlier⟩ : Frame).Formed :=
      ⟨hlabel.imp_right fun h p hp => h p (List.mem_append_left _ hp),
        fun p hp => hparts p (List.mem_append_left _ hp)⟩
    rw [partNodes] at hx
    rcases List.mem_append.mp hx with hx | hx
    · exact formed_of_mem_nodes (hparts part (by simp))
        (List.forall_mem_cons.mpr ⟨hframe, htrail⟩) hx
    · refine formed_of_mem_partNodes (earlier ++ [part]) ?_ ?_ htrail hx
      · simpa using hlabel
      · simpa using hparts
end

end Outline

end CallAtlas
