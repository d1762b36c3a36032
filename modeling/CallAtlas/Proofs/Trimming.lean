import CallAtlas.Proofs.Attribution

/-!
# Outlines without the arguments of macros

The arguments of macros are part of an outline only if they are asked for. Leaving them out trims the
outline: some parts are gone, and what is left is as it was. So a node of the smaller outline is a
node of the larger one, below constructs of the same kinds.

## Main definitions

* `Outline.Trimmed`, `Outline.TrimmedParts` — an outline with some parts left out.

## Main results

* `Outline.ofFile_trimmed` — a file without the arguments of its macros.
* `Outline.Trimmed.exists_mem_nodes` — nodes that are left.
-/

namespace CallAtlas

namespace Outline

mutual
/-- The first outline is the second with some parts left out. -/
inductive Trimmed : Outline → Outline → Prop where
  | node {label : Label} {parts full : List Outline} :
    TrimmedParts parts full → Trimmed (.node label parts) (.node label full)

/-- The first outlines are the second with some expressions left out, and with parts of others. -/
inductive TrimmedParts : List Outline → List Outline → Prop where
  | nil : TrimmedParts [] []
  | cons {part whole : Outline} {parts full : List Outline} :
    Trimmed part whole → TrimmedParts parts full → TrimmedParts (part :: parts) (whole :: full)
  | skip {whole : Outline} {parts full : List Outline} :
    whole.isStatement = false → TrimmedParts parts full → TrimmedParts parts (whole :: full)
end

theorem trimmedParts_nil : ∀ full : List Outline, (∀ part ∈ full, part.isStatement = false) →
    TrimmedParts [] full
  | [], _ => .nil
  | whole :: full, h => by
    obtain ⟨hwhole, hfull⟩ := List.forall_mem_cons.mp h
    exact .skip hwhole (trimmedParts_nil full hfull)

theorem TrimmedParts.append : ∀ {parts full others rest : List Outline}, TrimmedParts parts full →
    TrimmedParts others rest → TrimmedParts (parts ++ others) (full ++ rest)
  | _, _, _, _, .nil, hothers => hothers
  | _, _, _, _, .cons h hparts, hothers => .cons h (hparts.append hothers)
  | _, _, _, _, .skip hskip hparts, hothers => .skip hskip (hparts.append hothers)

theorem Trimmed.singleton {part whole : Outline} (h : Trimmed part whole) :
    TrimmedParts [part] [whole] :=
  .cons h .nil

theorem Trimmed.pair {part whole part' whole' : Outline} (h : Trimmed part whole)
    (h' : Trimmed part' whole') : TrimmedParts [part, part'] [whole, whole'] :=
  .cons h h'.singleton

/-! ### Outlines of syntax -/

mutual
theorem ofExpr_trimmed : ∀ e : Expr, Trimmed (ofExpr false e) (ofExpr true e)
  | .path attrs head names args => by
    rw [ofExpr, ofExpr]
    exact .node ((ofExprs_trimmed attrs).append (ofExprs_trimmed args))
  | .call place attrs callee args => by
    rw [ofExpr, ofExpr]
    refine .node ((ofExprs_trimmed attrs).append ?_)
    exact .cons (ofExpr_trimmed callee) (ofExprs_trimmed args)
  | .methodCall place attrs receiver name args => by
    rw [ofExpr, ofExpr]
    refine .node ((ofExprs_trimmed attrs).append ?_)
    exact .cons (ofExpr_trimmed receiver) (ofExprs_trimmed args)
  | .block attrs body => by
    rw [ofExpr, ofExpr]
    refine .node ((ofExprs_trimmed attrs).append ?_)
    exact (Trimmed.node (ofStmts_trimmed body)).singleton
  | .binding attrs pattern value => by
    rw [ofExpr, ofExpr]
    exact .node (ofExpr_trimmed value).singleton
  | .branch attrs condition body otherwise => by
    rw [ofExpr, ofExpr]
    refine .node (Trimmed.pair (.node ?_) (ofExpr_trimmed otherwise))
    exact (ofExpr_trimmed condition).pair (.node (ofStmts_trimmed body))
  | .whileLoop attrs condition body => by
    rw [ofExpr, ofExpr]
    exact .node ((ofExpr_trimmed condition).pair (.node (ofStmts_trimmed body)))
  | .forLoop attrs pattern source body => by
    rw [ofExpr, ofExpr]
    refine .node ((ofExpr_trimmed source).pair (.node ?_))
    exact (Trimmed.node (ofStmts_trimmed body)).singleton
  | .closure attrs params output body => by
    rw [ofExpr, ofExpr]
    exact .node (ofExpr_trimmed body).singleton
  | .choice attrs subject arms => by
    rw [ofExpr, ofExpr]
    refine .node ((ofExprs_trimmed attrs).append ?_)
    exact .cons (ofExpr_trimmed subject) (ofArms_trimmed arms)
  | .invocation attrs defines delimiter args => by
    rw [ofExpr, ofExpr]
    -- here something is left out
    refine .node ((ofExprs_trimmed attrs).append (trimmedParts_nil _ ?_))
    split
    · exact fun part hpart => (ofExprs_plain true args part hpart).2
    · simp
  | .node form parts => by
    rw [ofExpr, ofExpr]
    exact .node (ofExprs_trimmed parts)

theorem ofExprs_trimmed : ∀ es : List Expr, TrimmedParts (ofExprs false es) (ofExprs true es)
  | [] => .nil
  | e :: rest => by
    rw [ofExprs, ofExprs]
    exact .cons (ofExpr_trimmed e) (ofExprs_trimmed rest)

theorem ofArms_trimmed : ∀ arms : List Arm, TrimmedParts (ofArms false arms) (ofArms true arms)
  | [] => .nil
  | .mk attrs pattern guard body :: rest => by
    rw [ofArms, ofArms]
    exact .cons (.node ((ofExpr_trimmed guard).pair (ofExpr_trimmed body))) (ofArms_trimmed rest)

theorem ofStmts_trimmed : ∀ stmts : List Stmt,
    TrimmedParts (ofStmts false stmts) (ofStmts true stmts)
  | [] => .nil
  | .binding attrs pattern value otherwise :: rest => by
    rw [ofStmts, ofStmts]
    exact .cons (.node ((ofExpr_trimmed value).pair (ofExpr_trimmed otherwise)))
      (ofStmts_trimmed rest)
  | .item found :: rest => by
    rw [ofStmts, ofStmts]
    exact .cons (ofItem_trimmed found) (ofStmts_trimmed rest)
  | .expr value :: rest => by
    rw [ofStmts, ofStmts]
    exact .cons (ofExpr_trimmed value) (ofStmts_trimmed rest)

theorem ofFunction_trimmed : ∀ f : Function, Trimmed (ofFunction false f) (ofFunction true f)
  | .mk name header params body => by
    rw [ofFunction, ofFunction]
    refine .node ((ofExprs_trimmed header).append ?_)
    exact (Trimmed.node (ofStmts_trimmed body)).singleton

theorem ofItem_trimmed : ∀ item : Item, Trimmed (ofItem false item) (ofItem true item)
  | .function isPublic found => by
    rw [ofItem, ofItem]
    exact ofFunction_trimmed found
  | .trait isPublic name parts found => by
    rw [ofItem, ofItem]
    exact .node ((ofExprs_trimmed parts).append (ofMembers_trimmed found))
  | .impl form ofTrait parts found => by
    rw [ofItem, ofItem]
    exact .node ((ofExprs_trimmed parts).append (ofMembers_trimmed found))
  | .module attributes name parts found => by
    rw [ofItem, ofItem]
    exact .node ((ofExprs_trimmed parts).append (ofItems_trimmed found))
  | .type name parts | .moduleFile attributes name parts | .use tree parts
  | .externCrate name newName parts | .other parts => by
    rw [ofItem, ofItem]
    exact .node (ofExprs_trimmed parts)

theorem ofItems_trimmed : ∀ items : List Item,
    TrimmedParts (ofItems false items) (ofItems true items)
  | [] => .nil
  | found :: rest => by
    rw [ofItems, ofItems]
    exact .cons (ofItem_trimmed found) (ofItems_trimmed rest)

theorem ofMembers_trimmed : ∀ members : List Member,
    TrimmedParts (ofMembers false members) (ofMembers true members)
  | [] => .nil
  | .function isPublic found :: rest => by
    rw [ofMembers, ofMembers]
    exact .cons (ofFunction_trimmed found) (ofMembers_trimmed rest)
  | .required name parts :: rest | .other parts :: rest => by
    rw [ofMembers, ofMembers]
    exact .cons (.node (ofExprs_trimmed parts)) (ofMembers_trimmed rest)
end

theorem ofFile_trimmed (file : SourceFile) : Trimmed (ofFile false file) (ofFile true file) := by
  rw [ofFile, ofFile]
  exact .node ((ofExprs_trimmed file.attrs).append (ofItems_trimmed file.items))

/-! ### Nodes that are left -/

/-- The constructs around a node. -/
def Trail.labels (trail : Trail) : List Label :=
  trail.map Frame.label

mutual
/-- A node that is left is a node of the whole, below the same constructs. -/
theorem Trimmed.exists_mem_nodes : ∀ {o whole : Outline}, Trimmed o whole →
    ∀ {trail trail' : Trail}, trail.labels = trail'.labels → ∀ {x}, x ∈ nodes trail o →
    ∃ y ∈ nodes trail' whole, x.1.labels = y.1.labels ∧ x.2.label = y.2.label
  | _, _, .node hparts, trail, trail', htrail, x, hx => by
    rw [nodes] at hx
    rcases List.mem_cons.mp hx with rfl | hx
    · exact ⟨_, mem_nodes_self _ _, htrail, rfl⟩
    · obtain ⟨y, hy, hxy⟩ := hparts.exists_mem_partNodes htrail [] hx
      rw [nodes]
      exact ⟨y, List.mem_cons_of_mem _ hy, hxy⟩

theorem TrimmedParts.exists_mem_partNodes : ∀ {parts full : List Outline}, TrimmedParts parts full →
    ∀ {trail trail' : Trail}, trail.labels = trail'.labels → ∀ {label : Label}
      {earlier : List Outline} (earlier' : List Outline) {x},
    x ∈ partNodes trail label earlier parts →
    ∃ y ∈ partNodes trail' label earlier' full, x.1.labels = y.1.labels ∧ x.2.label = y.2.label
  | _, _, .nil, _, _, _, _, _, _, _, hx => by simp [partNodes] at hx
  | _, _, .cons h hparts, trail, trail', htrail, label, earlier, earlier', x, hx => by
    rw [partNodes] at hx
    rw [partNodes]
    rcases List.mem_append.mp hx with hx | hx
    · have hframe : Trail.labels (⟨label, earlier⟩ :: trail) =
          Trail.labels (⟨label, earlier'⟩ :: trail') := congrArg (label :: ·) htrail
      obtain ⟨y, hy, hxy⟩ := h.exists_mem_nodes hframe hx
      exact ⟨y, List.mem_append_left _ hy, hxy⟩
    · obtain ⟨y, hy, hxy⟩ := hparts.exists_mem_partNodes htrail _ hx
      exact ⟨y, List.mem_append_right _ hy, hxy⟩
  | _, _, .skip _ hparts, trail, trail', htrail, label, earlier, earlier', x, hx => by
    obtain ⟨y, hy, hxy⟩ := hparts.exists_mem_partNodes htrail _ hx
    rw [partNodes]
    exact ⟨y, List.mem_append_right _ hy, hxy⟩
end

/-- The module at a node depends on the constructs around it only. -/
theorem Trail.module_eq_of_labels (base : List String) : ∀ {trail trail' : Trail},
    trail.labels = trail'.labels → trail.module base = trail'.module base
  | [], [], _ => rfl
  | ⟨label, _⟩ :: outer, ⟨label', _⟩ :: outer', h => by
    obtain ⟨rfl, houter⟩ : label = label' ∧ Trail.labels outer = Trail.labels outer' := by
      simpa [Trail.labels] using h
    have hmodule : module base outer = module base outer' := module_eq_of_labels base houter
    cases label with
    | module name => exact congrArg (· ++ [name.text]) hmodule
    | _ => exact hmodule

/-- A node of a file that is reached without the arguments of macros is reached with them, too, in
the same module. -/
theorem exists_mem_nodesOf_true {macros : Bool} {u : SourceUnit} {x : Trail × Outline}
    (hx : x ∈ nodesOf macros u) : ∃ y ∈ nodesOf true u,
      x.1.module u.module = y.1.module u.module ∧ x.2.label = y.2.label := by
  cases macros with
  | false =>
    obtain ⟨y, hy, hlabels, hlabel⟩ := (ofFile_trimmed u.file).exists_mem_nodes rfl hx
    exact ⟨y, hy, Trail.module_eq_of_labels _ hlabels, hlabel⟩
  | true => exact ⟨x, hx, rfl, rfl⟩

end Outline

end CallAtlas
