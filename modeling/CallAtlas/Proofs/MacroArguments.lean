import CallAtlas.Proofs.EventLog
import CallAtlas.Proofs.LoadOrder
import CallAtlas.Proofs.Scoping

/-!
# Looking into the arguments of macros

With the arguments of macros a walk finds more functions and more calls. It may also find less. The
arguments are walked like other code, so a `let` expression in them binds its names for what follows,
and a call `name(...)` further on, outside of the arguments, then goes through a local value. Such a
call is *hidden*, and it is all that can get lost: what is found without the arguments, other than
hidden calls, is found with them, in the same order.

The two walks are compared node by node. A node that is reached without the arguments is reached with
them, below the same constructs (`Outline.Trail.Trimmed`), so that the module, the type and the caller
around it are the same. Only the names in scope may be more.

## Main definitions

* `SublistBut` — a sublist, but for elements that are lost.
* `Walk.Hidden` — a call that is hidden by the arguments of macros.

## Main results

* `Outline.Trail.Trimmed.exists_boundByLet` — only `let` expressions bind more names.
* `Outline.Trimmed.sublistBut_flatMap_nodes` — nodes that are left, in order.
* `CallGraph.macroArguments_only_add` — the graph with the arguments of macros.
-/

namespace CallAtlas

/-! ### Sublists with losses -/

/-- The first list is a sublist of the second, but for elements that are lost. -/
inductive SublistBut {α : Type} (Lost : α → Prop) : List α → List α → Prop where
  | nil : SublistBut Lost [] []
  | keep {a : α} {l l' : List α} : SublistBut Lost l l' → SublistBut Lost (a :: l) (a :: l')
  | gain {a : α} {l l' : List α} : SublistBut Lost l l' → SublistBut Lost l (a :: l')
  | lose {a : α} {l l' : List α} : Lost a → SublistBut Lost l l' → SublistBut Lost (a :: l) l'

namespace SublistBut

variable {α β : Type} {Lost : α → Prop} {l l' k k' : List α}

theorem of_sublist (h : l.Sublist l') : SublistBut Lost l l' := by
  induction h with
  | slnil => exact .nil
  | cons a _ ih => exact .gain ih
  | cons_cons a _ ih => exact .keep ih

theorem of_forall (h : ∀ a ∈ l, Lost a) (l' : List α) : SublistBut Lost l l' := by
  induction l with
  | nil => exact of_sublist (List.nil_sublist l')
  | cons a rest ih =>
    obtain ⟨ha, hrest⟩ := List.forall_mem_cons.mp h
    exact .lose ha (ih hrest)

/-- Where nothing is lost there is a sublist. -/
theorem sublist (h : SublistBut Lost l l') (hkept : ∀ a ∈ l, ¬Lost a) : l.Sublist l' := by
  induction h with
  | nil => exact .slnil
  | keep _ ih => exact (ih fun a ha => hkept a (List.mem_cons_of_mem _ ha)).cons_cons _
  | gain _ ih => exact (ih hkept).cons _
  | lose hlost _ _ => exact absurd hlost (hkept _ List.mem_cons_self)

theorem mono {Lost' : α → Prop} (h : SublistBut Lost l l') (hlost : ∀ a, Lost a → Lost' a) :
    SublistBut Lost' l l' := by
  induction h with
  | nil => exact .nil
  | keep _ ih => exact .keep ih
  | gain _ ih => exact .gain ih
  | lose hlose _ ih => exact .lose (hlost _ hlose) ih

theorem append (h : SublistBut Lost l l') (h' : SublistBut Lost k k') :
    SublistBut Lost (l ++ k) (l' ++ k') := by
  induction h with
  | nil => exact h'
  | keep _ ih => exact .keep ih
  | gain _ ih => exact .gain ih
  | lose hlost _ ih => exact .lose hlost ih

theorem append_left (k : List α) (h : SublistBut Lost l l') : SublistBut Lost l (k ++ l') :=
  (of_sublist (List.nil_sublist k)).append h

theorem flatMap {γ : Type} {f f' : γ → List α} (cs : List γ)
    (h : ∀ c ∈ cs, SublistBut Lost (f c) (f' c)) :
    SublistBut Lost (cs.flatMap f) (cs.flatMap f') := by
  induction cs with
  | nil => exact .nil
  | cons c rest ih =>
    obtain ⟨hc, hrest⟩ := List.forall_mem_cons.mp h
    exact hc.append (ih hrest)

/-- What is left of lost elements is lost. -/
theorem filterMap {Lost' : β → Prop} (f : α → Option β) (h : SublistBut Lost l l')
    (hlost : ∀ a b, Lost a → f a = some b → Lost' b) :
    SublistBut Lost' (l.filterMap f) (l'.filterMap f) := by
  induction h with
  | nil => exact .nil
  | @keep a _ _ _ ih =>
    rcases ha : f a with _ | b
    · simpa [ha] using ih
    · simpa [ha] using ih.keep
  | @gain a _ _ _ ih =>
    rcases ha : f a with _ | b
    · simpa [ha] using ih
    · simpa [ha] using ih.gain
  | @lose a _ _ hlose _ ih =>
    rcases ha : f a with _ | b
    · simpa [ha] using ih
    · simpa [ha] using ih.lose (hlost a b hlose ha)

theorem mem (h : SublistBut Lost l l') {a : α} (ha : a ∈ l) (hkept : ¬Lost a) : a ∈ l' := by
  induction h with
  | nil => exact ha
  | keep _ ih =>
    rcases List.mem_cons.mp ha with rfl | ha
    · exact List.mem_cons_self
    · exact List.mem_cons_of_mem _ (ih ha)
  | gain _ ih => exact List.mem_cons_of_mem _ (ih ha)
  | lose hlost _ ih =>
    rcases List.mem_cons.mp ha with rfl | ha
    · exact absurd hlost hkept
    · exact ih ha

end SublistBut

namespace Outline

/-! ### Trails without the arguments of macros -/

/-- The same constructs are around two nodes, with some expressions left out in front. -/
inductive Trail.Trimmed : Trail → Trail → Prop where
  | nil : Trail.Trimmed [] []
  | cons {label : Label} {earlier earlier' : List Outline} {outer outer' : Trail} :
    TrimmedParts earlier earlier' → Trail.Trimmed outer outer' →
      Trail.Trimmed (⟨label, earlier⟩ :: outer) (⟨label, earlier'⟩ :: outer')

/-- A pattern is bound by a `let` expression that has ended before in a construct around a node, up
to the innermost function. -/
def Trail.BoundByLet (trail : Trail) (pattern : Pattern) : Prop :=
  ∃ f outer, Trail.Inside (f :: outer) trail ∧ ∃ part ∈ f.earlier, Loose Label.confines part pattern

mutual
theorem Trimmed.left_subset : ∀ {o whole : Outline}, Trimmed o whole → o.left ⊆ whole.left
  | _, _, .node hparts => by
    rw [left, left]
    split
    · exact List.Subset.refl _
    · refine List.append_subset.mpr ⟨fun p hp => ?_, List.subset_append_right _ _⟩
      exact List.mem_append_left _ (hparts.leftOfParts_subset hp)

theorem TrimmedParts.leftOfParts_subset : ∀ {parts full : List Outline}, TrimmedParts parts full →
    leftOfParts parts ⊆ leftOfParts full
  | _, _, .nil => List.Subset.refl _
  | _, _, .cons h hparts => by
    rw [leftOfParts, leftOfParts]
    exact List.append_subset.mpr ⟨fun p hp => List.mem_append_left _ (h.left_subset hp),
      fun p hp => List.mem_append_right _ (hparts.leftOfParts_subset hp)⟩
  | _, _, .skip _ hparts => by
    rw [leftOfParts]
    exact fun p hp => List.mem_append_right _ (hparts.leftOfParts_subset hp)
end

/-- No statement is left out. -/
theorem TrimmedParts.exists_trimmed : ∀ {parts full : List Outline}, TrimmedParts parts full →
    ∀ {whole : Outline}, whole ∈ full → whole.isStatement = true → ∃ part ∈ parts, Trimmed part whole
  | _, _, .nil, whole, hwhole, _ => by simp at hwhole
  | _, _, .cons h hparts, whole, hwhole, hstatement => by
    rcases List.mem_cons.mp hwhole with rfl | hwhole
    · exact ⟨_, List.mem_cons_self, h⟩
    · obtain ⟨part, hpart, htrimmed⟩ := hparts.exists_trimmed hwhole hstatement
      exact ⟨part, List.mem_cons_of_mem _ hpart, htrimmed⟩
  | _, _, .skip hskip hparts, whole, hwhole, hstatement => by
    rcases List.mem_cons.mp hwhole with rfl | hwhole
    · simp [hstatement] at hskip
    · exact hparts.exists_trimmed hwhole hstatement

namespace Trail.Trimmed

variable {trail whole : Trail}

theorem labels (h : Trail.Trimmed trail whole) : Trail.labels trail = Trail.labels whole := by
  induction h with
  | nil => rfl
  | cons _ _ ih => exact congrArg (_ :: ·) ih

theorem caller (h : Trail.Trimmed trail whole) (base : List String) :
    Trail.caller base trail = Trail.caller base whole := by
  induction h with
  | nil => rfl
  | @cons label earlier earlier' outer outer' _ h ih =>
    cases label with
    | function name params =>
      have hmodule := Trail.module_eq_of_labels base h.labels
      rw [Trail.caller, Trail.caller, Trail.key, Trail.key, hmodule]
    | _ => exact ih

theorem selfType (h : Trail.Trimmed trail whole) : Trail.selfType trail = Trail.selfType whole := by
  induction h with
  | nil => rfl
  | @cons label earlier earlier' outer outer' _ _ ih =>
    cases label with
    | trait name => rfl
    | impl form => rfl
    | _ => exact ih

/-- No name gets out of scope. -/
theorem binders_subset (h : Trail.Trimmed trail whole) :
    Trail.binders trail ⊆ Trail.binders whole := by
  induction h with
  | nil => exact List.Subset.refl _
  | @cons label earlier earlier' outer outer' hearlier _ ih =>
    intro pattern hpattern
    simp only [Trail.binders, Frame.binders, List.mem_append] at hpattern ⊢
    rcases hpattern with (hparams | hleft) | houter
    · exact Or.inl (Or.inl hparams)
    · exact Or.inl (Or.inr (hearlier.leftOfParts_subset hleft))
    · by_cases hfunction : label.isFunction = true
      · simp [hfunction] at houter
      · rw [if_neg hfunction] at houter ⊢
        exact Or.inr (ih houter)

/-- Only `let` expressions bind more. -/
theorem exists_boundByLet (h : Trail.Trimmed trail whole) (hformed : ∀ f ∈ whole, f.Formed)
    {pattern : Pattern} (hwhole : pattern ∈ Trail.binders whole)
    (htrail : pattern ∉ Trail.binders trail) : Trail.BoundByLet whole pattern := by
  induction h with
  | nil => simp [Trail.binders] at hwhole
  | @cons label earlier earlier' outer outer' hearlier _ ih =>
    obtain ⟨hframe, houter⟩ := List.forall_mem_cons.mp hformed
    simp only [Trail.binders, List.mem_append, not_or] at hwhole htrail
    obtain ⟨hnot, hnotOuter⟩ := htrail
    rcases hwhole with hwhole | hwhole
    · rcases (Frame.mem_binders_iff hframe pattern).mp hwhole with
        hparams | ⟨part, hpart, hloose⟩ | ⟨-, parts, hparts⟩
      · exact absurd (List.mem_append_left _ hparams) hnot
      · exact ⟨_, outer', .refl _, part, hpart, hloose⟩
      · -- a statement is there in any case
        obtain ⟨part, hpart, htrimmed⟩ := hearlier.exists_trimmed hparts rfl
        have hleft : pattern ∈ part.left := by
          cases htrimmed
          simp [left, Label.confines, Label.opensScope, Label.isFunction, Label.leaves]
        refine absurd (List.mem_append_right _ ?_) hnot
        rw [leftOfParts_eq_flatMap]
        exact List.mem_flatMap.mpr ⟨part, hpart, hleft⟩
    · by_cases hfunction : label.isFunction = true
      · simp [hfunction] at hwhole
      · rw [if_neg hfunction] at hwhole hnotOuter
        obtain ⟨f, around, hinside, hlet⟩ := ih houter hwhole hnotOuter
        exact ⟨f, around, hinside.cons (by simpa using hfunction), hlet⟩

end Trail.Trimmed

/-! ### Nodes without the arguments of macros -/

/-- Two nodes are the same construct, below the same constructs. -/
def Corresponds (x y : Trail × Outline) : Prop :=
  Trail.Trimmed x.1 y.1 ∧ x.2.label = y.2.label

section Nodes

variable {α : Type} {Lost : α → Prop} {f : Trail × Outline → List α}

mutual
/-- What the nodes that are left contribute is contributed by all nodes in the same order, but for
what single nodes lose. -/
theorem Trimmed.sublistBut_flatMap_nodes : ∀ {o whole : Outline}, Trimmed o whole →
    ∀ {trail trail' : Trail}, Trail.Trimmed trail trail' →
      (∀ x ∈ nodes trail o, ∀ y ∈ nodes trail' whole, Corresponds x y →
        SublistBut Lost (f x) (f y)) →
      SublistBut Lost ((nodes trail o).flatMap f) ((nodes trail' whole).flatMap f)
  | _, _, .node hparts, trail, trail', htrail, h => by
    rw [nodes, nodes] at h ⊢
    rw [List.flatMap_cons, List.flatMap_cons]
    refine (h _ List.mem_cons_self _ List.mem_cons_self ⟨htrail, rfl⟩).append ?_
    refine hparts.sublistBut_flatMap_partNodes htrail .nil ?_
    intro x hx y hy
    exact h x (List.mem_cons_of_mem _ hx) y (List.mem_cons_of_mem _ hy)

theorem TrimmedParts.sublistBut_flatMap_partNodes : ∀ {parts full : List Outline},
    TrimmedParts parts full → ∀ {trail trail' : Trail}, Trail.Trimmed trail trail' →
    ∀ {label : Label} {earlier earlier' : List Outline}, TrimmedParts earlier earlier' →
      (∀ x ∈ partNodes trail label earlier parts, ∀ y ∈ partNodes trail' label earlier' full,
        Corresponds x y → SublistBut Lost (f x) (f y)) →
      SublistBut Lost ((partNodes trail label earlier parts).flatMap f)
        ((partNodes trail' label earlier' full).flatMap f)
  | _, _, .nil, trail, trail', _, label, earlier, earlier', _, _ => by
    simpa [partNodes] using SublistBut.nil
  | _, _, .cons hpart hparts, trail, trail', htrail, label, earlier, earlier', hearlier, h => by
    rw [partNodes, partNodes] at h ⊢
    rw [List.flatMap_append, List.flatMap_append]
    refine .append (hpart.sublistBut_flatMap_nodes (.cons hearlier htrail) ?_)
      (hparts.sublistBut_flatMap_partNodes htrail (hearlier.append hpart.singleton) ?_)
    · intro x hx y hy
      exact h x (List.mem_append_left _ hx) y (List.mem_append_left _ hy)
    · intro x hx y hy
      exact h x (List.mem_append_right _ hx) y (List.mem_append_right _ hy)
  | _, whole :: full, .skip hskip hparts, trail, trail', htrail, label, earlier, earlier', hearlier,
      h => by
    have hearlier' : TrimmedParts earlier (earlier' ++ [whole]) := by
      simpa using hearlier.append (TrimmedParts.skip hskip .nil)
    rw [partNodes] at h ⊢
    rw [List.flatMap_append]
    refine .append_left _ (hparts.sublistBut_flatMap_partNodes htrail hearlier' ?_)
    intro x hx y hy
    exact h x hx y (List.mem_append_right _ hy)
end

end Nodes

end Outline

open Outline

/-! ### Hidden calls -/

/-- A call `name(...)` outside of the arguments of macros is hidden by them: where it stands, nothing
binds `name` without the arguments, and with them a `let` expression does. -/
def Walk.Hidden (u : SourceUnit) (caller : String) (location : Location) : Prop :=
  ∃ place name trail parts whole full,
    (trail, .node (.call place (some (.direct name))) parts) ∈ nodesOf false u ∧
    (whole, .node (.call place (some (.direct name))) full) ∈ nodesOf true u ∧
    Trail.Trimmed trail whole ∧ trail.caller u.module = some caller ∧
    location = .ofPlace u.path place ∧
    (∀ pattern, InScope Label.confines trail pattern → name ∉ Binders.ofPattern pattern) ∧
    ∃ pattern, whole.BoundByLet pattern ∧ name ∈ Binders.ofPattern pattern

/-- What is lost of a file: hidden calls. -/
def Walk.LostIn (u : SourceUnit) : Event → Prop
  | .declare _ => False
  | .call caller site => Hidden u caller site.location

namespace Outline

variable {index : Index} {u : SourceUnit} {trail whole : Trail}

theorem mem_namesOf {patterns : List Pattern} {name : String} :
    name ∈ namesOf patterns ↔ ∃ pattern ∈ patterns, name ∈ Binders.ofPattern pattern :=
  List.mem_flatMap

theorem namesOf_subset {patterns more : List Pattern} (h : patterns ⊆ more) :
    namesOf patterns ⊆ namesOf more := by
  intro name hname
  obtain ⟨pattern, hpattern, hname⟩ := mem_namesOf.mp hname
  exact mem_namesOf.mpr ⟨pattern, h hpattern, hname⟩

/-- What a node contributes depends on the arguments of macros only by the names in scope. -/
theorem Trail.Trimmed.events_eq (h : Trail.Trimmed trail whole) {label : Label}
    (hnames : ∀ place name, label = .call place (some (.direct name)) →
      name ∈ namesOf (Trail.binders whole) → name ∈ namesOf (Trail.binders trail)) :
    label.events index u trail = label.events index u whole := by
  have hmodule := Trail.module_eq_of_labels u.module h.labels
  cases label with
  | function name params => simp [Label.events, Trail.key, hmodule]
  | call place target =>
    rcases target with _ | target
    · rfl
    · have hcallee : trail.callee index u.module target = whole.callee index u.module target := by
        cases target with
        | direct name =>
          have hiff : name ∈ namesOf (Trail.binders trail) ↔ name ∈ namesOf (Trail.binders whole) :=
            ⟨fun hname => namesOf_subset h.binders_subset hname, hnames place name rfl⟩
          simp only [Trail.callee, hiff, hmodule, h.selfType]
        | path names => simp only [Trail.callee, hmodule, h.selfType]
        | method onSelf name => simp only [Trail.callee, hmodule, h.selfType]
      rw [Label.events, Label.events, h.caller, hcallee]
  | _ => rfl

/-- What a node contributes is contributed by the node that corresponds to it, unless it is a hidden
call. -/
theorem Corresponds.sublistBut_events {x y : Trail × Outline} (hx : x ∈ nodesOf false u)
    (hy : y ∈ nodesOf true u) (h : Corresponds x y) :
    SublistBut (Walk.LostIn u) (x.2.label.events index u x.1) (y.2.label.events index u y.1) := by
  obtain ⟨trail, label, parts⟩ := x
  obtain ⟨whole, label', full⟩ := y
  obtain ⟨htrail, rfl : label = label'⟩ := h
  by_cases hhidden : ∃ place name, label = .call place (some (.direct name)) ∧
      name ∈ namesOf whole.binders ∧ name ∉ namesOf trail.binders
  · obtain ⟨place, name, rfl, hwhole, hnot⟩ := hhidden
    refine .of_forall ?_ _
    intro e he
    cases e with
    | declare caller =>
      obtain ⟨_, _, hlabel, -⟩ := Label.exists_of_declare_mem_events he
      cases hlabel
    | call caller site =>
      obtain ⟨_, _, _, hlabel, hcaller, -, rfl⟩ := Label.exists_of_call_mem_events he
      cases hlabel
      have hformed := (formed_of_mem_nodes (ofFile_plain false u.file).1 (by simp) hx).2
      have hformed' := (formed_of_mem_nodes (ofFile_plain true u.file).1 (by simp) hy).2
      have hfree : ∀ pattern, InScope Label.confines trail pattern →
          name ∉ Binders.ofPattern pattern := by
        intro pattern hscope hname
        exact hnot (mem_namesOf.mpr
          ⟨pattern, (mem_binders_iff hformed hcaller pattern).mpr hscope, hname⟩)
      obtain ⟨pattern, hpattern, hname⟩ := mem_namesOf.mp hwhole
      have hnew : pattern ∉ trail.binders :=
        fun hold => hnot (mem_namesOf.mpr ⟨pattern, hold, hname⟩)
      exact ⟨place, name, trail, parts, whole, full, hx, hy, htrail, hcaller, rfl, hfree, pattern,
        htrail.exists_boundByLet hformed' hpattern hnew, hname⟩
  · have heq : label.events index u trail = label.events index u whole := by
      refine htrail.events_eq ?_
      intro place name hlabel hwhole
      exact Decidable.byContradiction fun hnot => hhidden ⟨place, name, hlabel, hwhole, hnot⟩
    exact .of_sublist (heq ▸ List.Sublist.refl _)

end Outline

theorem Walk.unit_sublistBut (index : Index) (u : SourceUnit) :
    SublistBut (LostIn u) (unit index false u) (unit index true u) := by
  rw [unit_eq_flatMap_nodes, unit_eq_flatMap_nodes]
  exact (ofFile_trimmed u.file).sublistBut_flatMap_nodes .nil
    fun x hx y hy h => h.sublistBut_events hx hy

/-- A function in which there is a call has been declared. -/
theorem Walk.declare_mem_unit {index : Index} {macros : Bool} {u : SourceUnit} {e : Event}
    (h : e ∈ unit index macros u) : .declare e.caller ∈ unit index macros u := by
  cases e with
  | declare caller => exact h
  | call caller site =>
    rw [unit_eq_flatMap_nodes] at h ⊢
    obtain ⟨⟨trail, label, parts⟩, hnode, hevent⟩ := List.mem_flatMap.mp h
    obtain ⟨_, _, _, -, hcaller, -, -⟩ := Label.exists_of_call_mem_events hevent
    obtain ⟨outer, name, params, parts', hfunction, rfl⟩ :=
      Trail.exists_function_of_caller hnode hcaller
    exact List.mem_flatMap.mpr ⟨_, hfunction, List.mem_cons_self⟩

namespace CallGraph

/-- The calls of a caller are the calls in it, in their order. -/
theorem callees_ofProgram {p : Program} {macros : Bool} {c : String}
    (hc : c ∈ (ofProgram p macros).callers) : (ofProgram p macros).callees c =
      some ((p.units.flatMap (Walk.unit (Index.ofProgram p) macros)).filterMap
        (Event.siteFor c)) := by
  obtain ⟨u, hu, e, he, rfl⟩ := mem_callers_ofProgram.mp hc
  rw [ofProgram, callees_foldl_empty, if_pos]
  exact List.mem_map_of_mem (List.mem_flatMap.mpr ⟨u, hu, he⟩)

/-- What is found in a program without the arguments of macros is found with them, but for hidden
calls. -/
theorem sublistBut_siteFor (p : Program) (index : Index) (c : String) :
    SublistBut (fun site => ∃ u ∈ p.units, Walk.Hidden u c site.location)
      ((p.units.flatMap (Walk.unit index false)).filterMap (Event.siteFor c))
      ((p.units.flatMap (Walk.unit index true)).filterMap (Event.siteFor c)) := by
  have hevents : SublistBut (fun e => ∃ u ∈ p.units, Walk.LostIn u e)
      (p.units.flatMap (Walk.unit index false)) (p.units.flatMap (Walk.unit index true)) :=
    .flatMap p.units fun u hu => (Walk.unit_sublistBut index u).mono fun e he => ⟨u, hu, he⟩
  refine hevents.filterMap _ ?_
  rintro e site ⟨u, hu, hlost⟩ hsite
  cases e with
  | declare caller => exact hlost.elim
  | call caller found =>
    obtain ⟨rfl, rfl⟩ : caller = c ∧ found = site := by simpa [Event.siteFor] using hsite
    exact ⟨u, hu, hlost⟩

/-- **Looking into the arguments of macros** only adds to a graph, hidden calls apart. Every caller is
still a caller, and its calls are calls still, in the same order, but for those that are hidden. -/
theorem macroArguments_only_add (p : Program) :
    (∀ c ∈ (ofProgram p false).callers, c ∈ (ofProgram p true).callers) ∧
    ∀ c calls, (ofProgram p false).callees c = some calls →
      ∃ more, (ofProgram p true).callees c = some more ∧
        SublistBut (fun site => ∃ u ∈ p.units, Walk.Hidden u c site.location) calls more ∧
        ((∀ site ∈ calls, ∀ u ∈ p.units, ¬Walk.Hidden u c site.location) →
          calls.Sublist more) := by
  have hcallers : ∀ c ∈ (ofProgram p false).callers, c ∈ (ofProgram p true).callers := by
    intro c hc
    obtain ⟨u, hu, e, he, rfl⟩ := mem_callers_ofProgram.mp hc
    have hdeclared := (Walk.unit_sublistBut _ u).mem (Walk.declare_mem_unit he) id
    exact mem_callers_ofProgram.mpr ⟨u, hu, _, hdeclared, rfl⟩
  refine ⟨hcallers, ?_⟩
  intro c calls hcalls
  have hc : c ∈ (ofProgram p false).callers := by
    refine Decidable.byContradiction fun hc => ?_
    simp [callees_eq_none_iff.mpr hc] at hcalls
  rw [callees_ofProgram hc] at hcalls
  obtain rfl := Option.some.inj hcalls
  have hsites := sublistBut_siteFor p (Index.ofProgram p) c
  refine ⟨_, callees_ofProgram (hcallers c hc), hsites, fun hvisible => hsites.sublist ?_⟩
  rintro site hsite ⟨u, hu, hhidden⟩
  exact hvisible site hsite u hu hhidden

/-! ### A call that is hidden -/

namespace HiddenCall

/-- A function with a macro, and a call behind it. -/
def text : String :=
  "fn y() \x7b\x7d\nfn f() \x7b m!(let y = 1); y() \x7d\n"

/-- The program of that text. -/
def program : Program where
  units := (SourceFile.parse text).toOption.toList.map (⟨"demo", ["demo"], "x.rs", ·⟩)
  externs := []

theorem callees_without :
    (ofProgram program false).callees "demo.f" = some [⟨"demo.y", ⟨"x.rs", 2, 25⟩⟩] := by
  decide +kernel

theorem callees_with : (ofProgram program true).callees "demo.f" = some [] := by
  decide +kernel

end HiddenCall

/-- The calls of a function need not be calls still if the arguments of macros are looked into. -/
theorem macroArguments_hide_call :
    ¬∀ (p : Program) (c : String) (calls more : List CallSite),
      (ofProgram p false).callees c = some calls → (ofProgram p true).callees c = some more →
        calls.Sublist more := by
  intro h
  have hsublist := h _ _ _ _ HiddenCall.callees_without HiddenCall.callees_with
  simp at hsublist

end CallGraph

end CallAtlas
