import CallAtlas.Proofs.Agreement
import CallAtlas.Proofs.Spelling

/-!
# Modules in braces

A module has a file of its own, or it stands in braces inside of another. So the path of any module
that is known is that of a file, followed by the names of modules in braces, one inside of the
other. Each of these is listed by the one around it, since both come from the same item. Bodies of
functions make no difference: what stands in a body belongs to the module around the function.

## Main definitions

* `Program.Inline` — a module in braces stands in a module.
* `Program.Nested` — names that lead from a file through modules in braces.

## Main results

* `Program.Indexed.exists_nested` — the modules in braces that lead to an item.
* `Program.exists_nested_of_hasModule` — the modules that are known.
* `Program.hasModule_of_home` — what is declared stands in a module that is known.
-/

namespace CallAtlas

/-- Only a module in braces declares a module by itself. -/
theorem Declaration.eq_module_of_mem_own {path : List String} {item : Item} {key : String}
    (h : .module key ∈ own path item) : ∃ attributes name parts items,
      item = .module attributes name parts items ∧ key = modulePath (path ++ [name.text]) := by
  cases item with
  | trait isPublic name parts members =>
    obtain ⟨member, -, h⟩ : ∃ member ∈ members,
        Declaration.module key ∈ ofTraitMember path name.text isPublic member := by
      simpa [own] using h
    cases member <;> simp [ofTraitMember] at h
  | impl form ofTrait parts members =>
    rw [own] at h
    split at h
    · obtain ⟨member, -, h⟩ := List.mem_flatMap.mp h
      cases member <;> simp [ofImplMember] at h
    · simp at h
  | module attributes name parts items =>
    exact ⟨attributes, name, parts, items, rfl, by simpa [own] using h⟩
  | use tree parts => cases ofUse_of_mem_ofUseTree identifiers_nil h
  | externCrate name newName parts => cases ofImport_of_mem_ofExternCrate h
  | _ => simp [own] at h

namespace Program

variable {p : Program}

/-- A module in braces stands in the module of a path, under a name. -/
def Inline (p : Program) (path : List String) (name : String) : Prop :=
  ∃ attributes ident parts items, ident.text = name ∧
    p.Indexed path (.module attributes ident parts items)

/-- A module in braces is listed in the module around it. -/
theorem Inline.mem_submodules {path : List String} {name : String} (h : p.Inline path name) :
    name ∈ (Index.ofProgram p).submodules (modulePath path) := by
  obtain ⟨attributes, ident, parts, items, rfl, hindexed⟩ := h
  exact Program.mem_submodules hindexed List.mem_cons_self

theorem Inline.hasModule {path : List String} {name : String} (h : p.Inline path name) :
    (Index.ofProgram p).hasModule (modulePath (path ++ [name])) = true := by
  obtain ⟨attributes, ident, parts, items, rfl, hindexed⟩ := h
  exact hasModule_of_mem (Declaration.mem_ofProgram_iff.mpr
    (Or.inr (Or.inr ⟨path, _, hindexed, List.mem_cons_of_mem _ List.mem_cons_self⟩)))

/-- What is indexed for a file alone is indexed for a program with the file. -/
theorem Indexed.mono {u : SourceUnit} (hu : u ∈ p.units) {path : List String} {item : Item}
    (h : Indexed ⟨[u], []⟩ path item) : p.Indexed path item := by
  induction h with
  | ofUnit hv hitem =>
    obtain rfl := List.mem_singleton.mp hv
    exact .ofUnit hu hitem
  | inside _ hx ih => exact ih.inside hx

theorem Inline.mono {u : SourceUnit} (hu : u ∈ p.units) {path : List String} {name : String}
    (h : Inline ⟨[u], []⟩ path name) : p.Inline path name := by
  obtain ⟨attributes, ident, parts, items, hname, hindexed⟩ := h
  exact ⟨attributes, ident, parts, items, hname, hindexed.mono hu⟩

/-- Names that lead from the module of a file through modules in braces. -/
def Nested (u : SourceUnit) (names : List String) : Prop :=
  ∀ before name, before ++ [name] <+: names → Inline ⟨[u], []⟩ (u.module ++ before) name

theorem Nested.nil (u : SourceUnit) : Nested u [] := by
  intro before name h
  simp at h

theorem Nested.concat {u : SourceUnit} {names : List String} {name : String} (h : Nested u names)
    (hname : Inline ⟨[u], []⟩ (u.module ++ names) name) : Nested u (names ++ [name]) := by
  intro before last hprefix
  rcases List.prefix_concat_iff.mp hprefix with heq | hprefix
  · obtain ⟨rfl, rfl⟩ := List.append_singleton_inj.mp heq
    exact hname
  · exact h before last hprefix

/-- An indexed item stands in a file, at the end of modules in braces. -/
theorem Indexed.exists_nested {path : List String} {item : Item} (h : p.Indexed path item) :
    ∃ u ∈ p.units, ∃ names, path = u.module ++ names ∧ Nested u names ∧
      Indexed ⟨[u], []⟩ path item := by
  induction h with
  | @ofUnit u item hu hitem =>
    exact ⟨u, hu, [], (List.append_nil _).symm, .nil u, .ofUnit (List.mem_singleton.mpr rfl) hitem⟩
  | @inside path item x _ hx ih =>
    obtain ⟨u, hu, names, hpath, hnested, hindexed⟩ := ih
    have hbody : x ∈ (item.functions.flatMap Function.items).map (path, ·) →
        x.1 = u.module ++ names := by
      intro hx
      obtain ⟨found, -, rfl⟩ := List.mem_map.mp hx
      exact hpath
    cases item with
    | module attributes name parts items =>
      refine ⟨u, hu, names ++ [name.text], ?_, ?_, hindexed.inside hx⟩
      · obtain ⟨found, -, rfl⟩ := List.mem_map.mp hx
        rw [hpath, List.append_assoc]
      · exact hnested.concat ⟨attributes, name, parts, items, rfl, hpath ▸ hindexed⟩
    | _ => exact ⟨u, hu, names, hbody hx, hnested, hindexed.inside hx⟩

/-- Every module is that of a file, or stands in braces below one. -/
theorem exists_nested_of_hasModule {key : String} (h : (Index.ofProgram p).hasModule key = true) :
    ∃ u ∈ p.units, ∃ names, key = modulePath (u.module ++ names) ∧ Nested u names := by
  have hmem : .module key ∈ Declaration.ofProgram p := by
    simpa [Index.hasModule, Index.ofProgram] using h
  rcases Declaration.mem_ofProgram_iff.mp hmem with
    ⟨name, -, heq⟩ | ⟨u, hu, hcrate | heq⟩ | ⟨path, item, hindexed, hown⟩
  · cases heq
  · simp [Declaration.crateOf] at hcrate
  · obtain rfl := Declaration.module.inj heq
    exact ⟨u, hu, [], by rw [List.append_nil], .nil u⟩
  · obtain ⟨u, hu, names, rfl, hnested, hunit⟩ := hindexed.exists_nested
    obtain ⟨attributes, name, parts, items, rfl, rfl⟩ := Declaration.eq_module_of_mem_own hown
    refine ⟨u, hu, names ++ [name.text], by rw [List.append_assoc], hnested.concat ?_⟩
    exact ⟨attributes, name, parts, items, rfl, hunit⟩

/-- The module of an indexed item is known. -/
theorem Indexed.hasModule {path : List String} {item : Item} (h : p.Indexed path item) :
    (Index.ofProgram p).hasModule (modulePath path) = true := by
  obtain ⟨u, hu, names, rfl, hnested, -⟩ := h.exists_nested
  rcases List.eq_nil_or_concat names with rfl | ⟨before, last, rfl⟩
  · rw [List.append_nil]
    exact hasModule_of_unit hu
  · rw [List.concat_eq_append, ← List.append_assoc]
    exact ((hnested before last (by simp)).mono hu).hasModule

theorem Inline.hasModule_around {path : List String} {name : String} (h : p.Inline path name) :
    (Index.ofProgram p).hasModule (modulePath path) = true := by
  obtain ⟨_, _, _, _, -, hindexed⟩ := h
  exact hindexed.hasModule

/-- What stands in the tables of a module makes the module known. -/
theorem hasModule_of_home {d : Declaration} {m : String} (hd : d ∈ Declaration.ofProgram p)
    (hm : d.home? = some m) : (Index.ofProgram p).hasModule m = true := by
  obtain ⟨path, item, hindexed, rfl⟩ := Declaration.exists_indexed_of_home hd hm
  exact hindexed.hasModule

end Program

end CallAtlas
