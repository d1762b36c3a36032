import CallAtlas.Load.ModuleTree
import CallAtlas.Proofs.Indexed

/-!
# Which modules a reader reads

A reader adds files as it reaches them, and it never drops one. The module of a file is the root of
a crate, or a file that was read before declares it. So the files make up trees, one for each crate
name, and this holds at every moment of reading, also behind an error.

## Main definitions

* `Reader.Step.outcome` — what a step gives, and the reader behind it.
* `Placed`, `Reader.InPlace` — a module that some files have a place for.
* `Reader.Grown` — one reader is behind another.

## Main results

* `Reader.readModule_grown` — reading a module that has a place leaves all files in their places.
* `Reader.inPlace_of_readCrates` — so it is with crates that are read one after the other.
* `Placed.exists_indexed` — a place in a program is an indexed item.
-/

namespace CallAtlas

namespace Reader

/-! ### Steps -/

/-- What a step gives from a reader on, and the reader behind it. -/
def Step.outcome {α : Type} (step : Step α) (r : Reader) : Except LoadError α × Reader :=
  StateT.run (ExceptT.run step) r

variable {α β : Type}

theorem outcome_bind (first : Step α) (next : α → Step β) (r : Reader) :
    Step.outcome (first >>= next) r =
      match Step.outcome first r with
      | (.ok a, r) => Step.outcome (next a) r
      | (.error e, r) => (.error e, r) := by
  unfold Step.outcome
  rw [ExceptT.run_bind, StateT.run_bind]
  rcases StateT.run (ExceptT.run first) r with ⟨result, r'⟩
  cases result <;> rfl

/-- Reading a file fails and leaves the reader as it was, or adds the file. -/
theorem readUnit_outcome (t : FileTree) (crate : String) (module : List String) (path : String)
    (r : Reader) :
    (∃ e, Step.outcome (readUnit t crate module path) r = (.error e, r)) ∨
      ∃ found : SourceUnit, found.module = module ∧
        Step.outcome (readUnit t crate module path) r =
          (.ok found, { r with units := r.units ++ [found] }) := by
  unfold readUnit
  split
  · exact Or.inl ⟨_, rfl⟩
  · next text htext =>
    split
    · exact Or.inl ⟨_, rfl⟩
    · next found hfound =>
      refine Or.inr ⟨found, ?_, rfl⟩
      rw [SourceUnit.ofText] at hfound
      split at hfound
      · cases hfound
        rfl
      · cases hfound

/-- Reads the module that a declaration leads to, or fails if there has to be one. -/
def readDeclared (t : FileTree) (crate : String) (depth : Nat) (path : String)
    (declared : ModuleFile) : Step Unit :=
  match declared.candidates.find? t.isFile with
  | some file =>
    readModule t crate depth declared.module file
      (declared.explicit || PathText.fileName? file == some "mod.rs")
  | none =>
    if declared.gated then return
    else throw (.moduleNotFound (modulePath declared.module) path)

/-- Reading a module: nothing is done for a file that has been reached before. Otherwise the file is
read, and then the modules that it declares. -/
theorem readModule_outcome (t : FileTree) (crate : String) (depth : Nat) (module : List String)
    (path : String) (ownsDirectory : Bool) (r : Reader) :
    Step.outcome (readModule t crate (depth + 1) module path ownsDirectory) r =
      if r.seen.contains (crate, t.canonical path) then (.ok (), r)
      else
        match Step.outcome (readUnit t crate module path)
            { r with seen := (crate, t.canonical path) :: r.seen } with
        | (.ok found, r) =>
          Step.outcome ((ModuleFile.ofUnit found ownsDirectory).forM
            (readDeclared t crate depth path)) r
        | (.error e, r) => (.error e, r) := by
  have hget : Step.outcome get r = (.ok r, r) := rfl
  have hmodify : ∀ f, Step.outcome (modify f) r = (.ok (), f r) := fun _ => rfl
  rw [readModule, outcome_bind, hget]
  dsimp only
  split
  · rfl
  · rw [outcome_bind, hmodify]
    dsimp only
    rw [outcome_bind]
    rcases Step.outcome (readUnit t crate module path) _ with ⟨e | found, r'⟩
    · rfl
    · rfl

end Reader

/-! ### Places -/

/-- A module that some files have a place for: the root of a crate, or a module that one of them
declares. -/
def Placed (units : List SourceUnit) (module : List String) : Prop :=
  (∃ crate : Ident, module = [crate.text]) ∨
    ∃ u ∈ units, ∃ ownsDirectory, ∃ declared ∈ ModuleFile.ofUnit u ownsDirectory,
      module = declared.module

theorem Placed.mono {units more : List SourceUnit} {module : List String} (h : Placed units module)
    (hsub : units ⊆ more) : Placed more module := by
  rcases h with hroot | ⟨u, hu, ownsDirectory, declared, hdeclared, heq⟩
  · exact Or.inl hroot
  · exact Or.inr ⟨u, hsub hu, ownsDirectory, declared, hdeclared, heq⟩

namespace Reader

/-- All files of a reader are in their places. -/
def InPlace (r : Reader) : Prop :=
  ∀ u ∈ r.units, Placed r.units u.module

/-- A reader behind another: it has all its files, and all files are in their places if they were. -/
structure Grown (r r' : Reader) : Prop where
  /-- No file is dropped. -/
  units : r.units ⊆ r'.units
  /-- Each file that is added has a place. -/
  inPlace : r.InPlace → r'.InPlace

namespace Grown

theorem refl (r : Reader) : Grown r r :=
  ⟨fun _ h => h, id⟩

theorem trans {r r' r'' : Reader} (h : Grown r r') (h' : Grown r' r'') : Grown r r'' :=
  ⟨fun _ hu => h'.units (h.units hu), fun hr => h'.inPlace (h.inPlace hr)⟩

/-- A file that has a place can be added. -/
theorem add {r : Reader} {u : SourceUnit} (h : Placed r.units u.module) :
    Grown r { r with units := r.units ++ [u] } := by
  have hsub : r.units ⊆ r.units ++ [u] := fun _ hv => List.mem_append_left _ hv
  refine ⟨hsub, fun hr v hv => ?_⟩
  rcases List.mem_append.mp hv with hv | hv
  · exact (hr v hv).mono hsub
  · obtain rfl := List.mem_singleton.mp hv
    exact h.mono hsub

/-- What has been reached does not matter for places. -/
theorem seen (r : Reader) (seen : List (String × List String)) : Grown r { r with seen := seen } :=
  ⟨fun _ h => h, id⟩

end Grown

/-- A step that makes a reader grow can be repeated, as long as what it asks for stays. -/
theorem forM_grown {α : Type} (step : α → Step Unit) (module : α → List String)
    (hstep : ∀ a r, Placed r.units (module a) → Grown r (Step.outcome (step a) r).2) :
    ∀ (as : List α) (r : Reader), (∀ a ∈ as, Placed r.units (module a)) →
      Grown r (Step.outcome (as.forM step) r).2
  | [], r, _ => .refl r
  | a :: rest, r, h => by
    obtain ⟨ha, hrest⟩ := List.forall_mem_cons.mp h
    have hfirst := hstep a r ha
    have hcons : (a :: rest).forM step = step a >>= fun _ => rest.forM step := rfl
    rw [hcons, outcome_bind]
    split
    · next r' hr' =>
      rw [hr'] at hfirst
      refine hfirst.trans (forM_grown step module hstep rest r' fun b hb => ?_)
      exact (hrest b hb).mono hfirst.units
    · next r' hr' =>
      rw [hr'] at hfirst
      exact hfirst

/-- **Reading a module.** A module that has a place is read, and what it declares in turn, without
dropping a file or adding one out of place. -/
theorem readModule_grown (t : FileTree) (crate : String) (depth : Nat) :
    ∀ (module : List String) (path : String) (ownsDirectory : Bool) (r : Reader),
      Placed r.units module →
      Grown r (Step.outcome (readModule t crate depth module path ownsDirectory) r).2 := by
  induction depth with
  | zero => exact fun _ _ _ r _ => .refl r
  | succ depth ih =>
    intro module path ownsDirectory r hplaced
    rw [readModule_outcome]
    split
    · exact .refl r
    have hseen := Grown.seen r ((crate, t.canonical path) :: r.seen)
    rcases readUnit_outcome t crate module path { r with seen := _ } with
      ⟨e, he⟩ | ⟨found, rfl, hfound⟩
    · rw [he]
      exact hseen
    · rw [hfound]
      have hadd := hseen.trans (Grown.add (u := found) hplaced)
      refine hadd.trans (forM_grown _ ModuleFile.module ?_ _ _ ?_)
      · intro declared r hdeclared
        rw [readDeclared]
        split
        · exact ih _ _ _ r hdeclared
        · split
          · exact .refl r
          · exact .refl r
      · intro declared hdeclared
        exact Or.inr ⟨found, List.mem_append_right _ List.mem_cons_self, ownsDirectory, declared,
          hdeclared, rfl⟩

/-- **Reading crates.** Whatever crates are read one after the other, all files are in their
places. -/
theorem inPlace_of_readCrates (t : FileTree) (crates : List (Ident × String)) :
    (Step.outcome (crates.forM fun x => readCrate t x.1.text x.2) empty).2.InPlace := by
  have hgrown : Grown empty
      (Step.outcome (crates.forM fun x => readCrate t x.1.text x.2) empty).2 := by
    refine forM_grown _ (fun x => [x.1.text]) ?_ crates empty fun x _ => Or.inl ⟨x.1, rfl⟩
    exact fun x r => readModule_grown t x.1.text _ [x.1.text] x.2 true r
  exact hgrown.inPlace (by simp [InPlace, empty])

end Reader

namespace ModuleFile

/-! ### Module files are declared by items -/

mutual
/-- A module file is declared by an item that is indexed if the item around it is. -/
theorem exists_indexed_of_mem_ofItem {p : Program} : ∀ {item : Item} {module : List String}
    {directory base : String} {declared : ModuleFile}, p.Indexed module item →
      declared ∈ ofItem module directory base item →
      ∃ path attributes name parts, p.Indexed path (.moduleFile attributes name parts) ∧
        declared.module = path ++ [name.text]
  | .module attributes name parts items, module, directory, base, declared, h, hdeclared => by
    rw [ofItem] at hdeclared
    refine exists_indexed_of_mem_ofItems (fun item hitem => ?_) hdeclared
    exact h.inside (x := (_, item)) (List.mem_map.mpr ⟨item, hitem, rfl⟩)
  | .moduleFile attributes name parts, module, directory, base, declared, h, hdeclared => by
    rw [ofItem] at hdeclared
    obtain rfl := List.mem_singleton.mp hdeclared
    exact ⟨module, attributes, name, parts, h, rfl⟩
  | .function .., _, _, _, _, _, hdeclared | .type .., _, _, _, _, _, hdeclared
  | .trait .., _, _, _, _, _, hdeclared | .impl .., _, _, _, _, _, hdeclared
  | .use .., _, _, _, _, _, hdeclared | .externCrate .., _, _, _, _, _, hdeclared
  | .other .., _, _, _, _, _, hdeclared => by
    simp [ofItem] at hdeclared

theorem exists_indexed_of_mem_ofItems {p : Program} : ∀ {items : List Item} {module : List String}
    {directory base : String} {declared : ModuleFile}, (∀ item ∈ items, p.Indexed module item) →
      declared ∈ ofItems module directory base items →
      ∃ path attributes name parts, p.Indexed path (.moduleFile attributes name parts) ∧
        declared.module = path ++ [name.text]
  | [], _, _, _, _, _, hdeclared => by simp [ofItems] at hdeclared
  | item :: rest, module, directory, base, declared, h, hdeclared => by
    obtain ⟨hitem, hrest⟩ := List.forall_mem_cons.mp h
    rw [ofItems] at hdeclared
    rcases List.mem_append.mp hdeclared with hdeclared | hdeclared
    · exact exists_indexed_of_mem_ofItem hitem hdeclared
    · exact exists_indexed_of_mem_ofItems hrest hdeclared
end

end ModuleFile

/-- The module of a file in place is the root of a crate, or an indexed item declares it. -/
theorem Placed.exists_indexed {p : Program} {module : List String} (h : Placed p.units module) :
    (∃ crate : Ident, module = [crate.text]) ∨
      ∃ path attributes name parts, p.Indexed path (.moduleFile attributes name parts) ∧
        module = path ++ [name.text] := by
  rcases h with hroot | ⟨u, hu, ownsDirectory, declared, hdeclared, rfl⟩
  · exact Or.inl hroot
  · exact Or.inr (ModuleFile.exists_indexed_of_mem_ofItems (fun item hitem => .ofUnit hu hitem)
      hdeclared)

end CallAtlas
