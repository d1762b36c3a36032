import CallAtlas.Proofs.ReadingEnds
import Mathlib.Data.List.Forall2

/-!
# What comes of loading a workspace

A pattern selects packages of a workspace, and the targets of these packages are read one after the
other by one reader. This ends in one of four ways: no package is selected, the packages have no target
that belongs to a program, a target cannot be read, or there is a program.

The loader itself tells the second from the others only by the files that have been read. A reader
leaves out files that it has reached before, so it could be that there are targets and no files. But
the first target finds an empty reader, so its root file is read, or it is an error.

For the same reason a target that is listed again changes nothing, nor does a package: all of its files
have been reached. `Repeats` tells what it is for a list to be another one in which elements are listed
again, and it carries over from the members of a workspace to the targets that are read.

## Main definitions

* `Selection.Covers`, `Workspace.covered` — which packages are selected.
* `programTargets` — the targets that belong to the program, with their packages.
* `Reader.ReadsInOrder` — targets that are read one after the other without an error.
* `Repeats` — a list in which elements are listed again.

## Main results

* `Reader.readsInOrder_or_fails` — targets are read, or there is a first one that cannot be.
* `Reader.outcome_readCrates_of_repeats` — what is listed again makes no difference.
* `Program.ofPattern_outcome` — what comes of loading.
-/

namespace CallAtlas

/-! ### Lists in which elements are listed again -/

/-- The second list is the first one with elements in it that stand in front already, among those
before the list or in the list itself. -/
inductive Repeats {α : Type} : List α → List α → List α → Prop where
  | nil {before : List α} : Repeats before [] []
  | cons {before l l' : List α} {a : α} :
    Repeats (before ++ [a]) l l' → Repeats before (a :: l) (a :: l')
  | again {before l l' : List α} {a : α} :
    a ∈ before → Repeats before l l' → Repeats before l (a :: l')

namespace Repeats

variable {α β : Type} {before before' l l' : List α}

theorem refl (before l : List α) : Repeats before l l := by
  induction l generalizing before with
  | nil => exact .nil
  | cons a l ih => exact .cons (ih _)

theorem mono (h : Repeats before l l') (hsub : before ⊆ before') : Repeats before' l l' := by
  induction h generalizing before' with
  | nil => exact .nil
  | cons _ ih => exact .cons (ih (List.append_subset.mpr
      ⟨List.subset_append_of_subset_left _ hsub, List.subset_append_right _ _⟩))
  | again ha _ ih => exact .again (hsub ha) (ih hsub)

/-- An element may be listed again anywhere behind the place where it stands. -/
theorem insert (front : List α) {a : α} (ha : a ∈ before ∨ a ∈ front) (rest : List α) :
    Repeats before (front ++ rest) (front ++ a :: rest) := by
  induction front generalizing before with
  | nil => exact .again (by simpa using ha) (refl before rest)
  | cons first front ih => exact .cons (ih (by simpa [or_assoc] using ha))

/-- Several elements that stand in front already. -/
theorem again_append {more : List α} (hmore : more ⊆ before) (h : Repeats before l l') :
    Repeats before l (more ++ l') := by
  induction more with
  | nil => exact h
  | cons a more ih =>
    obtain ⟨ha, hmore⟩ := List.cons_subset.mp hmore
    exact .again ha (ih hmore)

theorem append {m m' : List α} (h : Repeats before l l') (hm : Repeats (before ++ l) m m') :
    Repeats before (l ++ m) (l' ++ m') := by
  induction h with
  | nil => simpa using hm
  | cons _ ih => exact .cons (ih (by simpa using hm))
  | again ha _ ih => exact .again ha (ih hm)

/-- The same elements are listed. -/
theorem mem_iff (h : Repeats before l l') {a : α} : a ∈ before ∨ a ∈ l' ↔ a ∈ before ∨ a ∈ l := by
  induction h with
  | nil => rfl
  | cons _ ih => grind
  | again ha _ ih => grind

theorem map (f : α → β) (h : Repeats before l l') :
    Repeats (before.map f) (l.map f) (l'.map f) := by
  induction h with
  | nil => exact .nil
  | cons _ ih => exact .cons (by simpa using ih)
  | again ha _ ih => exact .again (List.mem_map_of_mem ha) ih

theorem filter (p : α → Bool) (h : Repeats before l l') :
    Repeats (before.filter p) (l.filter p) (l'.filter p) := by
  induction h with
  | nil => exact .nil
  | @cons before l l' a _ ih =>
    by_cases ha : p a = true
    · simpa [ha] using Repeats.cons (by simpa [ha] using ih)
    · simpa [ha] using ih
  | @again before l l' a hmem _ ih =>
    by_cases ha : p a = true
    · simpa [ha] using Repeats.again (List.mem_filter.mpr ⟨hmem, ha⟩) ih
    · simpa [ha] using ih

theorem flatMap {f f' : α → List β} (h : Repeats before l l')
    (hf : ∀ a, Repeats [] (f a) (f' a)) :
    Repeats (before.flatMap f) (l.flatMap f) (l'.flatMap f') := by
  induction h with
  | nil => exact .nil
  | @cons before l l' a _ ih =>
    rw [List.flatMap_cons, List.flatMap_cons]
    refine ((hf a).mono (List.nil_subset _)).append ?_
    simpa [List.flatMap_append] using ih
  | @again before l l' a ha _ ih =>
    rw [List.flatMap_cons]
    refine again_append (fun b hb => ?_) ih
    have hmem : b ∈ f a := by simpa [hb] using (hf a).mem_iff (a := b)
    exact List.mem_flatMap.mpr ⟨a, ha, hmem⟩

end Repeats

/-! ### Reading targets in order -/

namespace Reader

variable {t : FileTree} {crate root : String} {r r' : Reader}

/-- A crate whose root has been reached is not read again. -/
theorem outcome_readCrate_of_seen (h : (crate, t.canonical root) ∈ r.seen) :
    Step.outcome (readCrate t crate root) r = (.ok (), r) :=
  (reads_readCrate t crate root r).unique (.reached h)

/-- Crates with their roots, read one after the other without an error. -/
inductive ReadsInOrder (t : FileTree) : Reader → List (String × String) → Reader → Prop where
  | nil {r : Reader} : ReadsInOrder t r [] r
  | cons {r between r' : Reader} {crate root : String} {rest : List (String × String)} :
    Step.outcome (readCrate t crate root) r = (.ok (), between) → ReadsInOrder t between rest r' →
      ReadsInOrder t r ((crate, root) :: rest) r'

/-- Reading crates one after the other, up to the first error. -/
def readCrates (t : FileTree) (crates : List (String × String)) : Step Unit :=
  crates.forM fun x => readCrate t x.1 x.2

theorem outcome_readCrates_ok {between : Reader}
    (h : Step.outcome (readCrate t crate root) r = (.ok (), between)) (rest : List (String × String)) :
    Step.outcome (readCrates t ((crate, root) :: rest)) r =
      Step.outcome (readCrates t rest) between := by
  have hcons : readCrates t ((crate, root) :: rest) =
      readCrate t crate root >>= fun _ => readCrates t rest := rfl
  rw [hcons, outcome_bind, h]

theorem outcome_readCrates_error {between : Reader} {e : LoadError}
    (h : Step.outcome (readCrate t crate root) r = (.error e, between))
    (rest : List (String × String)) :
    Step.outcome (readCrates t ((crate, root) :: rest)) r = (.error e, between) := by
  have hcons : readCrates t ((crate, root) :: rest) =
      readCrate t crate root >>= fun _ => readCrates t rest := rfl
  rw [hcons, outcome_bind, h]

theorem ReadsInOrder.outcome_eq {crates : List (String × String)} (h : ReadsInOrder t r crates r') :
    Step.outcome (readCrates t crates) r = (.ok (), r') := by
  induction h with
  | nil => rfl
  | cons hfirst _ ih => rw [outcome_readCrates_ok hfirst, ih]

/-- Behind crates that have been read, the error of the next is the error of all. -/
theorem ReadsInOrder.outcome_eq_error {front : List (String × String)} {e : LoadError}
    {between : Reader} (h : ReadsInOrder t r front between)
    (hroot : Step.outcome (readCrate t crate root) between = (.error e, r'))
    (rest : List (String × String)) :
    Step.outcome (readCrates t (front ++ (crate, root) :: rest)) r = (.error e, r') := by
  induction h with
  | nil => exact outcome_readCrates_error hroot rest
  | cons hfirst _ ih => rw [List.cons_append, outcome_readCrates_ok hfirst, ih hroot]

/-- Crates are read, or there is a first one that cannot be. -/
theorem readsInOrder_or_fails (t : FileTree) (crates : List (String × String)) (r : Reader) :
    (∃ r', ReadsInOrder t r crates r') ∨
      ∃ front crate root rest between e r', crates = front ++ (crate, root) :: rest ∧
        ReadsInOrder t r front between ∧
        Step.outcome (readCrate t crate root) between = (.error e, r') := by
  induction crates generalizing r with
  | nil => exact .inl ⟨r, .nil⟩
  | cons x rest ih =>
    obtain ⟨crate, root⟩ := x
    rcases hroot : Step.outcome (readCrate t crate root) r with ⟨e | _, between⟩
    · exact .inr ⟨[], crate, root, rest, r, e, between, rfl, .nil, hroot⟩
    · rcases ih between with
        ⟨r', hrest⟩ | ⟨front, crate', root', after, next, e, r', rfl, hfront, hnext⟩
      · exact .inl ⟨r', .cons hroot hrest⟩
      · exact .inr ⟨(crate, root) :: front, crate', root', after, next, e, r', rfl, .cons hroot hfront,
          hnext⟩

/-- **What is listed again makes no difference**, to what is read and to what is an error. -/
theorem outcome_readCrates_of_repeats {front crates crates' : List (String × String)}
    (h : Repeats front crates crates') : ∀ r : Reader,
      (∀ x ∈ front, (x.1, t.canonical x.2) ∈ r.seen) →
        Step.outcome (readCrates t crates') r = Step.outcome (readCrates t crates) r := by
  induction h with
  | nil => exact fun r _ => rfl
  | @cons front l l' x _ ih =>
    intro r hseen
    obtain ⟨crate, root⟩ := x
    have hreads := reads_readCrate t crate root r
    rcases hroot : Step.outcome (readCrate t crate root) r with ⟨e | _, between⟩
    · rw [outcome_readCrates_error hroot, outcome_readCrates_error hroot]
    · rw [outcome_readCrates_ok hroot, outcome_readCrates_ok hroot]
      rw [hroot] at hreads
      refine ih between fun y hy => ?_
      rcases List.mem_append.mp hy with hy | hy
      · exact hreads.seen_subset (hseen y hy)
      · rw [List.mem_singleton.mp hy]
        exact hreads.mem_seen
  | @again front l l' x hx _ ih =>
    intro r hseen
    obtain ⟨crate, root⟩ := x
    rw [outcome_readCrates_ok (outcome_readCrate_of_seen (hseen _ hx))]
    exact ih r hseen

/-! ### The first crate -/

/-- A reader that has reached nothing reads the root of a crate, if there is no error. -/
theorem units_ne_nil_of_readCrate {between : Reader} (hempty : r.seen = [])
    (h : Step.outcome (readCrate t crate root) r = (.ok (), between)) : between.units ≠ [] := by
  have hreads := reads_readCrate t crate root r
  rw [h] at hreads
  cases hreads with
  | reached hseen => simp [hempty] at hseen
  | read _ hunit hall =>
    obtain ⟨-, -, -, -, rfl⟩ := readUnit_ok hunit
    intro hnil
    have hprefix := hall.units_isPrefix
    simp [hnil] at hprefix

theorem ReadsInOrder.units_isPrefix {crates : List (String × String)} (h : ReadsInOrder t r crates r') :
    r.units <+: r'.units := by
  induction h with
  | nil => exact List.prefix_rfl
  | @cons r between r' crate root rest hfirst _ ih =>
    have hreads := (reads_readCrate t crate root r).units_isPrefix
    rw [hfirst] at hreads
    exact hreads.trans ih

/-- Where there is a crate to read, there are files, or there is an error. -/
theorem ReadsInOrder.units_ne_nil {crates : List (String × String)}
    (h : ReadsInOrder t empty crates r') (hne : crates ≠ []) : r'.units ≠ [] := by
  cases h with
  | nil => exact absurd rfl hne
  | cons hfirst hrest =>
    intro hnil
    have hprefix := hrest.units_isPrefix
    rw [hnil, List.prefix_nil] at hprefix
    exact units_ne_nil_of_readCrate rfl hfirst hprefix

end Reader

/-! ### Errors of reading -/

/-- Is it an error about a file, rather than about a workspace? -/
def LoadError.isOfFile : LoadError → Bool
  | .read .. | .parse .. | .moduleNotFound .. => true
  | .metadata | .noPackages _ | .noSources _ => false

namespace Reader

variable {t : FileTree} {crate : String}

theorem isOfFile_of_unitOutcome {c : Call} {e : LoadError} {r : Reader}
    (h : c.unitOutcome t crate = (.error e, r)) : e.isOfFile = true := by
  rw [Call.unitOutcome, readUnit] at h
  split at h
  · cases h
    rfl
  · next text htext =>
    rw [SourceUnit.ofText] at h
    split at h
    · next e' he' =>
      split at he'
      · cases he'
      · cases he'
        cases h
        rfl
    · cases h

mutual

theorem Reads.isOfFile : ∀ {c : Call} {x : Except LoadError Unit × Reader}, Reads t crate c x →
    ∀ {e : LoadError}, x.1 = .error e → e.isOfFile = true
  | _, _, .reached _, _, he => by cases he
  | _, _, .unreadable _ hunit, _, he => by
    cases he
    exact isOfFile_of_unitOutcome hunit
  | _, _, .read _ _ hall, _, he => hall.isOfFile he

theorem ReadsAll.isOfFile : ∀ {path : String} {r : Reader} {all : List ModuleFile}
    {x : Except LoadError Unit × Reader}, ReadsAll t crate path r all x →
      ∀ {e : LoadError}, x.1 = .error e → e.isOfFile = true
  | _, _, _, _, .nil, _, he => by cases he
  | _, _, _, _, .cons _ _ hrest, _, he => hrest.isOfFile he
  | _, _, _, _, .failed _ hfirst, _, he => hfirst.isOfFile he
  | _, _, _, _, .skipped _ _ hrest, _, he => hrest.isOfFile he
  | _, _, _, _, .missing _ _, _, he => by
    cases he
    rfl

end

end Reader

/-! ### Packages and targets -/

namespace Selection

/-- The packages that a pattern means: the one of a manifest at the same place, or those whose
manifests lie in a directory or below it, name by name. -/
def Covers (t : FileTree) : Selection → Package → Prop
  | .manifest path, p => t.canonical p.manifest = t.canonical path
  | .under directory, p => ∃ parent, PathText.parent? p.manifest = some parent ∧
      t.canonical directory <+: t.canonical parent

theorem accepts_iff {t : FileTree} {selection : Selection} {p : Package} :
    selection.accepts t p = true ↔ selection.Covers t p := by
  cases selection with
  | manifest path => exact beq_iff_eq
  | under directory => simp [accepts, Covers, Option.any_eq_true]

instance (t : FileTree) (selection : Selection) : DecidablePred (selection.Covers t) :=
  fun _ => decidable_of_iff _ accepts_iff

theorem accepts_eq_decide (t : FileTree) (selection : Selection) :
    selection.accepts t = fun p => decide (selection.Covers t p) :=
  funext fun _ => Bool.eq_iff_iff.mpr (accepts_iff.trans decide_eq_true_iff.symm)

end Selection

namespace Workspace

variable {t : FileTree} {w w' : Workspace} {selection : Selection}

/-- The package of an identity, if a selection covers it. -/
def covered? (t : FileTree) (w : Workspace) (selection : Selection) (id : String) : Option Package :=
  (w.packages.find? fun p => p.id = id).filter fun p => selection.Covers t p

/-- The packages of the members that a selection covers, in member order and as often as they are
listed. -/
def covered (t : FileTree) (w : Workspace) (selection : Selection) : List Package :=
  w.members.filterMap (w.covered? t selection)

theorem select_eq_covered (t : FileTree) (w : Workspace) (selection : Selection) :
    w.select t selection = w.covered t selection := by
  rw [select, memberPackages, covered, List.filter_filterMap]
  refine List.filterMap_congr fun id _ => ?_
  simp only [covered?, beq_eq_decide, Selection.accepts_eq_decide]

theorem covered_eq_nil_iff :
    w.covered t selection = [] ↔ ∀ id ∈ w.members, w.covered? t selection id = none :=
  List.filterMap_eq_nil_iff

/-- The same package, but for its targets. -/
structure SameButTargets (p p' : Package) : Prop where
  name_eq : p'.name = p.name
  id_eq : p'.id = p.id
  manifest_eq : p'.manifest = p.manifest
  dependencies_eq : p'.dependencies = p.dependencies

/-- Packages that are the same but for their targets are covered alike. -/
theorem covered?_cases (t : FileTree) (selection : Selection) {R : Package → Package → Prop}
    (hsame : ∀ p p', R p p' → SameButTargets p p')
    (h : List.Forall₂ R w.packages w'.packages) (id : String) :
    w.covered? t selection id = none ∧ w'.covered? t selection id = none ∨
      ∃ p p', w.covered? t selection id = some p ∧ w'.covered? t selection id = some p' ∧ R p p' := by
  rw [covered?, covered?]
  generalize w.packages = packages at h ⊢
  generalize w'.packages = packages' at h ⊢
  induction h with
  | nil => exact .inl ⟨rfl, rfl⟩
  | @cons p p' rest rest' hp _ ih =>
    have hid := (hsame p p' hp).id_eq
    have hcovers : selection.Covers t p' ↔ selection.Covers t p := by
      cases selection <;> simp only [Selection.Covers, (hsame p p' hp).manifest_eq]
    by_cases heq : p.id = id
    · by_cases hp' : selection.Covers t p
      · exact .inr ⟨p, p', by simp [heq, hp'], by simp [hid, heq, hcovers, hp'], hp⟩
      · exact .inl ⟨by simp [heq, hp'], by simp [hid, heq, hcovers, hp']⟩
    · simpa [heq, hid] using ih

end Workspace

/-- The targets of some packages that belong to a program, each with its package. -/
def programTargets (packages : List Package) : List (Package × Target) :=
  packages.flatMap fun p => (p.targets.filter fun target =>
    ∃ kind ∈ target.kinds, kind ∈ Target.programKinds).map fun target => (p, target)

namespace Program

open Workspace (SameButTargets)

/-- The crate of a target and its root. -/
def crateOf (x : Package × Target) : String × String :=
  (CrateName.ofPackage x.2.name, x.2.source)

theorem crates_eq_map (packages : List Package) :
    crates packages = (programTargets packages).map crateOf := by
  have hkinds (target : Target) :
      target.isProgram = decide (∃ kind ∈ target.kinds, kind ∈ Target.programKinds) := by
    rw [Bool.eq_iff_iff, decide_eq_true_iff, Target.isProgram, List.any_eq_true]
    simp only [List.contains_iff_mem]
  simp only [crates, programTargets, List.map_flatMap, List.map_map, hkinds]
  rfl

/-! ### The three ways that loading goes -/

section Ways

variable {t : FileTree} {w : Workspace} {pattern : String} {r : Reader}
  (hstart : (Selection.ofPattern pattern).isStartable t = true)

include hstart

theorem ofPattern_of_nil (h : w.covered t (Selection.ofPattern pattern) = []) :
    ofPattern t (some w) pattern = .error (.noPackages pattern) := by
  simp [ofPattern, hstart, Workspace.select_eq_covered, h]

theorem ofPattern_of_ne_nil (h : w.covered t (Selection.ofPattern pattern) ≠ []) :
    ofPattern t (some w) pattern =
      ofPackages t pattern (w.covered t (Selection.ofPattern pattern)) := by
  cases hcovered : w.covered t (Selection.ofPattern pattern) with
  | nil => exact absurd hcovered h
  | cons p rest => simp [ofPattern, hstart, Workspace.select_eq_covered, hcovered]

omit hstart

variable {packages : List Package}

theorem ofPackages_of_error {e : LoadError}
    (h : Reader.Step.outcome (Reader.readCrates t ((programTargets packages).map crateOf)) .empty =
      (.error e, r)) : ofPackages t pattern packages = .error e := by
  rw [← crates_eq_map] at h
  unfold ofPackages
  simp only
  split
  · next hreading =>
    cases hreading.symm.trans h
    rfl
  · next hreading => cases hreading.symm.trans h

theorem ofPackages_of_ok
    (h : Reader.Step.outcome (Reader.readCrates t ((programTargets packages).map crateOf)) .empty =
      (.ok (), r)) :
    ofPackages t pattern packages =
      if r.units = [] then .error (.noSources pattern) else .ok ⟨r.units, localNames packages⟩ := by
  rw [← crates_eq_map] at h
  unfold ofPackages
  simp only
  split
  · next hreading => cases hreading.symm.trans h
  · next hreading =>
    cases hreading.symm.trans h
    simp only [List.isEmpty_iff]

end Ways

/-! ### What comes of the targets -/

section Targets

variable {t : FileTree} {w : Workspace} {pattern : String}
  (hstart : (Selection.ofPattern pattern).isStartable t = true)

include hstart

/-- Packages without a target that belongs to a program. -/
theorem ofPattern_of_noTargets (h : w.covered t (Selection.ofPattern pattern) ≠ [])
    (htargets : programTargets (w.covered t (Selection.ofPattern pattern)) = []) :
    ofPattern t (some w) pattern = .error (.noSources pattern) := by
  have hreading : Reader.Step.outcome (Reader.readCrates t
      ((programTargets (w.covered t (Selection.ofPattern pattern))).map crateOf)) .empty =
        (.ok (), .empty) := by
    rw [htargets]
    rfl
  rw [ofPattern_of_ne_nil hstart h, ofPackages_of_ok hreading]
  exact if_pos rfl

/-- Targets that are read, up to the first that cannot be. -/
theorem ofPattern_of_targets
    (h : programTargets (w.covered t (Selection.ofPattern pattern)) ≠ []) :
    (∃ front x rest between e r',
      programTargets (w.covered t (Selection.ofPattern pattern)) = front ++ x :: rest ∧
      Reader.ReadsInOrder t .empty (front.map crateOf) between ∧
      Reader.Step.outcome
        (Reader.readCrate t (CrateName.ofPackage x.2.name) x.2.source) between = (.error e, r') ∧
      ofPattern t (some w) pattern = .error e) ∨
    ∃ r, Reader.ReadsInOrder t .empty
        ((programTargets (w.covered t (Selection.ofPattern pattern))).map crateOf) r ∧
      r.units ≠ [] ∧
      ofPattern t (some w) pattern =
        .ok ⟨r.units, localNames (w.covered t (Selection.ofPattern pattern))⟩ := by
  have hpackages : w.covered t (Selection.ofPattern pattern) ≠ [] := by
    intro hnil
    exact h (by rw [hnil]; rfl)
  rw [ofPattern_of_ne_nil hstart hpackages]
  rcases Reader.readsInOrder_or_fails t
      ((programTargets (w.covered t (Selection.ofPattern pattern))).map crateOf) .empty with
    ⟨r, hread⟩ | ⟨front, crate, root, rest, between, e, r', heq, hfront, hroot⟩
  · have hunits : r.units ≠ [] := hread.units_ne_nil (by simpa using h)
    exact .inr ⟨r, hread, hunits, by rw [ofPackages_of_ok hread.outcome_eq, if_neg hunits]⟩
  · have herror : ofPackages t pattern (w.covered t (Selection.ofPattern pattern)) = .error e :=
      ofPackages_of_error (heq ▸ hfront.outcome_eq_error hroot rest)
    obtain ⟨before, after, htargets, rfl, hafter⟩ := List.map_eq_append_iff.mp heq
    obtain ⟨x, more, rfl, hx, -⟩ := List.map_eq_cons_iff.mp hafter
    cases hx
    exact .inl ⟨before, x, more, between, e, r', htargets, hfront, hroot, herror⟩

/-- An error that is not about a file comes before anything is read. -/
theorem programTargets_eq_nil_of_error {e : LoadError} (he : e.isOfFile = false)
    (h : ofPattern t (some w) pattern = .error e) :
    programTargets (w.covered t (Selection.ofPattern pattern)) = [] := by
  by_contra hne
  rcases ofPattern_of_targets hstart hne with
    ⟨front, x, rest, between, e', r', -, -, hroot, heq⟩ | ⟨r, -, -, heq⟩
  · cases heq.symm.trans h
    have hreads := Reader.reads_readCrate t (CrateName.ofPackage x.2.name) x.2.source between
    rw [hroot] at hreads
    rw [hreads.isOfFile rfl] at he
    cases he
  · cases heq.symm.trans h

end Targets

/-! ### Workspaces in which something is listed again -/

/-- The same error, or programs of the same files with the same crates outside. -/
def SameOutcome : Except LoadError Program → Except LoadError Program → Prop
  | .error e, .error e' => e = e'
  | .ok p, .ok p' => p.units = p'.units ∧ ∀ name, name ∈ p.externs ↔ name ∈ p'.externs
  | _, _ => False

section Again

variable {t : FileTree} {w w' : Workspace} {selection : Selection}

/-- Members that are listed again, and targets that are listed again in their packages, lead to targets
that are listed again. -/
theorem repeats_crateOf (hmembers : Repeats [] w.members w'.members)
    (hpackages : List.Forall₂ (fun p p' => SameButTargets p p' ∧ Repeats [] p.targets p'.targets)
      w.packages w'.packages) :
    Repeats [] ((programTargets (w.covered t selection)).map crateOf)
      ((programTargets (w'.covered t selection)).map crateOf) := by
  -- everything is told from the members on, one by one
  have hflat (w : Workspace) : (programTargets (w.covered t selection)).map crateOf =
      w.members.flatMap fun id => (programTargets (w.covered? t selection id).toList).map crateOf := by
    rw [Workspace.covered, List.filterMap_eq_flatMap_toList, programTargets, List.flatMap_assoc,
      List.map_flatMap]
    rfl
  rw [hflat, hflat]
  refine hmembers.flatMap fun id => ?_
  rcases Workspace.covered?_cases t selection (fun _ _ h => h.1) hpackages id with
    ⟨hw, hw'⟩ | ⟨p, p', hw, hw', -, htargets⟩
  · rw [hw, hw']
    exact .nil
  · rw [hw, hw']
    simpa [programTargets, Function.comp_def, crateOf] using (htargets.filter _).map _

theorem covered_eq_nil_iff_of_repeats (hmembers : Repeats [] w.members w'.members)
    (hpackages : List.Forall₂ SameButTargets w.packages w'.packages) :
    w'.covered t selection = [] ↔ w.covered t selection = [] := by
  have hmem (id : String) : id ∈ w'.members ↔ id ∈ w.members := by simpa using hmembers.mem_iff
  have hnone (id : String) : w'.covered? t selection id = none ↔ w.covered? t selection id = none := by
    rcases Workspace.covered?_cases t selection (fun _ _ h => h) hpackages id with
      ⟨hw, hw'⟩ | ⟨p, p', hw, hw', -⟩ <;> simp [hw, hw']
  simp only [Workspace.covered_eq_nil_iff, hnone, hmem]

theorem mem_localNames_iff {packages : List Package} {name : String} :
    name ∈ localNames packages ↔ ∃ package ∈ packages, ∃ d ∈ package.dependencies,
      name = CrateName.ofPackage (d.rename.getD d.name) := by
  simp [localNames, Dependency.localName, eq_comm]

/-- The names of crates outside do not depend on how often a member is listed. -/
theorem mem_localNames_iff_of_repeats (hmembers : Repeats [] w.members w'.members)
    (hpackages : List.Forall₂ SameButTargets w.packages w'.packages) (name : String) :
    name ∈ localNames (w'.covered t selection) ↔ name ∈ localNames (w.covered t selection) := by
  have hmem (id : String) : id ∈ w'.members ↔ id ∈ w.members := by simpa using hmembers.mem_iff
  simp only [mem_localNames_iff, Workspace.covered, List.mem_filterMap, hmem]
  constructor
  · rintro ⟨p', ⟨id, hid, hp'⟩, d, hd, hname⟩
    rcases Workspace.covered?_cases t selection (fun _ _ h => h) hpackages id with
      ⟨-, hw'⟩ | ⟨p, q, hw, hw', hsame⟩
    · cases hw'.symm.trans hp'
    · cases hw'.symm.trans hp'
      exact ⟨p, ⟨id, hid, hw⟩, d, hsame.dependencies_eq ▸ hd, hname⟩
  · rintro ⟨p, ⟨id, hid, hp⟩, d, hd, hname⟩
    rcases Workspace.covered?_cases t selection (fun _ _ h => h) hpackages id with
      ⟨hw, -⟩ | ⟨q, p', hw, hw', hsame⟩
    · cases hw.symm.trans hp
    · cases hw.symm.trans hp
      exact ⟨p', ⟨id, hid, hw'⟩, d, hsame.dependencies_eq ▸ hd, hname⟩

/-- What is listed again makes no difference to what comes of loading. -/
theorem sameOutcome_of_repeats {pattern : String}
    (hstart : (Selection.ofPattern pattern).isStartable t = true)
    (hmembers : Repeats [] w.members w'.members)
    (hpackages : List.Forall₂ SameButTargets w.packages w'.packages)
    (htargets : Repeats []
      ((programTargets (w.covered t (Selection.ofPattern pattern))).map crateOf)
      ((programTargets (w'.covered t (Selection.ofPattern pattern))).map crateOf)) :
    SameOutcome (ofPattern t (some w) pattern) (ofPattern t (some w') pattern) := by
  by_cases hnil : w.covered t (Selection.ofPattern pattern) = []
  · have hnil' := (covered_eq_nil_iff_of_repeats hmembers hpackages).mpr hnil
    rw [ofPattern_of_nil hstart hnil, ofPattern_of_nil hstart hnil']
    exact rfl
  · have hnil' := (covered_eq_nil_iff_of_repeats hmembers hpackages).not.mpr hnil
    have hreading := Reader.outcome_readCrates_of_repeats htargets (t := t) .empty (by simp)
    rw [ofPattern_of_ne_nil hstart hnil, ofPattern_of_ne_nil hstart hnil']
    rcases houtcome : Reader.Step.outcome (Reader.readCrates t
      ((programTargets (w.covered t (Selection.ofPattern pattern))).map crateOf)) .empty with ⟨e | _, r⟩
    · rw [ofPackages_of_error houtcome, ofPackages_of_error (hreading.trans houtcome)]
      exact rfl
    · rw [ofPackages_of_ok houtcome, ofPackages_of_ok (hreading.trans houtcome)]
      split
      · exact rfl
      · exact ⟨rfl, fun name => (mem_localNames_iff_of_repeats hmembers hpackages name).symm⟩

end Again

/-- **What comes of loading the packages that a pattern selects**, once the package manager has been
started and has described a workspace.

* It is an error that there are no packages if none is covered, and that there are no sources if some
  are but none of their targets belongs to a program. Nothing else leads to these errors.
* Otherwise the targets are read in order by one reader. The first that cannot be read gives its error.
  If all can be, the program has the files that were read, and there is at least one.
* To list a member again makes no difference, nor does it to list a target again, in its package or in
  all that is read. -/
theorem ofPattern_outcome (t : FileTree) (w : Workspace) (pattern : String)
    (hstart : (Selection.ofPattern pattern).isStartable t = true) :
    let packages := w.covered t (Selection.ofPattern pattern)
    let targets := programTargets packages
    (ofPattern t (some w) pattern = .error (.noPackages pattern) ↔ packages = []) ∧
    (ofPattern t (some w) pattern = .error (.noSources pattern) ↔ packages ≠ [] ∧ targets = []) ∧
    (targets ≠ [] →
      (∃ front x rest between e r', targets = front ++ x :: rest ∧
        Reader.ReadsInOrder t .empty (front.map crateOf) between ∧
        Reader.Step.outcome
          (Reader.readCrate t (CrateName.ofPackage x.2.name) x.2.source) between = (.error e, r') ∧
        ofPattern t (some w) pattern = .error e) ∨
      ∃ r p, Reader.ReadsInOrder t .empty (targets.map crateOf) r ∧
        ofPattern t (some w) pattern = .ok p ∧ p.units = r.units ∧ p.units ≠ [] ∧
        ∀ name, name ∈ p.externs ↔ ∃ package ∈ packages, ∃ d ∈ package.dependencies,
          name = CrateName.ofPackage (d.rename.getD d.name)) ∧
    ∀ w' : Workspace, Repeats [] w.members w'.members →
      (List.Forall₂ (fun p p' => SameButTargets p p' ∧ Repeats [] p.targets p'.targets)
          w.packages w'.packages ∨
        List.Forall₂ SameButTargets w.packages w'.packages ∧
          Repeats [] (targets.map crateOf)
            ((programTargets (w'.covered t (Selection.ofPattern pattern))).map crateOf)) →
      SameOutcome (ofPattern t (some w) pattern) (ofPattern t (some w') pattern) := by
  intro packages targets
  refine ⟨⟨fun h => ?_, ofPattern_of_nil hstart⟩, ⟨fun h => ?_, fun h => ?_⟩, fun h => ?_, ?_⟩
  · by_contra hne
    have htargets := programTargets_eq_nil_of_error hstart rfl h
    cases (ofPattern_of_noTargets hstart hne htargets).symm.trans h
  · refine ⟨fun hnil => ?_, programTargets_eq_nil_of_error hstart rfl h⟩
    cases (ofPattern_of_nil hstart hnil).symm.trans h
  · exact ofPattern_of_noTargets hstart h.1 h.2
  · rcases ofPattern_of_targets hstart h with hfails | ⟨r, hread, hunits, heq⟩
    · exact .inl hfails
    · exact .inr ⟨r, _, hread, heq, rfl, hunits, fun name => mem_localNames_iff⟩
  · intro w' hmembers hrepeats
    rcases hrepeats with hpackages | ⟨hpackages, htargets⟩
    · exact sameOutcome_of_repeats hstart hmembers (hpackages.imp fun _ _ h => h.1)
        (repeats_crateOf hmembers hpackages)
    · exact sameOutcome_of_repeats hstart hmembers hpackages htargets

namespace ListedTwice

/-- Two packages with a file each. -/
def tree : FileTree where
  directory := ["w"]
  files := [(["w", "one", "lib.rs"], "".toUTF8), (["w", "two", "main.rs"], "".toUTF8)]
  directories := []

/-- A package in the first directory. -/
def one (targets : List Target) : Package :=
  ⟨"one", "one", "/w/one/Cargo.toml", targets, [⟨"log", none⟩]⟩

/-- A package in the second directory. -/
def two (targets : List Target) : Package :=
  ⟨"two", "two", "/w/two/Cargo.toml", targets, []⟩

/-- A library, whose name is no identifier. -/
def lib : Target :=
  ⟨"my-one", ["rlib", "cdylib"], "/w/one/lib.rs"⟩

/-- A binary. -/
def main : Target :=
  ⟨"two", ["bin"], "/w/two/main.rs"⟩

/-- Each member is listed once. -/
def once : Workspace :=
  ⟨[one [lib], two [main]], ["one", "two"]⟩

/-- A member is listed again, and so is a target. -/
def twice : Workspace :=
  ⟨[one [lib, lib], two [main]], ["one", "two", "one"]⟩

theorem repeats_members : Repeats [] once.members twice.members :=
  .insert ["one", "two"] (.inr (by decide)) []

theorem repeats_packages :
    List.Forall₂ (fun p p' => Workspace.SameButTargets p p' ∧ Repeats [] p.targets p'.targets)
      once.packages twice.packages :=
  .cons ⟨⟨rfl, rfl, rfl, rfl⟩, .insert [lib] (.inr (by simp)) []⟩
    (.cons ⟨⟨rfl, rfl, rfl, rfl⟩, .refl _ _⟩ .nil)

end ListedTwice

theorem ofPattern_outcome_listedTwice :
    (Selection.ofPattern "...").isStartable ListedTwice.tree = true ∧
      Repeats [] ListedTwice.once.members ListedTwice.twice.members ∧
      ListedTwice.once.covered ListedTwice.tree (Selection.ofPattern "...") =
        [ListedTwice.one [ListedTwice.lib], ListedTwice.two [ListedTwice.main]] ∧
      ofPattern ListedTwice.tree (some ListedTwice.once) "..." ≠ .error (.noPackages "...") ∧
      ofPattern ListedTwice.tree (some ListedTwice.once) "..." ≠ .error (.noSources "...") ∧
      SameOutcome (ofPattern ListedTwice.tree (some ListedTwice.once) "...")
        (ofPattern ListedTwice.tree (some ListedTwice.twice) "...") := by
  have hstart : (Selection.ofPattern "...").isStartable ListedTwice.tree = true := by decide +kernel
  have hcovered : ListedTwice.once.covered ListedTwice.tree (Selection.ofPattern "...") =
      [ListedTwice.one [ListedTwice.lib], ListedTwice.two [ListedTwice.main]] := by
    decide +kernel
  obtain ⟨hpackages, hsources, -, hagain⟩ :=
    ofPattern_outcome ListedTwice.tree ListedTwice.once "..." hstart
  rw [hcovered] at hpackages hsources
  refine ⟨hstart, ListedTwice.repeats_members, hcovered, fun h => ?_, fun h => ?_,
    hagain ListedTwice.twice ListedTwice.repeats_members (.inl ListedTwice.repeats_packages)⟩
  · cases hpackages.mp h
  · exact absurd (hsources.mp h).2 (by decide)

end Program

end CallAtlas
