import CallAtlas.Proofs.Delivery
import CallAtlas.Proofs.FilePaths
import CallAtlas.Proofs.WorkspaceOutcome
import Mathlib.Data.List.DropRight

/-!
# Packages below a directory

The pattern `crates/...` selects the packages in the directory `crates` and further in. The separators
before the dots do not belong to the name of the directory, nor do others in front of them: a separator
behind a directory leads to the same place. So they are all taken away.

This goes too far for two directories. Of the root `/` nothing is left, and the working directory stands
in for it. And a backslash is taken for a separator, but it may be the end of a name: `a\/...` selects
what is below `a`.

## Main definitions

* `Selection.nameEnd?` — the last character of the name of a directory.

## Main results

* `FileTree.locate_of_slashes` — separators at the end of a path.
* `Workspace.select_below` — the packages that a pattern for a directory selects.
-/

namespace CallAtlas

/-! ### Separators at the end of a path -/

namespace FileTree

variable {t : FileTree} {cs : List Char} {place : List String}

theorem names_append_slash (cs : List Char) :
    names (String.ofList (cs ++ ['/'])) = names (String.ofList cs) ++ [""] := by
  simp [names, splitOnChar_append, splitOnChar]

theorem eq_of_enter_empty {next : List String} (h : t.enter place "" = .ok next) : place = next := by
  unfold enter at h
  split at h
  · cases h
  · exact Except.ok.inj h

/-- A separator behind a path that leads somewhere is one behind a directory, and leads there. -/
theorem locate_of_slash (hcs : cs ≠ []) (h : t.locate (String.ofList (cs ++ ['/'])) = .ok place) :
    t.locate (String.ofList cs) = .ok place := by
  have hstart : t.start (String.ofList (cs ++ ['/'])) = t.start (String.ofList cs) := by
    simp [start, PathText.isAbsolute, List.head?_append_of_ne_nil _ hcs]
  have hne : String.ofList (cs ++ ['/']) ≠ "" := by simp [String.ofList_eq_empty_iff]
  have hne' : String.ofList cs ≠ "" := by simpa [String.ofList_eq_empty_iff] using hcs
  rw [locate, if_neg hne, names_append_slash, hstart, List.foldlM_append] at h
  rw [locate, if_neg hne']
  cases hway : (names (String.ofList cs)).foldlM t.enter (t.start (String.ofList cs)) with
  | error fault =>
    rw [hway] at h
    cases h
  | ok found =>
    rw [hway] at h
    obtain ⟨next, henter, hnext⟩ := exists_of_foldlM_enter_cons h
    rw [eq_of_enter_empty henter]
    exact hnext

theorem locate_of_slashes (hcs : cs ≠ []) (n : Nat)
    (h : t.locate (String.ofList (cs ++ List.replicate n '/')) = .ok place) :
    t.locate (String.ofList cs) = .ok place := by
  induction n with
  | zero => simpa using h
  | succ n ih =>
    rw [List.replicate_succ', ← List.append_assoc] at h
    exact ih (locate_of_slash (by simp [hcs]) h)

/-- The root of the file system, written with any number of separators. -/
theorem locate_root {n : Nat} (h : t.locate (String.ofList (List.replicate n '/')) = .ok place) :
    place = [] := by
  cases n with
  | zero => cases h
  | succ n =>
    have hroot : t.locate (String.ofList ['/']) = .ok place := locate_of_slashes (by simp) n h
    obtain ⟨next, henter, hnext⟩ := exists_of_foldlM_enter_cons hroot
    obtain ⟨last, hlast, heq⟩ := exists_of_foldlM_enter_cons hnext
    cases heq
    exact (eq_of_enter_empty hlast).symm.trans (eq_of_enter_empty henter).symm

/-- The components of a path that leads somewhere are those from the root. -/
theorem canonical_of_locate {path : String} (h : t.locate path = .ok place) :
    t.canonical path = "/" :: place := by
  rw [canonical, h]

theorem exists_place_of_isDirectory {path : String} (h : t.isDirectory path = true) :
    ∃ place, t.locate path = .ok place := by
  unfold isDirectory at h
  split at h
  · next place hplace => exact ⟨place, hplace⟩
  · cases h

end FileTree

/-! ### Patterns for a directory -/

namespace Selection

variable {directory : String} {cs : List Char}

/-- The last character of the name of a directory. The separators behind it do not count. -/
def nameEnd? (directory : String) : Option Char :=
  (directory.toList.rdropWhile (· == '/')).getLast?

/-- The directory that is left of some characters without the separators at their end. -/
def stripped (cs : List Char) : String :=
  if (withoutSeparators cs).isEmpty then "." else String.ofList (withoutSeparators cs)

theorem exists_slashes (directory : String) : ∃ n, directory.toList =
    directory.toList.rdropWhile (· == '/') ++ List.replicate n '/' := by
  have hslashes : ∀ c ∈ directory.toList.rtakeWhile (· == '/'), c = '/' :=
    fun c hc => by simpa using List.mem_rtakeWhile_imp hc
  refine ⟨(directory.toList.rtakeWhile (· == '/')).length, ?_⟩
  rw [← List.eq_replicate_length.mpr hslashes, List.rdropWhile_append_rtakeWhile]

/-- A directory without a name is the root. -/
theorem exists_of_nameEnd?_eq_none (h : nameEnd? directory = none) :
    ∃ n, directory.toList = List.replicate n '/' := by
  obtain ⟨n, hn⟩ := exists_slashes directory
  rw [List.getLast?_eq_none_iff.mp h, List.nil_append] at hn
  exact ⟨n, hn⟩

theorem exists_of_nameEnd? {last : Char} (h : nameEnd? directory = some last) :
    last ≠ '/' ∧ ∃ front n, directory.toList = front ++ [last] ++ List.replicate n '/' := by
  obtain ⟨n, hn⟩ := exists_slashes directory
  obtain ⟨front, hfront⟩ := List.getLast?_eq_some_iff.mp h
  refine ⟨?_, front, n, hfront ▸ hn⟩
  rintro rfl
  have hne : directory.toList.rdropWhile (· == '/') ≠ [] := by simp [hfront]
  have hlast := List.rdropWhile_last_not (· == '/') directory.toList hne
  simp [hfront] at hlast

/-- Separators at the end do not count. -/
theorem withoutSeparators_append {separators : List Char}
    (h : ∀ c ∈ separators, c = '/' ∨ c = '\\') (cs : List Char) :
    withoutSeparators (cs ++ separators) = withoutSeparators cs := by
  rw [withoutSeparators, List.reverse_append, List.dropWhile_append_of_pos]
  · rfl
  · simpa using h

theorem withoutSeparators_of_last {last : Char} (hslash : last ≠ '/') (hback : last ≠ '\\')
    (front : List Char) : withoutSeparators (front ++ [last]) = front ++ [last] := by
  simp [withoutSeparators, hslash, hback]

theorem ofPattern_dots {separators : String}
    (h : ∀ c ∈ separators.toList, c = '/' ∨ c = '\\') (directory : String) :
    ofPattern (directory ++ separators ++ "...") = .under (stripped directory.toList) := by
  have hbefore : beforeDots? (directory ++ separators ++ "...").toList =
      some (directory.toList ++ separators.toList) := by
    simp [beforeDots?]
  rw [ofPattern, hbefore]
  dsimp only
  rw [withoutSeparators_append h, stripped]

/-- What is left of a directory leads to the same place, if its name does not end in a backslash. -/
theorem canonical_stripped {t : FileTree} {last : Char} (hd : t.isDirectory directory = true)
    (hend : nameEnd? directory = some last) (hback : last ≠ '\\') :
    t.canonical (stripped directory.toList) = t.canonical directory := by
  obtain ⟨hslash, front, n, heq⟩ := exists_of_nameEnd? hend
  have hstripped : stripped directory.toList = String.ofList (front ++ [last]) := by
    rw [stripped, heq, withoutSeparators_append (by simp), withoutSeparators_of_last hslash hback]
    simp
  obtain ⟨place, hplace⟩ := FileTree.exists_place_of_isDirectory hd
  have hplace' : t.locate (String.ofList (front ++ [last] ++ List.replicate n '/')) = .ok place := by
    rw [← heq, String.ofList_toList, hplace]
  rw [hstripped, FileTree.canonical_of_locate hplace,
    FileTree.canonical_of_locate (FileTree.locate_of_slashes (by simp) n hplace')]

end Selection

namespace Workspace

open Selection

theorem covered_under_congr {t : FileTree} {directory other : String}
    (h : t.canonical directory = t.canonical other) (w : Workspace) :
    w.covered t (.under directory) = w.covered t (.under other) := by
  rw [← select_eq_covered, ← select_eq_covered, select, select]
  congr 1
  funext p
  rw [accepts, accepts, h]

/-- **Packages below a directory.** Let a path lead to a directory. The pattern of the path and `...`,
with separators between them, selects the members whose manifests lie in this directory or further in,
name by name and in member order. There are two exceptions. For the root of the file system these are
the members in the working directory and further in. And if the name of the directory ends in a
backslash, they are those of the directory that is left of the path without it. -/
theorem select_below (t : FileTree) (w : Workspace) (directory separators : String)
    (hseparators : ∀ c ∈ separators.toList, c = '/' ∨ c = '\\')
    (hd : t.isDirectory directory = true) :
    let selected := w.select t (ofPattern (directory ++ separators ++ "..."))
    (∀ last, nameEnd? directory = some last → last ≠ '\\' →
      selected = w.covered t (.under directory)) ∧
    (nameEnd? directory = none →
      t.canonical directory = ["/"] ∧ selected = w.covered t (.under ".")) ∧
    (nameEnd? directory = some '\\' → ∃ front n,
      directory.toList = front ++ ['\\'] ++ List.replicate n '/' ∧
        selected = w.covered t (.under (stripped front))) := by
  intro selected
  have hselected : selected = w.covered t (.under (stripped directory.toList)) := by
    rw [← ofPattern_dots hseparators, ← select_eq_covered]
  refine ⟨fun last hlast hback => ?_, fun hnone => ?_, fun hback => ?_⟩
  · rw [hselected, covered_under_congr (canonical_stripped hd hlast hback)]
  · obtain ⟨n, hn⟩ := exists_of_nameEnd?_eq_none hnone
    obtain ⟨place, hplace⟩ := FileTree.exists_place_of_isDirectory hd
    have hroot : place = [] := by
      rw [← String.ofList_toList (s := directory), hn] at hplace
      exact FileTree.locate_root hplace
    have hstripped : stripped directory.toList = "." := by
      have hall : withoutSeparators ([] ++ directory.toList) = withoutSeparators [] :=
        withoutSeparators_append (by simp [hn]) []
      rw [stripped, ← List.nil_append directory.toList, hall]
      rfl
    exact ⟨by rw [FileTree.canonical_of_locate hplace, hroot], by rw [hselected, hstripped]⟩
  · obtain ⟨-, front, n, heq⟩ := exists_of_nameEnd? hback
    refine ⟨front, n, heq, ?_⟩
    have hstripped : stripped directory.toList = stripped front := by
      rw [stripped, heq, withoutSeparators_append (by simp), withoutSeparators_append (by simp),
        stripped]
    rw [hselected, hstripped]

namespace Shelves

/-- A package without sources, by its name and its directory. -/
def package (name directory : String) : Package :=
  ⟨name, name, directory ++ "/Cargo.toml", [], []⟩

/-- The directories `crates/a`, `crates-old`, `dir` and `dir\` in the working directory, and one
outside. -/
def tree : FileTree where
  directory := ["w"]
  files := []
  directories := [["w", "crates", "a"], ["w", "crates-old"], ["w", "dir"], ["w", "dir\\"], ["v"]]

def workspace : Workspace where
  packages := [package "top" "/w/crates", package "a" "/w/crates/a", package "old" "/w/crates-old",
    package "plain" "/w/dir", package "back" "/w/dir\\", package "out" "/v"]
  members := ["out", "a", "old", "top", "back", "plain"]

end Shelves

theorem select_below_crates :
    Shelves.tree.isDirectory "./crates//" = true ∧ nameEnd? "./crates//" = some 's' ∧
      (Shelves.workspace.select Shelves.tree (ofPattern "./crates///...")).map (·.name) =
        ["a", "top"] := by
  have hd : Shelves.tree.isDirectory "./crates//" = true := by decide
  have hend : nameEnd? "./crates//" = some 's' := by decide
  have hselected : Shelves.workspace.select Shelves.tree (ofPattern "./crates///...") =
      Shelves.workspace.covered Shelves.tree (.under "./crates//") :=
    (select_below Shelves.tree Shelves.workspace "./crates//" "/" (by simp) hd).1 's' hend (by decide)
  exact ⟨hd, hend, by rw [hselected]; decide⟩

/-- Below the root a package outside of the working directory is not found. Below a directory whose name
ends in a backslash none is, but one of another directory. -/
theorem select_below_fails :
    Shelves.tree.isDirectory "/" = true ∧
      (Shelves.workspace.covered Shelves.tree (.under "/")).map (·.name) =
        ["out", "a", "old", "top", "back", "plain"] ∧
      (Shelves.workspace.select Shelves.tree (ofPattern "/...")).map (·.name) =
        ["a", "old", "top", "back", "plain"] ∧
      Shelves.tree.isDirectory "dir\\" = true ∧
      (Shelves.workspace.covered Shelves.tree (.under "dir\\")).map (·.name) = ["back"] ∧
      (Shelves.workspace.select Shelves.tree (ofPattern "dir\\/...")).map (·.name) = ["plain"] := by
  decide

end Workspace

end CallAtlas
