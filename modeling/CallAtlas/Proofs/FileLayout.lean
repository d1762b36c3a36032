import CallAtlas.Proofs.FilePaths
import CallAtlas.Proofs.ModuleNames
import CallAtlas.Proofs.ReadingEnds

/-!
# Where the files of modules lie

Without attributes that give a path, the path of a module tells the path of its file. The module of
names `a`, `b`, `c` in a crate lies in the file `a/b/c.rs` below the directory of the crate's root, or
else in `a/b/c/mod.rs`, and it makes no difference which of the modules around it are in braces, in
files of their names or in files `mod.rs`.

A reader sees none of this. It is given a file and a flag, and it finds the directory for further files
from the text of the path: the directory of the file, or one of the file's name below it. What it finds
is the directory of the module in both cases, `Reader.Call.Laid`, and this is what reading preserves
from a file to those that it declares.

## Main definitions

* `standardFile` — the file of a module in a directory.
* `Item.arePathless` — no attribute gives a path to a module.
* `Reader.Call.Laid` — a call whose file has its modules in the directory of its own.

## Main results

* `FileTree.exists_parent?_of_isFile` — what can be read has a parent.
* `Reader.Call.laid_ofDeclared` — the step from a file to one that it declares.
* `Reader.Reads.standard` — the files that a call adds.
* `Reader.readCrate_standard` — the files of a crate.
-/

namespace CallAtlas

open PathText (join parent? stem? fileName? isVoid trim IsName)

/-! ### Files have parents -/

namespace PathText

/-- All names between separators count, other than behind a `.` in front. -/
theorem splitOnChar_eq (cs : List Char) :
    (split cs).1 = ['.'] ∨ splitOnChar '/' cs = (split cs).2 ∨
      splitOnChar '/' cs = [] :: (split cs).2 := by
  unfold split
  split <;> simp [splitOnChar]

/-- A path without a parent is made of names that lead nowhere. -/
theorem isVoid_of_parent?_eq_none {path : String} (h : parent? path = none) :
    ∀ name ∈ splitOnChar '/' path.toList, isVoid name = true := by
  rw [parent?] at h
  dsimp only at h
  split at h
  · next hnil =>
    have hvoid := isVoid_of_trim_eq_nil (List.isEmpty_iff.mp hnil)
    rcases splitOnChar_eq path.toList with hdot | hnames | hnames
    · rw [if_pos hdot] at h
      cases h
    · rwa [hnames]
    · rw [hnames]
      exact List.forall_mem_cons.mpr ⟨rfl, hvoid⟩
  · cases h

end PathText

namespace FileTree

variable {t : FileTree} {path : String}

/-- Names that lead nowhere lead to no file. -/
theorem content?_of_foldlM_enter_void {names : List String} (hne : names ≠ [])
    (h : ∀ name ∈ names, name = "" ∨ name = ".") {place found : List String}
    (hfound : names.foldlM t.enter place = .ok found) : t.content? found = none := by
  induction names with
  | nil => exact absurd rfl hne
  | cons name rest ih =>
    obtain ⟨hname, hrest⟩ := List.forall_mem_cons.mp h
    rw [List.foldlM_cons, enter, if_pos hname] at hfound
    by_cases hplace : (t.content? place).isSome = true
    · rw [if_pos hplace] at hfound
      cases hfound
    · rw [if_neg hplace] at hfound
      by_cases hnil : rest = []
      · subst hnil
        cases hfound
        simpa using hplace
      · exact ih hnil hrest hfound

theorem exists_parent?_of_isFile (h : t.isFile path = true) :
    ∃ directory, parent? path = some directory := by
  rw [← Option.isSome_iff_exists, Option.isSome_iff_ne_none]
  intro hnone
  have hvoid := PathText.isVoid_of_parent?_eq_none hnone
  unfold isFile at h
  split at h
  · next place hplace =>
    unfold locate at hplace
    split at hplace
    · cases hplace
    · rw [content?_of_foldlM_enter_void ?_ ?_ hplace] at h
      · cases h
      · simpa [names] using splitOnChar_ne_nil '/' path.toList
      · intro name hname
        obtain ⟨cs, hcs, rfl⟩ := List.mem_map.mp hname
        rcases Bool.or_eq_true_iff.mp (hvoid cs hcs) with hcs | hcs
        · exact .inl (by rw [beq_iff_eq.mp hcs])
        · exact .inr (by rw [beq_iff_eq.mp hcs])
  · cases h

end FileTree

/-! ### From a file to those that it declares -/

/-- The file of a module in a directory: a file of its name, or else a file in a directory of its
name. -/
def standardFile (t : FileTree) (directory name : String) : String :=
  if t.isFile (join directory (name ++ ".rs")) then join directory (name ++ ".rs")
  else join (join directory name) "mod.rs"

namespace Item

mutual
/-- Is an item no module with a path in an attribute, nor a module in braces with one in it? -/
def isPathless : Item → Bool
  | .module attributes _ _ items => attributes.path.isNone && arePathless items
  | .moduleFile attributes _ _ => attributes.path.isNone
  | _ => true

/-- Are several items such? -/
def arePathless : List Item → Bool
  | [] => true
  | item :: rest => item.isPathless && arePathless rest
end

theorem isPathless_of_mem {items : List Item} (h : arePathless items = true) {item : Item}
    (hitem : item ∈ items) : item.isPathless = true := by
  induction items with
  | nil => cases hitem
  | cons first rest ih =>
    obtain ⟨hfirst, hrest⟩ := Bool.and_eq_true_iff.mp h
    rcases List.mem_cons.mp hitem with rfl | hitem
    · exact hfirst
    · exact ih hrest hitem

end Item

/-- No attribute gives a path to a module on the way to a file. -/
theorem DeclaresFile.path_eq_none {items : List Item} {around : InlineModules}
    {attributes : ModuleAttributes} {name : Ident} (h : DeclaresFile items around attributes name)
    (hitems : Item.arePathless items = true) :
    attributes.path = none ∧ ∀ outer ∈ around, outer.1.path = none := by
  induction h with
  | here hmem => exact ⟨Option.isNone_iff_eq_none.mp (Item.isPathless_of_mem hitems hmem), by simp⟩
  | inside hmem _ ih =>
    have hmodule := Item.isPathless_of_mem hitems hmem
    rw [Item.isPathless, Bool.and_eq_true_iff, Option.isNone_iff_eq_none] at hmodule
    obtain ⟨hname, haround⟩ := ih hmodule.2
    exact ⟨hname, List.forall_mem_cons.mpr ⟨hmodule.1, haround⟩⟩

theorem InlineModules.directory_of_noPaths {around : InlineModules}
    (h : ∀ outer ∈ around, outer.1.path = none) (directory : String) :
    around.directory directory = around.names.foldl join directory := by
  induction around generalizing directory with
  | nil => rfl
  | cons outer around ih =>
    obtain ⟨houter, haround⟩ := List.forall_mem_cons.mp h
    have hrest := ih haround (join directory (outer.1.path.getD outer.2.text))
    rw [houter, Option.getD_none] at hrest
    rw [InlineModules.directory, List.foldl_cons, houter, Option.getD_none]
    exact hrest

theorem SourceUnit.moduleDirectory_true (u : SourceUnit) : u.moduleDirectory true = u.directory :=
  rfl

theorem SourceUnit.moduleDirectory_false {u : SourceUnit} {stem : String}
    (h : stem? u.path = some stem) : u.moduleDirectory false = join u.directory stem := by
  unfold moduleDirectory
  rw [h]

namespace Reader

variable {t : FileTree} {crate root directory : String}

/-- A call for the module of these names in a crate, whose own modules lie in the directory of the
same names. -/
structure Call.Laid (crate directory : String) (names : List String) (c : Call) : Prop where
  /-- The names lead somewhere. -/
  isName : ∀ name ∈ names, IsName name.toList
  /-- They are the path of the module. -/
  module_eq : c.module = crate :: names
  /-- They lead to the directory. -/
  directory_eq : ∀ u : SourceUnit, u.path = c.path →
    u.moduleDirectory c.ownsDirectory = names.foldl join directory

/-- The root of a crate has its modules in its own directory. -/
theorem Call.laid_root (h : parent? root = some directory) (r : Reader) :
    Call.Laid crate directory [] ⟨[crate], root, true, r⟩ where
  isName := by simp
  module_eq := rfl
  directory_eq := by
    intro u hu
    rw [SourceUnit.moduleDirectory_true, SourceUnit.directory, hu, h]
    rfl

theorem isName_mod : IsName "mod.rs".toList where
  noSeparator := by decide
  notVoid := by decide

/-- The modules of a file of some name lie one below the directory of that file. -/
theorem moduleDirectory_of_name (hroot : parent? root = some directory) {names : List String}
    (hnames : ∀ name ∈ names, IsName name.toList) {name : Ident} {u : SourceUnit}
    (hpath : u.path = join (names.foldl join directory) (name.text ++ ".rs")) :
    u.moduleDirectory false = (names ++ [name.text]).foldl join directory := by
  have hstem : stem? u.path = some name.text := hpath ▸ PathText.stem?_join _ name
  have hparent := PathText.parent?_foldl_join hroot hnames (PathText.isName_file name)
  rw [SourceUnit.moduleDirectory_false hstem, SourceUnit.directory, hpath, hparent,
    List.foldl_append]
  rfl

/-- The modules of a file `mod.rs` lie next to it. -/
theorem moduleDirectory_of_mod {names : List String} {name : Ident} {u : SourceUnit}
    (hpath : u.path = join (join (names.foldl join directory) name.text) "mod.rs") :
    u.moduleDirectory true = (names ++ [name.text]).foldl join directory := by
  have hparent := PathText.parent?_join_join (names.foldl join directory)
    (PathText.isName_of_isIdent name.wellFormed) isName_mod
  rw [SourceUnit.moduleDirectory_true, SourceUnit.directory, hpath, hparent, List.foldl_append]
  rfl

/-- What a declaration leads to, if no attribute gives a path. -/
def standardDeclaration (crate directory : String) (names : List String) (name : Ident)
    (gated : Bool) : ModuleFile where
  module := crate :: (names ++ [name.text])
  candidates := [join (names.foldl join directory) (name.text ++ ".rs"),
    join (join (names.foldl join directory) name.text) "mod.rs"]
  gated := gated
  explicit := false

theorem ownsDirectory_name {names : List String} {name : Ident} (hne : name.text ≠ "mod")
    {gated : Bool} {r : Reader} {inner : String} :
    (Call.ofDeclared (standardDeclaration crate directory names name gated)
      (join inner (name.text ++ ".rs")) r).ownsDirectory = false := by
  have hmod : name.text ++ ".rs" ≠ "mod" ++ ".rs" := by
    rw [ne_eq, ← String.toList_inj, String.toList_append, String.toList_append,
      List.append_cancel_right_eq, String.toList_inj]
    exact hne
  simpa [Call.ofDeclared, standardDeclaration, PathText.fileName?_join_file] using hmod

theorem ownsDirectory_mod {names : List String} {name : Ident} {gated : Bool} {r : Reader}
    {inner : String} :
    (Call.ofDeclared (standardDeclaration crate directory names name gated)
      (join inner "mod.rs") r).ownsDirectory = true := by
  simp [Call.ofDeclared, PathText.fileName?_join inner isName_mod (by decide)]

/-- Modules in braces lead to the same directory as those in files. -/
theorem Call.Laid.moduleFile_eq {c : Call} {names : List String} (h : Call.Laid crate directory names c)
    {u : SourceUnit} (hpath : u.path = c.path) (hmodule : u.module = c.module)
    {around : InlineModules} {attributes : ModuleAttributes} (name : Ident)
    (hnone : attributes.path = none) (haround : ∀ outer ∈ around, outer.1.path = none) :
    u.moduleFile c.ownsDirectory around attributes name =
      standardDeclaration crate directory (names ++ around.names) name attributes.gated := by
  have hdirectory : around.directory (u.moduleDirectory c.ownsDirectory) =
      (names ++ around.names).foldl join directory := by
    rw [InlineModules.directory_of_noPaths haround, h.directory_eq u hpath, List.foldl_append]
  simp [SourceUnit.moduleFile, ModuleFile.ofDeclaration, standardDeclaration, hmodule, h.module_eq,
    hnone, hdirectory]

/-- **The step from a file to one that it declares.** The file found is the standard one, and it has
its own modules in the directory of its name again. -/
theorem Call.laid_ofDeclared (hroot : parent? root = some directory) {names : List String}
    (hnames : ∀ name ∈ names, IsName name.toList) {name : Ident} (hne : name.text ≠ "mod")
    {gated : Bool} {file : String} (r : Reader)
    (hfile : (standardDeclaration crate directory names name gated).candidates.find? t.isFile =
      some file) :
    file = standardFile t (names.foldl join directory) name.text ∧
      Call.Laid crate directory (names ++ [name.text])
        (.ofDeclared (standardDeclaration crate directory names name gated) file r) := by
  have hall : ∀ text ∈ names ++ [name.text], IsName text.toList := by
    intro text htext
    rcases List.mem_append.mp htext with htext | htext
    · exact hnames text htext
    · rw [List.mem_singleton.mp htext]
      exact PathText.isName_of_isIdent name.wellFormed
  rw [standardFile]
  by_cases hname : t.isFile (join (names.foldl join directory) (name.text ++ ".rs")) = true
  · obtain rfl : join (names.foldl join directory) (name.text ++ ".rs") = file := by
      simpa [standardDeclaration, hname] using hfile
    refine ⟨(if_pos hname).symm, hall, rfl, fun u hu => ?_⟩
    rw [ownsDirectory_name hne]
    exact moduleDirectory_of_name hroot hnames hu
  · obtain ⟨-, rfl⟩ : t.isFile (join (join (names.foldl join directory) name.text) "mod.rs") = true ∧
        join (join (names.foldl join directory) name.text) "mod.rs" = file := by
      simpa [standardDeclaration, List.find?_cons_of_neg hname, List.find?_singleton] using hfile
    refine ⟨(if_neg hname).symm, hall, rfl, fun u hu => ?_⟩
    rw [ownsDirectory_mod]
    exact moduleDirectory_of_mod hu

/-! ### Whole runs -/

/-- A declaration that leads to standard files. -/
def IsStandard (crate directory : String) (declared : ModuleFile) : Prop :=
  ∃ names name gated, (∀ text ∈ names, IsName text.toList) ∧ name.text ≠ "mod" ∧
    declared = standardDeclaration crate directory names name gated

/-- A file that lies where its module says. -/
def LiesStandard (t : FileTree) (crate directory : String) (u : SourceUnit) : Prop :=
  ∃ names name, u.module = crate :: (names ++ [name]) ∧
    u.path = standardFile t (names.foldl join directory) name

/-- A file that is read with its modules in the right directory declares standard files. -/
theorem Call.Laid.isStandard {c : Call} {names : List String} (h : Call.Laid crate directory names c)
    {found : SourceUnit} {r : Reader} (hunit : c.unitOutcome t crate = (.ok found, r))
    (hpaths : Item.arePathless found.file.items = true) :
    ∀ declared ∈ ModuleFile.ofUnit found c.ownsDirectory, IsStandard crate directory declared := by
  intro declared hdeclared
  obtain ⟨-, hmodule, hpath, ⟨text, -, hparse⟩, -⟩ := readUnit_ok hunit
  obtain ⟨around, attributes, name, hdeclares, rfl⟩ := ModuleFile.mem_ofUnit_iff.mp hdeclared
  obtain ⟨hnone, haround⟩ := hdeclares.path_eq_none hpaths
  refine ⟨names ++ around.names, name, attributes.gated, ?_,
    SourceFile.name_ne_mod_of_parse hparse hdeclares,
    h.moduleFile_eq hpath hmodule name hnone haround⟩
  intro text htext
  rcases List.mem_append.mp htext with htext | htext
  · exact h.isName text htext
  · obtain ⟨outer, -, rfl⟩ := List.mem_map.mp htext
    exact PathText.isName_of_isIdent outer.2.wellFormed

/-- The file that a standard declaration leads to lies where its module says, and it has its own modules
in the right directory. -/
theorem IsStandard.lies {declared : ModuleFile} (h : IsStandard crate directory declared)
    (hroot : parent? root = some directory) {file : String}
    (hfile : declared.candidates.find? t.isFile = some file) (r : Reader) :
    ∃ names, Call.Laid crate directory names (.ofDeclared declared file r) ∧
      ∀ u : SourceUnit, u.module = declared.module → u.path = file →
        LiesStandard t crate directory u := by
  obtain ⟨names, name, gated, hnames, hne, rfl⟩ := h
  obtain ⟨hstandard, hlaid⟩ := Call.laid_ofDeclared hroot hnames hne r hfile
  exact ⟨_, hlaid, fun u hmodule hpath => ⟨names, name.text, hmodule, hpath.trans hstandard⟩⟩

/-- What is no file is not read. -/
theorem Reads.units_of_not_isFile {c : Call} {x : Except LoadError Unit × Reader}
    (h : Reads t crate c x) (hfile : ¬t.isFile c.path = true) : x.2.units = c.reader.units := by
  cases h with
  | reached => rfl
  | unreadable _ hunit => exact units_of_unitOutcome_error hunit
  | read hnot hunit => exact absurd (unreached_lt_of_unitOutcome hnot hunit).1 hfile

mutual

/-- **The files that a call adds**: its own, and others that lie where their modules say. -/
theorem Reads.standard (hroot : parent? root = some directory) :
    ∀ {c : Call} {x : Except LoadError Unit × Reader}, Reads t crate c x →
      ∃ added, x.2.units = c.reader.units ++ added ∧
        ∀ names, Call.Laid crate directory names c → (∀ u ∈ added, Item.arePathless u.file.items) →
          ∀ u ∈ added, u.module = c.module ∧ u.path = c.path ∨ LiesStandard t crate directory u
  | c, _, .reached _ => ⟨[], by simp⟩
  | c, _, .unreadable _ hunit => ⟨[], by simp [units_of_unitOutcome_error hunit]⟩
  | c, _, .read _ hunit hall => by
    obtain ⟨added, hadded, hstandard⟩ := hall.standard hroot
    obtain ⟨-, hmodule, hpath, -, rfl⟩ := readUnit_ok hunit
    refine ⟨_ :: added, by simpa [Call.marked] using hadded, fun names hlaid hpaths u hu => ?_⟩
    obtain ⟨hfound, hrest⟩ := List.forall_mem_cons.mp hpaths
    rcases List.mem_cons.mp hu with rfl | hu
    · exact .inl ⟨hmodule, hpath⟩
    · exact .inr (hstandard (hlaid.isStandard hunit hfound) hrest u hu)

theorem ReadsAll.standard (hroot : parent? root = some directory) :
    ∀ {path : String} {r : Reader} {all : List ModuleFile} {x : Except LoadError Unit × Reader},
      ReadsAll t crate path r all x →
        ∃ added, x.2.units = r.units ++ added ∧
          ((∀ declared ∈ all, IsStandard crate directory declared) →
            (∀ u ∈ added, Item.arePathless u.file.items) →
              ∀ u ∈ added, LiesStandard t crate directory u)
  | _, _, _, _, .nil => ⟨[], by simp⟩
  | _, _, _, _, .cons hfile hfirst hrest => by
    obtain ⟨added, hadded, hstandard⟩ := hfirst.standard hroot
    obtain ⟨more, hmore, hrest⟩ := hrest.standard hroot
    refine ⟨added ++ more, by rw [hmore, hadded, List.append_assoc]; rfl, fun hall hpaths u hu => ?_⟩
    obtain ⟨hdeclared, hothers⟩ := List.forall_mem_cons.mp hall
    obtain ⟨hpathsAdded, hpathsMore⟩ := List.forall_mem_append.mp hpaths
    obtain ⟨names, hlaid, hlies⟩ := hdeclared.lies hroot hfile _
    rcases List.mem_append.mp hu with hu | hu
    · exact (hstandard names hlaid hpathsAdded u hu).elim (fun h => hlies u h.1 h.2) id
    · exact hrest hothers hpathsMore u hu
  | _, _, _, _, .failed hfile hfirst => by
    obtain ⟨added, hadded, hstandard⟩ := hfirst.standard hroot
    refine ⟨added, hadded, fun hall hpaths u hu => ?_⟩
    obtain ⟨names, hlaid, hlies⟩ := (List.forall_mem_cons.mp hall).1.lies hroot hfile _
    exact (hstandard names hlaid hpaths u hu).elim (fun h => hlies u h.1 h.2) id
  | _, _, _, _, .skipped _ _ hrest => by
    obtain ⟨added, hadded, hstandard⟩ := hrest.standard hroot
    exact ⟨added, hadded, fun hall => hstandard (List.forall_mem_cons.mp hall).2⟩
  | _, _, _, _, .missing _ _ => ⟨[], by simp⟩

end

/-- **Where the files of a crate lie.** A reader that reads a crate from a root file, whatever has been
read before, adds files for modules of that crate, also if it comes to an error. If no attribute in
them gives a path to a module, then the file of the module `m` in the modules `ms` lies in the directory
`ms` below the directory of the root: in a file of its name if there is one, and otherwise in a file
`mod.rs` in a directory of its name. -/
theorem readCrate_standard (t : FileTree) (crate root : String) (r : Reader) :
    ∃ added, (Step.outcome (readCrate t crate root) r).2.units = r.units ++ added ∧
      ((∀ u ∈ added, Item.arePathless u.file.items) →
        ∀ u ∈ added, u.module = [crate] ∧ u.path = root ∨
          ∃ directory ms m, parent? root = some directory ∧ u.module = crate :: (ms ++ [m]) ∧
            u.path =
              if t.isFile (join (ms.foldl join directory) (m ++ ".rs")) then
                join (ms.foldl join directory) (m ++ ".rs")
              else join ((ms ++ [m]).foldl join directory) "mod.rs") := by
  have hreads := reads_readCrate t crate root r
  by_cases hfile : t.isFile root = true
  · obtain ⟨directory, hroot⟩ := FileTree.exists_parent?_of_isFile hfile
    obtain ⟨added, hadded, hstandard⟩ := hreads.standard hroot
    refine ⟨added, hadded, fun hpaths u hu => ?_⟩
    rcases hstandard [] (Call.laid_root hroot r) hpaths u hu with hu | ⟨ms, m, hmodule, hpath⟩
    · exact .inl hu
    · refine .inr ⟨directory, ms, m, hroot, hmodule, ?_⟩
      rw [hpath, standardFile, List.foldl_append]
      rfl
  · exact ⟨[], by simpa using hreads.units_of_not_isFile hfile, by simp⟩

namespace Nested

/-- Modules in files of their names, in files `mod.rs` and in braces, one in the other. -/
def tree : FileTree where
  directory := ["w"]
  files :=
    [(["w", "src", "lib.rs"], "mod a;mod b \x7bmod c;\x7d".toUTF8),
      (["w", "src", "a.rs"], "mod x;".toUTF8),
      (["w", "src", "a", "x", "mod.rs"], "mod y;".toUTF8),
      (["w", "src", "a", "x", "y.rs"], "".toUTF8),
      (["w", "src", "b", "c.rs"], "".toUTF8)]
  directories := []

/-- The files of the crate. -/
def units : List SourceUnit :=
  (Step.outcome (readCrate tree "nested" "src/lib.rs") empty).2.units

theorem units_spec :
    (units.map fun u => (u.moduleKey, u.path)) =
      [("nested", "src/lib.rs"), ("nested::a", "src/a.rs"), ("nested::a::x", "src/a/x/mod.rs"),
        ("nested::a::x::y", "src/a/x/y.rs"), ("nested::b::c", "src/b/c.rs")] ∧
      ∀ u ∈ units, Item.arePathless u.file.items := by
  decide +kernel

end Nested

theorem readCrate_standard_nested :
    (Nested.units.map fun u => (u.moduleKey, u.path)) =
      [("nested", "src/lib.rs"), ("nested::a", "src/a.rs"), ("nested::a::x", "src/a/x/mod.rs"),
        ("nested::a::x::y", "src/a/x/y.rs"), ("nested::b::c", "src/b/c.rs")] ∧
      (∀ u ∈ Nested.units, Item.arePathless u.file.items) ∧
      ∀ u ∈ Nested.units, u.module = ["nested"] ∧ u.path = "src/lib.rs" ∨
        ∃ directory ms m, parent? "src/lib.rs" = some directory ∧
          u.module = "nested" :: (ms ++ [m]) ∧
          u.path =
            if Nested.tree.isFile (join (ms.foldl join directory) (m ++ ".rs")) then
              join (ms.foldl join directory) (m ++ ".rs")
            else join ((ms ++ [m]).foldl join directory) "mod.rs" := by
  obtain ⟨added, hadded, hstandard⟩ := readCrate_standard Nested.tree "nested" "src/lib.rs" empty
  obtain rfl : Nested.units = added := hadded
  obtain ⟨hpaths, hpathless⟩ := Nested.units_spec
  exact ⟨hpaths, hpathless, hstandard hpathless⟩

end Reader

end CallAtlas
