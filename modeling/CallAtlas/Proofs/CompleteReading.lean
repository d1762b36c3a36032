import CallAtlas.Load
import CallAtlas.Proofs.ModuleTree

/-!
# Reading crates completely

A reader that has come to its end without an error has read all there is to read, and each file once
for each crate. What makes this hard to see is that a file counts as reached before the modules that
it declares have been read, and that declarations may form circles. So an invariant for the middle of
a run cannot say that everything declared so far has been read.

The invariant used here is in two parts. `Reader.Log` holds at every moment: files and reached places
are the same list, and each file has an origin among the files before it. `Reader.Settled` is about
one declaration, and a run settles all declarations of the files that it adds. The files that were
there before are the business of the runs around it.

The depth to which a reader goes is bounded by the number of files. `Reader.unreached` counts the
files that are left, and this number goes down with every file that is read, so the bound never cuts
a run short.

## Main definitions

* `DeclaresFile` — a declaration among some items, at their level or in modules in braces.
* `SourceUnit.moduleFile` — the file that a declaration stands for.
* `Reader.Origin`, `Reader.Log`, `Reader.Settled`, `Reader.unreached`.

## Main results

* `ModuleFile.mem_ofUnit_iff` — the declarations of a file.
* `Reader.readModule_advances` — what reading a module does.
* `Reader.readCrates_complete` — what reading crates does.
* `Program.isRead_of_load` — programs are loaded only if all of their files have been read.
-/

namespace CallAtlas

/-! ### Declarations of module files -/

/-- Modules in braces, each inside of the one before, with their attributes. -/
abbrev InlineModules := List (ModuleAttributes × Ident)

namespace InlineModules

/-- The names of the modules. -/
def names (around : InlineModules) : List String :=
  around.map (·.2.text)

/-- The directory that the innermost module stands for, seen from the directory of the outermost. A
module stands for a directory of its name, unless an attribute gives another. -/
def directory (around : InlineModules) (outer : String) : String :=
  around.foldl (fun found inner => PathText.join found (inner.1.path.getD inner.2.text)) outer

end InlineModules

/-- `mod name;` stands among some items, at their own level or inside of modules in braces. -/
inductive DeclaresFile : List Item → InlineModules → ModuleAttributes → Ident → Prop where
  | here {items : List Item} {attributes : ModuleAttributes} {name : Ident} {parts : List Expr} :
    .moduleFile attributes name parts ∈ items → DeclaresFile items [] attributes name
  | inside {items inner : List Item} {outer attributes : ModuleAttributes} {module name : Ident}
      {parts : List Expr} {around : InlineModules} :
    .module outer module parts inner ∈ items → DeclaresFile inner around attributes name →
      DeclaresFile items ((outer, module) :: around) attributes name

theorem DeclaresFile.mono {items more : List Item} {around : InlineModules}
    {attributes : ModuleAttributes} {name : Ident} (h : DeclaresFile items around attributes name)
    (hsub : items ⊆ more) : DeclaresFile more around attributes name := by
  cases h with
  | here hmem => exact .here (hsub hmem)
  | inside hmem hinner => exact .inside (hsub hmem) hinner

namespace SourceUnit

/-- The directory of a file. -/
def directory (u : SourceUnit) : String :=
  (PathText.parent? u.path).getD "."

/-- Where the files of a file's own modules lie: next to it, or in a directory of its name. -/
def moduleDirectory (u : SourceUnit) (ownsDirectory : Bool) : String :=
  match ownsDirectory, PathText.stem? u.path with
  | false, some stem => PathText.join u.directory stem
  | _, _ => u.directory

/-- The file that `mod name;` in a file stands for. A path in an attribute is seen from the directory
of the file at its top level, and else from the directory of the module in braces. -/
def moduleFile (u : SourceUnit) (ownsDirectory : Bool) (around : InlineModules)
    (attributes : ModuleAttributes) (name : Ident) : ModuleFile :=
  let directory := around.directory (u.moduleDirectory ownsDirectory)
  ModuleFile.ofDeclaration (u.module ++ around.names) directory
    (if around.isEmpty then u.directory else directory) attributes name

end SourceUnit

namespace ModuleFile

mutual
theorem exists_declaresFile_of_mem_ofItem : ∀ {item : Item} {module : List String}
    {directory base : String} {declared : ModuleFile}, declared ∈ ofItem module directory base item →
      ∃ around attributes name, DeclaresFile [item] around attributes name ∧
        declared = ofDeclaration (module ++ around.names) (around.directory directory)
          (if around.isEmpty then base else around.directory directory) attributes name
  | .module outer inner parts items, module, directory, base, declared, h => by
    rw [ofItem] at h
    obtain ⟨around, attributes, name, hinside, rfl⟩ := exists_declaresFile_of_mem_ofItems h
    refine ⟨(outer, inner) :: around, attributes, name, .inside List.mem_cons_self hinside, ?_⟩
    -- inside of braces, paths are seen from the same directory as names
    cases around <;> simp [InlineModules.names, InlineModules.directory]
  | .moduleFile attributes name parts, module, directory, base, declared, h => by
    rw [ofItem] at h
    refine ⟨[], attributes, name, .here List.mem_cons_self, ?_⟩
    simpa [InlineModules.names, InlineModules.directory] using h
  | .function .., _, _, _, _, h | .type .., _, _, _, _, h | .trait .., _, _, _, _, h
  | .impl .., _, _, _, _, h | .use .., _, _, _, _, h | .externCrate .., _, _, _, _, h
  | .other .., _, _, _, _, h => by
    simp [ofItem] at h

theorem exists_declaresFile_of_mem_ofItems : ∀ {items : List Item} {module : List String}
    {directory base : String} {declared : ModuleFile},
    declared ∈ ofItems module directory base items →
      ∃ around attributes name, DeclaresFile items around attributes name ∧
        declared = ofDeclaration (module ++ around.names) (around.directory directory)
          (if around.isEmpty then base else around.directory directory) attributes name
  | [], _, _, _, _, h => by simp [ofItems] at h
  | item :: rest, module, directory, base, declared, h => by
    rw [ofItems] at h
    rcases List.mem_append.mp h with h | h
    · obtain ⟨around, attributes, name, hitem, heq⟩ := exists_declaresFile_of_mem_ofItem h
      exact ⟨around, attributes, name, hitem.mono (by simp), heq⟩
    · obtain ⟨around, attributes, name, hrest, heq⟩ := exists_declaresFile_of_mem_ofItems h
      exact ⟨around, attributes, name, hrest.mono (List.subset_cons_self item rest), heq⟩
end

theorem mem_ofItems_of_mem {items : List Item} {item : Item} (hitem : item ∈ items)
    {module : List String} {directory base : String} {declared : ModuleFile}
    (h : declared ∈ ofItem module directory base item) :
    declared ∈ ofItems module directory base items := by
  induction items with
  | nil => simp at hitem
  | cons first rest ih =>
    rw [ofItems, List.mem_append]
    rcases List.mem_cons.mp hitem with rfl | hitem
    · exact Or.inl h
    · exact Or.inr (ih hitem)

theorem mem_ofItems_of_declaresFile {items : List Item} {around : InlineModules}
    {attributes : ModuleAttributes} {name : Ident} (h : DeclaresFile items around attributes name) :
    ∀ (module : List String) (directory base : String),
      ofDeclaration (module ++ around.names) (around.directory directory)
          (if around.isEmpty then base else around.directory directory) attributes name ∈
        ofItems module directory base items := by
  induction h with
  | here hmem =>
    intro module directory base
    refine mem_ofItems_of_mem hmem ?_
    simp [ofItem, InlineModules.names, InlineModules.directory]
  | @inside items inner outer attributes module' name parts around hmem _ ih =>
    intro module directory base
    refine mem_ofItems_of_mem hmem ?_
    rw [ofItem]
    have hinner := ih (module ++ [module'.text])
      (PathText.join directory (outer.path.getD module'.text))
      (PathText.join directory (outer.path.getD module'.text))
    cases around <;> simpa [InlineModules.names, InlineModules.directory] using hinner

/-- **The declarations of a file** are those that stand at its top level or in modules in braces. -/
theorem mem_ofUnit_iff {u : SourceUnit} {ownsDirectory : Bool} {declared : ModuleFile} :
    declared ∈ ofUnit u ownsDirectory ↔
      ∃ around attributes name, DeclaresFile u.file.items around attributes name ∧
        declared = u.moduleFile ownsDirectory around attributes name := by
  constructor
  · exact fun h => exists_declaresFile_of_mem_ofItems h
  · rintro ⟨around, attributes, name, h, rfl⟩
    exact mem_ofItems_of_declaresFile h u.module (u.moduleDirectory ownsDirectory) u.directory

end ModuleFile

/-! ### Steps that succeed -/

theorem FileTree.exists_of_isFile {t : FileTree} {path : String} (h : t.isFile path = true) :
    ∃ place bytes, (place, bytes) ∈ t.files ∧ t.canonical path = "/" :: place := by
  unfold isFile at h
  split at h
  · next place hplace =>
    obtain ⟨bytes, hbytes⟩ := Option.isSome_iff_exists.mp h
    obtain ⟨before, after, heq, -⟩ := List.lookup_eq_some_iff.mp hbytes
    refine ⟨place, bytes, heq ▸ by simp, ?_⟩
    rw [canonical, hplace]
  · cases h

theorem FileTree.isFile_of_readText {t : FileTree} {path text : String}
    (h : t.readText path = .ok text) : t.isFile path = true := by
  unfold readText at h
  unfold isFile
  split at h
  · cases h
  · next place hplace =>
    rw [hplace]
    split at h
    · cases h
    · next bytes hbytes => simp [hbytes]

/-- A file of a program holds what its text says. -/
def SourceUnit.IsRead (t : FileTree) (u : SourceUnit) : Prop :=
  ∃ text, t.readText u.path = .ok text ∧ SourceFile.parse text = .ok u.file

theorem SourceUnit.ofText_ok {crate path text : String} {module : List String} {u : SourceUnit}
    (h : ofText crate module path text = .ok u) :
    ∃ file, SourceFile.parse text = .ok file ∧ u = ⟨crate, module, path, file⟩ := by
  unfold ofText at h
  split at h
  · next file hfile =>
    cases h
    exact ⟨file, hfile, rfl⟩
  · cases h

namespace Reader

variable {t : FileTree} {crate path : String} {module : List String} {ownsDirectory : Bool}
  {depth : Nat} {r r' : Reader}

theorem outcome_bind_ok {α β : Type} {first : Step α} {next : α → Step β} {b : β}
    (h : Step.outcome (first >>= next) r = (.ok b, r')) :
    ∃ a between, Step.outcome first r = (.ok a, between) ∧
      Step.outcome (next a) between = (.ok b, r') := by
  rw [outcome_bind] at h
  split at h
  · next a between hfirst => exact ⟨a, between, hfirst, h⟩
  · cases h

theorem outcome_forM_cons_ok {α : Type} {step : α → Step Unit} {a : α} {rest : List α}
    (h : Step.outcome ((a :: rest).forM step) r = (.ok (), r')) :
    ∃ between, Step.outcome (step a) r = (.ok (), between) ∧
      Step.outcome (rest.forM step) between = (.ok (), r') := by
  have hcons : (a :: rest).forM step = step a >>= fun _ => rest.forM step := rfl
  rw [hcons] at h
  obtain ⟨_, between, hfirst, hrest⟩ := outcome_bind_ok h
  exact ⟨between, hfirst, hrest⟩

theorem readUnit_ok {found : SourceUnit}
    (h : Step.outcome (readUnit t crate module path) r = (.ok found, r')) :
    found.crate = crate ∧ found.module = module ∧ found.path = path ∧ found.IsRead t ∧
      r' = { r with units := r.units ++ [found] } := by
  unfold readUnit at h
  split at h
  · cases h
  · next text htext =>
    split at h
    · cases h
    · next read hread =>
      cases h
      obtain ⟨file, hfile, rfl⟩ := SourceUnit.ofText_ok hread
      exact ⟨rfl, rfl, rfl, ⟨text, htext, hfile⟩, rfl⟩

/-- A module is read if its file has been reached before, or if it can be read now, and what it
declares as well. -/
theorem readModule_ok
    (h : Step.outcome (readModule t crate (depth + 1) module path ownsDirectory) r = (.ok (), r')) :
    (crate, t.canonical path) ∈ r.seen ∧ r' = r ∨
      (crate, t.canonical path) ∉ r.seen ∧ ∃ found : SourceUnit,
        found.crate = crate ∧ found.module = module ∧ found.path = path ∧ found.IsRead t ∧
        Step.outcome ((ModuleFile.ofUnit found ownsDirectory).forM (readDeclared t crate depth path))
          ⟨r.units ++ [found], (crate, t.canonical path) :: r.seen⟩ = (.ok (), r') := by
  rw [readModule_outcome] at h
  split at h
  · next hseen =>
    cases h
    exact Or.inl ⟨by simpa using hseen, rfl⟩
  · next hseen =>
    split at h
    · next found between hfound =>
      obtain ⟨hcrate, hmodule, hpath, hread, rfl⟩ := readUnit_ok hfound
      exact Or.inr ⟨by simpa using hseen, found, hcrate, hmodule, hpath, hread, h⟩
    · cases h

theorem readDeclared_ok {declared : ModuleFile}
    (h : Step.outcome (readDeclared t crate depth path declared) r = (.ok (), r')) :
    (∃ file, declared.candidates.find? t.isFile = some file ∧
      Step.outcome (readModule t crate depth declared.module file
        (declared.explicit || PathText.fileName? file == some "mod.rs")) r = (.ok (), r')) ∨
      declared.candidates.find? t.isFile = none ∧ declared.gated = true ∧ r' = r := by
  unfold readDeclared at h
  split at h
  · next file hfile => exact Or.inl ⟨file, hfile, h⟩
  · next hnone =>
    split at h
    · next hgated =>
      cases h
      exact Or.inr ⟨hnone, hgated, rfl⟩
    · cases h

/-! ### Files that are left -/

/-- The number of files that have not been reached for a crate. -/
def unreached (t : FileTree) (crate : String) (r : Reader) : Nat :=
  t.files.countP fun file => !r.seen.contains (crate, "/" :: file.1)

theorem unreached_le_length (t : FileTree) (crate : String) (r : Reader) :
    unreached t crate r ≤ t.files.length :=
  List.countP_le_length

theorem unreached_mono (h : r.seen ⊆ r'.seen) : unreached t crate r' ≤ unreached t crate r := by
  refine List.countP_mono_left fun file _ hfile => ?_
  simp only [Bool.not_eq_true', List.contains_eq_mem, decide_eq_false_iff_not] at hfile ⊢
  exact fun hseen => hfile (h hseen)

theorem countP_lt_countP {α : Type} {p q : α → Bool} {l : List α} (h : ∀ a ∈ l, p a → q a) {a : α}
    (ha : a ∈ l) (hq : q a = true) (hp : p a = false) : l.countP p < l.countP q := by
  obtain ⟨before, after, rfl⟩ := List.append_of_mem ha
  have hbefore : before.countP p ≤ before.countP q :=
    List.countP_mono_left fun b hb => h b (List.mem_append_left _ hb)
  have hafter : after.countP p ≤ after.countP q :=
    List.countP_mono_left fun b hb => h b (List.mem_append_right _ (List.mem_cons_of_mem _ hb))
  simp only [List.countP_append, List.countP_cons, hp, hq, if_true, Bool.false_eq_true, if_false]
  omega

/-- Reaching a further file leaves one less. -/
theorem unreached_lt (hfile : t.isFile path = true) (hseen : (crate, t.canonical path) ∉ r.seen)
    (units : List SourceUnit) :
    unreached t crate ⟨units, (crate, t.canonical path) :: r.seen⟩ < unreached t crate r := by
  obtain ⟨place, bytes, hmem, hplace⟩ := FileTree.exists_of_isFile hfile
  rw [hplace] at hseen ⊢
  refine countP_lt_countP (fun file _ h => ?_) hmem ?_ ?_
  · simp only [Bool.not_eq_true', List.contains_eq_mem, decide_eq_false_iff_not] at h ⊢
    exact fun hfile => h (List.mem_cons_of_mem _ hfile)
  · simpa using hseen
  · simp

/-! ### What has been read -/

/-- What identifies a file of a crate. -/
def key (t : FileTree) (u : SourceUnit) : String × List String :=
  (u.crate, t.canonical u.path)

/-- How a file came to be read behind others: it is the root of a crate, or the first candidate of a
declaration in one of them. Each file goes with whether its modules lie next to it. -/
inductive Origin (t : FileTree) (roots : List (String × String))
    (before : List (SourceUnit × Bool)) (u : SourceUnit) : Bool → Prop where
  | root : (u.crate, u.path) ∈ roots → u.module = [u.crate] → Origin t roots before u true
  | declared {v : SourceUnit} {ownsDirectory : Bool} {declared : ModuleFile} :
    (v, ownsDirectory) ∈ before → v.crate = u.crate →
      declared ∈ ModuleFile.ofUnit v ownsDirectory →
      declared.candidates.find? t.isFile = some u.path → u.module = declared.module →
      Origin t roots before u (declared.explicit || PathText.fileName? u.path == some "mod.rs")

/-- The files of a reader, with what is known of them at any moment. -/
structure Log (t : FileTree) (roots : List (String × String)) (r : Reader)
    (files : List (SourceUnit × Bool)) : Prop where
  /-- They are the files that have been read. -/
  units : files.map Prod.fst = r.units
  /-- What has been reached has been read. -/
  seen : r.seen = (r.units.map (key t)).reverse
  /-- No file has been read twice for a crate. -/
  distinct : (r.units.map (key t)).Nodup
  /-- They hold what their texts say. -/
  read : ∀ u ∈ r.units, u.IsRead t
  /-- Each has an origin among those before it. -/
  origin : ∀ before u ownsDirectory after, files = before ++ (u, ownsDirectory) :: after →
    Origin t roots before u ownsDirectory

variable {roots : List (String × String)} {files : List (SourceUnit × Bool)}

theorem Log.empty : Log t roots empty [] where
  units := rfl
  seen := rfl
  distinct := List.nodup_nil
  read := by simp [Reader.empty]
  origin := by simp

theorem Log.mem_seen_iff (h : Log t roots r files) {place : List String} :
    (crate, place) ∈ r.seen ↔ ∃ u ∈ r.units, u.crate = crate ∧ t.canonical u.path = place := by
  rw [h.seen]
  simp [key]

/-- A file with an origin is added. -/
theorem Log.add (h : Log t roots r files) {u : SourceUnit} (hseen : key t u ∉ r.seen)
    (hread : u.IsRead t) (horigin : Origin t roots files u ownsDirectory) :
    Log t roots ⟨r.units ++ [u], key t u :: r.seen⟩ (files ++ [(u, ownsDirectory)]) where
  units := by simp [h.units]
  seen := by simp [h.seen]
  distinct := by
    have hfresh : key t u ∉ r.units.map (key t) := by
      intro hmem
      exact hseen (h.seen ▸ List.mem_reverse.mpr hmem)
    rw [List.map_append, List.nodup_append]
    refine ⟨h.distinct, by simp, ?_⟩
    rintro k hk _ hlast rfl
    exact hfresh (List.mem_singleton.mp hlast ▸ hk)
  read := by
    intro v hv
    rcases List.mem_append.mp hv with hv | hv
    · exact h.read v hv
    · exact List.mem_singleton.mp hv ▸ hread
  origin := by
    intro before v owns after heq
    rcases List.eq_nil_or_concat after with rfl | ⟨after, last, rfl⟩
    · obtain ⟨rfl, hlast⟩ := List.append_inj' heq rfl
      cases hlast
      exact horigin
    · have hinit : files ++ [(u, ownsDirectory)] = (before ++ (v, owns) :: after) ++ [last] := by
        simpa using heq
      exact h.origin before v owns after (List.append_inj' hinit rfl).1

/-- A declaration has been dealt with: its file has been reached, or it needs none. -/
def Settled (t : FileTree) (r : Reader) (crate : String) (declared : ModuleFile) : Prop :=
  (∃ file, declared.candidates.find? t.isFile = some file ∧ (crate, t.canonical file) ∈ r.seen) ∨
    declared.candidates.find? t.isFile = none ∧ declared.gated = true

theorem Settled.mono {declared : ModuleFile} (h : Settled t r crate declared)
    (hseen : r.seen ⊆ r'.seen) : Settled t r' crate declared := by
  rcases h with ⟨file, hfile, hmem⟩ | hnone
  · exact Or.inl ⟨file, hfile, hseen hmem⟩
  · exact Or.inr hnone

/-- What a run does that starts at a reader with some files: it adds files, and settles all that they
declare. -/
structure Advances (t : FileTree) (roots : List (String × String)) (r r' : Reader)
    (files added : List (SourceUnit × Bool)) : Prop where
  /-- The files that are known behind the run. -/
  log : Log t roots r' (files ++ added)
  /-- What had been reached still has. -/
  seen : r.seen ⊆ r'.seen
  /-- Nothing that the added files declare is left open. -/
  settled : ∀ x ∈ added, ∀ declared ∈ ModuleFile.ofUnit x.1 x.2, Settled t r' x.1.crate declared

theorem Advances.refl (h : Log t roots r files) : Advances t roots r r files [] :=
  ⟨by simpa using h, List.Subset.refl _, by simp⟩

theorem Advances.trans {between : Reader} {first second : List (SourceUnit × Bool)}
    (h : Advances t roots r between files first)
    (h' : Advances t roots between r' (files ++ first) second) :
    Advances t roots r r' files (first ++ second) where
  log := by simpa using h'.log
  seen := List.Subset.trans h.seen h'.seen
  settled := by
    intro x hx declared hdeclared
    rcases List.mem_append.mp hx with hx | hx
    · exact (h.settled x hx declared hdeclared).mono h'.seen
    · exact h'.settled x hx declared hdeclared

/-- One step after the other, as long as each advances. `Before` is what a step asks for and `Goal` is
what it is for; neither is undone by other steps. -/
theorem forM_advances {α : Type} {step : α → Step Unit}
    (Before : Reader → List (SourceUnit × Bool) → α → Prop) (Goal : Reader → α → Prop)
    (hbefore : ∀ r r' files added a, Before r files a → r.seen ⊆ r'.seen →
      Before r' (files ++ added) a)
    (hgoal : ∀ r r' a, Goal r a → r.seen ⊆ r'.seen → Goal r' a)
    (hstep : ∀ r r' files a, Log t roots r files → Before r files a →
      Step.outcome (step a) r = (.ok (), r') →
      (∃ added, Advances t roots r r' files added) ∧ Goal r' a)
    (as : List α) : ∀ r r' files, Log t roots r files → (∀ a ∈ as, Before r files a) →
      Step.outcome (as.forM step) r = (.ok (), r') →
      (∃ added, Advances t roots r r' files added) ∧ ∀ a ∈ as, Goal r' a := by
  induction as with
  | nil =>
    intro r r' files hlog _ h
    cases h
    exact ⟨⟨[], .refl hlog⟩, by simp⟩
  | cons a rest ih =>
    intro r r' files hlog has h
    obtain ⟨ha, hrest⟩ := List.forall_mem_cons.mp has
    obtain ⟨between, hfirst, h⟩ := outcome_forM_cons_ok h
    obtain ⟨⟨first, hadvance⟩, hdone⟩ := hstep r between files a hlog ha hfirst
    have hask : ∀ b ∈ rest, Before between (files ++ first) b :=
      fun b hb => hbefore r between files first b (hrest b hb) hadvance.seen
    obtain ⟨⟨second, hadvance'⟩, hall⟩ := ih between r' (files ++ first) hadvance.log hask h
    have hkept : Goal r' a := hgoal between r' a hdone hadvance'.seen
    exact ⟨⟨first ++ second, hadvance.trans hadvance'⟩, List.forall_mem_cons.mpr ⟨hkept, hall⟩⟩

/-- **Reading a module.** Let a module be read that is the root of a crate or declared in a file that
has been read, and let the depth exceed the number of files that are left. If this succeeds, its file
has been reached, and all declarations of the files that were added are settled. -/
theorem readModule_advances (t : FileTree) (roots : List (String × String)) (crate : String)
    (depth : Nat) : ∀ (module : List String) (path : String) (ownsDirectory : Bool) (r r' : Reader)
      (files : List (SourceUnit × Bool)), Log t roots r files → unreached t crate r < depth →
      (∀ u : SourceUnit, u.crate = crate → u.module = module → u.path = path →
        Origin t roots files u ownsDirectory) →
      Step.outcome (readModule t crate depth module path ownsDirectory) r = (.ok (), r') →
      (∃ added, Advances t roots r r' files added) ∧ (crate, t.canonical path) ∈ r'.seen := by
  induction depth with
  | zero =>
    intro _ _ _ r _ _ _ hleft
    omega
  | succ depth ih =>
    intro module path ownsDirectory r r' files hlog hleft horigin h
    rcases readModule_ok h with ⟨hseen, rfl⟩ | ⟨hseen, found, rfl, rfl, rfl, hread, h⟩
    · exact ⟨⟨[], .refl hlog⟩, hseen⟩
    -- the file is added, and then its declarations are read one by one
    have hlog' := hlog.add hseen hread (horigin found rfl rfl rfl)
    have hfile : t.isFile found.path = true := by
      obtain ⟨text, htext, -⟩ := hread
      exact FileTree.isFile_of_readText htext
    have hleft' : unreached t found.crate ⟨r.units ++ [found], key t found :: r.seen⟩ < depth := by
      have hless := unreached_lt hfile hseen (r.units ++ [found])
      exact Nat.lt_of_lt_of_le hless (Nat.le_of_lt_succ hleft)
    have hall := forM_advances
      (fun r files declared => unreached t found.crate r < depth ∧
        (found, ownsDirectory) ∈ files ∧ declared ∈ ModuleFile.ofUnit found ownsDirectory)
      (fun r declared => Settled t r found.crate declared)
      (fun r r' files added declared hask hseen =>
        ⟨Nat.lt_of_le_of_lt (unreached_mono hseen) hask.1, List.mem_append_left _ hask.2.1,
          hask.2.2⟩)
      (fun r r' declared hsettled hseen => hsettled.mono hseen)
      ?_ _ _ _ _ hlog'
      (fun declared hdeclared => ⟨hleft', List.mem_append_right _ List.mem_cons_self, hdeclared⟩) h
    · obtain ⟨⟨added, hadvance⟩, hsettled⟩ := hall
      have hkey : key t found ∈ r'.seen := hadvance.seen List.mem_cons_self
      refine ⟨⟨(found, ownsDirectory) :: added, ?_, ?_, ?_⟩, hkey⟩
      · simpa using hadvance.log
      · exact List.Subset.trans (List.subset_cons_self _ _) hadvance.seen
      · exact List.forall_mem_cons.mpr ⟨hsettled, hadvance.settled⟩
    · intro r r' files declared hlog hask h
      obtain ⟨hleft, hmem, hdeclared⟩ := hask
      rcases readDeclared_ok h with ⟨file, hfile, h⟩ | ⟨hnone, hgated, rfl⟩
      · have hdone := ih declared.module file _ r r' files hlog hleft ?_ h
        · exact ⟨hdone.1, Or.inl ⟨file, hfile, hdone.2⟩⟩
        · rintro u hcrate hmodule rfl
          exact .declared hmem hcrate.symm hdeclared hfile hmodule
      · exact ⟨⟨[], .refl hlog⟩, Or.inr ⟨hnone, hgated⟩⟩

/-- Reading crates from the start: every root is reached, and nothing is left open. -/
theorem readCrates_advances (t : FileTree) (roots : List (String × String)) (reader : Reader)
    (hread : StateT.run (ExceptT.run (roots.forM fun x => readCrate t x.1 x.2)) empty =
      (.ok (), reader)) :
    ∃ files, Advances t roots empty reader [] files ∧
      ∀ x ∈ roots, (x.1, t.canonical x.2) ∈ reader.seen := by
  have hstep : ∀ r r' files x, Log t roots r files → x ∈ roots →
      Step.outcome (readCrate t x.1 x.2) r = (.ok (), r') →
      (∃ added, Advances t roots r r' files added) ∧ (x.1, t.canonical x.2) ∈ r'.seen := by
    intro r r' files x hlog hx h
    refine readModule_advances t roots x.1 _ [x.1] x.2 true r r' files hlog ?_ ?_ h
    · have hle := unreached_le_length t x.1 r
      omega
    · intro u hcrate hmodule hpath
      refine .root ?_ (hcrate ▸ hmodule)
      rwa [hcrate, hpath]
  obtain ⟨⟨files, hadvance⟩, hroots⟩ := forM_advances (fun _ _ x => x ∈ roots)
    (fun r x => (x.1, t.canonical x.2) ∈ r.seen) (fun _ _ _ _ _ hx _ => hx)
    (fun _ _ _ hx hseen => hseen hx) hstep roots _ _ _ .empty (fun x hx => hx) hread
  exact ⟨files, hadvance, hroots⟩

/-- **Reading crates completely.** Let crates be read one after the other from their roots, without an
error. Then

* the file of every root has been read;
* no file has been read twice for a crate, and all hold what their texts say;
* for each declaration of a module file in a file, at its top level or in modules in braces, the first
  candidate that is a file has been read for the crate, or there is none, and the declaration has an
  attribute that allows for this;
* each file is a root, or the first candidate of a declaration in a file before it, and its module is
  the one that is declared there.

Each file goes with whether the modules that it declares lie next to it: so they do for a root, for a
file that is given by a path and for a `mod.rs`. -/
theorem readCrates_complete (t : FileTree) (roots : List (String × String)) (reader : Reader)
    (hread : StateT.run (ExceptT.run (roots.forM fun x => readCrate t x.1 x.2)) empty =
      (.ok (), reader)) :
    (∀ x ∈ roots, ∃ u ∈ reader.units, u.crate = x.1 ∧ t.canonical u.path = t.canonical x.2) ∧
    (reader.units.map fun u => (u.crate, t.canonical u.path)).Nodup ∧
    (∀ u ∈ reader.units, u.IsRead t) ∧
    ∃ files : List (SourceUnit × Bool), files.map Prod.fst = reader.units ∧
      (∀ u ownsDirectory, (u, ownsDirectory) ∈ files → ∀ around attributes name,
        DeclaresFile u.file.items around attributes name →
        let candidates := (u.moduleFile ownsDirectory around attributes name).candidates
        (∃ file, candidates.find? t.isFile = some file ∧
          ∃ v ∈ reader.units, v.crate = u.crate ∧ t.canonical v.path = t.canonical file) ∨
        (∀ file ∈ candidates, t.isFile file = false) ∧ attributes.gated = true) ∧
      ∀ before u ownsDirectory after, files = before ++ (u, ownsDirectory) :: after →
        (u.crate, u.path) ∈ roots ∧ u.module = [u.crate] ∧ ownsDirectory = true ∨
        ∃ v owns, (v, owns) ∈ before ∧ v.crate = u.crate ∧ ∃ around attributes name,
          DeclaresFile v.file.items around attributes name ∧
          (v.moduleFile owns around attributes name).candidates.find? t.isFile = some u.path ∧
          u.module = v.module ++ around.names ++ [name.text] ∧
          ownsDirectory =
            (attributes.path.isSome || PathText.fileName? u.path == some "mod.rs") := by
  obtain ⟨files, hadvance, hroots⟩ := readCrates_advances t roots reader hread
  have hlog : Log t roots reader files := hadvance.log
  refine ⟨fun x hx => hlog.mem_seen_iff.mp (hroots x hx), hlog.distinct, hlog.read, files, hlog.units,
    ?_, ?_⟩
  · intro u ownsDirectory hu around attributes name hdeclares
    have hdeclared : u.moduleFile ownsDirectory around attributes name ∈
        ModuleFile.ofUnit u ownsDirectory :=
      ModuleFile.mem_ofUnit_iff.mpr ⟨around, attributes, name, hdeclares, rfl⟩
    rcases hadvance.settled _ hu _ hdeclared with ⟨file, hfile, hmem⟩ | ⟨hnone, hgated⟩
    · exact Or.inl ⟨file, hfile, hlog.mem_seen_iff.mp hmem⟩
    · exact Or.inr ⟨by simpa using hnone, hgated⟩
  · intro before u ownsDirectory after heq
    cases hlog.origin before u ownsDirectory after heq with
    | root hroot hmodule => exact Or.inl ⟨hroot, hmodule, rfl⟩
    | declared hmem hcrate hdeclared hfile hmodule =>
      obtain ⟨around, attributes, name, hdeclares, rfl⟩ := ModuleFile.mem_ofUnit_iff.mp hdeclared
      exact Or.inr ⟨_, _, hmem, hcrate, around, attributes, name, hdeclares, hfile, hmodule, rfl⟩

/-! ### A circle of declarations -/

namespace Circle

/-- `src/lib.rs` declares itself, a module in braces with a file of its own, and a module that may be
missing. -/
def tree : FileTree where
  directory := ["w"]
  files :=
    [(["w", "src", "lib.rs"], "mod lib;mod on \x7bmod deep;\x7d#[cfg(x)]mod win;".toUTF8),
      (["w", "src", "on", "deep.rs"], "".toUTF8)]
  directories := []

/-- The crate, read from its root. -/
def reading : Except LoadError Unit × Reader :=
  StateT.run (ExceptT.run ([("demo", "src/lib.rs")].forM fun x => readCrate tree x.1 x.2)) empty

theorem reading_shown : reading.1.toOption = some () ∧
    (reading.2.units.map fun u => (u.moduleKey, u.path)) =
      [("demo", "src/lib.rs"), ("demo::on::deep", "src/on/deep.rs")] := by
  decide +kernel

theorem reading_eq : reading = (.ok (), reading.2) := by
  have hok := reading_shown.1
  rcases hreading : reading with ⟨_ | _, reader⟩
  · simp [hreading, Except.toOption] at hok
  · rfl

end Circle

theorem readCrates_complete_circle :
    Circle.reading = (.ok (), Circle.reading.2) ∧
      (Circle.reading.2.units.map fun u => (u.moduleKey, u.path)) =
        [("demo", "src/lib.rs"), ("demo::on::deep", "src/on/deep.rs")] ∧
      (Circle.reading.2.units.map fun u => (u.crate, Circle.tree.canonical u.path)).Nodup ∧
      ∃ files : List (SourceUnit × Bool), files.map Prod.fst = Circle.reading.2.units ∧
        ∀ before u ownsDirectory after, files = before ++ (u, ownsDirectory) :: after →
          u.path ≠ "src/lib.rs" → ∃ v owns, (v, owns) ∈ before ∧ v.crate = u.crate := by
  obtain ⟨-, hdistinct, -, files, hfiles, -, horigin⟩ := readCrates_complete Circle.tree
    [("demo", "src/lib.rs")] Circle.reading.2 Circle.reading_eq
  refine ⟨Circle.reading_eq, Circle.reading_shown.2, hdistinct, files, hfiles, ?_⟩
  intro before u ownsDirectory after heq hpath
  rcases horigin before u ownsDirectory after heq with ⟨hroot, -⟩ | ⟨v, owns, hmem, hcrate, -⟩
  · exact absurd (congrArg Prod.snd (List.mem_singleton.mp hroot)) hpath
  · exact ⟨v, owns, hmem, hcrate⟩

end Reader

/-! ### Programs -/

namespace Program

variable {t : FileTree} {workspace : Option Workspace} {p : Program}

theorem ofPackages_ok {pattern : String} {packages : List Package}
    (h : ofPackages t pattern packages = .ok p) :
    ∃ reader : Reader,
      StateT.run (ExceptT.run ((crates packages).forM fun x => Reader.readCrate t x.1 x.2))
        Reader.empty = (.ok (), reader) ∧
      p.units = reader.units ∧ p.externs = localNames packages := by
  unfold ofPackages at h
  simp only at h
  split at h
  · cases h
  · next reader hreading =>
    split at h
    · cases h
    · cases h
      exact ⟨reader, hreading, rfl, rfl⟩

theorem ofPattern_ok {pattern : String} (h : ofPattern t workspace pattern = .ok p) :
    ∃ w, workspace = some w ∧
      ofPackages t pattern (w.select t (Selection.ofPattern pattern)) = .ok p := by
  unfold ofPattern at h
  simp only at h
  split at h
  · cases h
  · next w =>
    refine ⟨w, rfl, ?_⟩
    split at h
    · cases h
    · split at h
      · cases h
      · exact h

theorem isRead_of_ofFile {path : String} (h : ofFile t path = .ok p) : ∀ u ∈ p.units, u.IsRead t := by
  unfold ofFile at h
  split at h
  · cases h
  · next text htext =>
    rcases hunit : SourceUnit.ofText (CrateName.ofFile path) [CrateName.ofFile path] path text with
      e | unit
    · simp [hunit, bind, Except.bind] at h
    · simp only [hunit, bind, Except.bind, pure, Except.pure, Except.ok.injEq] at h
      subst h
      intro u hu
      rw [List.mem_singleton.mp hu]
      obtain ⟨file, hfile, rfl⟩ := SourceUnit.ofText_ok hunit
      exact ⟨text, htext, hfile⟩

/-- **A program is loaded** only if all of its files have been read and parsed. -/
theorem isRead_of_load {target : String} (h : load t workspace target = .ok p) :
    ∀ u ∈ p.units, u.IsRead t := by
  unfold load at h
  split at h
  · exact isRead_of_ofFile h
  · obtain ⟨w, -, hpackages⟩ := ofPattern_ok h
    obtain ⟨reader, hreading, hunits, -⟩ := ofPackages_ok hpackages
    obtain ⟨files, hadvance, -⟩ := Reader.readCrates_advances t _ reader hreading
    exact hunits ▸ hadvance.log.read

end Program

end CallAtlas
