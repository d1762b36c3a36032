import CallAtlas.Proofs.CompleteReading

/-!
# Reading comes to an end

A reader is given a depth that it does not exceed. The depth is no part of what reading a module is:
the file is read, and then, one after the other, the modules that it declares. Declarations may form
circles, and the paths on a circle may grow without end, as `x/../lib.rs` and `x/../x/../lib.rs` do.
So nothing that can be seen of a path shows that this comes to an end.

Here reading is told without a depth, by the rules `Reader.Reads`, which may be applied any finite
number of times, and by `Reader.Calls`, which says what reading a module calls for while it lasts. A
module calls for others only if its own file is there and had not been reached. So each call finds
fewer files that are left than the call that made it, whatever the paths are. A path that leads nowhere
counts as reached by its text, but it cannot be read, and it calls for nothing.

## Main definitions

* `Reader.Call` — a module that is to be read, and the reader at that moment.
* `Reader.Reads`, `Reader.ReadsAll` — what comes of a call, and of the declarations of a file.
* `Reader.Calls` — the calls that a call makes.

## Main results

* `Reader.Reads.unique` — no more than one thing comes of a call.
* `Reader.reads_readModule` — at a depth that exceeds the number of files left, the reader finds it.
* `Reader.readModule_ends` — every call comes to an end.
-/

namespace CallAtlas

namespace Reader

/-- A module that is to be read, and the reader at that moment. -/
structure Call where
  /-- The path of the module. -/
  module : List String
  /-- Its file. -/
  path : String
  /-- Do the modules that it declares lie next to its file? -/
  ownsDirectory : Bool
  /-- What has been read before. -/
  reader : Reader

namespace Call

/-- The call for a declaration whose file has been found. -/
def ofDeclared (declared : ModuleFile) (file : String) (r : Reader) : Call :=
  ⟨declared.module, file, declared.explicit || PathText.fileName? file == some "mod.rs", r⟩

/-- The reader once the file of the module counts as reached. -/
def marked (t : FileTree) (crate : String) (c : Call) : Reader :=
  { c.reader with seen := (crate, t.canonical c.path) :: c.reader.seen }

/-- Reading the file of the module, which counts as reached. -/
def unitOutcome (t : FileTree) (crate : String) (c : Call) : Except LoadError SourceUnit × Reader :=
  Step.outcome (readUnit t crate c.module c.path) (c.marked t crate)

/-- What the reader makes of the call, down to a depth. -/
def outcome (t : FileTree) (crate : String) (depth : Nat) (c : Call) :
    Except LoadError Unit × Reader :=
  Step.outcome (readModule t crate depth c.module c.path c.ownsDirectory) c.reader

end Call

/-! ### Rules for reading -/

mutual

/-- What comes of a call: whether there is an error, and the reader behind it. -/
inductive Reads (t : FileTree) (crate : String) : Call → Except LoadError Unit × Reader → Prop where
  /-- The file has been reached before. -/
  | reached {c : Call} :
    (crate, t.canonical c.path) ∈ c.reader.seen → Reads t crate c (.ok (), c.reader)
  /-- The file cannot be read. -/
  | unreadable {c : Call} {e : LoadError} {r : Reader} :
    (crate, t.canonical c.path) ∉ c.reader.seen → c.unitOutcome t crate = (.error e, r) →
      Reads t crate c (.error e, r)
  /-- The file is read, and what it declares. -/
  | read {c : Call} {found : SourceUnit} {r : Reader} {x : Except LoadError Unit × Reader} :
    (crate, t.canonical c.path) ∉ c.reader.seen → c.unitOutcome t crate = (.ok found, r) →
      ReadsAll t crate c.path r (ModuleFile.ofUnit found c.ownsDirectory) x → Reads t crate c x

/-- What comes of some declarations of a file, one after the other. -/
inductive ReadsAll (t : FileTree) (crate : String) :
    String → Reader → List ModuleFile → Except LoadError Unit × Reader → Prop where
  | nil {path : String} {r : Reader} : ReadsAll t crate path r [] (.ok (), r)
  /-- The module is read, and then the others are. -/
  | cons {path file : String} {r between : Reader} {declared : ModuleFile} {rest : List ModuleFile}
      {x : Except LoadError Unit × Reader} :
    declared.candidates.find? t.isFile = some file →
      Reads t crate (.ofDeclared declared file r) (.ok (), between) →
      ReadsAll t crate path between rest x → ReadsAll t crate path r (declared :: rest) x
  /-- The module cannot be read. -/
  | failed {path file : String} {r between : Reader} {declared : ModuleFile}
      {rest : List ModuleFile} {e : LoadError} :
    declared.candidates.find? t.isFile = some file →
      Reads t crate (.ofDeclared declared file r) (.error e, between) →
      ReadsAll t crate path r (declared :: rest) (.error e, between)
  /-- There is no file, and there need not be one. -/
  | skipped {path : String} {r : Reader} {declared : ModuleFile} {rest : List ModuleFile}
      {x : Except LoadError Unit × Reader} :
    declared.candidates.find? t.isFile = none → declared.gated = true →
      ReadsAll t crate path r rest x → ReadsAll t crate path r (declared :: rest) x
  /-- There is no file, and there has to be one. -/
  | missing {path : String} {r : Reader} {declared : ModuleFile} {rest : List ModuleFile} :
    declared.candidates.find? t.isFile = none → declared.gated = false →
      ReadsAll t crate path r (declared :: rest)
        (.error (.moduleNotFound (modulePath declared.module) path), r)

end

/-- A call makes another one: the file of the first has been read, and so has what it declares in front
of the module that is to be read next. -/
inductive Calls (t : FileTree) (crate : String) (c : Call) : Call → Prop where
  | intro {found : SourceUnit} {r between : Reader} {before after : List ModuleFile}
      {declared : ModuleFile} {file : String} :
    (crate, t.canonical c.path) ∉ c.reader.seen → c.unitOutcome t crate = (.ok found, r) →
      ModuleFile.ofUnit found c.ownsDirectory = before ++ declared :: after →
      ReadsAll t crate c.path r before (.ok (), between) →
      declared.candidates.find? t.isFile = some file →
      Calls t crate c (.ofDeclared declared file between)

variable {t : FileTree} {crate : String} {c : Call}

/-! ### What has been reached and read stays so -/

theorem seen_of_unitOutcome {x : Except LoadError SourceUnit × Reader}
    (h : c.unitOutcome t crate = x) : x.2.seen = (crate, t.canonical c.path) :: c.reader.seen := by
  subst h
  rw [Call.unitOutcome]
  rcases readUnit_outcome t crate c.module c.path (c.marked t crate) with ⟨e, he⟩ | ⟨found, -, hfound⟩
  · rw [he]
    rfl
  · rw [hfound]
    rfl

theorem units_of_unitOutcome_error {e : LoadError} {r : Reader}
    (h : c.unitOutcome t crate = (.error e, r)) : r.units = c.reader.units := by
  rw [Call.unitOutcome] at h
  rcases readUnit_outcome t crate c.module c.path (c.marked t crate) with ⟨e', he'⟩ | ⟨found, -, hfound⟩
  · cases he'.symm.trans h
    rfl
  · cases hfound.symm.trans h

mutual

theorem Reads.seen_subset : ∀ {c : Call} {x : Except LoadError Unit × Reader}, Reads t crate c x →
    c.reader.seen ⊆ x.2.seen
  | _, _, .reached _ => List.Subset.refl _
  | _, _, .unreadable _ hunit => seen_of_unitOutcome hunit ▸ List.subset_cons_self _ _
  | c, _, .read (r := r) _ hunit hall => by
    have hmarked : c.reader.seen ⊆ r.seen := seen_of_unitOutcome hunit ▸ List.subset_cons_self _ _
    exact List.Subset.trans hmarked hall.seen_subset

theorem ReadsAll.seen_subset : ∀ {path : String} {r : Reader} {all : List ModuleFile}
    {x : Except LoadError Unit × Reader}, ReadsAll t crate path r all x → r.seen ⊆ x.2.seen
  | _, _, _, _, .nil => List.Subset.refl _
  | _, _, _, _, .cons _ hfirst hrest => List.Subset.trans hfirst.seen_subset hrest.seen_subset
  | _, _, _, _, .failed _ hfirst => hfirst.seen_subset
  | _, _, _, _, .skipped _ _ hrest => hrest.seen_subset
  | _, _, _, _, .missing _ _ => List.Subset.refl _

end

theorem Reads.mem_seen {x : Except LoadError Unit × Reader} (h : Reads t crate c x) :
    (crate, t.canonical c.path) ∈ x.2.seen := by
  cases h with
  | reached hseen => exact hseen
  | unreadable _ hunit =>
    rw [seen_of_unitOutcome hunit]
    exact List.mem_cons_self
  | read _ hunit hall =>
    refine hall.seen_subset ?_
    rw [seen_of_unitOutcome hunit]
    exact List.mem_cons_self

mutual

theorem Reads.units_isPrefix : ∀ {c : Call} {x : Except LoadError Unit × Reader}, Reads t crate c x →
    c.reader.units <+: x.2.units
  | _, _, .reached _ => List.prefix_rfl
  | _, _, .unreadable _ hunit => units_of_unitOutcome_error hunit ▸ List.prefix_rfl
  | c, _, .read (r := r) _ hunit hall => by
    have hread : c.reader.units <+: r.units := by
      obtain ⟨-, -, -, -, rfl⟩ := readUnit_ok hunit
      exact List.prefix_append _ _
    exact hread.trans hall.units_isPrefix

theorem ReadsAll.units_isPrefix : ∀ {path : String} {r : Reader} {all : List ModuleFile}
    {x : Except LoadError Unit × Reader}, ReadsAll t crate path r all x → r.units <+: x.2.units
  | _, _, _, _, .nil => List.prefix_rfl
  | _, _, _, _, .cons _ hfirst hrest => hfirst.units_isPrefix.trans hrest.units_isPrefix
  | _, _, _, _, .failed _ hfirst => hfirst.units_isPrefix
  | _, _, _, _, .skipped _ _ hrest => hrest.units_isPrefix
  | _, _, _, _, .missing _ _ => List.prefix_rfl

end

/-! ### One outcome at most -/

mutual

/-- No more than one thing comes of a call. -/
theorem Reads.unique : ∀ {c : Call} {x y : Except LoadError Unit × Reader}, Reads t crate c x →
    Reads t crate c y → x = y
  | _, _, _, .reached hseen, h => by
    cases h with
    | reached => rfl
    | unreadable hnot | read hnot => exact absurd hseen hnot
  | _, _, _, .unreadable hnot hunit, h => by
    cases h with
    | reached hseen => exact absurd hseen hnot
    | unreadable _ hunit' =>
      cases hunit.symm.trans hunit'
      rfl
    | read _ hunit' => cases hunit.symm.trans hunit'
  | _, _, _, .read hnot hunit hall, h => by
    cases h with
    | reached hseen => exact absurd hseen hnot
    | unreadable _ hunit' => cases hunit.symm.trans hunit'
    | read _ hunit' hall' =>
      cases hunit.symm.trans hunit'
      exact hall.unique hall'

theorem ReadsAll.unique : ∀ {path : String} {r : Reader} {all : List ModuleFile}
    {x y : Except LoadError Unit × Reader}, ReadsAll t crate path r all x →
      ReadsAll t crate path r all y → x = y
  | _, _, _, _, _, .nil, h => by
    cases h
    rfl
  | _, _, _, _, _, .cons hfile hfirst hrest, h => by
    cases h with
    | cons hfile' hfirst' hrest' =>
      cases hfile.symm.trans hfile'
      cases hfirst.unique hfirst'
      exact hrest.unique hrest'
    | failed hfile' hfirst' =>
      cases hfile.symm.trans hfile'
      cases hfirst.unique hfirst'
    | skipped hnone | missing hnone => cases hfile.symm.trans hnone
  | _, _, _, _, _, .failed hfile hfirst, h => by
    cases h with
    | cons hfile' hfirst' =>
      cases hfile.symm.trans hfile'
      cases hfirst.unique hfirst'
    | failed hfile' hfirst' =>
      cases hfile.symm.trans hfile'
      exact hfirst.unique hfirst'
    | skipped hnone | missing hnone => cases hfile.symm.trans hnone
  | _, _, _, _, _, .skipped hnone hgated hrest, h => by
    cases h with
    | cons hfile | failed hfile => cases hnone.symm.trans hfile
    | skipped _ _ hrest' => exact hrest.unique hrest'
    | missing _ hnot => cases hgated.symm.trans hnot
  | _, _, _, _, _, .missing hnone hnot, h => by
    cases h with
    | cons hfile | failed hfile => cases hnone.symm.trans hfile
    | skipped _ hgated => cases hgated.symm.trans hnot
    | missing => rfl

end

/-! ### Each call leaves less to read -/

/-- A file that has been read is there, and it is one that had been left. -/
theorem unreached_lt_of_unitOutcome {found : SourceUnit} {r : Reader}
    (hnot : (crate, t.canonical c.path) ∉ c.reader.seen)
    (hunit : c.unitOutcome t crate = (.ok found, r)) :
    t.isFile c.path = true ∧ unreached t crate r < unreached t crate c.reader := by
  obtain ⟨-, -, hpath, ⟨text, htext, -⟩, rfl⟩ := readUnit_ok hunit
  have hfile : t.isFile c.path = true := hpath ▸ FileTree.isFile_of_readText htext
  exact ⟨hfile, unreached_lt hfile hnot _⟩

/-- A call that makes another one is for a file that is there, and the other finds fewer files left. -/
theorem Calls.unreached_lt {c' : Call} (h : Calls t crate c c') :
    t.isFile c.path = true ∧ unreached t crate c'.reader < unreached t crate c.reader := by
  obtain ⟨hnot, hunit, -, hbefore, -⟩ := h
  obtain ⟨hfile, hless⟩ := unreached_lt_of_unitOutcome hnot hunit
  exact ⟨hfile, Nat.lt_of_le_of_lt (unreached_mono hbefore.seen_subset) hless⟩

theorem wellFounded_calls (t : FileTree) (crate : String) :
    WellFounded fun c' c : Call => Calls t crate c c' :=
  Subrelation.wf (fun h => h.unreached_lt.2) (measure fun c : Call => unreached t crate c.reader).wf

/-! ### The reader follows the rules -/

theorem outcome_readDeclared {depth : Nat} {path : String} {declared : ModuleFile} {file : String}
    (h : declared.candidates.find? t.isFile = some file) (r : Reader) :
    Step.outcome (readDeclared t crate depth path declared) r =
      (Call.ofDeclared declared file r).outcome t crate depth := by
  rw [readDeclared, h]
  rfl

/-- A reader that follows the rules for calls follows them for declarations. -/
theorem readsAll_forM {depth : Nat} {path : String}
    (hcalls : ∀ c : Call, unreached t crate c.reader < depth →
      Reads t crate c (c.outcome t crate depth)) :
    ∀ (all : List ModuleFile) (r : Reader), unreached t crate r < depth →
      ReadsAll t crate path r all (Step.outcome (all.forM (readDeclared t crate depth path)) r)
  | [], _, _ => .nil
  | declared :: rest, r, hleft => by
    have hcons : (declared :: rest).forM (readDeclared t crate depth path) =
        readDeclared t crate depth path declared >>= fun _ =>
          rest.forM (readDeclared t crate depth path) := rfl
    rw [hcons, outcome_bind]
    cases hfile : declared.candidates.find? t.isFile with
    | none =>
      rw [readDeclared, hfile]
      cases hgated : declared.gated with
      | true => exact .skipped hfile hgated (readsAll_forM hcalls rest r hleft)
      | false => exact .missing hfile hgated
    | some file =>
      have hfirst := hcalls (.ofDeclared declared file r) hleft
      rw [outcome_readDeclared hfile]
      rcases hread : (Call.ofDeclared declared file r).outcome t crate depth with ⟨e | _, between⟩
      · exact .failed hfile (hread ▸ hfirst)
      · rw [hread] at hfirst
        have hless : unreached t crate between < depth :=
          Nat.lt_of_le_of_lt (unreached_mono hfirst.seen_subset) hleft
        exact .cons hfile hfirst (readsAll_forM hcalls rest between hless)

/-- **The depth does not matter.** Where it exceeds the number of files that are left, what the reader
makes of a call is what comes of it by the rules. -/
theorem reads_readModule (depth : Nat) : ∀ c : Call, unreached t crate c.reader < depth →
    Reads t crate c (c.outcome t crate depth) := by
  induction depth with
  | zero =>
    intro c hleft
    omega
  | succ depth ih =>
    intro c hleft
    rw [Call.outcome, readModule_outcome]
    split
    · next hseen => exact .reached (by simpa using hseen)
    · next hseen =>
      have hnot : (crate, t.canonical c.path) ∉ c.reader.seen := by simpa using hseen
      split
      · next found r hunit =>
        have hless := (unreached_lt_of_unitOutcome hnot hunit).2
        exact .read hnot hunit (readsAll_forM ih _ r (by omega))
      · next e r hunit => exact .unreadable hnot hunit

theorem reads_readCrate (t : FileTree) (crate root : String) (r : Reader) :
    Reads t crate ⟨[crate], root, true, r⟩ (Step.outcome (readCrate t crate root) r) :=
  reads_readModule (t.files.length + 1) ⟨[crate], root, true, r⟩
    (Nat.lt_succ_of_le (unreached_le_length t crate r))

/-- **Reading comes to an end**, for every file tree, every crate, and every module, file and reader
that it may start with.

* Of every call there comes one thing by the rules, in finitely many steps. The reader finds it at any
  depth that exceeds the number of files left, and it reads crates from their roots in this way.
* A call makes others only if its file is there, and each of them finds fewer files left than the call
  itself. So there is no endless sequence of calls, one made by the other. -/
theorem readModule_ends (t : FileTree) (crate : String) :
    (∀ c : Call, ∃ x, Reads t crate c x ∧ (∀ y, Reads t crate c y → y = x) ∧
      ∀ depth, unreached t crate c.reader < depth →
        Step.outcome (readModule t crate depth c.module c.path c.ownsDirectory) c.reader = x) ∧
    (∀ root r, Reads t crate ⟨[crate], root, true, r⟩ (Step.outcome (readCrate t crate root) r)) ∧
    (∀ c c' : Call, Calls t crate c c' →
      t.isFile c.path = true ∧ unreached t crate c'.reader < unreached t crate c.reader) ∧
    WellFounded fun c' c : Call => Calls t crate c c' := by
  refine ⟨fun c => ?_, reads_readCrate t crate, fun c c' h => h.unreached_lt,
    wellFounded_calls t crate⟩
  have hreads := reads_readModule (t.files.length + 1) c
    (Nat.lt_succ_of_le (unreached_le_length t crate c.reader))
  exact ⟨_, hreads, fun y hy => hy.unique hreads,
    fun depth hdepth => (reads_readModule depth c hdepth).unique hreads⟩

end Reader

end CallAtlas
