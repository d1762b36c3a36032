import CallAtlas.CommandLine
import CallAtlas.Proofs.CompleteReading

/-!
# All or nothing

A run fails without a trace, or it delivers one complete text to one place. That the text is complete
before anything is written shows in `Command.run` itself. What has to be proved is the rest: that a
program is loaded only if each of its files has been read and parsed, and that writing a file is what
it should be. A failure half-way through the text is left out of the picture: a file that can be
opened is taken to accept all of it, and printing is taken not to fail.

The latter is not obvious, since the path of a file is followed again when the file is read. On its
way it may pass by the place that has been written, as in `a/../b`, and what stands there decides how
it goes on. `FileTree.Stands` is what is known of each place on the way: no place on the way to a file
that is written is the place of the file itself, because it is a directory.

## Main definitions

* `FileTree.WrittenAt` — two trees that differ by the text of one file.
* `Outcome.Delivers` — a text has gone to the one place where it should.

## Main results

* `FileTree.write?_eq_some` — a file that has been written can be read, and all others are as before.
* `Command.run_allOrNothing` — runs fail without a trace or deliver all.
-/

namespace CallAtlas

/-! ### Writing a file -/

namespace FileTree

/-- A tree is another one, but for the text of one file. -/
structure WrittenAt (t t' : FileTree) (place : List String) (text : String) : Prop where
  content : t'.content? place = some text.toUTF8
  others : ∀ other, other ≠ place → t'.content? other = t.content? other
  directory : t'.directory = t.directory
  directories : ∀ other, t'.hasDirectory other = t.hasDirectory other

/-- There is a file or a directory at a place. -/
def Stands (t : FileTree) (place : List String) : Prop :=
  (t.content? place).isSome = true ∨ t.hasDirectory place = true

variable {t t' : FileTree} {place next other : List String} {name path text : String}

theorem hasDirectory_iff : t.hasDirectory place = true ↔
    place <+: t.directory ∨ (∃ directory ∈ t.directories, place <+: directory) ∨
      ∃ file ∈ t.files, place <+: file.1 ∧ place ≠ file.1 := by
  simp only [hasDirectory, Bool.or_eq_true, List.any_eq_true, Bool.and_eq_true, bne_iff_ne,
    List.isPrefixOf_iff_prefix, or_assoc]

/-- Whatever leads to a directory is one. -/
theorem hasDirectory_of_isPrefix (hshorter : other <+: place) (h : t.hasDirectory place = true) :
    t.hasDirectory other = true := by
  rw [hasDirectory_iff] at h ⊢
  rcases h with hworking | ⟨directory, hmem, hdirectory⟩ | ⟨file, hmem, hfile, hne⟩
  · exact Or.inl (hshorter.trans hworking)
  · exact Or.inr (Or.inl ⟨directory, hmem, hshorter.trans hdirectory⟩)
  · refine Or.inr (Or.inr ⟨file, hmem, hshorter.trans hfile, ?_⟩)
    rintro rfl
    exact hne (hfile.eq_of_length_le hshorter.length_le)

theorem hasDirectory_start (t : FileTree) (path : String) : t.hasDirectory (t.start path) = true := by
  have hworking : t.hasDirectory t.directory = true := by simp [hasDirectory]
  unfold start
  split
  · exact hasDirectory_of_isPrefix List.nil_prefix hworking
  · exact hworking

/-- A step from a place is possible only if no file is there, and it leads to something. -/
theorem stands_of_enter (h : t.enter place name = .ok next) (hplace : t.Stands place) :
    t.content? place = none ∧ t.hasDirectory place = true ∧ t.Stands next := by
  unfold enter at h
  split at h
  · cases h
  · next hnone =>
    have hdirectory : t.hasDirectory place = true := hplace.resolve_left hnone
    refine ⟨by simpa using hnone, hdirectory, ?_⟩
    split at h
    · cases h
      exact hplace
    · split at h
      · cases h
        exact Or.inr (hasDirectory_of_isPrefix (List.dropLast_prefix place) hdirectory)
      · split at h
        · next hthere =>
          cases h
          exact (Bool.or_eq_true _ _).mp hthere
        · cases h

theorem exists_of_foldlM_enter_cons {rest first last : List String}
    (h : (name :: rest).foldlM t.enter first = .ok last) :
    ∃ next, t.enter first name = .ok next ∧ rest.foldlM t.enter next = .ok last := by
  rw [List.foldlM_cons] at h
  rcases henter : t.enter first name with fault | next
  · simp [henter, bind, Except.bind] at h
  · rw [henter] at h
    exact ⟨next, rfl, h⟩

theorem stands_of_foldlM_enter (names : List String) : ∀ first last, t.Stands first →
    names.foldlM t.enter first = .ok last → t.Stands last := by
  induction names with
  | nil =>
    intro first last hfirst heq
    cases heq
    exact hfirst
  | cons name rest ih =>
    intro first last hfirst heq
    obtain ⟨next, henter, hrest⟩ := exists_of_foldlM_enter_cons heq
    exact ih next last (stands_of_enter henter hfirst).2.2 hrest

namespace WrittenAt

theorem stands (h : WrittenAt t t' place text) (hother : t.Stands other) : t'.Stands other := by
  by_cases heq : other = place
  · exact Or.inl (by simp [heq, h.content])
  · rwa [Stands, h.others other heq, h.directories]

/-- A step from a directory is the same in both trees. -/
theorem enter (h : WrittenAt t t' place text) (hfree : t.hasDirectory place = false)
    (hother : t.Stands other) (henter : t.enter other name = .ok next) :
    t'.enter other name = .ok next := by
  obtain ⟨hnone, hdirectory, hnext⟩ := stands_of_enter henter hother
  have hne : other ≠ place := by
    rintro rfl
    simp [hdirectory] at hfree
  have hnone' : t'.content? other = none := (h.others other hne).trans hnone
  unfold FileTree.enter at henter ⊢
  simp only [hnone, hnone', Option.isSome_none, Bool.false_eq_true, if_false] at henter ⊢
  split
  · next hvoid => simpa [hvoid] using henter
  · next hvoid =>
    simp only [hvoid, if_false] at henter
    split
    · next hup => simpa [hup] using henter
    · next hup =>
      simp only [hup, if_false] at henter
      split at henter
      · next hthere =>
        have hthere' := h.stands ((Bool.or_eq_true _ _).mp hthere)
        rw [if_pos ((Bool.or_eq_true _ _).mpr hthere')]
        exact henter
      · cases henter

/-- The way to a directory is the same in both trees. -/
theorem foldlM_enter (h : WrittenAt t t' place text) (hfree : t.hasDirectory place = false)
    (names : List String) : ∀ first last, t.Stands first → names.foldlM t.enter first = .ok last →
      names.foldlM t'.enter first = .ok last := by
  induction names with
  | nil =>
    intro first last _ heq
    exact heq
  | cons name rest ih =>
    intro first last hfirst heq
    obtain ⟨next, henter, hrest⟩ := exists_of_foldlM_enter_cons heq
    rw [List.foldlM_cons, h.enter hfree hfirst henter]
    exact ih next last (stands_of_enter henter hfirst).2.2 hrest

end WrittenAt

/-- What makes a place one that can be written to. -/
theorem writable?_eq_some (h : t.writable? path = some place) :
    ∃ directory name, place = directory ++ [name] ∧ names path = (names path).dropLast ++ [name] ∧
      name ≠ "" ∧ name ≠ "." ∧ name ≠ ".." ∧
      (names path).dropLast.foldlM t.enter (t.start path) = .ok directory ∧
      t.content? directory = none ∧ t.hasDirectory directory = true ∧
      t.hasDirectory place = false := by
  unfold writable? at h
  split at h
  · cases h
  · next name hlast =>
    split at h
    · cases h
    · next hproper =>
      split at h
      · cases h
      · next directory hdirectory =>
        split at h
        · cases h
        · next hfree =>
          cases h
          simp only [not_or, Bool.or_eq_true, Bool.not_eq_true, Option.isSome_eq_false_iff,
            Option.isNone_iff_eq_none] at hproper hfree
          obtain ⟨before, hbefore⟩ := List.getLast?_eq_some_iff.mp hlast
          have hstands : t.Stands directory :=
            stands_of_foldlM_enter _ _ _ (Or.inr (hasDirectory_start t path)) hdirectory
          exact ⟨directory, name, rfl, by simp [hbefore], hproper.1, hproper.2.1, hproper.2.2,
            hdirectory, hfree.1, hstands.resolve_left (by simp [hfree.1]), hfree.2⟩

theorem lookup_filter_ne {β : Type} (files : List (List String × β)) (place other : List String) :
    (files.filter (·.1 != place)).lookup other =
      if other = place then none else files.lookup other := by
  induction files with
  | nil => simp
  | cons file rest ih =>
    obtain ⟨key, value⟩ := file
    by_cases hkey : key = place <;> by_cases hother : other = key <;>
      grind

/-- Writing changes the text of one file, and no directory, since the file lies in one. -/
theorem writtenAt_of_writable? (h : t.writable? path = some place) (text : String) :
    t.WrittenAt { t with files := t.files.filter (·.1 != place) ++ [(place, text.toUTF8)] } place
      text where
  content := by
    rw [content?, List.lookup_append, lookup_filter_ne]
    simp
  others := by
    intro other hne
    rw [content?, List.lookup_append, lookup_filter_ne, if_neg hne, content?]
    have hnone : [(place, text.toUTF8)].lookup other = none :=
      List.lookup_eq_none_iff.mpr (by simpa using hne)
    rw [hnone, Option.or_none]
  directory := rfl
  directories := by
    obtain ⟨directory, name, rfl, -, -, -, -, -, -, hdirectory, -⟩ := writable?_eq_some h
    intro other
    rw [Bool.eq_iff_iff, hasDirectory_iff]
    constructor
    · rintro (hworking | hlisted | ⟨file, hfile, hleads, hne⟩)
      · exact hasDirectory_iff.mpr (Or.inl hworking)
      · exact hasDirectory_iff.mpr (Or.inr (Or.inl hlisted))
      · rcases List.mem_append.mp hfile with hold | hnew
        · exact hasDirectory_iff.mpr
            (Or.inr (Or.inr ⟨file, (List.mem_filter.mp hold).1, hleads, hne⟩))
        · -- what leads to the file leads to the directory that it lies in
          rw [List.mem_singleton.mp hnew] at hleads hne
          exact hasDirectory_of_isPrefix ((List.prefix_concat_iff.mp hleads).resolve_left hne)
            hdirectory
    · intro hold
      rcases hasDirectory_iff.mp hold with hworking | hlisted | ⟨file, hfile, hleads, hne⟩
      · exact Or.inl hworking
      · exact Or.inr (Or.inl hlisted)
      · refine Or.inr (Or.inr ?_)
        by_cases hplace : file.1 = directory ++ [name]
        · exact ⟨(directory ++ [name], text.toUTF8), by simp, hplace ▸ hleads, hplace ▸ hne⟩
        · refine ⟨file, List.mem_append_left _ (List.mem_filter.mpr ⟨hfile, ?_⟩), hleads, hne⟩
          simpa using hplace

theorem fromUTF8?_toUTF8 (text : String) : String.fromUTF8? text.toUTF8 = some text := by
  exact dif_pos text.isValidUTF8

/-- A path leads to the file that has been written to it. -/
theorem WrittenAt.locate (h : WrittenAt t t' place text) (hplace : t.writable? path = some place) :
    t'.locate path = .ok place := by
  obtain ⟨directory, name, rfl, hnames, hname, hdot, hup, hway, hnone, hdirectory, hfree⟩ :=
    writable?_eq_some hplace
  have hne : directory ≠ directory ++ [name] := by simp
  have hlast : t'.enter directory name = .ok (directory ++ [name]) := by
    simp [FileTree.enter, h.others directory hne, hnone, h.content, hname, hdot, hup]
  have hpath : path ≠ "" := by
    rintro rfl
    have hsingle : [""] = [name] := hnames
    exact hname (List.cons.inj hsingle).1.symm
  have hstart : t'.start path = t.start path := by rw [start, start, h.directory]
  rw [FileTree.locate, if_neg hpath, hnames, List.foldlM_append, hstart,
    h.foldlM_enter hfree _ _ _ (Or.inr (hasDirectory_start t path)) hway]
  simp [bind, Except.bind, hlast, pure, Except.pure]

/-- **Writing a file.** A file that has been written can be read at its path, and all else is as
before. -/
theorem write?_eq_some (h : t.write? path text = some t') :
    ∃ place, t.WrittenAt t' place text ∧ t'.locate path = .ok place ∧
      t'.readText path = .ok text := by
  obtain ⟨place, hplace, rfl⟩ := Option.map_eq_some_iff.mp h
  have hwritten := writtenAt_of_writable? hplace text
  have hlocate := hwritten.locate hplace
  refine ⟨place, hwritten, hlocate, ?_⟩
  simp only [readText, hlocate, hwritten.content, fromUTF8?_toUTF8]

end FileTree

/-! ### Runs -/

/-- A text has gone to one place, which is a file if there is a path for it and standard output
otherwise. -/
inductive Outcome.Delivers (o : Outcome) (t : FileTree) (text : String) : Option String → Prop where
  | printed : o.output = text → o.files = t → o.Delivers t text none
  | written {path : String} {place : List String} :
    o.output = "" → t.WrittenAt o.files place text → o.files.locate path = .ok place →
      o.files.readText path = .ok text → o.Delivers t text (some path)

theorem Analysis.run_of_load_error {t : FileTree} {workspace : Option Workspace} {a : Analysis}
    {e : LoadError} (h : Program.load t workspace a.target = .error e) (written : String) :
    a.run t workspace written = (.error e, written) := by
  have hgraph : a.graph t workspace = .error e := congrArg _ h
  delta run
  rw [hgraph]

theorem Analysis.run_of_load_ok {t : FileTree} {workspace : Option Workspace} {a : Analysis}
    {p : Program} (h : Program.load t workspace a.target = .ok p) (written : String) :
    a.run t workspace written = (.ok (CallGraph.ofProgram p a.macros),
      written ++ a.format.render (CallGraph.ofProgram p a.macros)) := by
  have hgraph : a.graph t workspace = .ok (CallGraph.ofProgram p a.macros) := congrArg _ h
  delta run
  rw [hgraph]

theorem Outcome.exitCode_eq_zero_iff {o : Outcome} : o.exitCode = 0 ↔ o.failure = none := by
  obtain ⟨output, files, _ | failure⟩ := o
  · simp [exitCode]
  · cases failure <;> simp [exitCode, Failure.exitCode]

namespace Command

/-- What can come of an analysis: the program cannot be loaded, its graph is printed, or it is written
to a file, if that is possible. -/
theorem run_analyze_cases (t : FileTree) (workspace : Option Workspace) (a : Analysis)
    (output : Option String) :
    let o := (analyze a output).run t workspace
    (∃ e, Program.load t workspace a.target = .error e ∧ o = ⟨"", t, some (.load e)⟩) ∨
    ∃ p, Program.load t workspace a.target = .ok p ∧
      let text := a.format.render (CallGraph.ofProgram p a.macros)
      (output = none ∧ o = ⟨text, t, none⟩ ∨ ∃ path, output = some path ∧
        (t.writable? path = none ∧ o = ⟨"", t, some (.write path)⟩ ∨
          ∃ t', (t.writable? path).isSome ∧ t.write? path text = some t' ∧ o = ⟨"", t', none⟩)) := by
  -- the equations of `run` are slow to derive
  delta run
  dsimp only
  rcases hload : Program.load t workspace a.target with e | p
  · rw [a.run_of_load_error hload]
    exact Or.inl ⟨e, rfl, rfl⟩
  · have hrun := a.run_of_load_ok hload ""
    rw [String.empty_append] at hrun
    rw [hrun]
    refine Or.inr ⟨p, rfl, ?_⟩
    rcases output with _ | path
    · exact Or.inl ⟨rfl, rfl⟩
    · refine Or.inr ⟨path, rfl, ?_⟩
      rcases hplace : t.writable? path with _ | place
      · refine Or.inl ⟨rfl, ?_⟩
        simp only [FileTree.write?, hplace, Option.map_none]
      · refine Or.inr ⟨_, rfl, by rw [FileTree.write?, hplace]; rfl, ?_⟩
        simp only [FileTree.write?, hplace, Option.map_some]

variable {t : FileTree} {workspace : Option Workspace}

/-- A run that fails has left nothing behind. -/
theorem untouched_of_failure {c : Command} (h : (c.run t workspace).failure ≠ none) :
    (c.run t workspace).output = "" ∧ (c.run t workspace).files = t := by
  rcases c with ⟨a, output⟩ | _ | _ | _
  · rcases run_analyze_cases t workspace a output with
      ⟨e, -, ho⟩ | ⟨p, -, ⟨-, ho⟩ | ⟨path, -, ⟨-, ho⟩ | ⟨t', -, -, ho⟩⟩⟩
    · simp [ho]
    · simp [ho] at h
    · simp [ho]
    · simp [ho] at h
  · exact absurd rfl h
  · exact absurd rfl h
  · exact ⟨rfl, rfl⟩

variable {a : Analysis} {output : Option String}

/-- When an analysis succeeds. -/
theorem failure_eq_none_iff : ((analyze a output).run t workspace).failure = none ↔
    (∃ p, Program.load t workspace a.target = .ok p) ∧
      ∀ path ∈ output, (t.writable? path).isSome = true := by
  rcases run_analyze_cases t workspace a output with
    ⟨e, hload, ho⟩ | ⟨p, hload, ⟨rfl, ho⟩ | ⟨path, rfl, ⟨hplace, ho⟩ | ⟨t', hplace, -, ho⟩⟩⟩
  · simp [ho, hload]
  · simp [ho, hload]
  · simp [ho, hplace]
  · simp [ho, hload, hplace]

/-- What an analysis that succeeds has delivered. -/
theorem delivers_of_success (h : ((analyze a output).run t workspace).failure = none) :
    ∃ p, Program.load t workspace a.target = .ok p ∧
      ((analyze a output).run t workspace).Delivers t
        (a.format.render (CallGraph.ofProgram p a.macros)) output := by
  rcases run_analyze_cases t workspace a output with
    ⟨e, -, ho⟩ | ⟨p, hload, ⟨rfl, ho⟩ | ⟨path, rfl, ⟨-, ho⟩ | ⟨t', -, hwrite, ho⟩⟩⟩
  · simp [ho] at h
  · exact ⟨p, hload, ho ▸ .printed rfl rfl⟩
  · simp [ho] at h
  · obtain ⟨place, hwritten, hlocate, htext⟩ := FileTree.write?_eq_some hwrite
    exact ⟨p, hload, ho ▸ .written rfl hwritten hlocate htext⟩

/-- **All or nothing.** A run that fails leaves nothing on standard output and no file changed. An
analysis succeeds if its program can be loaded, and its result, if it goes to a file, be written
there. Then all files of the program have been read, and the complete text of its call graph has gone
to one place. An analysis behind which something has been written already leaves that as it is if the
program cannot be loaded. -/
theorem run_allOrNothing (words : List String) (t : FileTree) (workspace : Option Workspace) :
    let o := (ofArguments words).run t workspace
    (o.exitCode ≠ 0 → o.output = "" ∧ o.files = t) ∧
    (∀ a output, ofArguments words = .analyze a output →
      (o.exitCode = 0 ↔ (∃ p, Program.load t workspace a.target = .ok p) ∧
        ∀ path ∈ output, (t.writable? path).isSome) ∧
      (o.exitCode = 0 → ∃ p, Program.load t workspace a.target = .ok p ∧
        (∀ u ∈ p.units, u.IsRead t) ∧
        o.Delivers t (a.format.render (CallGraph.ofProgram p a.macros)) output)) ∧
    ∀ (a : Analysis) (written : String),
      (∀ e, Program.load t workspace a.target = .error e →
        a.run t workspace written = (.error e, written)) ∧
      ∀ p, Program.load t workspace a.target = .ok p →
        a.run t workspace written = (.ok (CallGraph.ofProgram p a.macros),
          written ++ a.format.render (CallGraph.ofProgram p a.macros)) := by
  refine ⟨?_, ?_, fun a written => ⟨fun e he => a.run_of_load_error he written,
    fun p hp => a.run_of_load_ok hp written⟩⟩
  · intro hfailed
    exact untouched_of_failure (mt Outcome.exitCode_eq_zero_iff.mpr hfailed)
  · intro a output hwords
    rw [hwords, Outcome.exitCode_eq_zero_iff]
    refine ⟨failure_eq_none_iff, fun hdone => ?_⟩
    obtain ⟨p, hload, hdelivers⟩ := delivers_of_success hdone
    exact ⟨p, hload, Program.isRead_of_load hload, hdelivers⟩

/-! ### A graph that is written to a file -/

namespace Saved

/-- A directory with a source file and an empty directory. -/
def tree : FileTree where
  directory := ["w"]
  files := [(["w", "a.rs"], "fn f()\x7bf()\x7d".toUTF8)]
  directories := [["w", "out"]]

/-- A command line that asks for the graph of the file in another one. -/
def words : List String :=
  ["-oout/../graph", "a.rs"]

theorem words_read :
    ofArguments words = .analyze ⟨"a.rs", .dot, true⟩ (some "out/../graph") := by
  decide +kernel

theorem exitCode_eq_zero : ((ofArguments words).run tree none).exitCode = 0 := by
  decide +kernel

end Saved

theorem run_allOrNothing_saved :
    let o := (ofArguments Saved.words).run Saved.tree none
    o.exitCode = 0 ∧ o.output = "" ∧ ∃ p place, Program.load Saved.tree none "a.rs" = .ok p ∧
      (∀ u ∈ p.units, u.IsRead Saved.tree) ∧
      o.files.readText "out/../graph" = .ok (Format.dot.render (CallGraph.ofProgram p true)) ∧
      o.files.locate "out/../graph" = .ok place ∧
      ∀ other, other ≠ place → o.files.content? other = Saved.tree.content? other := by
  obtain ⟨-, hanalysis, -⟩ := run_allOrNothing Saved.words Saved.tree none
  obtain ⟨p, hload, hread, hdelivers⟩ :=
    (hanalysis _ _ Saved.words_read).2 Saved.exitCode_eq_zero
  cases hdelivers with
  | written houtput hwritten hlocate htext =>
    exact ⟨Saved.exitCode_eq_zero, houtput, p, _, hload, hread, htext, hlocate, hwritten.others⟩

end Command

end CallAtlas
