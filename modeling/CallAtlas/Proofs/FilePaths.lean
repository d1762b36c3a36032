import CallAtlas.Files.PathText
import CallAtlas.Proofs.Names
import Mathlib.Data.List.DropRight

/-!
# Paths that end with a name

A path is a text, and joining a name to a directory is a matter of text as well. So the directory of
the result need not be the directory that the name was joined to: `a/./` and `x` make `a/./x`, which
lies in `a`. But it is for directories that are themselves what a name has been joined to, and for those
that are the parent of some path, since both end with a name or are one of the three short paths.

## Main definitions

* `PathText.IsName` — the characters of a name that leads somewhere.
* `PathText.EndsIn` — a path whose last name is given.

## Main results

* `PathText.parent?_join_join`, `PathText.parent?_join_of_parent?` — the directory of a joined name.
* `PathText.fileName?_join`, `PathText.stem?_join` — the name itself.
-/

namespace CallAtlas

/-! ### Splitting -/

theorem splitOnChar_eq_splitOn (c : Char) (cs : List Char) : splitOnChar c cs = cs.splitOn c := by
  induction cs with
  | nil => rfl
  | cons x rest ih =>
    rw [splitOnChar, ih, List.splitOn_cons_eq_if_modifyHead]
    by_cases hx : x = c
    · simp [hx]
    · cases hrest : rest.splitOn c with
      | nil => exact absurd hrest (List.splitOn_ne_nil c rest)
      | cons part parts => simp [hx]

theorem splitOnChar_append (c : Char) (before after : List Char) :
    splitOnChar c (before ++ c :: after) = splitOnChar c before ++ splitOnChar c after := by
  simp only [splitOnChar_eq_splitOn, List.splitOn_append_cons_self]

theorem splitOnChar_of_not_mem {c : Char} {cs : List Char} (h : c ∉ cs) :
    splitOnChar c cs = [cs] := by
  rw [splitOnChar_eq_splitOn, List.splitOn_eq_singleton h]

theorem intercalate_splitOnChar (c : Char) (cs : List Char) :
    [c].intercalate (splitOnChar c cs) = cs := by
  rw [splitOnChar_eq_splitOn, List.intercalate_splitOn]

theorem intercalate_concat {c : Char} {parts : List (List Char)} (h : parts ≠ [])
    (last : List Char) : [c].intercalate (parts ++ [last]) = [c].intercalate parts ++ c :: last := by
  induction parts with
  | nil => exact absurd rfl h
  | cons first rest ih =>
    cases rest with
    | nil => simp [List.intercalate_cons_cons]
    | cons second rest =>
      have hrest := ih (by simp)
      simp only [List.cons_append, List.intercalate_cons_cons] at hrest ⊢
      rw [hrest]
      simp

theorem splitOnChar_ne_nil (c : Char) (cs : List Char) : splitOnChar c cs ≠ [] := by
  rw [splitOnChar_eq_splitOn]
  exact List.splitOn_ne_nil c cs

theorem not_mem_of_mem_splitOnChar {c : Char} {cs : List Char} :
    ∀ {part : List Char}, part ∈ splitOnChar c cs → c ∉ part := by
  induction cs with
  | nil => simp [splitOnChar]
  | cons x rest ih =>
    intro part hpart
    rw [splitOnChar] at hpart
    split at hpart
    · rcases List.mem_cons.mp hpart with rfl | hpart
      · simp
      · exact ih hpart
    · next hx =>
      split at hpart
      · next first more hrest =>
        rcases List.mem_cons.mp hpart with rfl | hpart
        · have hfirst : c ∉ first := ih (hrest ▸ List.mem_cons_self)
          simp [Ne.symm hx, hfirst]
        · exact ih (hrest ▸ List.mem_cons_of_mem _ hpart)
      · next hrest => exact absurd hrest (splitOnChar_ne_nil c rest)

namespace PathText

/-- A name that leads somewhere, so not nothing and not `.`. -/
structure IsName (name : List Char) : Prop where
  /-- There is no separator in it. -/
  noSeparator : '/' ∉ name
  /-- It leads somewhere. -/
  notVoid : isVoid name = false

namespace IsName

variable {name : List Char}

theorem ne_nil (h : IsName name) : name ≠ [] := by
  rintro rfl
  simpa [isVoid] using h.notVoid

theorem ne_dot (h : IsName name) : name ≠ ['.'] := by
  rintro rfl
  simpa [isVoid] using h.notVoid

/-- The last character of a name is no separator. -/
theorem getLast?_append_ne (h : IsName name) (before : List Char) :
    (before ++ name).getLast? ≠ some '/' := by
  rcases List.eq_nil_or_concat name with rfl | ⟨init, c, rfl⟩
  · exact absurd rfl h.ne_nil
  · intro hlast
    obtain rfl : c = '/' := by simpa [← List.append_assoc] using hlast
    exact h.noSeparator (by simp)

end IsName

/-- The names of a path end with this one. -/
def EndsIn (cs name : List Char) : Prop :=
  ∃ names, (split cs).2 = names ++ [name]

variable {cs name last : List Char}

/-! ### The names of a path -/

/-- A path with neither the root nor a `.` in front is all names. -/
theorem split_of_plain (hroot : cs.head? ≠ some '/') (hdot : cs ≠ ['.'])
    (hbelow : ∀ rest, cs ≠ '.' :: '/' :: rest) : split cs = ([], splitOnChar '/' cs) := by
  unfold split
  split
  · simp at hroot
  · exact absurd rfl hdot
  · next rest => exact absurd rfl (hbelow rest)
  · rfl

theorem split_recombine (cs : List Char) :
    (split cs).1 ++ ['/'].intercalate (split cs).2 = cs := by
  unfold split
  split
  · next rest => simp [intercalate_splitOnChar]
  · rfl
  · next rest =>
    have hrest := intercalate_splitOnChar '/' rest
    cases hparts : splitOnChar '/' rest with
    | nil => exact absurd hparts (splitOnChar_ne_nil '/' rest)
    | cons part parts =>
      rw [hparts] at hrest
      simp [List.intercalate_cons_cons, hrest]
  · simp [intercalate_splitOnChar]

/-- What stands behind a further separator adds to the names. -/
theorem split_append (hne : cs ≠ []) (hdot : cs ≠ ['.']) (rest : List Char) :
    split (cs ++ '/' :: rest) = ((split cs).1, (split cs).2 ++ splitOnChar '/' rest) := by
  by_cases hroot : cs.head? = some '/'
  · obtain ⟨tail, rfl⟩ := List.head?_eq_some_iff.mp hroot
    simp [split, splitOnChar_append]
  by_cases hbelow : ∃ tail, cs = '.' :: '/' :: tail
  · obtain ⟨tail, rfl⟩ := hbelow
    simp [split, splitOnChar_append]
  · have hcs := split_of_plain hroot hdot (not_exists.mp hbelow)
    rw [hcs, split_of_plain, splitOnChar_append]
    · rcases cs with _ | ⟨first, more⟩
      · exact absurd rfl hne
      · exact hroot
    · rcases cs with _ | ⟨first, more⟩
      · exact absurd rfl hne
      · simp
    · intro tail heq
      rcases cs with _ | ⟨first, _ | ⟨second, more⟩⟩
      · exact hne rfl
      · obtain ⟨rfl, -⟩ : first = '.' ∧ rest = tail := by simpa using heq
        exact hdot rfl
      · obtain ⟨rfl, rfl, -⟩ : first = '.' ∧ second = '/' ∧ more ++ '/' :: rest = tail := by
          simpa using heq
        exact hbelow ⟨more, rfl⟩

theorem IsName.split_eq (h : IsName name) : split name = ([], [name]) := by
  rw [split_of_plain, splitOnChar_of_not_mem h.noSeparator]
  · exact fun hroot => h.noSeparator (List.mem_of_mem_head? hroot)
  · exact h.ne_dot
  · rintro rest rfl
    exact h.noSeparator (by simp)

/-- Behind a `.` in front there is nothing, or a separator. -/
theorem split_start (cs : List Char) :
    (split cs).1 = [] ∨ (split cs).1 = ['/'] ∨
      ((split cs).1 = ['.'] ∧ ((split cs).2 = [] ∨ ∃ names, (split cs).2 = [] :: names)) := by
  unfold split
  split <;> simp

theorem not_mem_of_mem_split (h : name ∈ (split cs).2) : '/' ∉ name := by
  unfold split at h
  split at h
  · exact not_mem_of_mem_splitOnChar h
  · simp at h
  · rcases List.mem_cons.mp h with rfl | h
    · simp
    · exact not_mem_of_mem_splitOnChar h
  · exact not_mem_of_mem_splitOnChar h

theorem IsName.endsIn_self (h : IsName name) : EndsIn name name :=
  ⟨[], by rw [h.split_eq, List.nil_append]⟩

theorem IsName.endsIn_append (h : IsName name) (cs : List Char) : EndsIn (cs ++ '/' :: name) name := by
  have hname : splitOnChar '/' name = [name] := splitOnChar_of_not_mem h.noSeparator
  by_cases hne : cs = []
  · subst hne
    exact ⟨[], by simp [split, hname]⟩
  by_cases hdot : cs = ['.']
  · subst hdot
    exact ⟨[[]], by simp [split, hname]⟩
  · exact ⟨(split cs).2, by rw [split_append hne hdot, hname]⟩

theorem trim_append_of_notVoid (names : List (List Char)) (h : isVoid name = false) :
    trim (names ++ [name]) = names ++ [name] :=
  List.rdropWhile_concat_neg isVoid names name (by simp [h])

theorem trim_isPrefix (names : List (List Char)) : trim names <+: names :=
  List.rdropWhile_prefix isVoid names

theorem trim_cases (names : List (List Char)) :
    trim names = [] ∨ ∃ before name, trim names = before ++ [name] ∧ isVoid name = false := by
  by_cases hnil : trim names = []
  · exact .inl hnil
  · have hlast := List.rdropWhile_last_not isVoid names hnil
    refine .inr ⟨(trim names).dropLast, (trim names).getLast hnil, ?_, Bool.eq_false_iff.mpr hlast⟩
    rw [List.dropLast_append_getLast]

theorem isVoid_of_trim_eq_nil {names : List (List Char)} (h : trim names = []) :
    ∀ name ∈ names, isVoid name = true :=
  List.rdropWhile_eq_nil_iff.mp h

/-- The parent of a path whose last name leads somewhere. -/
theorem parent?_of_split {path : String} {start : List Char} {names : List (List Char)}
    (h : split path.toList = (start, names ++ [name])) (hname : isVoid name = false) :
    parent? path = some (String.ofList (start ++ ['/'].intercalate (trim names))) := by
  rw [parent?, h]
  dsimp only
  rw [trim_append_of_notVoid _ hname, if_neg (by simp), List.dropLast_concat]

namespace EndsIn

theorem fileName?_eq {path : String} (h : EndsIn path.toList name) (hname : IsName name)
    (hparent : name ≠ ['.', '.']) : fileName? path = some (String.ofList name) := by
  obtain ⟨names, hnames⟩ := h
  rw [fileName?, hnames, trim_append_of_notVoid names hname.notVoid, List.getLast?_concat]
  exact if_neg hparent

/-- A path that ends with a name does not end with a separator. -/
theorem getLast?_ne (h : EndsIn cs last) (hlast : IsName last) : cs.getLast? ≠ some '/' := by
  obtain ⟨names, hnames⟩ := h
  obtain ⟨before, hbefore⟩ : ∃ before, cs = before ++ last := by
    have hcs := split_recombine cs
    rw [hnames] at hcs
    cases names with
    | nil => exact ⟨(split cs).1, by simpa using hcs.symm⟩
    | cons first names =>
      rw [intercalate_concat (by simp)] at hcs
      exact ⟨(split cs).1 ++ ['/'].intercalate (first :: names) ++ ['/'], by simpa using hcs.symm⟩
  rw [hbefore]
  exact hlast.getLast?_append_ne before

theorem ne_nil (h : EndsIn cs last) (hlast : IsName last) : cs ≠ [] := by
  rintro rfl
  obtain ⟨names, hnames⟩ := h
  have hnil : some [] = some last := by
    have hgetLast := congrArg List.getLast? hnames
    rwa [List.getLast?_concat] at hgetLast
  exact hlast.ne_nil (Option.some.inj hnil).symm

theorem ne_dot (h : EndsIn cs last) : cs ≠ ['.'] := by
  rintro rfl
  obtain ⟨names, hnames⟩ := h
  simp [split] at hnames

/-- A path that ends with a name is the directory of what stands behind a further separator. -/
theorem parent?_eq (h : EndsIn cs last) (hlast : IsName last) (hname : IsName name) :
    parent? (String.ofList (cs ++ '/' :: name)) = some (String.ofList cs) := by
  have hsplit : split (String.ofList (cs ++ '/' :: name)).toList =
      ((split cs).1, (split cs).2 ++ [name]) := by
    rw [String.toList_ofList, split_append (h.ne_nil hlast) h.ne_dot,
      splitOnChar_of_not_mem hname.noSeparator]
  have hcs := split_recombine cs
  obtain ⟨names, hnames⟩ := h
  rw [parent?_of_split hsplit hname.notVoid, hnames,
    trim_append_of_notVoid _ hlast.notVoid, ← hnames, hcs]

end EndsIn

/-! ### Joining a name to a directory -/

variable {directory file path : String}

theorem IsName.not_isAbsolute (h : IsName file.toList) : isAbsolute file = false := by
  rw [isAbsolute, beq_eq_false_iff_ne]
  exact fun hroot => h.noSeparator (List.mem_of_mem_head? hroot)

theorem join_nil (file : String) : join "" file = file := by
  simp [join]

/-- Behind a directory that ends with a separator, no other one is written. -/
theorem join_of_separator (h : directory.toList.getLast? = some '/') (hfile : IsName file.toList) :
    join directory file = directory ++ file := by
  have hne : directory ≠ "" := by
    rintro rfl
    simp at h
  rw [join, hfile.not_isAbsolute, if_neg (by simpa using hne), if_pos (by simpa using h)]

theorem join_of_not_separator (hne : directory ≠ "") (h : directory.toList.getLast? ≠ some '/')
    (hfile : IsName file.toList) :
    join directory file = String.ofList (directory.toList ++ '/' :: file.toList) := by
  rw [join, hfile.not_isAbsolute, if_neg (by simpa using hne), if_neg (by simpa using h)]
  apply String.toList_inj.mp
  simp

/-- What a name is joined to makes no difference to the last name. -/
theorem endsIn_join (directory : String) (hfile : IsName file.toList) :
    EndsIn (join directory file).toList file.toList := by
  by_cases hne : directory = ""
  · subst hne
    rw [join_nil]
    exact hfile.endsIn_self
  by_cases hlast : directory.toList.getLast? = some '/'
  · obtain ⟨before, hbefore⟩ := List.getLast?_eq_some_iff.mp hlast
    rw [join_of_separator hlast hfile, String.toList_append, hbefore, List.append_assoc]
    exact hfile.endsIn_append before
  · rw [join_of_not_separator hne hlast hfile, String.toList_ofList]
    exact hfile.endsIn_append _

/-- A path that ends with a name is the directory of what is joined to it. -/
theorem EndsIn.parent?_join (h : EndsIn directory.toList last) (hlast : IsName last)
    (hfile : IsName file.toList) : parent? (join directory file) = some directory := by
  have hne : directory ≠ "" := by
    rintro rfl
    exact h.ne_nil hlast rfl
  rw [join_of_not_separator hne (h.getLast?_ne hlast) hfile, h.parent?_eq hlast hfile,
    String.ofList_toList]

theorem parent?_join_join (directory : String) (hname : IsName path.toList)
    (hfile : IsName file.toList) :
    parent? (join (join directory path) file) = some (join directory path) :=
  (endsIn_join directory hname).parent?_join hname hfile

theorem parent?_self (hfile : IsName file.toList) : parent? file = some "" := by
  have hsplit : split file.toList = ([], [] ++ [file.toList]) := hfile.split_eq
  rw [parent?_of_split hsplit hfile.notVoid]
  rfl

/-- The start of a path is the directory of what is joined to it. -/
theorem parent?_join_start (cs : List Char) (hfile : IsName file.toList) :
    parent? (join (String.ofList (split cs).1) file) = some (String.ofList (split cs).1) := by
  have hnames := splitOnChar_of_not_mem hfile.noSeparator
  rcases split_start cs with hstart | hstart | ⟨hstart, -⟩
  · rw [hstart]
    exact (congrArg parent? (join_nil file)).trans (parent?_self hfile)
  · have hsplit : split (String.ofList ['/'] ++ file).toList = (['/'], [] ++ [file.toList]) := by
      simp [split, hnames]
    rw [hstart, join_of_separator rfl hfile, parent?_of_split hsplit hfile.notVoid]
    rfl
  · have hsplit : split (String.ofList ((String.ofList ['.']).toList ++ '/' :: file.toList)).toList =
        (['.'], [[]] ++ [file.toList]) := by
      simp [split, hnames]
    rw [hstart, join_of_not_separator (by decide) (by decide) hfile,
      parent?_of_split hsplit hfile.notVoid]
    rfl

/-- The first names of a path, up to one that leads somewhere, make up a path that ends with it. -/
theorem endsIn_of_isPrefix {names : List (List Char)} (h : names ++ [name] <+: (split cs).2)
    (hname : IsName name) : EndsIn ((split cs).1 ++ ['/'].intercalate (names ++ [name])) name := by
  rcases List.eq_nil_or_concat names with rfl | ⟨init, last, rfl⟩
  · rcases split_start cs with hstart | hstart | ⟨-, hnames | ⟨more, hnames⟩⟩
    · simpa [hstart] using hname.endsIn_self
    · simpa [hstart] using hname.endsIn_append []
    · simp [hnames] at h
    · rw [hnames, List.nil_append, List.cons_prefix_cons] at h
      exact absurd h.1 hname.ne_nil
  · rw [intercalate_concat (by simp), ← List.append_assoc]
    exact hname.endsIn_append _

/-- The parent of a path is the directory of what is joined to it. -/
theorem parent?_join_of_parent? (h : parent? path = some directory) (hfile : IsName file.toList) :
    parent? (join directory file) = some directory := by
  rw [parent?] at h
  dsimp only at h
  split at h
  · -- only `.` has a parent without a name
    obtain rfl : "" = directory := by simpa using (Option.ite_none_right_eq_some.mp h).2
    rw [join_nil]
    exact parent?_self hfile
  · obtain rfl := Option.some.inj h
    rcases trim_cases (trim (split path.toList).2).dropLast with hnil | ⟨names, name, htrim, hvoid⟩
    · rw [hnil]
      simpa using parent?_join_start path.toList hfile
    · have hnames : names ++ [name] <+: (split path.toList).2 := by
        rw [← htrim]
        exact (trim_isPrefix _).trans ((List.dropLast_prefix _).trans (trim_isPrefix _))
      have hname : IsName name :=
        ⟨not_mem_of_mem_split (hnames.subset (by simp)), hvoid⟩
      rw [htrim]
      refine EndsIn.parent?_join ?_ hname hfile
      rw [String.toList_ofList]
      exact endsIn_of_isPrefix hnames hname

/-- A directory below the parent of a path, down by some names, is the directory of what is joined to
it. -/
theorem parent?_foldl_join {root : String} (h : parent? root = some directory)
    {names : List String} (hnames : ∀ name ∈ names, IsName name.toList) (hfile : IsName file.toList) :
    parent? (join (names.foldl join directory) file) = some (names.foldl join directory) := by
  rcases List.eq_nil_or_concat names with rfl | ⟨init, last, rfl⟩
  · exact parent?_join_of_parent? h hfile
  · rw [List.concat_eq_append, List.foldl_append]
    exact parent?_join_join _ (hnames last (by simp)) hfile

theorem fileName?_join (directory : String) (hfile : IsName file.toList)
    (hparent : file ≠ "..") : fileName? (join directory file) = some file := by
  rw [(endsIn_join directory hfile).fileName?_eq hfile, String.ofList_toList]
  exact fun heq => hparent (String.toList_inj.mp heq)

/-! ### Files of modules -/

theorem isName_of_isIdent {text : List Char} (h : isIdent text = true) : IsName text where
  noSeparator := not_mem_of_isIdent (by decide) (by decide) (by decide) h
  notVoid := by
    have hdot : text ≠ ['.'] := by
      rintro rfl
      exact dot_not_mem_of_isIdent h List.mem_cons_self
    simp [isVoid, ne_nil_of_isIdent h, hdot]

theorem isName_file (name : Ident) : IsName (name.text ++ ".rs").toList where
  noSeparator := by
    have hname := (isName_of_isIdent name.wellFormed).noSeparator
    simpa using hname
  notVoid := by
    have hlength : (name.text.toList ++ ".rs".toList).length ≠ 1 := by simp
    have hdot : name.text.toList ++ ".rs".toList ≠ ['.'] := fun heq => hlength (heq ▸ rfl)
    simpa [isVoid] using hdot

theorem fileName?_join_file (directory : String) (name : Ident) :
    fileName? (join directory (name.text ++ ".rs")) = some (name.text ++ ".rs") := by
  refine fileName?_join directory (isName_file name) fun heq => ?_
  have hlast := congrArg (·.toList.getLast?) heq
  simp at hlast

theorem stem?_join (directory : String) (name : Ident) :
    stem? (join directory (name.text ++ ".rs")) = some name.text := by
  have hne := ne_nil_of_isIdent name.wellFormed
  rw [stem?, fileName?_join_file, Option.map_some, splitExtension]
  rw [String.toList_append, show ".rs".toList = '.' :: ['r', 's'] from rfl,
    splitAtLast_append (by decide)]
  split
  · next heq =>
    have hnil := congrArg (fun found => (found.getD default).1) heq
    exact absurd hnil hne
  · next heq =>
    obtain ⟨rfl, -⟩ : name.text.toList = _ ∧ _ := by simpa using heq
    simp
  · next heq => cases heq

end PathText

end CallAtlas
