import CallAtlas.Walk

/-!
# Paths of identifiers

The names in syntax are identifiers. A path whose segments are all identifiers can be told from its
text: no identifier holds a colon, so the segments are what stands between the separators.

## Main definitions

* `Identifiers` — all segments of a path are identifiers.

## Main results

* `modulePath_injective` — the text of a path of identifiers tells its segments.
* `Symbol.ofQualified_qualifiedName` — the text of a symbol tells the symbol.
-/

namespace CallAtlas

/-- Are all segments of a path identifiers? -/
def Identifiers (path : List String) : Prop :=
  ∀ name ∈ path, isIdent name.toList = true

instance (path : List String) : Decidable (Identifiers path) :=
  inferInstanceAs (Decidable (∀ name ∈ path, isIdent name.toList = true))

theorem identifiers_nil : Identifiers [] := by
  simp [Identifiers]

theorem identifiers_cons {name : String} {path : List String} :
    Identifiers (name :: path) ↔ isIdent name.toList = true ∧ Identifiers path := by
  simp [Identifiers]

theorem identifiers_append {first second : List String} :
    Identifiers (first ++ second) ↔ Identifiers first ∧ Identifiers second := by
  simp [Identifiers, or_imp, forall_and]

theorem Ident.identifiers_singleton (name : Ident) : Identifiers [name.text] := by
  simpa [Identifiers] using name.wellFormed

theorem identifiers_texts (names : List Ident) : Identifiers (Walk.texts names) := by
  intro text htext
  obtain ⟨name, -, rfl⟩ := List.mem_map.mp htext
  exact name.wellFormed

theorem Name.text_ne (name : Name) {word : String} (h : word ∈ reservedWords) :
    name.text ≠ word := by
  rintro rfl
  simpa [h] using name.unreserved

/-! ### The text of a path -/

theorem not_mem_of_isWord {c : Char} (hstart : startsWord c = false)
    (hcontinue : continuesWord c = false) {word : List Char} (h : isWord word = true) :
    c ∉ word := by
  cases word with
  | nil => simp
  | cons first rest =>
    obtain ⟨hfirst, hrest⟩ : startsWord first = true ∧ ∀ d ∈ rest, continuesWord d = true := by
      simpa [isWord] using h
    intro hmem
    rcases List.mem_cons.mp hmem with rfl | hmem
    · simp [hstart] at hfirst
    · exact absurd (hrest c hmem) (by simp [hcontinue])

theorem not_mem_of_isIdent {c : Char} (hstart : startsWord c = false)
    (hcontinue : continuesWord c = false) (hraw : c ≠ 'r' ∧ c ≠ '#') {text : List Char}
    (h : isIdent text = true) : c ∉ text := by
  unfold isIdent at h
  split at h
  · simpa [hraw] using not_mem_of_isWord hstart hcontinue h
  · exact not_mem_of_isWord hstart hcontinue h

/-- No identifier holds a colon. -/
theorem colon_not_mem_of_isIdent {text : List Char} (h : isIdent text = true) : ':' ∉ text :=
  not_mem_of_isIdent (by decide) (by decide) (by decide) h

/-- No identifier holds a dot. -/
theorem dot_not_mem_of_isIdent {text : List Char} (h : isIdent text = true) : '.' ∉ text :=
  not_mem_of_isIdent (by decide) (by decide) (by decide) h

theorem ne_nil_of_isIdent {text : List Char} (h : isIdent text = true) : text ≠ [] := by
  rintro rfl
  simp [isIdent, isWord] at h

theorem Ident.text_ne_empty (name : Ident) : name.text ≠ "" := by
  intro hempty
  have hne := ne_nil_of_isIdent name.wellFormed
  simp [hempty] at hne

/-- What stands behind the first segment in the text of a path. -/
def pathTail : List String → List Char
  | [] => []
  | rest => ':' :: ':' :: (modulePath rest).toList

theorem toList_modulePath_cons (first : String) (rest : List String) :
    (modulePath (first :: rest)).toList = first.toList ++ pathTail rest := by
  cases rest with
  | nil => simp [modulePath, pathTail]
  | cons second rest => simp [modulePath, pathTail]

/-- The first segment is what stands in front of the first colon. -/
theorem takeWhile_append_pathTail {first : List Char} (h : ':' ∉ first) (rest : List String) :
    (first ++ pathTail rest).takeWhile (· != ':') = first := by
  have hfirst : ∀ c ∈ first, (c != ':') = true := by
    intro c hc
    simpa using fun heq : c = ':' => h (heq ▸ hc)
  rw [List.takeWhile_append_of_pos hfirst]
  cases rest <;> simp [pathTail]

theorem modulePath_nil : modulePath [] = "" := by
  simp [modulePath]

/-- The text of a path that starts with an identifier is not empty. -/
theorem modulePath_ne_of_isIdent {name : String} (h : isIdent name.toList = true)
    (rest : List String) : modulePath (name :: rest) ≠ "" := by
  intro heq
  have htext := congrArg String.toList heq
  rw [toList_modulePath_cons] at htext
  have hname := ne_nil_of_isIdent h
  simp [hname] at htext

/-- The text of a path of identifiers is not empty. -/
theorem modulePath_cons_ne {name : String} {rest : List String} (h : Identifiers (name :: rest)) :
    modulePath (name :: rest) ≠ "" :=
  modulePath_ne_of_isIdent (identifiers_cons.mp h).1 rest

/-- **The text of a path tells its segments**, if those are identifiers. -/
theorem modulePath_injective {path other : List String} (hpath : Identifiers path)
    (hother : Identifiers other) (h : modulePath path = modulePath other) : path = other := by
  induction path generalizing other with
  | nil =>
    cases other with
    | nil => rfl
    | cons name rest => exact absurd (h.symm.trans modulePath_nil) (modulePath_cons_ne hother)
  | cons first rest ih =>
    cases other with
    | nil => exact absurd (h.trans modulePath_nil) (modulePath_cons_ne hpath)
    | cons second more =>
      obtain ⟨hfirst, hrest⟩ := identifiers_cons.mp hpath
      obtain ⟨hsecond, hmore⟩ := identifiers_cons.mp hother
      have htext : first.toList ++ pathTail rest = second.toList ++ pathTail more := by
        rw [← toList_modulePath_cons, ← toList_modulePath_cons, h]
      have hchars : first.toList = second.toList := by
        rw [← takeWhile_append_pathTail (colon_not_mem_of_isIdent hfirst) rest, htext,
          takeWhile_append_pathTail (colon_not_mem_of_isIdent hsecond)]
      obtain rfl := String.toList_inj.mp hchars
      have htail : pathTail rest = pathTail more := List.append_cancel_left htext
      have hpaths : modulePath rest = modulePath more := by
        cases rest <;> cases more <;> simp [pathTail] at htail ⊢
        exact String.toList_inj.mp htail
      rw [ih hrest hmore hpaths]

/-! ### The text of a symbol -/

theorem splitAtLast_of_not_mem {c : Char} {text : List Char} (h : c ∉ text) :
    splitAtLast c text = none := by
  induction text with
  | nil => rfl
  | cons first rest ih =>
    obtain ⟨hfirst, hrest⟩ : c ≠ first ∧ c ∉ rest := by simpa using h
    rw [splitAtLast, ih hrest]
    exact if_neg (Ne.symm hfirst)

theorem splitAtLast_append {c : Char} {after : List Char} (h : c ∉ after) (before : List Char) :
    splitAtLast c (before ++ c :: after) = some (before, after) := by
  induction before with
  | nil => simp [splitAtLast, splitAtLast_of_not_mem h]
  | cons first before ih => rw [List.cons_append, splitAtLast, ih]

namespace Symbol

/-- **The text of a symbol tells it**, if there is no dot in the name of the function. -/
theorem ofQualified_qualifiedName {s : Symbol} (h : '.' ∉ s.name.toList) :
    ofQualified s.qualifiedName = s := by
  obtain ⟨package, name⟩ := s
  cases package with
  | none =>
    rw [qualifiedName, ofQualified, splitAtLast_of_not_mem h]
  | some package =>
    have htext : (qualifiedName ⟨some package, name⟩).toList =
        package.toList ++ '.' :: name.toList := by
      simp [qualifiedName]
    rw [ofQualified, htext, splitAtLast_append h]
    simp

theorem qualifiedName_ne_empty {s : Symbol} (h : s.name ≠ "") : s.qualifiedName ≠ "" := by
  obtain ⟨package, name⟩ := s
  cases package with
  | none => exact h
  | some package => simp [qualifiedName]

theorem getD_package_inPackage (package name : String) :
    (inPackage package name).package.getD "" = package := by
  simp only [inPackage]
  split
  · next h => exact h.symm
  · rfl

end Symbol

end CallAtlas
