import CallAtlas.Proofs.RelativePaths

/-!
# Functions that are known everywhere

A call of `drop` or of `u8::from` names a function that no module declares. Such a function is known in
every module, unless the module sees the name as something else. What a module sees is what it declares
itself, and what is declared by the modules of which it imports everything.

The two kinds of functions are tried at different moments. The functions of a primitive type come
first, if the module does not declare the name of the type; its glob imports are not asked. So a type
`u8` that comes from a glob import is passed over. The functions of the prelude come last, when a module
has made nothing of the name. Here glob imports count, and so do all imports that lead somewhere.

A symbol without a package may also come from elsewhere: a path into a crate without sources that
starts with a type, such as that of `use Foo::drop;`, has no module in it, and the empty text is no
package.

## Main definitions

* `Index.PassesOver` — a module makes nothing of a name.
* `Index.Universal` — a path that names a function which is known everywhere.
* `Index.Sees` — a name that a module sees.

## Main results

* `Index.fromModule_eq_none_iff` — when a module makes nothing of a name.
* `Index.resolvePath_bare_iff` — the calls that resolve to a symbol without a package.
-/

namespace CallAtlas

namespace Index

variable {i : Index} {module : List String} {name : String} {s : Scope}

/-! ### Names that a module passes over -/

/-- A module makes nothing of a name: it is not known, or it does not define the name, an import of it
is one of the name alone or leads nowhere, and no glob import leads to another module that declares
it. -/
structure PassesOver (i : Index) (module : List String) (name : String) : Prop where
  defines : i.defines (modulePath module) name = false
  imports : i.hasModule (modulePath module) = true →
    ∀ target, lookupLast name (i.imports (modulePath module)) = some target →
      target = [name] ∨ i.absolutize (stepLimit - 1) module none true target = none
  globs : i.hasModule (modulePath module) = true → ∀ target ∈ i.globs (modulePath module),
    i.supplied (stepLimit - 1) module name target = none

theorem fromModule_eq_none_iff {rest : List String} :
    i.fromModule (stepLimit - 1) module name rest = none ↔ i.PassesOver module name := by
  have himport : ((lookupLast name (i.imports (modulePath module))).bind fun target =>
        if target = [name] then none
        else (i.absolutize (stepLimit - 1) module none true target).map (· ++ rest)) = none ↔
      ∀ target, lookupLast name (i.imports (modulePath module)) = some target →
        target = [name] ∨ i.absolutize (stepLimit - 1) module none true target = none := by
    simp only [Option.bind_eq_none_iff, ite_eq_left_iff, Option.map_eq_none_iff, or_iff_not_imp_left]
  rw [fromModule_eq, globDeclaring_eq_findSome?]
  cases hdefines : i.defines (modulePath module) name with
  | true => exact iff_of_false (by simp) fun h => Bool.false_ne_true (h.defines.symm.trans hdefines)
  | false =>
    rw [if_neg Bool.false_ne_true]
    cases hmodule : i.hasModule (modulePath module) with
    | false =>
      exact iff_of_true (by simp [scope?, hmodule]) ⟨hdefines, by simp [hmodule], by simp [hmodule]⟩
    | true =>
      rw [scope?_of_hasModule hmodule, if_pos Option.isSome_some, Option.or_eq_none_iff, himport,
        Option.map_eq_none_iff, List.findSome?_eq_none_iff]
      constructor
      · rintro ⟨himports, hglobs⟩
        exact ⟨hdefines, fun _ => himports, fun _ => hglobs⟩
      · intro h
        exact ⟨h.imports hmodule, h.globs hmodule⟩

/-- A function of the prelude stands for nothing where it is no crate and the module passes over its
name. -/
theorem absolutize_prelude_iff (hname : name ∈ preludeFunctions) (selfType : Option (List String)) :
    i.absolutize stepLimit module selfType false [name] = none ↔
      i.knows name = false ∧ i.PassesOver module name := by
  have hnone : ∀ name ∈ preludeFunctions, name ∉ pathKeywords ∧ preludeTypes.lookup name = none := by
    decide
  obtain ⟨hword, htype⟩ := hnone name hname
  have hglobal : i.globalPath false name [name] = none ↔ i.knows name = false := by
    rw [globalPath, htype, knows]
    cases i.hasCrate name || i.hasExternCrate name <;> simp
  rw [stepLimit, absolutize_of_not_keyword hword, Option.or_eq_none_iff, hglobal,
    show 16 = stepLimit - 1 from rfl, fromModule_eq_none_iff, and_comm]

/-! ### Functions that are known everywhere -/

/-- A path that names a function which is known everywhere. -/
inductive Universal (i : Index) (s : Scope) : List String → String → Prop where
  | primitive {type name : String} : type ∈ primitiveTypes →
    i.declares (modulePath s.module) type = false → Universal i s [type, name] name
  | prelude {name : String} : name ∈ preludeFunctions → i.knows name = false →
    i.PassesOver s.module name → Universal i s [name] name

/-- A path that leads to a function. -/
def LeadsTo (i : Index) (s : Scope) (path : List String) (symbol : Symbol) : Prop :=
  ∃ absolute, i.absolutize stepLimit s.module s.selfType false path = some absolute ∧
    i.locate s.crate stepLimit absolute = some symbol

theorem Universal.resolvePath_eq {path : List String} (h : i.Universal s path name) :
    i.resolvePath s path = some (.bare name) := by
  cases h with
  | primitive htype hdeclares => simp [resolvePath, htype, hdeclares]
  | prelude hname hknows hover =>
    have hnone := (absolutize_prelude_iff hname s.selfType).mpr ⟨hknows, hover⟩
    simp [resolvePath, hnone, hname]

/-- Other calls by a path resolve to what that leads to. -/
theorem resolvePath_of_not_universal {path : List String} (h : ∀ n, ¬ i.Universal s path n)
    {symbol : Symbol} : i.resolvePath s path = some symbol ↔ i.LeadsTo s path symbol := by
  rw [LeadsTo, ← Option.bind_eq_some_iff]
  cases path with
  | nil => simp [resolvePath, absolutize, stepLimit, globLevels, absolutizeBy]
  | cons first rest =>
    rw [resolvePath_eq_bind]
    · intro hlength htype
      obtain ⟨method, rfl⟩ := List.length_eq_one_iff.mp hlength
      by_contra hdeclares
      exact h method (.primitive htype (by simpa using hdeclares))
    · rintro rfl hname hnone
      obtain ⟨hknows, hover⟩ := (absolutize_prelude_iff hname s.selfType).mp hnone
      exact h first (.prelude hname hknows hover)

/-! ### Other symbols without a package -/

/-- A function that is declared, or looked for, where there is no name for its package: in a module of
the empty name, or in a crate without sources by a path that starts with a type. -/
def Packageless (i : Index) (name : String) : Prop :=
  (∃ d ∈ i.declarations, d.home? = some "" ∧ d.symbol? = some (.bare name)) ∨
    ∃ root rest, i.hasCrate root = false ∧ (root = "" ∨ looksLikeType root = true) ∧
      externalSymbol (root :: rest) = some (.bare name)

theorem inPackage_eq_bare_iff {package other : String} :
    Symbol.inPackage package other = .bare name ↔ package = "" ∧ other = name := by
  simp [Symbol.inPackage, Symbol.bare]

theorem start_of_externalSymbol {root : String} {rest : List String}
    (h : externalSymbol (root :: rest) = some (.bare name)) :
    root = "" ∨ looksLikeType root = true := by
  refine or_iff_not_imp_right.mpr fun hroot => ?_
  unfold externalSymbol at h
  split at h
  · cases h
  split at h
  · cases h
  next hparents =>
  obtain ⟨hpackage, -⟩ := inPackage_eq_bare_iff.mp (Option.some.inj h)
  cases rest with
  | nil => simp at hparents
  | cons next more =>
    rw [List.dropLast_cons_cons, List.takeWhile_cons_of_pos (by simpa using hroot)] at hpackage
    have htext := congrArg String.toList hpackage
    rw [toList_modulePath_cons] at htext
    simpa using (List.append_eq_nil_iff.mp htext).1

theorem Arrives.packageless {fromCrate : String} {path : List String} {symbol : Symbol}
    (h : i.Arrives fromCrate path symbol) (hsymbol : symbol = .bare name) : i.Packageless name := by
  induction h with
  | function hroot hmem hfunction =>
    subst hsymbol
    rw [functionIn] at hfunction
    split at hfunction
    · have hbare := Option.some.inj hfunction
      refine Or.inl ⟨_, hmem, ?_, congrArg some hbare⟩
      rw [Declaration.home?, (inPackage_eq_bare_iff.mp hbare).1]
    · cases hfunction
  | associated _ h =>
    subst hsymbol
    obtain ⟨found, -, h⟩ := Option.bind_eq_some_iff.mp h
    obtain ⟨isPublic, hmethod, h⟩ := Option.bind_eq_some_iff.mp h
    split at h
    · have hbare := Option.some.inj h
      refine Or.inl ⟨_, mem_methodsOf_iff.mp (mem_of_lookupLast hmethod), ?_, congrArg some hbare⟩
      rw [Declaration.home?, (inPackage_eq_bare_iff.mp hbare).1]
    · cases h
  | imported _ _ _ _ ih => exact ih hsymbol
  | glob _ _ _ _ ih => exact ih hsymbol
  | external hroot h =>
    subst hsymbol
    exact Or.inr ⟨_, _, hroot, start_of_externalSymbol h, h⟩

/-! ### What shadows them -/

/-- A name that a module sees: the module declares it, or it imports everything, by a path in its own
crate, of a module that does. -/
inductive Sees (i : Index) (module : List String) (name : String) : Prop where
  | declared : i.declares (modulePath module) name = true → Sees i module name
  | glob {word : String} {rest base : List String} : i.hasModule (modulePath module) = true →
    word ∈ ["crate", "self", "super"] → word :: rest ∈ i.globs (modulePath module) →
      i.absolutize 1 module none true (word :: rest) = some base →
      i.declares (modulePath base) name = true → Sees i module name

/-- A name that a module declares only by an import of the name alone, or of a path that leads
nowhere. -/
def IdleImport (i : Index) (module : List String) (name : String) : Prop :=
  i.defines (modulePath module) name = false ∧
    ∃ target, lookupLast name (i.imports (modulePath module)) = some target ∧
      (target = [name] ∨ i.absolutize 1 module none true target = none)

/-- A path by `crate`, `self` or `super` is read in one step. -/
theorem absolutize_of_relative {word : String} (h : word ∈ ["crate", "self", "super"])
    (steps : Nat) (rest : List String) :
    i.absolutize (steps + 1) module none true (word :: rest) =
      i.absolutize 1 module none true (word :: rest) := by
  rw [absolutize_succ_cons, absolutize_succ_cons]
  simp only [List.mem_cons, List.not_mem_nil, or_false] at h
  obtain rfl | rfl | rfl := h
  all_goals rfl

theorem PassesOver.idleImport (h : i.PassesOver module name)
    (hdeclares : i.declares (modulePath module) name = true) : i.IdleImport module name := by
  refine ⟨h.defines, ?_⟩
  rcases declares_iff.mp hdeclares with hdefines | ⟨hscope, hbound⟩
  · rw [h.defines] at hdefines
    cases hdefines
  have hmodule : i.hasModule (modulePath module) = true := by
    simpa [scope?] using hscope
  obtain ⟨target, htarget⟩ := Option.ne_none_iff_exists'.mp hbound
  refine ⟨target, htarget, (h.imports hmodule target htarget).imp_right fun hnone => ?_⟩
  have hsteps : (i.absolutize (15 + 1) module none true target).isSome =
      (i.absolutize 1 module none true target).isSome := isSome_absolutize_succ 15 target
  rw [stepLimit] at hnone
  rw [hnone, Option.isSome_none] at hsteps
  exact Option.not_isSome_iff_eq_none.mp (by simp [← hsteps])

/-- What a module sees and passes over all the same is an import that is good for nothing. -/
theorem PassesOver.of_sees (h : i.PassesOver module name) (hsees : i.Sees module name) :
    i.IdleImport module name := by
  cases hsees with
  | declared hdeclares => exact h.idleImport hdeclares
  | @glob word rest base hmodule hword hglob hbase hdeclares =>
    have hnone := h.globs hmodule _ hglob
    by_cases heq : base = module
    · exact h.idleImport (heq ▸ hdeclares)
    · have hsupplied : i.supplied (stepLimit - 1) module name (word :: rest) = some base :=
        supplied_eq_some_iff.mpr ⟨(absolutize_of_relative hword 15 rest).trans hbase, heq, hdeclares⟩
      rw [hnone] at hsupplied
      cases hsupplied

/-- **Functions that are known everywhere.** A call by a path resolves to a symbol without a package if
it names such a function, or else if it leads to a function of which there is no package to name. The
name of a function of the prelude is then not one that the module sees, an import apart that is good
for nothing; and the name of a primitive type is not one that the module declares. -/
theorem resolvePath_bare_iff (i : Index) (s : Scope) (path : List String) (name : String) :
    (i.resolvePath s path = some (.bare name) ↔
      i.Universal s path name ∨ (∀ n, ¬ i.Universal s path n) ∧ i.LeadsTo s path (.bare name)) ∧
    (i.LeadsTo s path (.bare name) → i.Packageless name) ∧
    (∀ first, path = [first] → i.Universal s path name → i.Sees s.module first →
      i.IdleImport s.module first) ∧
    ∀ first second, path = [first, second] → i.Universal s path name →
      i.declares (modulePath s.module) first = false := by
  refine ⟨⟨fun h => ?_, ?_⟩, ?_, ?_, ?_⟩
  · by_cases huniversal : ∃ n, i.Universal s path n
    · obtain ⟨n, hn⟩ := huniversal
      obtain rfl : n = name := by simpa [hn.resolvePath_eq, Symbol.bare] using h
      exact Or.inl hn
    · have hnone := not_exists.mp huniversal
      exact Or.inr ⟨hnone, (resolvePath_of_not_universal hnone).mp h⟩
  · rintro (huniversal | ⟨hnone, hleads⟩)
    · exact huniversal.resolvePath_eq
    · exact (resolvePath_of_not_universal hnone).mpr hleads
  · rintro ⟨absolute, -, hlocate⟩
    exact (arrives_of_locate hlocate).packageless rfl
  · rintro first rfl huniversal hsees
    cases huniversal with
    | prelude _ _ hover => exact hover.of_sees hsees
  · rintro first second rfl huniversal
    cases huniversal with
    | primitive _ hdeclares => exact hdeclares

namespace Types

def types : Ident := ⟨"types", by decide⟩

def byte : Ident := ⟨"u8", by decide⟩

def make : Name := ⟨⟨"make", by decide⟩, by decide⟩

def drop : Name := ⟨⟨"drop", by decide⟩, by decide⟩

/-- `pub mod types { pub struct u8; impl u8 { pub fn make() {} } pub fn drop() {} }` and
`use crate::types::*;`. -/
def program : Program where
  units := [crateRoot "demo"
    [.module ⟨false, none⟩ types []
      [.type byte [], .impl (.path false [byte]) false [] [.function true (.mk make [] [] [])],
        .function true (.mk drop [] [] [])],
      .use (.path Relay.crateWord (.path types .glob)) []]]
  externs := []

/-- `use drop;`. -/
def idle : Program where
  units := [crateRoot "demo" [.use (.name drop) []]]
  externs := []

theorem sees {name : String}
    (h : (ofProgram program).declares (modulePath ["demo", "types"]) name = true) :
    (ofProgram program).Sees ["demo"] name :=
  @Sees.glob _ _ _ "crate" ["types"] ["demo", "types"] (by decide) (by decide) (by decide) (by decide) h

end Types

/-- The functions of a type `u8` that a glob import brings are not found. A function `drop` that it
brings is, but not the import of the name alone. -/
theorem primitive_past_glob :
    let i := ofProgram Types.program
    let s : Scope := ⟨["demo"], none⟩
    i.Sees ["demo"] "u8" ∧ i.resolvePath s ["u8", "make"] = some (.bare "make") ∧
      i.resolvePath s ["types", "u8", "make"] = some ⟨some "demo::types", "make"⟩ ∧
      i.Sees ["demo"] "drop" ∧ i.resolvePath s ["drop"] = some ⟨some "demo::types", "drop"⟩ ∧
      (ofProgram Types.idle).Sees ["demo"] "drop" ∧
      (ofProgram Types.idle).resolvePath s ["drop"] = some (.bare "drop") := by
  refine ⟨Types.sees (by decide), ?_, ?_, Types.sees (by decide), ?_, .declared (by decide), ?_⟩
  all_goals decide

end Index

end CallAtlas
