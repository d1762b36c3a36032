import CallAtlas.Index
import CallAtlas.Symbol
import CallAtlas.Text.Uppercase

/-!
# Resolving calls

A call names a function by a path or by the name of a method. Both are resolved without types: a
path is followed through modules and imports, a method is found by its name alone. What cannot be
placed resolves to nothing; that is no error.

A path is resolved in two steps. `absolutize` turns it into a path from a crate root, by what the
module declares and imports where it is written. `locate` then follows that path to the function.
Both may be sent elsewhere by an import, which may send them elsewhere again; a limit on the number
of such steps ends circles.

Among the steps of `absolutize` are those for the module's own glob imports, at every level of the
limit again. They do not depend on the path that is asked for, so `globLevels` lists them once for
each level.

## Main definitions

* `Scope` — where a call stands.
* `Index.resolvePath`, `Index.resolveMethod` — the function that a call names.
-/

namespace CallAtlas

/-- Where a call stands. -/
structure Scope where
  /-- The path of the module. -/
  module : List String
  /-- Inside an `impl` block or a trait, the path of its type, as written. -/
  selfType : Option (List String)

namespace Scope

/-- The crate that the scope belongs to. -/
def crate (s : Scope) : String :=
  s.module.headD ""

end Scope

/-! ### Names that are known without a declaration -/

/-- Functions that are known everywhere. -/
def preludeFunctions : List String :=
  ["drop", "size_of", "size_of_val", "align_of", "align_of_val"]

/-- Types that are known everywhere and have no module. -/
def primitiveTypes : List String :=
  ["bool", "char", "str", "u8", "u16", "u32", "u64", "u128", "usize", "i8", "i16", "i32", "i64",
    "i128", "isize", "f32", "f64"]

/-- Types and traits that are known everywhere, and the modules of the standard library that declare
them. -/
def preludeTypes : List (String × String) :=
  [("Vec", "vec"), ("String", "string"), ("ToString", "string"), ("Box", "boxed"),
    ("Option", "option"), ("Result", "result"), ("Default", "default"), ("Clone", "clone"),
    ("ToOwned", "borrow"), ("Iterator", "iter"), ("IntoIterator", "iter"),
    ("DoubleEndedIterator", "iter"), ("ExactSizeIterator", "iter"), ("Extend", "iter"),
    ("FromIterator", "iter"), ("From", "convert"), ("Into", "convert"), ("TryFrom", "convert"),
    ("TryInto", "convert"), ("AsRef", "convert"), ("AsMut", "convert"), ("PartialEq", "cmp"),
    ("Eq", "cmp"), ("PartialOrd", "cmp"), ("Ord", "cmp"), ("Drop", "ops")]

/-- Does a name look like that of a type? It starts with an upper-case letter. -/
def looksLikeType (name : String) : Bool :=
  name.toList.head?.any CharClass.uppercase.contains

/-- The crate that a module belongs to, by the name of the module. -/
def crateOfModule (module : String) : String :=
  String.ofList (go module.toList)
where
  /-- The characters before the first `::`. -/
  go : List Char → List Char
    | ':' :: ':' :: _ => []
    | c :: rest => c :: go rest
    | [] => []

namespace Index

/-- The function that a path into a crate without sources names: the package is the path up to the
first type, and the name is the last one. -/
def externalSymbol (path : List String) : Option Symbol :=
  match path.getLast? with
  | none => none
  | some name =>
    if path.dropLast.isEmpty || looksLikeType name then none
    else some (.inPackage (modulePath (path.dropLast.takeWhile (!looksLikeType ·))) name)

/-! ### Paths from a crate root -/

/-- The path that `super::super::...` leads to from a module; the crate root has no parent. -/
def fromParents (module : List String) : List String → Option (List String)
  | [] => some module
  | name :: rest =>
    if name = "super" then
      if module.length ≤ 1 then none else fromParents module.dropLast rest
    else some (module ++ name :: rest)

/-- The first of the glob imports of a module, given as the paths that they lead to, that leads to
another module which declares the name. -/
def globDeclaring (i : Index) (module : List String) (name : String)
    (bases : List (Option (List String))) : Option (List String) :=
  bases.findSome? fun base =>
    base.filter fun path => path != module && i.declares (modulePath path) name

/-- The path that a name which is declared nowhere around stands for: a crate, something of the
standard library, or, at the start of an import, a crate that nothing else is known of. -/
def globalPath (i : Index) (fromUse : Bool) (name : String) (segments : List String) :
    Option (List String) :=
  if i.hasCrate name || i.hasExternCrate name then some segments
  else
    match preludeTypes.lookup name with
    | some module => some ("std" :: module :: segments)
    | none => if fromUse then some segments else none

/-- The path from a crate root that a path in a module stands for. `levels` lists, for each step
that is left, what the glob imports of the module lead to after it. -/
def absolutizeBy (i : Index) (module : List String) (scope : Option ModuleScope) :
    List (List (Option (List String))) → Option (List String) → Bool → List String →
      Option (List String)
  | [], _, _, _ => none
  | _ :: _, _, _, [] => none
  | bases :: lower, selfType, fromUse, first :: rest =>
    if first = "crate" then if module.isEmpty then none else some (module.take 1 ++ rest)
    else if first = "self" then some (module ++ rest)
    else if first = "super" then fromParents module (first :: rest)
    else if first = "Self" then
      match selfType with
      | some type => (absolutizeBy i module scope lower none false type).map (· ++ rest)
      | none => none
    else
      let found : Option (List String) :=
        match scope with
        | none => none
        | some names =>
          if names.defines first then some (module ++ first :: rest)
          else
            let imported : Option (List String) :=
              match lookupLast first names.imports with
              | some target =>
                if target = [first] then none
                else (absolutizeBy i module scope lower none true target).map (· ++ rest)
              | none => none
            match imported with
            | some path => some path
            | none => (globDeclaring i module first bases).map (· ++ first :: rest)
      match found with
      | some path => some path
      | none => globalPath i fromUse first (first :: rest)

/-- What the glob imports of a module lead to, for each number of steps that is left. -/
def globLevels (i : Index) (module : List String) (scope : Option ModuleScope) :
    Nat → List (List (Option (List String)))
  | 0 => []
  | steps + 1 =>
    let lower := globLevels i module scope steps
    let globs := (scope.map (·.globs)).getD []
    globs.map (fun path => absolutizeBy i module scope lower none true path) :: lower

/-- The path from a crate root that a path in a module stands for, in so many steps. -/
def absolutize (i : Index) (steps : Nat) (module : List String) (selfType : Option (List String))
    (fromUse : Bool) (path : List String) : Option (List String) :=
  let scope := i.scope? (modulePath module)
  absolutizeBy i module scope (globLevels i module scope steps) selfType fromUse path

/-! ### From a path to a function -/

/-- The function `type::name`, where the type is declared in a module. The `impl` block may stand in
another module; the first of those by name counts. -/
def associated (i : Index) (module type name fromCrate : String) : Option Symbol :=
  let methods := i.methodsOf type name
  let declaring := if (methods.map Prod.fst).contains module then some module
    else leastText? (methods.map Prod.fst)
  declaring.bind fun found =>
    (lookupLast found methods).bind fun isPublic =>
      if isPublic || crateOfModule found == fromCrate then some (.inPackage found name) else none

/-- The function of a module, if it can be called from a crate. -/
def functionIn (module : List String) (fromCrate name : String) (isPublic : Bool) : Option Symbol :=
  if isPublic || module.headD "" == fromCrate then some (.inPackage (modulePath module) name)
  else none

/-- Goes on where the imports of a module lead for a name, by `next`, in so many steps. Globs come
after all others. -/
def redirect (i : Index) (steps : Nat) (next : List String → Option Symbol) (module : List String)
    (scope : ModuleScope) (name : String) (rest : List String) : Option Symbol :=
  match lookupLast name scope.imports with
  | some target =>
    (i.absolutize steps module none true target).bind fun path => next (path ++ rest)
  | none =>
    let bases := scope.globs.map (i.absolutize steps module none true)
    (globDeclaring i module name bases).bind fun path => next (path ++ name :: rest)

/-- Follows names from a module on. Where an import leads elsewhere, `next` follows the path from
there. -/
def follow (i : Index) (fromCrate : String) (steps : Nat) (next : List String → Option Symbol)
    (module : List String) : List String → Option Symbol
  | [] => none
  | name :: rest =>
    match i.scope? (modulePath module) with
    | none => none
    | some scope =>
      match rest with
      | [] =>
        match lookupLast name scope.functions with
        | some isPublic => functionIn module fromCrate name isPublic
        | none => i.redirect steps next module scope name rest
      | method :: more =>
        if scope.modules.contains name then follow i fromCrate steps next (module ++ [name]) rest
        else if scope.types.contains name then
          if more.isEmpty then i.associated (modulePath module) name method fromCrate else none
        else i.redirect steps next module scope name rest

/-- The function that a path from a crate root names, in so many steps. -/
def locate (i : Index) (fromCrate : String) : Nat → List String → Option Symbol
  | 0, _ => none
  | _, [] => none
  | steps + 1, root :: rest =>
    if i.hasCrate root then follow i fromCrate steps (locate i fromCrate steps) [root] rest
    else externalSymbol (root :: rest)

/-! ### Calls -/

/-- The number of steps in which a path is resolved: sixteen may be taken by imports. -/
def stepLimit : Nat := 17

/-- The function that a path names. -/
def resolvePath (i : Index) (s : Scope) (path : List String) : Option Symbol :=
  match path with
  | [] => none
  | first :: rest =>
    match rest with
    | [name] =>
      if primitiveTypes.contains first && !i.declares (modulePath s.module) first then
        some (.bare name)
      else (i.absolutize stepLimit s.module s.selfType false path).bind
        (i.locate s.crate stepLimit)
    | _ =>
      match i.absolutize stepLimit s.module s.selfType false path with
      | some absolute => i.locate s.crate stepLimit absolute
      | none =>
        if rest.isEmpty && preludeFunctions.contains first then some (.bare first) else none

/-- The only one of some texts, repetitions apart. -/
def only? : List String → Option String
  | [] => none
  | first :: rest => if rest.all (· == first) then some first else none

/-- The function that the name of a method stands for. On `self`, methods of the type around the
call come first. Otherwise the module of the call is preferred, then the only module that declares
such a method, then the only one with a trait that does. -/
def resolveMethod (i : Index) (s : Scope) (onSelf : Bool) (name : String) : Option Symbol :=
  let here := modulePath s.module
  let ofSelf : List String :=
    match onSelf, s.selfType.bind List.getLast? with
    | true, some type => (i.methodsOf type name).map Prod.fst
    | _, _ => []
  let candidates := i.methodModules name
  if ofSelf.contains here then some (.inPackage here name)
  else
    match leastText? ofSelf with
    | some module => some (.inPackage module name)
    | none =>
      if candidates.contains here then some (.inPackage here name)
      else
        match only? candidates with
        | some module => some (.inPackage module name)
        | none =>
          if candidates.isEmpty then none
          else (only? (i.traitModules name)).map (.inPackage · name)

end Index

end CallAtlas
