import CallAtlas.Grammar.Statement

/-!
# Items

Declarations in a file, a module or a block, and the members of traits, `impl` blocks and foreign
blocks.

Some forms are accepted although the language gives them no meaning, such as a function without a
body outside of a trait. They are read in full and then dropped: they declare nothing, and nothing
in them is looked into.

## Main definitions

* `signature` — the head of a function.
* `member`s of traits (`traitMember`), of `impl` blocks (`implMember`) and of foreign blocks
  (`foreignMember`).
* `item` — an item, behind its attributes.
-/

namespace CallAtlas

namespace Production

open CallAtlas.Parser

/-! ### Visibility -/

/-- How far an item can be seen. -/
inductive Visibility where
  | inherited
  | everywhere
  /-- `pub(...)`. -/
  | restricted
  deriving DecidableEq

/-- The visibility of an item. Parentheses that hold no restriction belong to what follows. -/
def visibility : Parser Visibility := do
  if ← word? "pub" then
    let ts ← ahead
    let inner : Tokens := if ts.group .paren then ts.inner else []
    if inner.oneOf ["crate", "self", "super"] && inner.length == 1 then
      advance 1
      return .restricted
    else if inner.word "in" then
      group .paren do
        word "in"
        let _ ← barePath
      return .restricted
    else return .everywhere
  else return .inherited

/-- The trees ahead, behind a visibility. -/
def aheadOfVisibility : Parser (Visibility × Tokens) := do
  let start ← get
  let found ← visibility
  let ts ← ahead
  set start
  return (found, ts)

/-- Fails at the first of these trees, which are ahead behind some others. -/
def failAt {α : Type} (ts : Tokens) : Parser α := do
  match ts with
  | [] => throw (← read)
  | t :: _ => throw t.place

/-! ### Functions -/

/-- The head of a function. -/
structure Signature where
  /-- Its name. -/
  name : Name
  /-- The expressions in it. -/
  parts : List Expr
  /-- Its parameters, without their types. -/
  params : List Pattern

/-- Is a string literal ahead? -/
def opensText (ts : Tokens) : Bool :=
  (ts.literal?.bind LiteralValue.text?).isSome

/-- The trees behind the words that may stand in front of `fn`. -/
def skipQualifiers (safe : Bool) (ts : Tokens) : Tokens :=
  let drop (text : String) (ts : Tokens) : Tokens := if ts.word text then ts.skip 1 else ts
  let ts := drop "async" (drop "const" ts)
  let ts := if safe && ts.word "safe" then ts.skip 1 else drop "unsafe" ts
  if ts.word "extern" then
    let ts := ts.skip 1
    if opensText ts then ts.skip 1 else ts
  else ts

/-- Does a function start here? The flag says whether `safe` may stand in front. -/
def opensFunction (safe : Bool) (ts : Tokens) : Bool :=
  (skipQualifiers safe ts).word "fn"

/-- A parameter of a function that has been read. -/
inductive Parameter where
  /-- A receiver, whose `self` stands at a place. -/
  | receiver (place : Place) (parts : List Expr)
  | typed (pattern : Pattern) (parts : List Expr)
  /-- The `...` for more arguments. -/
  | variadic (parts : List Expr)

/-- Does a receiver stand here? A path may start with `self` as well. -/
def opensReceiver (ts : Tokens) : Bool :=
  let ts := if ts.mark "&" then if (ts.skip 1).lifetime then ts.skip 2 else ts.skip 1 else ts
  let ts := if ts.word "mut" then ts.skip 1 else ts
  ts.word "self" && !(ts.skip 1).mark "::"

/-- A receiver: `self`, perhaps by reference or with a type. Gives the place of `self` and the
expressions in the type. -/
def receiver (g : Grammar) : Parser (Place × List Expr) := do
  let byRef ← mark? "&"
  if byRef && (← ahead).lifetime then advance 1
  let _ ← word? "mut"
  let place ← here
  word "self"
  if byRef then return (place, [])
  else if ← mark? ":" then return (place, (← g.type true).parts)
  else return (place, [])

/-- A parameter of a function. A type alone is taken for one if it is a name with arguments. -/
def parameter (g : Grammar) : Parser Parameter := do
  let attrs := values (← outerAttributes g)
  if ← mark? "..." then return .variadic attrs
  let ts ← ahead
  if opensReceiver ts then
    let (place, parts) ← receiver g
    return .receiver place (attrs ++ parts)
  else if ts.name && (ts.skip 1).mark "<" then
    return .typed .empty (attrs ++ (← g.type true).parts)
  else
    let pattern := (← g.pattern).pattern
    mark ":"
    if ← mark? "..." then return .variadic (attrs ++ pattern.exprs)
    else return .typed pattern (attrs ++ pattern.exprs ++ (← g.type true).parts)

/-- The parameters of a function: the expressions in them, and their patterns. A receiver comes
first, and nothing follows `...`. -/
def parameters (g : Grammar) : Parser (List Expr × List Pattern) := do
  let (parts, patterns, _, _) ← iterate (fun (parts, patterns, first, more) => do
    if !more || (← atEnd) then return none
    match ← parameter g with
    | .variadic found =>
      if !(← atEnd) then mark ","
      return some (parts ++ found, patterns, false, false)
    | .receiver place found =>
      if !first then throw place
      if ← atEnd then return some (parts ++ found, patterns, false, false)
      mark ","
      return some (parts ++ found, patterns, false, true)
    | .typed pattern found =>
      let patterns := patterns ++ [pattern]
      if ← atEnd then return some (parts ++ found, patterns, false, false)
      mark ","
      return some (parts ++ found, patterns, false, true))
    (([] : List Expr), ([] : List Pattern), true, true)
  return (parts, patterns)

/-- The head of a function, from the words in front of `fn` on. -/
def signature (g : Grammar) (safe : Bool) : Parser Signature := do
  let ts ← ahead
  advance (ts.length - (skipQualifiers safe ts).length)
  word "fn"
  let name ← name
  let generics ← genericParameters g
  let (inputs, params) ← group .paren (parameters g)
  let output ← returnType g true
  let predicates ← whereClause g
  return ⟨name, generics ++ predicates ++ inputs ++ output, params⟩

/-- The body of a function, behind its head. -/
def functionBody (g : Grammar) (attributes : List Attribute) (head : Signature) :
    Parser Function := do
  let (inner, body) ← attributedBlock g
  return .mk head.name (values attributes ++ inner ++ head.parts) head.params body

/-! ### Constants, types and macros -/

/-- A constant: the expressions in it. It is `none` if it has generic parameters or a `where`
clause, or no value where one is required. -/
def constant (g : Grammar) (valueRequired : Bool) : Parser (Option (List Expr)) := do
  let _ ← nameOr ["_"]
  let isGeneric := (← ahead).mark "<"
  let _ ← genericParameters g
  mark ":"
  let type ← g.type true
  let value ← if ← mark? "=" then (fun e => [e]) <$> g.expr true else pure []
  let isConstrained := (← ahead).word "where"
  let _ ← whereClause g
  mark ";"
  if isGeneric || isConstrained || valueRequired && value.isEmpty then return none
  else return some (type.parts ++ value)

/-- A type declaration that has been read. -/
structure TypeDeclaration where
  /-- Its name. -/
  name : Ident
  /-- The expressions in its generic parameters and its `where` clause. -/
  generics : List Expr
  /-- The expressions in its bounds, if there is a colon for them. -/
  bounds : Option (List Expr)
  /-- The expressions in the type that it stands for. -/
  definition : Option (List Expr)

/-- Where a `where` clause may stand in a type declaration. -/
structure WhereRules where
  /-- In front of `=`. -/
  before : Bool
  /-- Behind the definition. -/
  after : Bool

/-- A type declaration, from `type` on. -/
def typeDeclaration (g : Grammar) (rules : WhereRules) : Parser TypeDeclaration := do
  word "type"
  let name ← name
  let generics ← genericParameters g
  let bounds ← if ← mark? ":" then
      let stop (ts : Tokens) : Bool := ts.word "where" || ts.mark "=" || ts.mark ";"
      some <$> terminated stop "+" (g.bound ⟨false, true⟩)
    else pure none
  let constrained := rules.before && (← ahead).word "where"
  let first ← if rules.before then whereClause g else pure []
  let definition ← if ← mark? "=" then (fun type => some type.parts) <$> g.type true else pure none
  let second ← if rules.after && !constrained then whereClause g else pure []
  mark ";"
  let bounds := bounds.map fun found => found.flatMap (·.parts)
  return ⟨name, generics ++ first ++ second, bounds, definition⟩

/-- May a macro stand here as an item or a member? -/
def opensMacro (ts : Tokens) : Bool :=
  ts.name || ts.oneOf ["self", "super", "crate"] || ts.mark "::"

/-- A macro as an item or a member; the flag says whether a name may stand behind `!`. Without
braces it is ended by a semicolon. -/
def macroItem (g : Grammar) (named : Bool) : Parser Expr := do
  let (rooted, names) ← barePath
  mark "!"
  if named && ((← ahead).name || (← ahead).word "try") then advance 1
  let e ← invocationOf g ⟨.plain rooted, names, [], true, true⟩
  if needsSemicolon e then mark ";"
  return e

/-! ### Structs, enums and unions -/

/-- The fields of a struct in braces. A field without a name may hold a struct of its own, which is
not looked into; the number bounds their depth. -/
def namedFields (g : Grammar) : Nat → Parser (List Expr)
  | 0 => fail
  | depth + 1 => do
    let fields ← group .brace <| commaList do
      let attrs := values (← outerAttributes g)
      let _ ← visibility
      let unnamed := (← ahead).word "_"
      let _ ← nameOr ["_"]
      mark ":"
      let ts ← ahead
      if unnamed && (ts.word "struct" || ts.word "union" && (ts.skip 1).group .brace) then
        advance 1
        let _ ← namedFields g depth
        return attrs
      else return attrs ++ (← g.type true).parts
    return fields.flatten

/-- The fields of a struct in braces. -/
def fieldsInBraces (g : Grammar) : Parser (List Expr) := do
  namedFields g (Tree.sizeList (← ahead))

/-- The fields of a struct in parentheses. -/
def fieldsInParens (g : Grammar) : Parser (List Expr) := do
  let fields ← group .paren <| commaList do
    let attrs := values (← outerAttributes g)
    let _ ← visibility
    return attrs ++ (← g.type true).parts
  return fields.flatten

/-- A struct, from its name on. -/
def structItem (g : Grammar) : Parser (Ident × List Expr) := do
  let name ← name
  let generics ← genericParameters g
  let constrained := (← ahead).word "where"
  let predicates ← whereClause g
  let ts ← ahead
  if !constrained && ts.group .paren then
    let fields ← fieldsInParens g
    let predicates ← whereClause g
    mark ";"
    return (name, generics ++ predicates ++ fields)
  else if ts.group .brace then
    return (name, generics ++ predicates ++ (← fieldsInBraces g))
  else
    mark ";"
    return (name, generics ++ predicates)

/-- A variant of an enum. -/
def variant (g : Grammar) : Parser (List Expr) := do
  let attrs := values (← outerAttributes g)
  let _ ← visibility
  let _ ← name
  let ts ← ahead
  let fields ←
    if ts.group .brace then fieldsInBraces g
    else if ts.group .paren then fieldsInParens g
    else pure []
  let discriminant ← if ← mark? "=" then (fun e => [e]) <$> g.expr true else pure []
  return attrs ++ fields ++ discriminant

/-- An enum, from its name on. -/
def enumItem (g : Grammar) : Parser (Ident × List Expr) := do
  let name ← name
  let generics ← genericParameters g
  let predicates ← whereClause g
  let variants ← group .brace (commaList (variant g))
  return (name, generics ++ predicates ++ variants.flatten)

/-- A union, from its name on. -/
def unionItem (g : Grammar) : Parser (Ident × List Expr) := do
  let name ← name
  let generics ← genericParameters g
  let predicates ← whereClause g
  return (name, generics ++ predicates ++ (← fieldsInBraces g))

/-! ### Traits -/

/-- A function of a trait, which may have no body. -/
def traitFunction (g : Grammar) (attributes : List Attribute) : Parser Member := do
  let head ← signature g false
  if (← ahead).group .brace then
    return .function false (← functionBody g attributes head)
  else
    mark ";"
    return .required head.name (values attributes ++ head.parts)

/-- A member of a trait. It is dropped if it has a visibility or a `default`. -/
def traitMember (g : Grammar) : Parser Member := do
  let attributes ← outerAttributes g
  let visible ← visibility
  let hasDefault ← word? "default"
  let isPlain := visible == .inherited && !hasDefault
  let ts ← ahead
  let next := ts.skip 1
  let found ←
    if opensFunction false ts then traitFunction g attributes
    else if ts.word "const" then
      if next.name || next.word "_" then
        advance 1
        let parts ← constant g false
        pure (.other (parts.map (values attributes ++ ·) |>.getD []))
      else if next.oneOf ["async", "unsafe", "extern", "fn"] then traitFunction g attributes
      else failAt next
    else if ts.word "type" then
      let declared ← typeDeclaration g ⟨false, true⟩
      let parts := declared.generics ++ declared.bounds.getD [] ++ declared.definition.getD []
      pure (.other (values attributes ++ parts))
    else if isPlain && opensMacro ts then
      pure (.other [attach attributes (← macroItem g false)])
    else fail
  return if isPlain then found else .other []

/-- The members of a trait, with its inner attributes. -/
def traitBody (g : Grammar) : Parser (List Expr × List Member) :=
  group .brace do
    let attributes ← innerAttributes g
    return (values attributes, ← repeatWhile (!·.isEmpty) (traitMember g))

/-- A trait, from its name on; its generic parameters have been read. -/
def traitRest (g : Grammar) (attributes : List Attribute) (visible : Visibility) (name : Ident)
    (generics : List Expr) : Parser Item := do
  let stop (ts : Tokens) : Bool := ts.word "where" || ts.group .brace
  let parents ← if ← mark? ":" then terminated stop "+" (g.bound ⟨false, true⟩) else pure []
  let predicates ← whereClause g
  let (inner, members) ← traitBody g
  let parts := values attributes ++ inner ++ generics ++ predicates ++ parents.flatMap (·.parts)
  return .trait (visible == .everywhere) name parts members

/-- A trait or an alias for bounds, from its name on. -/
def traitOrAlias (g : Grammar) (attributes : List Attribute) (visible : Visibility) :
    Parser Item := do
  let name ← name
  let generics ← genericParameters g
  let ts ← ahead
  if ts.group .brace || ts.mark ":" || ts.word "where" then
    traitRest g attributes visible name generics
  else
    mark "="
    let stop (ts : Tokens) : Bool := ts.word "where" || ts.mark ";"
    let bounds ← terminated stop "+" (g.bound ⟨false, false⟩)
    let predicates ← whereClause g
    mark ";"
    return .type name (values attributes ++ generics ++ predicates ++ bounds.flatMap (·.parts))

/-! ### `impl` blocks -/

/-- A member of an `impl` block. -/
def implMember (g : Grammar) : Parser Member := do
  let attributes ← outerAttributes g
  let start ← get
  let visible ← visibility
  let hasDefault := (← ahead).word "default" && !((← ahead).skip 1).mark "!"
  if hasDefault then advance 1
  let ts ← ahead
  if opensFunction false ts then
    let head ← signature g false
    if ← mark? ";" then return .other []
    else return .function (visible == .everywhere) (← functionBody g attributes head)
  else if ts.word "const" then
    advance 1
    let parts ← constant g true
    return .other (parts.map (values attributes ++ ·) |>.getD [])
  else if ts.word "type" then
    let declared ← typeDeclaration g ⟨false, true⟩
    match declared.bounds, declared.definition with
    | none, some definition => return .other (values attributes ++ declared.generics ++ definition)
    | _, _ => return .other []
  else if visible == .inherited && !hasDefault && opensMacro ts then
    set start
    return .other [attach attributes (← macroItem g false)]
  else fail

/-- An `impl` block. One with a visibility, with `const`, or for something that is no trait, is
dropped. -/
def implItem (g : Grammar) (attributes : List Attribute) : Parser Item := do
  let visible ← visibility
  let _ ← word? "default"
  let _ ← word? "unsafe"
  word "impl"
  let generics ← if opensGenerics (← ahead) then genericParameters g else pure []
  let ts ← ahead
  let isConst := ts.word "const" || ts.mark "?" && (ts.skip 1).word "const"
  if isConst then
    let _ ← mark? "?"
    word "const"
  let place ← here
  let isNegative := (← ahead).mark "!" && !((← ahead).skip 1).group .brace
  if isNegative then advance 1
  let first ← g.type true
  let target ← if ← word? "for" then some <$> g.type true
    else if isNegative then throw place
    else pure none
  let predicates ← whereClause g
  let (inner, members) ← group .brace do
    let attributes ← innerAttributes g
    return (values attributes, ← repeatWhile (!·.isEmpty) (implMember g))
  let ofTrait := first.kind == .name || first.kind == .path
  if visible != .inherited || isConst || target.isSome && !ofTrait then return .other []
  else
    let head := values attributes ++ inner ++ generics ++ predicates ++ first.parts
    match target with
    | some type => return .impl type.form true (head ++ type.parts) members
    | none => return .impl first.form false head members

/-! ### Foreign blocks -/

/-- A member of a foreign block: the expressions in it. -/
def foreignMember (g : Grammar) : Parser (List Expr) := do
  let attributes ← outerAttributes g
  let attrs := values attributes
  let (visible, ts) ← aheadOfVisibility
  let next := ts.skip 1
  if opensFunction true ts then
    let _ ← visibility
    let hasSafe := ((skipQualifiers false ts).word "safe")
    let head ← signature g true
    if (← ahead).group .brace then
      let _ ← attributedBlock g
      return []
    else
      mark ";"
      return if hasSafe then [] else attrs ++ head.parts
  else if ts.word "static" || ts.oneOf ["unsafe", "safe"] && next.word "static" then
    let _ ← visibility
    let marked := !ts.word "static"
    if marked then advance 1
    word "static"
    let _ ← word? "mut"
    let _ ← name
    mark ":"
    let type ← g.type true
    let hasValue ← mark? "="
    if hasValue then
      let _ ← g.expr true
    mark ";"
    return if marked || hasValue then [] else attrs ++ type.parts
  else if ts.word "type" then
    let _ ← visibility
    let declared ← typeDeclaration g ⟨true, true⟩
    if declared.bounds.isSome || declared.definition.isSome then return []
    else return attrs ++ declared.generics
  else if visible == .inherited && opensMacro ts then
    return [attach attributes (← macroItem g false)]
  else failAt ts

/-- A block of foreign declarations. -/
def foreignItem (g : Grammar) (attributes : List Attribute) : Parser Item := do
  let _ ← word? "unsafe"
  if !(← ahead).word "extern" then fail
  callingConvention
  let (inner, members) ← group .brace do
    let attributes ← innerAttributes g
    return (values attributes, ← repeatWhile (!·.isEmpty) (foreignMember g))
  return .other (values attributes ++ inner ++ members.flatten)

/-! ### Imports -/

/-- A name or `_` behind `as`. -/
def newName : Parser Ident :=
  nameOr ["_"]

/-- Several trees of an import in braces. Those that start with `::` are dropped with the whole. -/
def useGroup (g : Grammar) (allowRoot : Bool) : Parser (Option UseTree) := do
  let trees ← group .brace <| commaList do
    let rooted ← if allowRoot then mark? "::" else pure false
    let tree ← g.useTree (allowRoot && !rooted)
    return if rooted then none else tree
  return .group <$> trees.mapM id

/-- The tree of an import. It is `none` if a part in braces starts with `::`, as the flag allows. -/
def useTree (g : Grammar) (allowRoot : Bool) : Parser (Option UseTree) := do
  let ts ← ahead
  if ts.name || ts.oneOf ["self", "super", "crate", "try"] then
    let name ← anyWord
    if ← mark? "::" then return .path name <$> (← g.useTree false)
    else if ← word? "as" then return some (.rename name (← newName))
    else return some (.name name)
  else if ← mark? "*" then return some .glob
  else if ts.group .brace then useGroup g allowRoot
  else fail

/-- An import, from `use` on. -/
def useItem (g : Grammar) (attributes : List Attribute) : Parser Item := do
  word "use"
  let rooted ← mark? "::"
  let tree ← useTree g (!rooted)
  mark ";"
  match tree with
  | some tree => return .use tree (values attributes)
  | none => return .other []

/-- The declaration of an external crate, from `extern` on. -/
def crateItem (attributes : List Attribute) : Parser Item := do
  word "extern"
  word "crate"
  let name ← nameOr ["self"]
  let renamed ← if ← word? "as" then some <$> newName else pure none
  mark ";"
  return .externCrate name renamed (values attributes)

/-! ### Modules -/

/-- A module, from its visibility on. -/
def moduleItem (g : Grammar) (attributes : List Attribute) : Parser Item := do
  let _ ← visibility
  let _ ← word? "unsafe"
  word "mod"
  let name ← nameOr ["try"]
  if (← ahead).group .brace then
    group .brace do
      let attributes := attributes ++ (← innerAttributes g)
      let items ← repeatWhile (!·.isEmpty) g.item
      return .module (moduleAttributes attributes) name (values attributes) items
  else
    mark ";"
    return .moduleFile (moduleAttributes attributes) name (values attributes)

/-! ### Items -/

/-- A static, from its name on. One without a type or without a value is dropped. -/
def staticItem (g : Grammar) (attributes : List Attribute) : Parser Item := do
  let _ ← word? "mut"
  let _ ← name
  if ← mark? "=" then
    let _ ← g.expr true
    mark ";"
    return .other []
  else
    mark ":"
    let type ← g.type true
    if ← mark? ";" then return .other []
    else
      mark "="
      let value ← g.expr true
      mark ";"
      return .other (values attributes ++ type.parts ++ [value])

/-- A macro in the newer form, from its name on. It is dropped. -/
def newMacroItem : Parser Item := do
  let _ ← name
  if (← ahead).group .paren then advance 1
  if (← ahead).group .brace then advance 1 else fail
  return .other []

/-- A function, from its visibility on. One without a body is dropped. -/
def functionItem (g : Grammar) (attributes : List Attribute) : Parser Item := do
  let visible ← visibility
  let head ← signature g false
  if ← mark? ";" then return .other []
  else return .function (visible == .everywhere) (← functionBody g attributes head)

/-- A trait with words in front, from its visibility on. -/
def qualifiedTrait (g : Grammar) (attributes : List Attribute) : Parser Item := do
  let visible ← visibility
  let _ ← word? "unsafe"
  let _ ← word? "auto"
  word "trait"
  let name ← name
  traitRest g attributes visible name (← genericParameters g)

/-- A struct, an enum or a union, from its visibility on. -/
def typeItem (attributes : List Attribute) (rest : Parser (Ident × List Expr)) : Parser Item := do
  let _ ← visibility
  let _ ← anyWord
  let (name, parts) ← rest
  return .type name (values attributes ++ parts)

/-- An item, behind its attributes. -/
def item (g : Grammar) (attributes : List Attribute) : Parser Item := do
  let (visible, ts) ← aheadOfVisibility
  let next := ts.skip 1
  if opensFunction false ts then functionItem g attributes
  else if ts.word "extern" then
    if next.word "crate" then
      let _ ← visibility
      crateItem attributes
    else if next.group .brace then foreignItem g attributes
    else if opensText next then
      if (ts.skip 2).group .brace then foreignItem g attributes else failAt (ts.skip 2)
    else failAt next
  else if ts.word "use" then
    let _ ← visibility
    useItem g attributes
  else if ts.word "static" then
    let _ ← visibility
    advance 1
    staticItem g attributes
  else if ts.word "const" then
    let _ ← visibility
    advance 1
    let parts ← constant g true
    return .other (parts.map (values attributes ++ ·) |>.getD [])
  else if ts.word "unsafe" then
    if next.word "trait" || next.word "auto" && (ts.skip 2).word "trait" then
      qualifiedTrait g attributes
    else if next.word "impl" then implItem g attributes
    else if next.word "extern" then foreignItem g attributes
    else if next.word "mod" then moduleItem g attributes
    else failAt next
  else if ts.word "mod" then moduleItem g attributes
  else if ts.word "type" then
    let _ ← visibility
    let declared ← typeDeclaration g ⟨true, false⟩
    match declared.bounds, declared.definition with
    | none, some definition =>
      return .type declared.name (values attributes ++ declared.generics ++ definition)
    | _, _ => return .other []
  else if ts.word "struct" then typeItem attributes (structItem g)
  else if ts.word "enum" then typeItem attributes (enumItem g)
  else if ts.word "union" && next.name then typeItem attributes (unionItem g)
  else if ts.word "trait" then
    let visible ← visibility
    advance 1
    traitOrAlias g attributes visible
  else if ts.word "auto" && next.word "trait" then qualifiedTrait g attributes
  else if ts.word "impl" || ts.word "default" && !next.mark "!" then implItem g attributes
  else if ts.word "macro" then
    let _ ← visibility
    advance 1
    newMacroItem
  else if visible == .inherited && opensMacro ts then
    return .other [attach attributes (← macroItem g true)]
  else failAt ts

end Production

end CallAtlas
