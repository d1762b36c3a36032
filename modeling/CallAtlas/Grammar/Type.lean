import CallAtlas.Grammar.Path

/-!
# Types

Types, the bounds on them, and the generic parameters and `where` clauses in which bounds stand. Of
all of these only the expressions in them are kept, and of a type also how it is named.

## Main definitions

* `bound`, `bounds` — bounds, joined by `+`.
* `genericParameters`, `binder`, `whereClause`.
* `type` — types.
-/

namespace CallAtlas

namespace Production

open CallAtlas.Parser

/-! ### Generic parameters -/

/-- The bounds behind `:`, until the trees ahead say to stop. -/
def boundsUntil (g : Grammar) (stop : Tokens → Bool) : Parser (List Expr) := do
  let found ← separated stop "+" (g.bound ⟨false, true⟩)
  return found.flatMap (·.parts)

/-- A lifetime with its bounds. -/
def lifetimeParameter : Parser Unit := do
  lifetime
  if ← mark? ":" then
    let _ ← separated (fun ts => ts.mark "," || ts.mark ">") "+" lifetime

/-- A type parameter with its bounds and its default. -/
def typeParameter (g : Grammar) : Parser (List Expr) := do
  let _ ← name
  let bounds ← if ← mark? ":" then
      boundsUntil g fun ts => ts.mark "," || ts.mark ">" || ts.mark "="
    else pure []
  let default ← if ← mark? "=" then (·.parts) <$> g.type true else pure []
  return bounds ++ default

/-- A constant parameter with its type and its default. -/
def constantParameter (g : Grammar) : Parser (List Expr) := do
  word "const"
  let _ ← name
  mark ":"
  let type ← g.type true
  let default ← if ← mark? "=" then constantArgument g else pure []
  return type.parts ++ default

/-- A generic parameter. The flag says whether `_` is one. -/
def genericParameter (g : Grammar) (blank : Bool) : Parser (List Expr) := do
  let attributes ← outerAttributes g
  let ts ← ahead
  let parts ←
    if ts.lifetime then
      lifetimeParameter
      pure []
    else if ts.name then typeParameter g
    else if ts.word "const" then constantParameter g
    else if blank && ts.word "_" then
      advance 1
      pure []
    else fail
  return values attributes ++ parts

/-- Generic parameters in angle brackets. -/
def parameterList (g : Grammar) (blank : Bool) : Parser (List Expr) := do
  mark "<"
  let parts ← terminated (·.mark ">") "," (genericParameter g blank)
  mark ">"
  return parts.flatten

/-- Does `<` open generic parameters, where a type in angle brackets may stand as well? -/
def opensGenerics (ts : Tokens) : Bool :=
  let next := ts.skip 1
  let third := ts.skip 2
  ts.mark "<" && (next.mark ">" || next.mark "#" ||
    (next.lifetime || next.name) && (third.mark ">" || third.mark "," ||
      third.mark ":" && !third.mark "::" || third.mark "=") ||
    next.word "const")

/-- The generic parameters of an item, if it has some. -/
def genericParameters (g : Grammar) : Parser (List Expr) := do
  if (← ahead).mark "<" then parameterList g true else return []

/-- The parameters that `for` binds in front of a type or a bound, if there are some. -/
def binder? (g : Grammar) : Parser (Option (List Expr)) := do
  if ← word? "for" then some <$> parameterList g false else return none

/-- The expressions in what `for` binds. -/
def binder (g : Grammar) : Parser (List Expr) := do
  return (← binder? g).getD []

/-! ### Bounds -/

/-- The lifetimes and names that `use` captures. -/
def captures : Parser Unit := do
  word "use"
  mark "<"
  let _ ← terminated (·.mark ">") "," do
    if (← ahead).lifetime then lifetime
    else
      let _ ← nameOr ["Self"]
  mark ">"

/-- A trait as a bound. One with `const` in front is not looked into, and `?` does not stand
together with `for`. -/
def traitBound (g : Grammar) (rules : BoundRules) : Parser (List Expr) := do
  let bound ← binder? g
  let place ← here
  let ts ← ahead
  let isConst ←
    if ts.group .bracket then
      group .bracket (word "const")
      pure true
    else word? "const"
  if isConst && !rules.constTraits then throw place
  let place ← here
  let relaxed ← mark? "?"
  let bound ← if bound.isNone && relaxed then binder? g else pure bound
  let path ← path g .type
  let args ← if path.takesArguments && opensArguments (← ahead) then parenthesizedArguments g
    else pure []
  if relaxed && bound.isSome then throw place
  return if isConst then [] else bound.getD [] ++ path.args ++ args

/-- A bound: a lifetime, captures, or a trait, which may be in parentheses. -/
def bound (g : Grammar) (rules : BoundRules) : Parser BoundSyntax := do
  let ts ← ahead
  if ts.lifetime then
    lifetime
    return ⟨false, []⟩
  else if ts.word "use" then
    let place ← here
    captures
    if !rules.captures then throw place
    return ⟨false, []⟩
  else if ts.group .paren then
    return ⟨true, ← group .paren (traitBound g rules)⟩
  else return ⟨true, ← traitBound g rules⟩

/-- May a bound follow behind `+`? -/
def opensBound (ts : Tokens) : Bool :=
  ts.anyWord || ts.mark "::" || ts.mark "?" || ts.lifetime || ts.group .paren

/-- Bounds joined by `+`, where more than one may stand. At least one of them has to be a trait; the
place given is reported otherwise. -/
def bounds (g : Grammar) (rules : BoundRules) (plus : Bool) (place : Place) :
    Parser (List Expr) := do
  let first ← bound g rules
  let found ← iterate (fun (found, more) => do
    if more && plus && (← ahead).mark "+" then
      mark "+"
      let ts ← ahead
      if opensBound ts || rules.constTraits && (ts.group .bracket || ts.word "const") then
        return some (found ++ [← bound g rules], true)
      else return some (found, false)
    else return none) ([first], true)
  if found.1.all (!·.isTrait) then throw place
  return found.1.flatMap (·.parts)

/-- Bounds that follow, each behind a `+`. -/
def addedBounds (g : Grammar) : Parser (List BoundSyntax) :=
  repeatWhile (·.mark "+") do
    mark "+"
    bound g ⟨false, false⟩

/-! ### Where clauses -/

/-- Does a `where` clause end here? -/
def endsPredicates (ts : Tokens) : Bool :=
  ts.isEmpty || ts.group .brace || ts.mark "," || ts.mark ";" || ts.mark ":" && !ts.mark "::" ||
    ts.mark "="

/-- A predicate of a `where` clause. -/
def wherePredicate (g : Grammar) : Parser (List Expr) := do
  let ts ← ahead
  if ts.lifetime && (ts.skip 1).mark ":" then
    lifetime
    mark ":"
    let _ ← separated (fun ts => endsPredicates ts || ts.mark ":") "+" lifetime
    return []
  else
    let bound ← binder g
    let type ← g.type true
    mark ":"
    return bound ++ type.parts ++ (← boundsUntil g endsPredicates)

/-- A `where` clause, if there is one. It has no generic parameters of its own. -/
def whereClause (g : Grammar) : Parser (List Expr) := do
  if ← word? "where" then
    if opensGenerics (← ahead) then fail
    return (← separated endsPredicates "," (wherePredicate g)).flatten
  else return []

/-! ### Types in brackets -/

/-- A type in parentheses: a tuple, a type alone, or the first of several bounds. -/
def parenthesizedType (g : Grammar) (plus : Bool) : Parser TypeSyntax := do
  let inner := (← ahead).inner
  if inner.isEmpty then
    advance 1
    return .ofParts []
  else if inner.lifetime then
    let parts ← group .paren do bounds g ⟨false, false⟩ true (← here)
    return ⟨.other, .enclosed .other, parts⟩
  else if inner.mark "?" then
    let first ← group .paren (bound g ⟨false, false⟩)
    let more ← addedBounds g
    let kind : TypeKind := if more.isEmpty then .bound else .other
    return ⟨kind, .other, (first :: more).flatMap (·.parts)⟩
  else
    let (first, more) ← group .paren do
      let first ← g.type true
      if (← ahead).mark "," then
        mark ","
        return (first, some (← commaList (g.type true)))
      else return (first, none)
    match more with
    | some more => return .ofParts ((first :: more).flatMap (·.parts))
    | none =>
      let isBound := first.kind == .name || first.kind == .path || first.kind == .bound
      if plus && isBound && (← ahead).mark "+" then
        let more ← addedBounds g
        return .ofParts (first.parts ++ more.flatMap (·.parts))
      else return ⟨.other, .enclosed first.form, first.parts⟩

/-- A slice or an array. -/
def bracketedType (g : Grammar) : Parser TypeSyntax :=
  group .bracket do
    let element ← g.type true
    if ← mark? ";" then return .ofParts (element.parts ++ [← g.expr true])
    else return .ofParts element.parts

/-! ### Function types -/

/-- The name of a calling convention behind `extern`, if it is there. -/
def callingConvention : Parser Unit := do
  if ← word? "extern" then
    if ((← ahead).literal?.bind LiteralValue.text?).isSome then advance 1

/-- Does a parameter with a name, or a blank for it, stand here? -/
def namesParameter (ts : Tokens) : Bool :=
  ts.name || ts.word "_"

/-- A parameter of a function type. A `mut self` is not looked into; the flag says whether `self`
may stand here. -/
def functionTypeParameter (g : Grammar) (allowSelf : Bool) : Parser (List Expr) := do
  let attributes ← outerAttributes g
  let mutSelf (ts : Tokens) : Bool := allowSelf && ts.word "mut" && (ts.skip 1).word "self"
  let hasMut := mutSelf (← ahead)
  if hasMut then advance 1
  let ts ← ahead
  let isSelf := allowSelf && ts.word "self"
  let named := (namesParameter ts || isSelf) && (ts.skip 1).mark ":" && !(ts.skip 1).mark "::"
  let hasSelf := named && !namesParameter ts
  if named then
    advance 1
    mark ":"
  if !hasSelf && mutSelf (← ahead) then
    advance 2
    return values attributes
  else if hasMut && !named then
    word "self"
    return values attributes
  else
    let type ← g.type true
    return values attributes ++ if hasMut then [] else type.parts

/-- The `...` of a function type, perhaps with a name. -/
def variadicType : Parser Unit := do
  if namesParameter (← ahead) then
    advance 1
    mark ":"
  mark "..."
  let _ ← mark? ","

/-- Is the `...` of a function type ahead, perhaps with a name? -/
def opensVariadicType (ts : Tokens) : Bool :=
  ts.mark "..." || namesParameter ts && (ts.skip 1).mark ":" && (ts.skip 2).mark "..."

/-- The parameters of a function type. -/
def functionTypeParameters (g : Grammar) : Parser (List Expr) := do
  let (parts, _, _) ← iterate (fun (parts, first, more) => do
    if !more || (← atEnd) then return none
    let attributes ← outerAttributes g
    let parts := parts ++ values attributes
    if opensVariadicType (← ahead) then
      variadicType
      return some (parts, false, false)
    let parts := parts ++ (← functionTypeParameter g first)
    if ← atEnd then return some (parts, false, false)
    mark ","
    return some (parts, false, true)) (([] : List Expr), true, true)
  return parts

/-- A function type. -/
def functionType (g : Grammar) : Parser TypeSyntax := do
  let bound ← binder g
  let _ ← word? "unsafe"
  callingConvention
  word "fn"
  let params ← group .paren (functionTypeParameters g)
  let output ← returnType g false
  return .ofParts (bound ++ params ++ output)

/-! ### Types -/

/-- A type that starts with a path: the path itself, a macro, or bounds. -/
def pathType (g : Grammar) (plus : Bool) (bound : Option (List Expr)) : Parser TypeSyntax := do
  let path ← qualifiedPath g .type
  let form : TypeForm := .path path.isQualified path.names
  let ts ← ahead
  if path.isQualified then return ⟨.other, form, path.args⟩
  else if opensInvocation ts && path.bare then
    mark "!"
    return .ofParts [← invocationOf g path]
  else if bound.isSome || plus && ts.mark "+" then
    let first := bound.getD [] ++ path.args
    let (more, count, _) ← iterate (fun (more, count, goesOn) => do
      if goesOn && plus && (← ahead).mark "+" then
        mark "+"
        if opensBound (← ahead) then
          let next ← Production.bound g ⟨false, false⟩
          return some (more ++ next.parts, count + 1, true)
        else return some (more, count + 1, false)
      else return none) (([] : List Expr), 0, true)
    let kind : TypeKind := if count = 0 then .bound else .other
    return ⟨kind, .other, first ++ more⟩
  else
    let single := match path.head, path.names with
      | .plain false, [_] => true
      | _, _ => false
    return ⟨if single then .name else .path, form, path.args⟩

/-- May a type follow what `for` binds? -/
def opensBoundType (ts : Tokens) : Bool :=
  ts.name || ts.oneOf ["fn", "unsafe", "extern"] || ts.pathWord

/-- A type. The flag says whether bounds may be added to it by `+`. -/
def type (g : Grammar) (plus : Bool) : Parser TypeSyntax := do
  let bound ← binder? g
  let ts ← ahead
  if bound.isSome && !opensBoundType ts then fail
  if ts.group .paren then parenthesizedType g plus
  else if ts.oneOf ["fn", "unsafe", "extern"] then
    let type ← functionType g
    return .ofParts (bound.getD [] ++ type.parts)
  else if opensBuiltin ts then
    builtin
    return .ofParts []
  else if ts.name || ts.pathWord || ts.mark "::" || ts.mark "<" then pathType g plus bound
  else if ts.word "dyn" then
    let place ← here
    advance 1
    let pointer ← mark? "*"
    let parts ← bounds g ⟨false, false⟩ plus place
    return .ofParts (if pointer then [] else parts)
  else if ts.group .bracket then bracketedType g
  else if ts.mark "*" then
    mark "*"
    if !(← word? "const") then word "mut"
    return .ofParts (← g.type false).parts
  else if ts.mark "&" then
    mark "&"
    if (← ahead).lifetime then advance 1
    let _ ← word? "mut"
    let inner ← g.type false
    return ⟨.other, .enclosed inner.form, inner.parts⟩
  else if ts.mark "!" || ts.word "_" then
    advance 1
    return .ofParts []
  else if ts.word "impl" then
    let place ← here
    advance 1
    return .ofParts (← bounds g ⟨true, true⟩ plus place)
  else if ts.lifetime then
    return .ofParts (← bounds g ⟨false, false⟩ true (← here))
  else fail

end Production

end CallAtlas
