import CallAtlas.Code

/-!
# Parsers over token trees

A parser reads trees from the front of the innermost open group. It fails with the place of the tree
that it cannot take, or with the place where the group ends if there is none left. The end of a file
has no place of its own and is reported as the start of the file.

What is left of a group when its parser is done is not an error by itself: it is noted, and the
first such place is reported if everything else can be parsed.

## Main definitions

* `Tokens` — the trees ahead, with tests for what they start with.
* `Parser` and its primitives `mark`, `word`, `name`, `group`.
* `iterate`, `repeatWhile`, `separated`, `terminated` — loops. Each round takes a tree, so the
  number of trees ahead bounds the number of rounds.
-/

namespace CallAtlas

/-- The trees ahead. -/
abbrev Tokens := List Tree

namespace Tokens

/-- Do the trees start with these marks? All but the last have to be joint with the next. -/
def marks : List Char → Tokens → Bool
  | [], _ => true
  | [c], .mark _ d _ :: _ => c == d
  | c :: cs, .mark _ d joint :: rest => c == d && joint && marks cs rest
  | _, _ => false

/-- Do the trees start with this mark, of one or more characters? -/
def mark (ts : Tokens) (text : String) : Bool :=
  marks text.toList ts

/-- The word that the trees start with. -/
def word? : Tokens → Option Ident
  | .word _ name :: _ => some name
  | _ => none

/-- Do the trees start with a word? -/
def anyWord (ts : Tokens) : Bool :=
  ts.word?.isSome

/-- Do the trees start with this word? -/
def word (ts : Tokens) (text : String) : Bool :=
  ts.word?.any (·.text == text)

/-- Do the trees start with one of these words? -/
def oneOf (ts : Tokens) (texts : List String) : Bool :=
  texts.any ts.word

/-- Do the trees start with a lifetime? -/
def lifetime : Tokens → Bool
  | .lifetime .. :: _ => true
  | _ => false

/-- The literal that the trees start with, as it is written. -/
def literal? : Tokens → Option String
  | .literal _ text :: _ => some text
  | _ => none


/-- The kind of group that the trees start with. -/
def group? : Tokens → Option Delimiter
  | .group _ d _ _ :: _ => some d
  | _ => none

/-- Do the trees start with a group of this kind? -/
def group (ts : Tokens) (d : Delimiter) : Bool :=
  ts.group? == some d

/-- The trees in the group that the trees start with. -/
def inner : Tokens → Tokens
  | .group _ _ inner _ :: _ => inner
  | _ => []

/-- The trees behind the first ones. -/
def skip (ts : Tokens) (n : Nat) : Tokens :=
  ts.drop n

/-- The name that the trees start with. -/
def name? (ts : Tokens) : Option Name :=
  ts.word?.bind Name.ofIdent?

/-- Do the trees start with a name? -/
def name (ts : Tokens) : Bool :=
  ts.name?.isSome

end Tokens

/-- The state of a parser. -/
structure Stream where
  /-- The trees ahead in the innermost group. -/
  rest : Tokens
  /-- The first place where something was left of a group. -/
  stray : Option Place

/-- A parser. It knows the place where the innermost group ends. -/
abbrev Parser := ReaderT Place (StateT Stream (Except Place))

namespace Parser

/-- The trees ahead. -/
def ahead : Parser Tokens :=
  return (← get).rest

/-- The place of the next tree, or the end of the group. -/
def here : Parser Place := do
  match ← ahead with
  | [] => read
  | t :: _ => return t.place

/-- Fails at the next tree. -/
def fail {α : Type} : Parser α := do
  throw (← here)

/-- Goes past some trees. -/
def advance (n : Nat) : Parser Unit :=
  modify fun s => { s with rest := s.rest.drop n }

/-- Is nothing left of the group? -/
def atEnd : Parser Bool :=
  return (← ahead).isEmpty

/-- Takes a mark. -/
def mark (text : String) : Parser Unit := do
  if (← ahead).mark text then advance text.length else fail

/-- Takes a mark if it is there. -/
def mark? (text : String) : Parser Bool := do
  if (← ahead).mark text then
    advance text.length
    return true
  else return false

/-- Takes this word. -/
def word (text : String) : Parser Unit := do
  if (← ahead).word text then advance 1 else fail

/-- Takes this word if it is there. -/
def word? (text : String) : Parser Bool := do
  if (← ahead).word text then
    advance 1
    return true
  else return false

/-- Takes any word. -/
def anyWord : Parser Ident := do
  match (← ahead).word? with
  | some name =>
    advance 1
    return name
  | none => fail

/-- Takes a name. -/
def name : Parser Name := do
  match (← ahead).name? with
  | some found =>
    advance 1
    return found
  | none => fail

/-- Takes a name or one of these words. -/
def nameOr (texts : List String) : Parser Ident := do
  if (← ahead).oneOf texts then anyWord else name

/-- Takes a lifetime. -/
def lifetime : Parser Unit := do
  if (← ahead).lifetime then advance 1 else fail


/-- The result of a parser, or nothing and no change if it fails. -/
def attempt {α : Type} (p : Parser α) : Parser (Option α) := fun stop s =>
  match p stop s with
  | .ok (a, s) => .ok (some a, s)
  | .error _ => .ok (none, s)

/-- Runs a parser on the trees of a group and notes what it leaves. -/
def inside {α : Type} (inner : Tokens) (close : Place) (p : Parser α) : Parser α := do
  let outer ← get
  set { outer with rest := inner }
  let a ← withReader (fun _ => close) p
  let left ← get
  let stray := left.stray <|> left.rest.head?.map Tree.place
  set { rest := outer.rest, stray := stray : Stream }
  return a

/-- Takes a group of this kind and runs a parser inside. -/
def group {α : Type} (d : Delimiter) (p : Parser α) : Parser α := do
  match ← ahead with
  | .group _ e inner close :: _ =>
    if d = e then
      advance 1
      inside inner close p
    else fail
  | _ => fail

/-- Takes a group of any kind, and gives its kind, its trees and the place where it ends. -/
def anyGroup : Parser (Delimiter × Tokens × Place) := do
  match ← ahead with
  | .group _ d inner close :: _ =>
    advance 1
    return (d, inner, close)
  | _ => fail

/-- The result of a parser that takes all of the trees and leaves nothing of any group. -/
def runAll {α : Type} (p : Parser α) (trees : Tokens) (stop : Place) : Except Place α := do
  let (a, s) ← p stop ⟨trees, none⟩
  match s.stray <|> s.rest.head?.map Tree.place with
  | some place => .error place
  | none => .ok a

/-! ### Loops -/

/-- Repeats a step until it gives nothing, at most so many times. -/
def iterateUpTo {α : Type} (step : α → Parser (Option α)) : Nat → α → Parser α
  | 0, a => return a
  | n + 1, a => do
    match ← step a with
    | some next => iterateUpTo step n next
    | none => return a

/-- Repeats a step until it gives nothing. -/
def iterate {α : Type} (step : α → Parser (Option α)) (a : α) : Parser α := do
  iterateUpTo step ((← ahead).length + 1) a

/-- Collects the results of a step until it gives nothing, the step saying whether to go on. -/
def collect {α : Type} (step : Parser (Option (α × Bool))) : Parser (List α) := do
  let (found, _) ← iterate (fun ((found, more) : List α × Bool) => do
    if more then
      match ← step with
      | some (a, more) => return some (a :: found, more)
      | none => return none
    else return none) ([], true)
  return found.reverse

/-- Repeats a parser while the trees ahead fit. -/
def repeatWhile {α : Type} (fits : Tokens → Bool) (p : Parser α) : Parser (List α) :=
  collect do
    if fits (← ahead) then return some (← p, true) else return none

/-- Repeats a parser while the separator stands between, or until the trees ahead say to stop. The
separator may come last. -/
def separated {α : Type} (stop : Tokens → Bool) (separator : String) (p : Parser α) :
    Parser (List α) :=
  collect do
    if stop (← ahead) then return none
    else
      let a ← p
      return some (a, ← mark? separator)

/-- Repeats a parser until the trees ahead say to stop; separators have to stand between and may
come last. -/
def terminated {α : Type} (stop : Tokens → Bool) (separator : String) (p : Parser α) :
    Parser (List α) :=
  collect do
    if stop (← ahead) then return none
    else
      let a ← p
      if stop (← ahead) then return some (a, false)
      else
        mark separator
        return some (a, true)

/-- Repeats a parser to the end of the group, with commas between. -/
def commaList {α : Type} (p : Parser α) : Parser (List α) :=
  terminated List.isEmpty "," p

end Parser

end CallAtlas
