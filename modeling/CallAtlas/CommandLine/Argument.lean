/-!
# Command line arguments

The words of a command line as arguments. A word that starts with two hyphens names an option, and
its value may follow behind `=`. A word with one hyphen holds switches of one letter each; an option
among them takes the rest of the word as its value, less an `=` in front. An option without a value
takes the next word, which must not look like an option. Behind `--` all words are targets, and so
is `-` anywhere.

## Main definitions

* `Argument`, `Argument.ofWords`.
-/

namespace CallAtlas

/-- An option with a value. -/
inductive Setting where
  | format
  | output
  deriving DecidableEq, Repr

/-- An option without a value. -/
inductive Switch where
  | skipMacros
  | verbose
  | help
  | version
  deriving DecidableEq, Repr

/-- An argument of the command line. -/
inductive Argument where
  | target (text : String)
  | setting (name : Setting) (value : String)
  | switch (name : Switch)
  /-- A word that cannot be read. -/
  | fault
  deriving DecidableEq, Repr

namespace Argument

/-- What an option is called, either by a word or by a letter. -/
inductive OptionName where
  | setting (name : Setting)
  | switch (name : Switch)
  deriving DecidableEq, Repr

/-- The options that have a long name. -/
def longNames : List (String × OptionName) :=
  [("format", .setting .format), ("output", .setting .output), ("skip-macros", .switch .skipMacros),
    ("verbose", .switch .verbose), ("help", .switch .help), ("version", .switch .version)]

/-- The options that have a letter. -/
def letters : List (Char × OptionName) :=
  [('f', .setting .format), ('o', .setting .output), ('v', .switch .verbose), ('h', .switch .help),
    ('V', .switch .version)]

/-- Text before and behind the first `=`. -/
def splitValue (cs : List Char) : String × Option String :=
  match cs.span (· != '=') with
  | (name, _ :: value) => (String.ofList name, some (String.ofList value))
  | (name, []) => (String.ofList name, none)

/-- The argument of a long option, or the option whose value is missing. -/
def ofLong (cs : List Char) : List Argument × Option Setting :=
  let (name, value) := splitValue cs
  match longNames.lookup name, value with
  | some (.setting s), some value => ([.setting s value], none)
  | some (.setting s), none => ([], some s)
  | some (.switch s), none => ([.switch s], none)
  | some (.switch _), some _ => ([.fault], none)
  | none, _ => ([.fault], none)

/-- The value of a letter that is followed by more. -/
def attached : List Char → String
  | '=' :: rest => String.ofList rest
  | cs => String.ofList cs

/-- The arguments of letters, and the option whose value is missing. -/
def ofLetters : List Char → List Argument × Option Setting
  | [] => ([], none)
  | c :: rest =>
    match letters.lookup c with
    | some (.switch s) =>
      let (more, missing) := ofLetters rest
      (.switch s :: more, missing)
    | some (.setting s) =>
      if rest.isEmpty then ([], some s) else ([.setting s (attached rest)], none)
    | none => ([.fault], none)

/-- Does a word look like an option? -/
def isOption (word : String) : Bool :=
  match word.toList with
  | '-' :: _ :: _ => true
  | _ => false

/-- The arguments of a word, and the option whose value is missing. -/
def ofWord (word : String) : List Argument × Option Setting :=
  match word.toList with
  | '-' :: '-' :: name => ofLong name
  | '-' :: c :: more => ofLetters (c :: more)
  | _ => ([.target word], none)

/-- The arguments of words, where an option may wait for its value. -/
def ofWords : Option Setting → List String → List Argument
  | none, [] => []
  | some _, [] => [.fault]
  | some s, word :: rest =>
    if isOption word then [.fault] else .setting s word :: ofWords none rest
  | none, word :: rest =>
    if word = "--" then rest.map .target
    else
      let (arguments, missing) := ofWord word
      arguments ++ ofWords missing rest

end Argument

end CallAtlas
