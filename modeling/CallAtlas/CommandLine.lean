import CallAtlas.Analysis
import CallAtlas.CommandLine.Argument

/-!
# Command lines

What a command line asks for, and the outcome of the run. Arguments are taken in order, and the
first that cannot be taken decides: it makes the command line invalid, or asks for help or for the
version.

A run either fails, and then it has changed nothing and written nothing, or it has written the whole
graph to one place.

## Main definitions

* `Command.ofArguments` — what a command line asks for.
* `Command.run`, `Outcome` — what comes of it.
-/

namespace CallAtlas

/-! ### What a command line asks for -/

/-- What the arguments so far have given. -/
structure Given where
  target : Option String
  format : Option Format
  output : Option String
  skipMacros : Bool
  deriving DecidableEq, Repr

/-- What a command line asks for. -/
inductive Command where
  /-- An analysis, the result of which goes to a file or to standard output. -/
  | analyze (analysis : Analysis) (output : Option String)
  | showHelp
  | showVersion
  /-- The command line is invalid. -/
  | misuse
  deriving DecidableEq, Repr

namespace Given

/-- Nothing is given. -/
def nothing : Given :=
  ⟨none, none, none, false⟩

/-- Takes one more argument, or ends with a command. Each option is given at most once, other than
the one for more messages. -/
def take (g : Given) : Argument → Except Command Given
  | .target text => if g.target.isSome then .error .misuse else .ok { g with target := some text }
  | .setting .format value =>
    match g.format, Format.ofWord? value with
    | none, some format => .ok { g with format := some format }
    | _, _ => .error .misuse
  | .setting .output value =>
    if g.output.isSome || value = "" then .error .misuse else .ok { g with output := some value }
  | .switch .skipMacros =>
    if g.skipMacros then .error .misuse else .ok { g with skipMacros := true }
  | .switch .verbose => .ok g
  | .switch .help => .error .showHelp
  | .switch .version => .error .showVersion
  | .fault => .error .misuse

/-- The command of all that is given. The target cannot be left out. -/
def command (g : Given) : Command :=
  match g.target with
  | none => .misuse
  | some target => .analyze ⟨target, g.format.getD .dot, !g.skipMacros⟩ g.output

end Given

namespace Command

/-- What a command line asks for. -/
def ofArguments (words : List String) : Command :=
  match (Argument.ofWords none words).foldlM Given.take Given.nothing with
  | .ok given => given.command
  | .error command => command

/-- The name and the version of the program. -/
def versionText : String :=
  "callgraph 0.1.0\n"

/-- How the program is used. -/
def helpText : String :=
  "Static call graph extraction for Rust sources and Cargo workspaces, " ++
  "emitted as Graphviz DOT.\n\n" ++
  "Usage: callgraph [OPTIONS] <TARGET>\n\n" ++
  "Arguments:\n" ++
  "  <TARGET>  A `.rs` file, a package directory or Cargo.toml, or a pattern ending in `...` " ++
  "for every workspace package below a directory\n\n" ++
  "Options:\n" ++
  "  -f, --format <FORMAT>  Output format [default: dot] [possible values: dot, json]\n" ++
  "  -o, --output <OUTPUT>  Write the graph to this file instead of stdout\n" ++
  "      --skip-macros      Do not look for calls inside macro arguments\n" ++
  "  -v, --verbose...       More log output on stderr (-v, -vv, -vvv)\n" ++
  "  -h, --help             Print help\n" ++
  "  -V, --version          Print version\n"

end Command

/-! ### What comes of it -/

/-- Why a run fails. -/
inductive Failure where
  | misuse
  | load (error : LoadError)
  | write (path : String)
  deriving DecidableEq, Repr

namespace Failure

/-- The exit code for a failure. -/
def exitCode : Failure → Nat
  | .misuse => 2
  | .load _ => 1
  | .write _ => 1

/-- What went wrong, in one line. A wrong command line is answered by how to use the program. -/
def summary? : Failure → Option String
  | .misuse => none
  | .load _ => some Analysis.loadFailure
  | .write path => some ("cannot write " ++ String.ofList (path.toList.takeWhile (· != '\n')))

/-- The line in which a failure is reported. -/
def line? (f : Failure) : Option String :=
  f.summary?.map ("Error: " ++ ·)

end Failure

/-- What a run leaves behind. -/
structure Outcome where
  /-- The text on standard output. -/
  output : String
  /-- The files after the run. -/
  files : FileTree
  /-- Why it failed, if it did. -/
  failure : Option Failure

namespace Outcome

/-- The exit code of a run. -/
def exitCode (o : Outcome) : Nat :=
  (o.failure.map Failure.exitCode).getD 0

end Outcome

namespace Command

/-- Carries out a command. The graph is complete before anything is written. A file that can be
opened is taken to accept the whole text, and printing is taken not to fail. -/
def run (t : FileTree) (workspace : Option Workspace) : Command → Outcome
  | .misuse => ⟨"", t, some .misuse⟩
  | .showHelp => ⟨helpText, t, none⟩
  | .showVersion => ⟨versionText, t, none⟩
  | .analyze analysis output =>
    match analysis.run t workspace "", output with
    | (.error e, _), _ => ⟨"", t, some (.load e)⟩
    | (.ok _, text), none => ⟨text, t, none⟩
    | (.ok _, text), some path =>
      match t.write? path text with
      | some written => ⟨"", written, none⟩
      | none => ⟨"", t, some (.write path)⟩

end Command

end CallAtlas
