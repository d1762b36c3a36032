import CallAtlas.Text.Split

/-!
# Symbols

A symbol identifies a function: the package that declares it and its name. The package is the path
of the declaring module, written `a::b::c`. Functions of the universe scope, such as `drop`, have no
package.

The qualified name `package.name` is how a symbol appears in a call graph, for callers and callees
alike, so that one function is one node.
-/

namespace CallAtlas

/-- A function: the package that declares it, if any, and its name. -/
structure Symbol where
  /-- Path of the declaring module; `none` in the universe scope. -/
  package : Option String
  /-- The function's own name. -/
  name : String
  deriving DecidableEq, Repr

namespace Symbol

/-- The function `name` of `package`. The empty package is no package. -/
def inPackage (package name : String) : Symbol where
  package := if package = "" then none else some package
  name := name

/-- A function of the universe scope. -/
def bare (name : String) : Symbol where
  package := none
  name := name

/-- `package.name`, or the bare name. -/
def qualifiedName (s : Symbol) : String :=
  match s.package with
  | some package => package ++ "." ++ s.name
  | none => s.name

instance : ToString Symbol := ⟨qualifiedName⟩

/-- Reads a qualified name as a symbol: all before the last dot is the package. -/
def ofQualified (text : String) : Symbol :=
  match splitAtLast '.' text.toList with
  | some (package, name) => ⟨some (String.ofList package), String.ofList name⟩
  | none => ⟨none, text⟩

end Symbol

end CallAtlas
