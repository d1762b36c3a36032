import CallAtlas.Json.Record
import CallAtlas.Text.Split
import CallAtlas.Workspace
import CallAtlas.Workspace.Platform
import CallAtlas.Workspace.Version

/-!
# Metadata of workspaces

The package manager describes a workspace as a JSON document on one line, which may stand behind
lines of other text. A description counts only if it is complete and every part of it is of its
kind, also the parts that are not needed here.

A document nests at most 127 deep where its values are of any kind. A workspace and a package have
such a value, `metadata`, below the levels that they stand on themselves.

## Main definitions

* `Workspace.ofMetadata?` — the workspace that a text describes.
-/

namespace CallAtlas

namespace Metadata

open Json.FieldReader
open Json.Reads

/-! ### Values -/

/-- The largest depth of a document. -/
def maxDepth : Nat := 127

/-- An edition of the language. -/
def edition? : Json.Reads String :=
  choice? ["2015", "2018", "2021", "2024", "2027", "2030"].contains

/-- What a dependency is for; `null` stands for the usual case. -/
def purpose? : Json.Reads (Option String) :=
  nullable? (choice? fun _ => true)

/-- The platforms that a dependency is for. -/
def platform? : Json.Reads String :=
  textThat? Platform.isPlatform

/-- Texts. -/
def texts? : Json.Reads (List String) :=
  list? text?

/-! ### Packages -/

/-- A dependency. -/
def dependency? : Json.Reads Dependency :=
  record? do
    let name ← required "name" text?
    let _ ← optional "source" text?
    let _ ← required "req" (textThat? Version.isRequirement)
    let _ ← required "kind" purpose?
    let _ ← required "optional" flag?
    let _ ← required "uses_default_features" flag?
    let _ ← required "features" texts?
    let _ ← optional "target" platform?
    let rename ← optional "rename" text?
    let _ ← optional "registry" text?
    let _ ← optional "path" text?
    return ⟨name, rename⟩

/-- A target. -/
def target? : Json.Reads Target :=
  record? do
    let name ← required "name" text?
    let kinds ← required "kind" texts?
    let _ ← defaulted "crate_types" texts?
    let _ ← defaulted "required-features" texts?
    let source ← required "src_path" text?
    let _ ← defaulted "edition" edition?
    let _ ← defaulted "doctest" flag?
    let _ ← defaulted "test" flag?
    let _ ← defaulted "doc" flag?
    return ⟨name, kinds, source⟩

/-- A package. It stands in a list in the document. -/
def package? : Json.Reads Package :=
  record? do
    let name ← required "name" text?
    let _ ← required "version" (textThat? Version.isVersion)
    let _ ← defaulted "authors" texts?
    let id ← required "id" text?
    let _ ← optional "source" text?
    let _ ← optional "description" text?
    let dependencies ← required "dependencies" (list? dependency?)
    let _ ← optional "license" text?
    let _ ← optional "license_file" text?
    let targets ← required "targets" (list? target?)
    let _ ← required "features" (table? texts?)
    let manifest ← required "manifest_path" text?
    let _ ← defaulted "categories" texts?
    let _ ← defaulted "keywords" texts?
    let _ ← optional "readme" text?
    let _ ← optional "repository" text?
    let _ ← optional "homepage" text?
    let _ ← optional "documentation" text?
    let _ ← defaulted "edition" edition?
    let _ ← defaulted "metadata" (any? (maxDepth - 3))
    let _ ← optional "links" text?
    let _ ← optional "publish" texts?
    let _ ← optional "default_run" text?
    let _ ← defaulted "rust_version" (nullable? (textThat? Version.isToolchain))
    return ⟨name, id, manifest, targets, dependencies⟩

/-! ### Resolved dependencies -/

/-- How a package depends on another one. -/
def use? : Json.Reads Unit :=
  record? do
    let _ ← required "kind" purpose?
    let _ ← optional "target" platform?

/-- A package that another one depends on. -/
def edge? : Json.Reads Unit :=
  record? do
    let _ ← required "name" text?
    let _ ← required "pkg" text?
    let _ ← defaulted "dep_kinds" (list? use?)

/-- A package with the packages that it depends on. -/
def node? : Json.Reads Unit :=
  record? do
    let _ ← required "id" text?
    let _ ← defaulted "deps" (list? edge?)
    let _ ← required "dependencies" texts?
    let _ ← defaulted "features" texts?

/-- The packages that have been chosen for all dependencies. -/
def resolution? : Json.Reads Unit :=
  record? do
    let _ ← required "nodes" (list? node?)
    let _ ← optional "root" text?

/-! ### Documents -/

/-- A workspace. -/
def workspace? : Json.Reads Workspace :=
  record? do
    let packages ← required "packages" (list? package?)
    let members ← required "workspace_members" texts?
    let _ ← optional "workspace_default_members" texts?
    let _ ← optional "resolve" resolution?
    let _ ← required "workspace_root" text?
    let _ ← required "target_directory" text?
    let _ ← defaulted "metadata" (any? (maxDepth - 1))
    let _ ← required "version" size?
    return ⟨packages, members⟩

/-- The first line that starts like an object. -/
def document? (text : String) : Option String :=
  ((splitOnChar '\n' text.toList).find? (·.head? == some '\x7b')).map String.ofList

end Metadata

namespace Workspace

/-- The workspace that a text describes, if it does. -/
def ofMetadata? (text : String) : Option Workspace := do
  Metadata.workspace? (← Json.Written.parse? (← Metadata.document? text))

end Workspace

end CallAtlas
