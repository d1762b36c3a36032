import CallAtlas.Json.Record
import CallAtlas.Proofs.JsonReading
import CallAtlas.Report.Document

/-!
# Reading documents back

A document is read back from its text. Its records are read by their keys, so neither the order of
their members nor what else stands in them matters.

## Main definitions

* `Document.read?` — the document that something written stands for.

## Main results

* `Document.read?_written_toJson` — what a document writes stands for it.
* `Document.parse?_render` — the text of a graph writes its document.
-/

namespace CallAtlas

namespace Json

/-! ### Reading records that were written -/

namespace Reads

/-- A number without sign, point and exponent. -/
def count? : Reads Nat
  | .number text => decimal? text
  | _ => none

theorem text?_written (s : String) : text? (written (.string s)) = some s := by
  rw [written, text?, Piece.join?_map_ofChar]

theorem count?_written (n : Nat) : count? (written (ofNat n)) = some n := by
  rw [ofNat, written, count?, decimal?_toString]

theorem nullable?_text?_written (s : Option String) :
    nullable? text? (written (ofOptionString s)) = some s := by
  cases s with
  | none => rfl
  | some s =>
    have htext : text? (.string (s.toList.map Piece.ofChar)) = some s := text?_written s
    rw [ofOptionString, written, nullable?, htext]
    · rfl
    · rintro ⟨⟩

end Reads

theorem writtenItems_eq_map (items : List Json) : writtenItems items = items.map written := by
  induction items with
  | nil => rfl
  | cons item items ih => rw [writtenItems, List.map_cons, ih]

theorem writtenMembers_eq_map (members : List (String × Json)) :
    writtenMembers members = members.map fun m => (m.1.toList.map Piece.ofChar, m.2.written) := by
  induction members with
  | nil => rfl
  | cons member members ih =>
    obtain ⟨key, value⟩ := member
    rw [writtenMembers, List.map_cons, ih]

/-- Values that are all read are read one by one. -/
theorem mapM_map_eq_some {α β γ : Type} {read : β → Option γ} {write : α → β} (value : α → γ)
    (h : ∀ a, read (write a) = some (value a)) (as : List α) :
    (as.map write).mapM read = some (as.map value) := by
  induction as with
  | nil => rfl
  | cons a as ih =>
    rw [List.map_cons, List.mapM_cons, h, ih]
    rfl

/-- A list is read back if each of its items is. -/
theorem Reads.list?_written {α : Type} {read : Reads α} {write : α → Json}
    (h : ∀ a, read (write a).written = some a) (values : List α) :
    list? read (written (.array (values.map write))) = some values := by
  rw [written, list?, writtenItems_eq_map, List.map_map]
  exact (mapM_map_eq_some id h values).trans (by rw [List.map_id])

/-- The members of an object, as a record reader takes them. -/
def Fields.ofMembers (members : List (String × Json)) : Fields :=
  .members (members.map fun m => (m.1, m.2.written))

/-- An object is read from its members. -/
theorem Reads.record?_written {α : Type} (fields : FieldReader α)
    (members : List (String × Json)) :
    record? fields (written (.object members)) =
      (fields.run (.ofMembers members)).map Prod.fst := by
  rw [written, record?, writtenMembers_eq_map,
    mapM_map_eq_some (fun m => (m.1, m.2.written)) fun m => by simp [Piece.join?_map_ofChar]]
  cases hrun : fields.run (.ofMembers members) with
  | none =>
    rw [Fields.ofMembers] at hrun
    simp [hrun]
  | some result =>
    rw [Fields.ofMembers] at hrun
    simp [hrun]

namespace FieldReader

variable {α : Type} {key : String} {value : Json} {read : Reads α} {a : α}
  {members : List (String × Json)}

theorem next_ofMembers (h : members.filter (·.1 == key) = [(key, value)]) :
    (next key).run (.ofMembers members) = some (some value.written, .ofMembers members) := by
  have hfilter : (members.map fun m => (m.1, m.2.written)).filter (·.1 == key) =
      [(key, value.written)] := by
    rw [List.filter_map]
    exact congrArg (List.map fun m => (m.1, m.2.written)) h
  simp [next, Fields.ofMembers, hfilter]

/-- A field that stands once is read. -/
theorem required_ofMembers (hkey : members.filter (·.1 == key) = [(key, value)])
    (hread : read value.written = some a) :
    (required key read).run (.ofMembers members) = some (a, .ofMembers members) := by
  rw [required, StateT.run_bind, next_ofMembers hkey]
  simp [hread]

theorem optional_ofMembers {a : Option α} (hkey : members.filter (·.1 == key) = [(key, value)])
    (hread : Reads.nullable? read value.written = some a) :
    (optional key read).run (.ofMembers members) = some (a, .ofMembers members) := by
  rw [optional, StateT.run_bind, next_ofMembers hkey]
  simp [hread]

/-- Reading goes on behind a field that is read. -/
theorem run_bind_eq {β : Type} {first : FieldReader α} {more : α → FieldReader β} {fields : Fields}
    (h : first.run fields = some (a, fields)) :
    (first >>= more).run fields = (more a).run fields := by
  rw [StateT.run_bind, h]
  rfl

end FieldReader

end Json

namespace Document

open Json.Reads Json.FieldReader

/-- The node that something written stands for. -/
def Node.read? : Json.Reads Node :=
  record? do
    let id ← required "id" text?
    let package ← optional "package" text?
    let name ← required "name" text?
    return ⟨id, package, name⟩

/-- The edge that something written stands for. -/
def Edge.read? : Json.Reads Edge :=
  record? do
    let source ← required "from" text?
    let target ← required "to" text?
    let file ← required "file" text?
    let line ← required "line" count?
    let column ← required "column" count?
    return ⟨source, target, ⟨file, line, column⟩⟩

/-- The document that something written stands for. -/
def read? : Json.Reads Document :=
  record? do
    let nodes ← required "nodes" (list? Node.read?)
    let edges ← required "edges" (list? Edge.read?)
    return ⟨nodes, edges⟩

theorem Node.read?_written_toJson (n : Node) : Node.read? n.toJson.written = some n := by
  rw [Node.read?, Node.toJson, record?_written,
    run_bind_eq (required_ofMembers rfl (text?_written n.id)),
    run_bind_eq (optional_ofMembers rfl (nullable?_text?_written n.package)),
    run_bind_eq (required_ofMembers rfl (text?_written n.name))]
  rfl

theorem Edge.read?_written_toJson (e : Edge) : Edge.read? e.toJson.written = some e := by
  rw [Edge.read?, Edge.toJson, record?_written,
    run_bind_eq (required_ofMembers rfl (text?_written e.source)),
    run_bind_eq (required_ofMembers rfl (text?_written e.target)),
    run_bind_eq (required_ofMembers rfl (text?_written e.location.file)),
    run_bind_eq (required_ofMembers rfl (count?_written e.location.line)),
    run_bind_eq (required_ofMembers rfl (count?_written e.location.column))]
  rfl

/-- What a document writes stands for it. -/
theorem read?_written_toJson (d : Document) : read? d.toJson.written = some d := by
  rw [read?, toJson, record?_written,
    run_bind_eq (required_ofMembers rfl (list?_written Node.read?_written_toJson d.nodes)),
    run_bind_eq (required_ofMembers rfl (list?_written Edge.read?_written_toJson d.edges))]
  rfl

/-! ### Numbers in documents -/

theorem counts_ofOptionString (s : Option String) : (Json.ofOptionString s).Counts := by
  cases s <;> trivial

theorem countsItems_map {α : Type} {write : α → Json} (h : ∀ a, (write a).Counts)
    (values : List α) : Json.CountsItems (values.map write) := by
  induction values with
  | nil => trivial
  | cons a values ih => exact ⟨h a, ih⟩

theorem Node.counts_toJson (n : Node) : n.toJson.Counts :=
  ⟨trivial, counts_ofOptionString n.package, trivial, trivial⟩

theorem Edge.counts_toJson (e : Edge) : e.toJson.Counts :=
  ⟨trivial, trivial, trivial, ⟨e.location.line, rfl⟩, ⟨e.location.column, rfl⟩, trivial⟩

theorem counts_toJson (d : Document) : d.toJson.Counts :=
  ⟨countsItems_map Node.counts_toJson d.nodes, countsItems_map Edge.counts_toJson d.edges, trivial⟩

/-- **The text of a graph is one JSON value**, and it stands for the document of the graph. -/
theorem parse?_render (g : CallGraph) :
    (Json.Written.parse? (render g)).bind read? = some (ofGraph g) := by
  rw [render, Json.parse?_pretty (counts_toJson _), Option.bind_some, read?_written_toJson]

end Document

end CallAtlas
