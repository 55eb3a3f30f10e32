import FlowGraph.Json.Printer
import FlowGraph.Json.Reader
import FlowGraph.Link.Builder

/-!
# Link tables as JSON

A table is kept as its two flat lists. Loading lays the records down anew, so that a table that was
tampered with is refused and the index is rebuilt.

* `LinkTable.Image` — the two lists.
* `LinkTable.ofImage` — a table from an image, under the builder's protocol.
* `LinkTable.toJson`, `LinkTable.parse` — a table as text and back.
-/

namespace FlowGraph

namespace LinkRecord

/-- A record as JSON. -/
def encode (r : LinkRecord) : Json :=
  .object
    [("address", .int r.address.raw.toNat), ("port", .int r.port.raw.toNat),
      ("kind", .text r.kind.name), ("count", .int r.count.toNat)]

/-- A record from JSON. -/
def decode? (j : Json) : Option LinkRecord := do
  let r ← Json.Record.ofJson? ["address", "port", "kind", "count"] j
  let address ← r.required 0 Json.uint64?
  let port ← r.required 1 Json.uint32?
  let kind ← r.required 2 (Json.oneOf? PortKind.ofName?)
  let count ← r.required 3 Json.uint32?
  if r.isExact then some ⟨⟨address⟩, ⟨port⟩, kind, count⟩ else none

end LinkRecord

namespace LinkTable

/-- The persisted form of a table. -/
structure Image where
  nodes : List PackedAddress
  records : List LinkRecord
  deriving DecidableEq

/-- The persisted form. -/
def image (t : LinkTable) : Image := ⟨t.nodes, t.records⟩

namespace Image

/-- An image as JSON. -/
def encode (i : Image) : Json :=
  .object
    [("nodes", .array (i.nodes.map fun a => .int a.raw.toNat)),
      ("records", .array (i.records.map LinkRecord.encode))]

/-- An image from JSON. -/
def decode? (j : Json) : Option Image := do
  let r ← Json.Record.ofJson? ["nodes", "records"] j
  let nodes ← r.required 0 (Json.listOf? fun j => j.uint64?.map PackedAddress.mk)
  let records ← r.required 1 (Json.listOf? LinkRecord.decode?)
  if r.isExact then some ⟨nodes, records⟩ else none

end Image

/-- Lay down a header and its entries. -/
def layDown (b : LinkTableBuilder) (block : LinkRecord × List LinkRecord) :
    Except LinkTableError LinkTableBuilder := do
  let (header, entries) := block
  let (first, b) ← b.reserve header.address header.port header.kind header.count
  let b ← b.writeAll first (entries.map (·.toEntry))
  if entries.length < header.count.toNat then
    .error (.incomplete (header.count.toNat - entries.length))
  else .ok b

/-- A table from its persisted form. -/
def ofImage (i : Image) : Noted (Except LinkTableError LinkTable) :=
  let laidDown := do
    let b ← (LinkTableBuilder.withCapacity i.nodes.length i.records.length).pushNodes i.nodes
    (blocks i.records).foldlM layDown b
  match laidDown with
  | .error e => pure (.error e)
  | .ok b => b.finish

/-- A table as JSON text over several lines. -/
def toJson (t : LinkTable) : String := t.image.encode.pretty

/-- Why a text is not taken for a table. -/
inductive LoadError
  /-- The text is not JSON, or its JSON is no image. -/
  | malformed
  /-- The image breaks the builder's protocol. -/
  | refused (e : LinkTableError)
  deriving DecidableEq

/-- A table from JSON text. A refused image is reported as such even if more text follows it. -/
def parse (s : String) : Noted (Except LoadError LinkTable) :=
  match Json.parsePrefix? s with
  | none => pure (.error .malformed)
  | some (j, rest) =>
    match Image.decode? j with
    | none => pure (.error .malformed)
    | some i => do
      match ← ofImage i with
      | .error e => return .error (.refused e)
      | .ok t =>
        if (Json.skipBlanks rest).isEmpty then return .ok t else return .error .malformed

end LinkTable

end FlowGraph
