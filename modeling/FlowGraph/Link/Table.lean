import FlowGraph.Address
import FlowGraph.Ident
import FlowGraph.Port
import FlowGraph.Table

/-!
# The compiled link table

All links of a running graph lie in one flat list of records. Each node with links owns a block of
headers, one for each connected port, ports ascending; each header is followed at once by its
entries, and each entry names the far end of one connection:

```text
[A:0 n=2][→B:0][→C:0][A:3 n=1][→D:1]   [B:0 n=1][←A:0]   …
 block of A                             block of B
```

An index leads from a node to its block, and a lookup walks the headers of the block until it meets
or passes the wanted port.

* `LinkRecord`, `LinkEntry`, `LinkRange` — the parts.
* `LinkTable.getLinks`, `LinkTable.links` — the lookup and the entries that it finds.
* `LinkTable.headerCount`, `LinkTable.linkCount` — the two kinds of record counted.
-/

namespace FlowGraph

/-! ### Records -/

/-- A record of the table: a header if it starts a port's links, an entry otherwise. -/
structure LinkRecord where
  address : PackedAddress
  port : PortIndex
  /-- The kind of the owning port in a header, of the far port in an entry. -/
  kind : PortKind
  /-- The number of entries that follow a header; zero in entries. -/
  count : UInt32
  deriving DecidableEq

/-- The far end of a link. -/
structure LinkEntry where
  address : PackedAddress
  port : PortIndex
  kind : PortKind
  deriving DecidableEq

namespace LinkRecord

/-- The record at a place that has been laid down but not filled. -/
def unwritten : LinkRecord := ⟨.empty, ⟨0⟩, .enter, 0⟩

/-- The record of an entry. -/
def ofEntry (e : LinkEntry) : LinkRecord := ⟨e.address, e.port, e.kind, 0⟩

/-- What a record says when it is taken for an entry. -/
def toEntry (r : LinkRecord) : LinkEntry := ⟨r.address, r.port, r.kind⟩

/-- A header and its entries together are this many records. -/
def blockLength (r : LinkRecord) : Nat := r.count.toNat + 1

end LinkRecord

/-- The places of the entries of one port. -/
structure LinkRange where
  first : Nat
  count : Nat
  deriving DecidableEq

namespace LinkRange

/-- The range of a port without links. -/
def empty : LinkRange := ⟨0, 0⟩

/-- Whether there are no entries. -/
def isEmpty (r : LinkRange) : Bool := r.count == 0

/-- The place behind the last entry. -/
def stop (r : LinkRange) : Nat := r.first + r.count

/-- The places of the entries. -/
def indices (r : LinkRange) : List Nat := (List.range r.count).map (r.first + ·)

end LinkRange

/-- The block of one node: the places from `start` up to but without `stop`. -/
structure NodeSpan where
  start : Nat
  stop : Nat
  deriving DecidableEq

/-! ### The table -/

/-- The links of a compiled graph. -/
structure LinkTable where
  /-- The nodes in compiled order. -/
  nodes : List PackedAddress
  records : List LinkRecord
  spans : Table PackedAddress NodeSpan
  deriving Inhabited

namespace LinkTable

/-- The table without nodes and links. -/
def empty : LinkTable := ⟨[], [], .empty⟩

/-- Walk the headers of a block from a place on, up to the header of a port or past it. -/
def scanBlock (records : List LinkRecord) (port : PortIndex) (stop index : Nat) : LinkRange :=
  if index < stop then
    match records[index]? with
    | none => .empty
    | some header =>
      if header.port = port then ⟨index + 1, header.count.toNat⟩
      else if port.raw < header.port.raw then .empty
      else scanBlock records port stop (index + header.blockLength)
  else .empty
termination_by stop - index
decreasing_by simp only [LinkRecord.blockLength]; omega

/-- The places of the entries linked to a port of a node. -/
def getLinks (t : LinkTable) (a : PackedAddress) (port : PortIndex) : LinkRange :=
  match t.spans.find? a with
  | none => .empty
  | some span => scanBlock t.records port span.stop span.start

/-- The record at a place, taken for an entry. -/
def getLink (t : LinkTable) (i : Nat) : Option LinkEntry := (t.records[i]?).map (·.toEntry)

/-- The entries linked to a port of a node. -/
def links (t : LinkTable) (a : PackedAddress) (port : PortIndex) : List LinkEntry :=
  (t.getLinks a port).indices.filterMap t.getLink

/-- The headers among records that start with one, each with the entries that follow it. The last
may have fewer than it announces. -/
def blocks (records : List LinkRecord) : List (LinkRecord × List LinkRecord) :=
  match records with
  | [] => []
  | header :: rest =>
    (header, rest.take header.count.toNat) :: blocks (rest.drop header.count.toNat)
termination_by records.length
decreasing_by simp only [List.length_drop, List.length_cons]; omega

/-- The number of headers. -/
def headerCount (t : LinkTable) : Nat := (blocks t.records).length

/-- The number of entries. -/
def linkCount (t : LinkTable) : Nat := t.records.length - t.headerCount

end LinkTable

end FlowGraph
