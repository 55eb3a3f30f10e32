import FlowGraph.Link.Table
import FlowGraph.Notice

/-!
# Building a link table

The records of a table are laid down once, at a size fixed beforehand. A header is reserved together
with room for its entries, the entries are then filled in any order, and the table is sealed when
none is missing.

* `LinkTableError` — the ways of breaking the protocol, with their messages.
* `LinkTableBuilder.pushNode`, `reserve`, `write`, `finish` — the protocol.
-/

namespace FlowGraph

/-! ### Errors -/

/-- The ways of breaking the protocol. -/
inductive LinkTableError
  /-- A header of the node was reserved before, for a port that is not lower. -/
  | outOfOrder (address : PackedAddress) (port last : PortIndex)
  /-- The node's block was already closed by a header of another node. -/
  | nonContiguous (address : PackedAddress)
  /-- A header without entries. -/
  | emptyHeader (address : PackedAddress) (port : PortIndex)
  /-- An address that names nothing. -/
  | invalidAddress (address : PackedAddress)
  /-- No room is left. -/
  | capacityExceeded (capacity : Nat)
  /-- A place that holds no reserved, unfilled entry. -/
  | invalidEntry (index : Nat)
  /-- Some reserved entries were never filled. -/
  | incomplete (missing : Nat)
  deriving DecidableEq

namespace LinkTableError

/-- The name of the kind of error. -/
def kind : LinkTableError → String
  | outOfOrder .. => "OutOfOrder"
  | nonContiguous .. => "NonContiguous"
  | emptyHeader .. => "EmptyHeader"
  | invalidAddress .. => "InvalidAddress"
  | capacityExceeded .. => "CapacityExceeded"
  | invalidEntry .. => "InvalidEntry"
  | incomplete .. => "Incomplete"

/-- The wording of the error. -/
def message : LinkTableError → String
  | outOfOrder a p q =>
    s!"header for {a.display} port {p.digits} written after port {q.digits}"
  | nonContiguous a => s!"headers for {a.display} are not contiguous"
  | emptyHeader a p => s!"header for {a.display} port {p.digits} has no links"
  | invalidAddress a => s!"invalid address {a.text}"
  | capacityExceeded n => s!"capacity of {n} records exceeded"
  | invalidEntry i => s!"record {i} is not a reserved, unwritten link entry"
  | incomplete n => s!"{n} reserved link entries were never written"

end LinkTableError

/-! ### The protocol -/

/-- A table under construction. -/
structure LinkTableBuilder where
  nodes : List PackedAddress
  nodeCapacity : Nat
  /-- As many records as there is room for. -/
  records : List LinkRecord
  /-- The places before it are headers or reserved. -/
  cursor : Nat
  spans : Table PackedAddress NodeSpan
  /-- The owner of the last header. -/
  last : Option (PackedAddress × PortIndex)
  /-- The number of reserved entries not yet filled. -/
  unfilled : Nat

namespace LinkTableBuilder

/-- A builder with room for so many nodes and records. -/
def withCapacity (nodes records : Nat) : LinkTableBuilder :=
  ⟨[], nodes, List.replicate records .unwritten, 0, .empty, none, 0⟩

/-- Add a node to the compiled order. -/
def pushNode (b : LinkTableBuilder) (a : PackedAddress) :
    Except LinkTableError LinkTableBuilder :=
  if !a.isValid then .error (.invalidAddress a)
  else if b.nodes.length = b.nodeCapacity then .error (.capacityExceeded b.nodeCapacity)
  else .ok { b with nodes := b.nodes ++ [a] }

/-- Why a header for a port may not come next, if it may not. -/
def orderError? (b : LinkTableBuilder) (a : PackedAddress) (port : PortIndex) :
    Option LinkTableError :=
  let fresh := if b.spans.contains a then some (.nonContiguous a) else none
  match b.last with
  | none => fresh
  | some (lastAddress, lastPort) =>
    if lastAddress = a then
      if port.raw ≤ lastPort.raw then some (.outOfOrder a port lastPort) else none
    else fresh

/-- The span of a node after another header of it, which ends at a place. -/
def extendSpan (spans : Table PackedAddress NodeSpan) (a : PackedAddress) (start stop : Nat) :
    Table PackedAddress NodeSpan :=
  match spans.find? a with
  | some span => spans.insert a { span with stop }
  | none => spans.insert a ⟨start, stop⟩

/-- Lay down a header with room for its entries; answers the place of the first entry. -/
def reserve (b : LinkTableBuilder) (a : PackedAddress) (port : PortIndex) (kind : PortKind)
    (count : UInt32) : Except LinkTableError (Nat × LinkTableBuilder) :=
  if !a.isValid then .error (.invalidAddress a)
  else if count = 0 then .error (.emptyHeader a port)
  else
    match b.orderError? a port with
    | some e => .error e
    | none =>
      let stop := b.cursor + (count.toNat + 1)
      if b.records.length < stop then .error (.capacityExceeded b.records.length)
      else
        .ok (b.cursor + 1,
          { b with
            records := b.records.set b.cursor ⟨a, port, kind, count⟩
            cursor := stop
            spans := extendSpan b.spans a b.cursor stop
            last := some (a, port)
            unfilled := b.unfilled + count.toNat })

/-- Fill a reserved entry. -/
def write (b : LinkTableBuilder) (i : Nat) (e : LinkEntry) :
    Except LinkTableError LinkTableBuilder :=
  if !e.address.isValid then .error (.invalidAddress e.address)
  else if b.cursor ≤ i ∨ b.records[i]? ≠ some .unwritten then .error (.invalidEntry i)
  else
    .ok { b with records := b.records.set i (.ofEntry e), unfilled := b.unfilled - 1 }

/-- Seal the table, leaving out the room that was not used. -/
def finish (b : LinkTableBuilder) : Noted (Except LinkTableError LinkTable) :=
  if 0 < b.unfilled then pure (.error (.incomplete b.unfilled))
  else
    ⟨.ok ⟨b.nodes, b.records.take b.cursor, b.spans⟩,
      if b.cursor < b.records.length then [.tableOverReserved b.cursor b.records.length] else []⟩

/-- Add nodes to the compiled order. -/
def pushNodes (b : LinkTableBuilder) : List PackedAddress → Except LinkTableError LinkTableBuilder
  | [] => .ok b
  | a :: as => do (← b.pushNode a).pushNodes as

/-- Fill reserved entries, one after the other from a place on. -/
def writeAll (b : LinkTableBuilder) (i : Nat) :
    List LinkEntry → Except LinkTableError LinkTableBuilder
  | [] => .ok b
  | e :: es => do (← b.write i e).writeAll (i + 1) es

end LinkTableBuilder

end FlowGraph
