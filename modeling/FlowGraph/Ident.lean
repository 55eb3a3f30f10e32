/-!
# Identities of the authoring graph

Nodes and connections are named by 32-bit numbers that a graph hands out in increasing order and
never reuses, so a number that an editor still holds can miss but never name something newer.

* `NodeId`, `ConnectionId` — the two kinds of name; the largest number is the invalid one.
* `PortIndex` — the position of a port in its node's port list.
* `PortRef` — one end of a connection: a node and one of its ports.
* `BehaviorId` — the stable name of a behaviour, known or not.
-/

namespace FlowGraph

/-! ### Nodes and connections -/

/-- The name of a node in a graph. -/
structure NodeId where
  raw : UInt32
  deriving DecidableEq, Inhabited

/-- The one number that names no node. -/
def NodeId.invalid : NodeId := ⟨0xFFFFFFFF⟩

/-- Whether the name can belong to a node. -/
def NodeId.isValid (n : NodeId) : Bool := n != NodeId.invalid

/-- `NodeId(5)`, with the word `INVALID` for the invalid name. -/
def NodeId.text (n : NodeId) : String :=
  if n = NodeId.invalid then "NodeId(INVALID)" else s!"NodeId({n.raw.toNat})"

/-- The name of a connection in a graph. -/
structure ConnectionId where
  raw : UInt32
  deriving DecidableEq, Inhabited

/-- The one number that names no connection. -/
def ConnectionId.invalid : ConnectionId := ⟨0xFFFFFFFF⟩

/-- Whether the name can belong to a connection. -/
def ConnectionId.isValid (c : ConnectionId) : Bool := c != ConnectionId.invalid

/-- `ConnectionId(5)`, with the word `INVALID` for the invalid name. -/
def ConnectionId.text (c : ConnectionId) : String :=
  if c = ConnectionId.invalid then "ConnectionId(INVALID)" else s!"ConnectionId({c.raw.toNat})"

/-! ### Ports -/

/-- The position of a port within its node's ordered port list. -/
structure PortIndex where
  raw : UInt32
  deriving DecidableEq, Inhabited

/-- The position as a number. -/
def PortIndex.index (p : PortIndex) : Nat := p.raw.toNat

/-- The bare number, as messages to people write it. -/
def PortIndex.digits (p : PortIndex) : String := toString p.raw.toNat

/-- `PortIndex(5)`, as diagnostics write it. -/
def PortIndex.text (p : PortIndex) : String := s!"PortIndex({p.digits})"

/-- One end of a connection: a node and one of its ports. -/
structure PortRef where
  node : NodeId
  port : PortIndex
  deriving DecidableEq, Inhabited

/-- Diagnostics spell both parts out. -/
def PortRef.text (r : PortRef) : String :=
  "PortRef \x7b node: " ++ r.node.text ++ ", port: " ++ r.port.text ++ " \x7d"

/-! ### Behaviours by name -/

/-- The stable name of a behaviour. Graphs may carry names that no catalog knows. -/
structure BehaviorId where
  name : String
  deriving DecidableEq, Inhabited

/-- `BehaviorTypeId(name)`, as diagnostics write it. -/
def BehaviorId.text (b : BehaviorId) : String := s!"BehaviorTypeId({b.name})"

example : NodeId.invalid.isValid = false := by decide

end FlowGraph
