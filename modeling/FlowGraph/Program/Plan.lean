import FlowGraph.Graph.Basic
import FlowGraph.Program.Basic

/-!
# Plans of programs

Before any link is written, every node gets an instance and every port its list of far ends. A node
of unknown behaviour gets none, and a far end that leads to such a node is left out.

* `placeNode`, `placeNodes` — instances for nodes, in order; `Placing` — what this comes to.
* `PortPlan`, `portPlan` — the far ends of one port, resolved or not.
* `Graph.plan` — the ports of all placed nodes, in node order and port order.
-/

namespace FlowGraph

/-! ### Placing nodes -/

/-- What placing nodes comes to. -/
structure Placing where
  /-- The nodes that got an instance, each with its address. -/
  placement : Placement
  /-- How many nodes got none. -/
  skipped : Nat

namespace Placing

/-- No nodes. -/
def empty : Placing := ⟨[], 0⟩

/-- With one node more, before the others. -/
def cons (n : NodeId) : Option PackedAddress → Placing → Placing
  | some address, p => { p with placement := (n, address) :: p.placement }
  | none, p => { p with skipped := p.skipped + 1 }

/-- A node is placed or skipped. -/
theorem count_cons (n : NodeId) (address : Option PackedAddress) (p : Placing) :
    (p.cons n address).placement.length + (p.cons n address).skipped
      = p.placement.length + p.skipped + 1 := by
  cases address with
  | none => rfl
  | some a => exact Nat.add_right_comm _ _ _

end Placing

variable [Repertoire]

/-- An instance for a node; none if its behaviour is unknown. -/
def placeNode (node : Node) (r : Registry) : Noted (Option PackedAddress × Registry) := do
  match ← r.register node.behavior with
  | (none, r) =>
    Noted.note (.nodeSkipped node.id node.behavior)
    return (none, r)
  | (some pool, r) => r.materialize pool node.data

/-- Instances for nodes, in order. -/
def placeNodes : List Node → Registry → Noted (Placing × Registry)
  | [], r => pure (.empty, r)
  | node :: nodes, r => do
    let (address, r) ← placeNode node r
    let (placing, r) ← placeNodes nodes r
    return (placing.cons node.id address, r)

/-! ### Planning links -/

/-- The far ends of one port of a placed node. -/
structure PortPlan where
  /-- The address of the port's node. -/
  address : PackedAddress
  /-- The port. -/
  near : PortRef
  /-- The kind of the port. -/
  kind : PortKind
  /-- The far ends that could be resolved. -/
  targets : List LinkEntry
  /-- The far ends that could not. -/
  unresolved : List PortRef

namespace PortPlan

/-- The notices about far ends that could not be resolved. -/
def notices (p : PortPlan) : List Notice := p.unresolved.map (.linkDropped p.near)

/-- The number of records that a plan takes: a header and an entry for each far end. -/
def recordCount (p : PortPlan) : Nat := p.targets.length + 1

end PortPlan

namespace Graph

/-- The far ends of the connections of a port, in the order in which they were made. -/
def farEnds (g : Graph) (near : PortRef) (kind : PortKind) : List PortRef :=
  if kind.isSource then (g.connectionsFrom near).map (·.sink)
  else (g.connectionsTo near).map (·.source)

/-- A far end as an entry: its node must have been placed and its port must be of a given kind. -/
def resolveEnd (g : Graph) (placement : Placement) (expected : PortKind) (far : PortRef) :
    Option LinkEntry := do
  let address ← placement.find? far.node
  let port ← g.port? far
  if port.kind = expected then some ⟨address, far.port, expected⟩ else none

/-- The plan of one port. -/
def portPlan (g : Graph) (placement : Placement) (address : PackedAddress) (near : PortRef)
    (port : Port) : PortPlan :=
  let far := g.farEnds near port.kind
  let resolve := g.resolveEnd placement port.kind.counterpart
  { address, near, kind := port.kind
    targets := far.filterMap resolve
    unresolved := far.filter fun r => (resolve r).isNone }

/-- The plans of a node's ports, ports ascending. -/
def nodePlan (g : Graph) (placement : Placement) (n : NodeId) (address : PackedAddress) :
    List PortPlan :=
  (g.ports n).zipIdx.map fun (port, i) =>
    g.portPlan placement address ⟨n, ⟨i.toUInt32⟩⟩ port

/-- The plans of all ports of all placed nodes. -/
def plan (g : Graph) (placement : Placement) : List PortPlan :=
  placement.flatMap fun (n, address) => g.nodePlan placement n address

/-- Each far end of a port is either resolved or not. -/
theorem length_portPlan (g : Graph) (placement : Placement) (address : PackedAddress)
    (near : PortRef) (port : Port) :
    (g.portPlan placement address near port).targets.length
        + (g.portPlan placement address near port).unresolved.length
      = (g.farEnds near port.kind).length := by
  simp only [portPlan]
  induction g.farEnds near port.kind with
  | nil => rfl
  | cons r rs ih =>
    cases h : g.resolveEnd placement port.kind.counterpart r <;> simp [h] <;> omega

end Graph

end FlowGraph
