import FlowGraph.Behavior.Catalog
import FlowGraph.Ident
import FlowGraph.Json.Basic
import FlowGraph.Port

/-!
# Authoring graphs

A graph is what an editor changes: nodes with ports derived from their data, and connections between
ports. A connection always runs from a source port (exit or output) to a sink port of the opposite
kind (enter or input).

* `Node`, `Connection`, `Graph` — the parts; nodes stand in the order of their ids.
* `Graph.portAt`, `Graph.checkLink` — which port a reference names, and whether two may be joined.
* `ConnectError` — the ways in which joining two ports can fail, with their messages.
* `Graph.connectionsFrom`, `Graph.externalPorts` and others — queries.
-/

namespace FlowGraph

/-! ### Parts -/

/-- A node's place on the editor's canvas. -/
structure Position where
  x : Float32
  y : Float32
  deriving Inhabited

/-- The place of nodes about which nothing was said. -/
def Position.origin : Position := ⟨0, 0⟩

/-- A node as an author sees it. -/
structure Node where
  id : NodeId
  behavior : BehaviorId
  position : Position
  /-- Derived from the behaviour and the data. -/
  ports : List Port
  /-- What the author wrote; it is decoded when the graph is compiled. -/
  data : Json
  deriving Inhabited

/-- The port at a place, if there is one. -/
def Node.port? (n : Node) (p : PortIndex) : Option Port := n.ports[p.index]?

/-- A directed link. -/
structure Connection where
  id : ConnectionId
  /-- The exit or output end. -/
  source : PortRef
  /-- The enter or input end. -/
  sink : PortRef
  deriving DecidableEq, Inhabited

/-- Whether the connection has an end at a node. -/
def Connection.touches (c : Connection) (n : NodeId) : Bool :=
  c.source.node == n || c.sink.node == n

variable [Repertoire]

/-- Nodes and the connections between them. -/
structure Graph where
  catalog : Catalog
  /-- In ascending order of ids, which is the order in which they were added. -/
  nodes : List Node
  /-- In the order in which they were made. -/
  connections : List Connection
  nextNodeId : UInt32
  nextConnectionId : UInt32
  deriving Inhabited

/-! ### Errors -/

/-- Why two ports were not joined. -/
inductive ConnectError
  | sameNode
  | missingNode (node : NodeId)
  | portOutOfRange (node : NodeId) (port : PortIndex)
  | kindMismatch (a b : PortKind)
  | typeMismatch (source sink : TypeTag)
  | duplicate
  deriving DecidableEq

namespace ConnectError

/-- The name of the kind of error. -/
def kind : ConnectError → String
  | sameNode => "SameNode"
  | missingNode _ => "MissingNode"
  | portOutOfRange .. => "PortOutOfRange"
  | kindMismatch .. => "KindMismatch"
  | typeMismatch .. => "TypeMismatch"
  | duplicate => "Duplicate"

/-- The wording of the error. -/
def message : ConnectError → String
  | sameNode => "cannot connect a node to itself"
  | missingNode n => s!"node {n.text} does not exist"
  | portOutOfRange n p => s!"node {n.text} has no port {p.digits}"
  | kindMismatch a b => s!"{a.name} cannot be connected to {b.name}"
  | typeMismatch s t => s!"declared types differ: {s.text} -> {t.text}"
  | duplicate => "connection already exists"

end ConnectError

namespace Graph

/-- The graph without nodes. -/
def empty (catalog : Catalog) : Graph := ⟨catalog, [], [], 1, 1⟩

/-! ### Nodes and ports -/

/-- The node of an id. -/
def node? (g : Graph) (n : NodeId) : Option Node := g.nodes.find? (·.id = n)

/-- The number of nodes. -/
def nodeCount (g : Graph) : Nat := g.nodes.length

/-- The ports of a node; a node that does not exist has none. -/
def ports (g : Graph) (n : NodeId) : List Port :=
  match g.node? n with
  | some node => node.ports
  | none => []

/-- The port that a reference names, or what it fails on. -/
def portAt (g : Graph) (r : PortRef) : Except ConnectError Port :=
  match g.node? r.node with
  | none => .error (.missingNode r.node)
  | some node =>
    match node.port? r.port with
    | none => .error (.portOutOfRange r.node r.port)
    | some p => .ok p

/-- The port that a reference names. -/
def port? (g : Graph) (r : PortRef) : Option Port := (g.portAt r).toOption

/-! ### Validity of a link -/

/-- Whether a source port and a sink port may be joined: first the kinds must match, then the
declared types. -/
def checkPorts (p q : Port) : Except ConnectError Unit :=
  if !p.kind.isSource || p.kind.counterpart ≠ q.kind then .error (.kindMismatch p.kind q.kind)
  else if !p.typeCompatible q then
    .error (.typeMismatch (p.declaredType.getD ⟨"?"⟩) (q.declaredType.getD ⟨"?"⟩))
  else .ok ()

/-- Whether a link from a source to a sink is valid in the graph as it stands. -/
def checkLink (g : Graph) (source sink : PortRef) : Except ConnectError Unit :=
  if source.node = sink.node then .error .sameNode
  else do
    let p ← g.portAt source
    let q ← g.portAt sink
    checkPorts p q

/-- Whether a link from a source to a sink is valid in the graph as it stands, as a truth value. -/
def accepts (g : Graph) (source sink : PortRef) : Bool :=
  match g.checkLink source sink with
  | .ok _ => true
  | .error _ => false

/-! ### Connections -/

/-- The connection of an id. -/
def connection? (g : Graph) (c : ConnectionId) : Option Connection :=
  g.connections.find? (·.id = c)

/-- The connections that leave a port. -/
def connectionsFrom (g : Graph) (r : PortRef) : List Connection :=
  g.connections.filter (·.source = r)

/-- The connections that arrive at a port. -/
def connectionsTo (g : Graph) (r : PortRef) : List Connection :=
  g.connections.filter (·.sink = r)

/-- The number of connections with an end at a port. -/
def connectionCount (g : Graph) (r : PortRef) : Nat :=
  (g.connections.filter fun c => c.source = r ∨ c.sink = r).length

/-- Whether a source is joined to a sink. -/
def joined (g : Graph) (source sink : PortRef) : Bool :=
  g.connections.any fun c => c.source = source ∧ c.sink = sink

/-- The ports of the graph's boundary, in node order and port order. -/
def externalPorts (g : Graph) : List (PortRef × Port) :=
  g.nodes.flatMap fun n =>
    (n.ports.zipIdx.filter (·.1.isExternal)).map fun (p, i) => (⟨n.id, ⟨i.toUInt32⟩⟩, p)

end Graph

end FlowGraph
