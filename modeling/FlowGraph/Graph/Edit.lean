import FlowGraph.Graph.Basic

/-!
# Editing graphs

An editor passes through invalid states all the time, so an edit that cannot be made leaves the
graph as it was and says why.

* `Graph.addNode`, `Graph.removeNode`, `Graph.setPosition` — nodes.
* `Graph.disconnect`, `Graph.disconnectAll` — connections go, by their ids.
* `Graph.setData`, `Graph.invalidate` — a node's data and ports; connections that no longer fit go.
* `Graph.connect` — a connection is made; an input keeps at most one producer.
-/

namespace FlowGraph.Graph

variable [Repertoire]

/-! ### Nodes -/

/-- The ports of a node with the given behaviour and data; a node of unknown behaviour has none. -/
def derivePorts (g : Graph) (behavior : BehaviorId) (data : Json) : Noted (List Port) := do
  match ← g.catalog.portsFor behavior data with
  | some ports => return ports
  | none =>
    Noted.note (.behaviorUnknown behavior)
    return []

/-- Add a node, under the next id. -/
def addNode (g : Graph) (behavior : BehaviorId) (position : Position) (data : Json) :
    Noted (NodeId × Graph) := do
  let id : NodeId := ⟨g.nextNodeId⟩
  let ports ← g.derivePorts behavior data
  Noted.note (.nodeAdded id behavior)
  return (id,
    { g with
      nodes := g.nodes ++ [{ id, behavior, position, ports, data }]
      nextNodeId := g.nextNodeId + 1 })

/-- Change one node. -/
def updateNode (g : Graph) (n : NodeId) (f : Node → Node) : Graph :=
  { g with nodes := g.nodes.map fun node => if node.id = n then f node else node }

/-- Remove a node and the connections that touch it; answers whether it existed. -/
def removeNode (g : Graph) (n : NodeId) : Noted (Bool × Graph) :=
  match g.node? n with
  | none => pure (false, g)
  | some _ =>
    let connections := g.connections.filter fun c => !c.touches n
    ⟨(true, { g with nodes := g.nodes.filter (·.id ≠ n), connections }),
      [.nodeRemoved n (g.connections.length - connections.length)]⟩

/-- Move a node; answers whether it exists. -/
def setPosition (g : Graph) (n : NodeId) (position : Position) : Bool × Graph :=
  match g.node? n with
  | none => (false, g)
  | some _ => (true, g.updateNode n fun node => { node with position })

/-! ### New ports -/

/-- Remove a connection; answers whether it existed. -/
def disconnect (g : Graph) (c : ConnectionId) : Bool × Graph :=
  match g.connection? c with
  | none => (false, g)
  | some _ => (true, { g with connections := g.connections.eraseP (·.id = c) })

/-- Remove connections, one after the other. -/
def disconnectAll (g : Graph) (ids : List ConnectionId) : Graph :=
  ids.foldl (fun g c => (g.disconnect c).2) g

/-- Whether a connection touches a node and is not valid in the graph as it stands. -/
def isStale (g : Graph) (n : NodeId) (c : Connection) : Bool :=
  c.touches n && !g.accepts c.source c.sink

/-- The connections of a node that are not valid in the graph as it stands, by their ids. -/
def stale (g : Graph) (n : NodeId) : List ConnectionId :=
  (g.connections.filter (g.isStale n)).map (·.id)

/-- Derive a node's ports anew and drop the connections of the node that no longer fit. Answers how
many were dropped; nothing if the node does not exist. -/
def invalidate (g : Graph) (n : NodeId) : Noted (Option Nat × Graph) :=
  match g.node? n with
  | none => pure (none, g)
  | some node => do
    let ports ← g.derivePorts node.behavior node.data
    let g := g.updateNode n fun node => { node with ports }
    let stale := g.stale n
    Noted.noteIf (0 < stale.length) (.nodeInvalidated n stale.length)
    return (some stale.length, g.disconnectAll stale)

/-- Replace a node's data and derive its ports anew. -/
def setData (g : Graph) (n : NodeId) (data : Json) : Noted (Option Nat × Graph) :=
  (g.updateNode n fun node => { node with data }).invalidate n

/-! ### Connections -/

/-- The connections that stay when a new one arrives at a sink: an input gives up its former
producer, other sinks keep what they have. -/
def makeRoom (g : Graph) (sink : PortRef) : List Connection :=
  match g.port? sink with
  | some p => if p.kind = .input then g.connections.filter (·.sink ≠ sink) else g.connections
  | none => g.connections

/-- Join two ports, given in either order. -/
def connect (g : Graph) (a b : PortRef) : Noted (Except ConnectError ConnectionId × Graph) :=
  match g.portAt a with
  | .error e => pure (.error e, g)
  | .ok p =>
    let source := if p.kind.isSource then a else b
    let sink := if p.kind.isSource then b else a
    match g.checkLink source sink with
    | .error e => pure (.error e, g)
    | .ok () =>
      if g.joined source sink then pure (.error .duplicate, g)
      else do
        let kept := g.makeRoom sink
        let id : ConnectionId := ⟨g.nextConnectionId⟩
        Noted.noteIf (kept.length ≠ g.connections.length) (.producerReplaced sink)
        Noted.note (.connected source sink id)
        return (.ok id,
          { g with
            connections := kept ++ [{ id, source, sink }]
            nextConnectionId := g.nextConnectionId + 1 })

/-- Join two ports; answers only whether that was possible. -/
def tryConnect (g : Graph) (a b : PortRef) : Noted (Bool × Graph) := do
  let (result, g) ← g.connect a b
  return (result.toOption.isSome, g)

/-! ### Small laws -/

theorem node?_updateNode (g : Graph) (n m : NodeId) (f : Node → Node)
    (hf : ∀ node, (f node).id = node.id) :
    (g.updateNode n f).node? m = if m = n then (g.node? m).map f else g.node? m := by
  simp only [updateNode, node?]
  induction g.nodes with
  | nil => simp
  | cons node nodes ih =>
    rw [List.map_cons]
    by_cases hm : node.id = m
    · by_cases hn : node.id = n
      · have : m = n := hm.symm.trans hn
        simp [hf, hn, this]
      · have : m ≠ n := fun e => hn (hm.trans e)
        simp [hm, this]
    · have hid : ((if node.id = n then f node else node).id) ≠ m := by
        split
        · rwa [hf]
        · exact hm
      rw [List.find?_cons_of_neg (by simpa using hid), ih,
        List.find?_cons_of_neg (by simpa using hm)]

end FlowGraph.Graph
