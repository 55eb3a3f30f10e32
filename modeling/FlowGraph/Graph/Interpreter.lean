import FlowGraph.Engine.Basic
import FlowGraph.Graph.Basic

/-!
# Running a graph as it stands

A graph can be run without being compiled: instances are kept by node, and the far ends of a port
are looked for in the list of connections whenever they are needed. This is the meaning of a graph
that its program is held against; it shares the hooks of the behaviours with the engine, but neither
link tables nor pools.

* `Graph.targets`, `Graph.producer?` — the far ends that calls and reads lead to.
* `Scene`, `interpret` — what changes in a run, and the answer to a request.
* `Interpreter` — the life of a graph under interpretation, operation for operation that of an
  engine.
-/

namespace FlowGraph

variable [Repertoire]

/-! ### Far ends -/

/-- Where a call through an exit leads, in the order in which the connections were made. -/
def Graph.targets (g : Graph) (r : PortRef) : List PortRef :=
  match g.port? r with
  | some p => if p.kind = .exit then (g.connectionsFrom r).map (·.sink) else []
  | none => []

/-- Where a read through an input gets its value from. -/
def Graph.producer? (g : Graph) (r : PortRef) : Option PortRef :=
  match g.port? r with
  | some p => if p.kind = .input then ((g.connectionsTo r).head?).map (·.source) else none
  | none => none

/-! ### Scenes -/

/-- What a host hears from a graph under interpretation. -/
inductive Utterance
  /-- A node said something. -/
  | message (node : NodeId) (text : String)
  /-- A state was entered. -/
  | entered (state : EngineState)
  deriving DecidableEq

/-- What changes while hooks run: the instances by node, and what has been heard, last first. -/
structure Scene where
  instances : Table NodeId Instance
  heard : List Utterance
  deriving Inhabited

namespace Scene

/-- What nodes say is heard, what they keep goes into their instances. -/
def stage : Stage NodeId Scene where
  say n text s := { s with heard := .message n text :: s.heard }
  setCount n k s := { s with instances := s.instances.adjust n (Instance.withCount k) }

/-- Answers requests of nodes. -/
abbrev Server := NodeId → (r : Request) → Scene → r.Answer × Scene

/-- Run the control hook of a node that a call leads to. -/
def deliver (server : Server) (s : Scene) (target : PortRef) : Scene :=
  match s.instances.find? target.node with
  | none => s
  | some i => ((i.onControl target.port).run stage server target.node s).2

/-- The value that a node has at a port, at a wanted type. -/
def offered (s : Scene) (producer : PortRef) (type : DataType) (default : type.Carrier) :
    type.Carrier :=
  (((s.instances.find? producer.node).bind (·.offer? producer.port)).bind
    (Value.as? type)).getD default

/-- Ask a producer for a value: first at the wanted type, then at its own. -/
def fetch (address : NodeId → PackedAddress) (server : Server) (producer : PortRef)
    (type : DataType) (default : type.Carrier) (s : Scene) : type.Carrier × Scene :=
  match s.instances.find? producer.node with
  | none => (default, s)
  | some i =>
    let slot : OutputSlot type := .empty
    let ((claimed, slot), s) :=
      (i.produce (address producer.node) producer.port slot).run stage server producer.node s
    match claimed, slot.content with
    | true, some x => (x, s)
    | _, _ => (s.offered producer type default, s)

end Scene

/-- The answer to a request in a graph, with a number of nested requests still allowed. Nodes learn
their addresses from `address`. -/
def interpret (g : Graph) (address : NodeId → PackedAddress) : Nat → Scene.Server
  | 0, _, r, s => (r.refusal, s)
  | allowed + 1, n, .call port, s =>
    ((), (g.targets ⟨n, port⟩).foldl (Scene.deliver (interpret g address allowed)) s)
  | allowed + 1, n, .read port type default, s =>
    match g.producer? ⟨n, port⟩ with
    | none => (default, s)
    | some producer =>
      Scene.fetch address (interpret g address allowed) producer type default s

/-! ### A life under interpretation -/

/-- A graph under interpretation. -/
structure Interpreter where
  graph : Graph
  address : NodeId → PackedAddress
  limit : Nat
  state : EngineState
  started : Bool
  scene : Scene

namespace Interpreter

/-- The nodes of known behaviour, each with its decoded data, in node order. -/
def instancesOf (g : Graph) : List (NodeId × Instance) :=
  g.nodes.filterMap fun n =>
    (g.catalog.find? n.behavior).map fun b => (n.id, (Instance.decode b n.data).value)

/-- The interpreter of a graph before its life begins. -/
def ofGraph (g : Graph) (address : NodeId → PackedAddress) (limit : Nat) : Interpreter :=
  { graph := g, address, limit, state := .uninitialized, started := false
    scene := ⟨(instancesOf g).foldr (fun i t => t.insert i.1 i.2) .empty, []⟩ }

/-- The nodes with an instance, in node order. -/
def order (i : Interpreter) : List NodeId := (instancesOf i.graph).map Prod.fst

/-- Answers requests made from outside or by a lifecycle hook. -/
def server (i : Interpreter) : Scene.Server := interpret i.graph i.address i.limit

/-- Tell a node of a lifecycle event. -/
def notify (server : Scene.Server) (event : LifecycleEvent) (s : Scene) (n : NodeId) : Scene :=
  match s.instances.find? n with
  | none => s
  | some inst => ((inst.onEvent event).run Scene.stage server n s).2

/-- Tell nodes of a lifecycle event, in a given order. -/
def broadcast (i : Interpreter) (event : LifecycleEvent) (order : List NodeId) : Interpreter :=
  { i with scene := order.foldl (notify i.server event) i.scene }

/-- Enter a state and let it be heard. -/
def enter (i : Interpreter) (state : EngineState) : Interpreter :=
  { i with state, scene := { i.scene with heard := .entered state :: i.scene.heard } }

/-- Do something only in one of some states; elsewhere refuse an action. -/
def guarded (i : Interpreter) (allowed : List EngineState) (action : String)
    (go : Interpreter → Interpreter) : Except TransitionError Unit × Interpreter :=
  if i.state ∈ allowed then (.ok (), go i) else (.error ⟨i.state, action⟩, i)

/-- Set every node up, in node order. -/
def bringUp (i : Interpreter) : Except TransitionError Unit × Interpreter :=
  i.guarded [.uninitialized] "initialize" fun i =>
    (i.broadcast .setUp i.order).enter .initialized

/-- Enable every node, in node order. -/
def enable (i : Interpreter) : Except TransitionError Unit × Interpreter :=
  i.guarded [.initialized, .disabled] "enable" fun i =>
    (i.broadcast .enable i.order).enter .enabled

/-- Disable every node, in node order. -/
def disable (i : Interpreter) : Except TransitionError Unit × Interpreter :=
  i.guarded [.enabled] "disable" fun i => (i.broadcast .disable i.order).enter .disabled

/-- Send every node the start event, in node order, once in a life. -/
def start (i : Interpreter) : Except TransitionError Unit × Interpreter :=
  if i.started then (.error ⟨i.state, "start again"⟩, i)
  else
    i.guarded Engine.running "start" fun i =>
      ({ i with started := true } : Interpreter).broadcast .start i.order

/-- Tear every node down, in reverse node order; if enabled, every node is disabled first. -/
def tearDown (i : Interpreter) : Except TransitionError Unit × Interpreter :=
  i.guarded Engine.running "deinitialize" fun i =>
    let i := if i.state = .enabled then i.disable.2 else i
    (i.broadcast .tearDown i.order.reverse).enter .deInitialized

/-- The answer to a request made in a node's name. -/
def answer (i : Interpreter) (n : NodeId) (r : Request) : r.Answer × Interpreter :=
  let (x, scene) := i.server n r i.scene
  (x, { i with scene })

/-- Fire a port of a node. Nothing is done unless the graph runs. -/
def call (i : Interpreter) (n : NodeId) (port : PortIndex) : Interpreter :=
  if i.state.isRunning then (i.answer n (.call port)).2 else i

/-- Read an input of a node at a type. Unless the graph runs, the default is the answer. -/
def read (i : Interpreter) (n : NodeId) (port : PortIndex) (type : DataType)
    (default : type.Carrier) : type.Carrier × Interpreter :=
  if i.state.isRunning then i.answer n (.read port type default) else (default, i)

/-- What has been heard, first things first. -/
def heard (i : Interpreter) : List Utterance := i.scene.heard.reverse

/-- The count of a counter. -/
def count? (i : Interpreter) (n : NodeId) : Option Int64 :=
  (i.scene.instances.find? n).bind Instance.count?

/-! ### Small laws -/

/-- Whatever a call leads to, it leads through an exit. -/
theorem targets_eq_nil (g : Graph) (r : PortRef) (h : ∀ p, g.port? r = some p → p.kind ≠ .exit) :
    g.targets r = [] := by
  unfold Graph.targets
  cases hp : g.port? r with
  | none => rfl
  | some p => exact if_neg (h p hp)

/-- Past the limit a request is refused and nothing changes. -/
theorem interpret_zero (g : Graph) (address : NodeId → PackedAddress) (n : NodeId) (r : Request)
    (s : Scene) : interpret g address 0 n r s = (r.refusal, s) := by
  cases r <;> rfl

end Interpreter

end FlowGraph
