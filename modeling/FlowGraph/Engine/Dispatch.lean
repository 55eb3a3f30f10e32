import FlowGraph.Link.Table
import FlowGraph.Pool.Registry

/-!
# Dispatch of calls and reads

A call goes through an exit port and runs the control hook of every node linked there, in order; a
read goes through an input port and asks its one producer for a value. Hooks call and read in turn,
so dispatch is nested, and the nesting is limited: past the limit a call does nothing and a read
takes its default, so that a cycle in the graph comes to an end. What is left of the limit is an
argument of the recursion. A counter of the requests under way, put up when a request is taken and
down when it is over, comes to the same: this is `Nested.counts_serve` in
`FlowGraph.Proofs.Engine.Nesting`.

* `Happening` — what a run leaves behind, for hosts and for whoever reasons about runs.
* `World` — what changes while hooks run: the instances and the journal.
* `serve` — the answer to a request of a node, by recursion on the nesting still allowed.
* `World.notify`, `World.broadcast` — lifecycle events.
-/

namespace FlowGraph

/-! ### What happens in a run -/

/-- One thing that happened in a run. -/
inductive Happening
  /-- A hook of a node began. -/
  | hook (node : PackedAddress) (hook : Hook)
  /-- A node sent the host a message. -/
  | message (node : PackedAddress) (text : String)
  /-- The host was told that the engine entered a state. -/
  | entered (state : EngineState)
  /-- A notice was given. -/
  | notice (n : Notice)

variable [Repertoire]

/-- What changes while hooks run. -/
structure World where
  pools : Registry
  /-- What has happened so far, last first. -/
  journal : List Happening
  deriving Inhabited

namespace World

/-- Let something happen. -/
def record (w : World) (h : Happening) : World := { w with journal := h :: w.journal }

/-- Give a notice. -/
def note (w : World) (n : Notice) : World := w.record (.notice n)

/-- Give notices, in order. -/
def noteAll (w : World) (ns : List Notice) : World := ns.foldl World.note w

@[simp] theorem pools_record (w : World) (h : Happening) : (w.record h).pools = w.pools := rfl

@[simp] theorem journal_record (w : World) (h : Happening) :
    (w.record h).journal = h :: w.journal := rfl

/-- What nodes say goes into the journal, what they keep into their instances. -/
def stage : Stage PackedAddress World where
  say a message w := w.record (.message a message)
  setCount a n w := { w with pools := w.pools.modify a (Instance.withCount n) }

end World

/-! ### Requests -/

/-- Answers requests of nodes. -/
abbrev Server := PackedAddress → (r : Request) → World → r.Answer × World

/-- Run actions of a node, its requests being answered by `server`. -/
def Server.run {α : Type} (server : Server) (self : PackedAddress) (a : Action α) (w : World) :
    α × World :=
  a.run World.stage server self w

/-- Pass a call on to one of the ends linked to its port. Ends that are no enter ports are passed
over, and so are nodes that have been released. -/
def Server.deliver (server : Server) (a : PackedAddress) (port : PortIndex) (w : World)
    (target : LinkEntry) : World :=
  if target.kind ≠ .enter then w
  else
    match w.pools.find? target.address with
    | none => w.note (.callTargetMissing a port target.address)
    | some i =>
      (server.run target.address (i.onControl target.port)
        (w.record (.hook target.address (.control target.port)))).2

/-- Ask a producer for a value at its own type, and take it if that is the type wanted. -/
def World.offered (w : World) (a : PackedAddress) (port : PortIndex) (producer : LinkEntry)
    (type : DataType) (default : type.Carrier) : type.Carrier × World :=
  let w := w.record (.hook producer.address (.offer producer.port))
  match (w.pools.find? producer.address).bind (·.offer? producer.port) with
  | none => (default, w)
  | some v =>
    match v.as? type with
    | some x => (x, w)
    | none => (default, w.note (.typeDiffers a port producer.address producer.port))

/-- Ask a producer for a value: first at the wanted type, then at its own. -/
def Server.fetch (server : Server) (a : PackedAddress) (port : PortIndex) (producer : LinkEntry)
    (type : DataType) (default : type.Carrier) (w : World) : type.Carrier × World :=
  if producer.kind ≠ .output then (default, w)
  else
    match w.pools.find? producer.address with
    | none => (default, w.note (.producerMissing a port producer.address))
    | some i =>
      let slot : OutputSlot type := .empty
      let ((claimed, slot), w) :=
        server.run producer.address (i.produce producer.address producer.port slot)
          (w.record (.hook producer.address (.produce producer.port)))
      match claimed, slot.content with
      | true, some x => (x, w)
      | _, _ => w.offered a port producer type default

/-- The answer to a request, with a number of nested requests still allowed. The producer of an
input is its first link; an input never has more. -/
def serve (links : LinkTable) (limit : Nat) : Nat → Server
  | 0, a, r, w => (r.refusal, w.note (.depthReached limit a r.port))
  | allowed + 1, a, .call port, w =>
    ((), (links.links a port).foldl (Server.deliver (serve links limit allowed) a port) w)
  | allowed + 1, a, .read port type default, w =>
    match (links.links a port).head? with
    | none => (default, w)
    | some producer =>
      Server.fetch (serve links limit allowed) a port producer type default w

/-! ### Events -/

/-- Tell a node of a lifecycle event, if it has not been released. -/
def World.notify (server : Server) (event : LifecycleEvent) (w : World) (a : PackedAddress) :
    World :=
  match w.pools.find? a with
  | none => w.note (.eventUndelivered event a)
  | some i => (server.run a (i.onEvent event) (w.record (.hook a (.lifecycle event)))).2

/-- Tell nodes of a lifecycle event, in order. -/
def World.broadcast (server : Server) (event : LifecycleEvent) (order : List PackedAddress)
    (w : World) : World :=
  order.foldl (World.notify server event) w

/-! ### Small laws -/

/-- Past the limit a request is refused, whatever it is. -/
theorem serve_zero (links : LinkTable) (limit : Nat) (a : PackedAddress) (r : Request)
    (w : World) :
    serve links limit 0 a r w = (r.refusal, w.note (.depthReached limit a r.port)) := by
  cases r <;> rfl

end FlowGraph
