import FlowGraph.Engine.Dispatch
import FlowGraph.Program.Basic

/-!
# Engines

An engine takes a program through its life: from its creation through the broadcasts of set-up,
enabling, disabling and start to the final tear-down. In between it accepts calls and reads from
outside. What is asked of it in the wrong state is refused and changes nothing.

* `Engine.ofProgram` — the engine before its life begins.
* `Engine.bringUp`, `enable`, `disable`, `start`, `tearDown` — its life.
* `Engine.call`, `Engine.read`, `Engine.release` — requests from outside.
* `Host`, `Engine.messages` and others — what a host is told of a run.
-/

namespace FlowGraph

/-- The action that an engine refused, and the state it was in. -/
structure TransitionError where
  state : EngineState
  action : String
  deriving DecidableEq

/-- The wording of the error. -/
def TransitionError.message (e : TransitionError) : String :=
  s!"Cannot {e.action} while engine is {e.state.name}"

/-- The nesting of calls and reads that an engine allows unless told otherwise. -/
def defaultDepth : Nat := 256

variable [Repertoire]

/-- A program under way. -/
structure Engine where
  links : LinkTable
  placement : Placement
  /-- The limit on nested calls and reads. -/
  limit : Nat
  state : EngineState
  /-- Whether the start event has been sent. -/
  started : Bool
  world : World
  deriving Inhabited

namespace Engine

/-- The engine of a program before its life begins. -/
def ofProgram (p : Program) (limit : Nat) : Engine :=
  ⟨p.links, p.placement, limit, .uninitialized, false, ⟨p.pools, []⟩⟩

/-- The addresses of the nodes in compiled order. -/
def order (e : Engine) : List PackedAddress := e.links.nodes

/-- The instances. -/
def pools (e : Engine) : Registry := e.world.pools

/-- The address of a node of the graph. -/
def addressOf? (e : Engine) (n : NodeId) : Option PackedAddress := e.placement.find? n

/-- Whether calls and reads are accepted. -/
def isRunning (e : Engine) : Bool := e.state.isRunning

/-- Answers requests made from outside or by a lifecycle hook. -/
def server (e : Engine) : Server := serve e.links e.limit e.limit

/-- Let something happen. -/
def record (e : Engine) (h : Happening) : Engine := { e with world := e.world.record h }

/-! ### A life -/

/-- Tell nodes of a lifecycle event, in a given order. -/
def broadcast (e : Engine) (event : LifecycleEvent) (order : List PackedAddress) : Engine :=
  { e with world := e.world.broadcast e.server event order }

/-- Enter a state and tell the host so. -/
def enter (e : Engine) (state : EngineState) : Engine :=
  { (e.record (.notice (.engineMoved e.state state))).record (.entered state) with state }

/-- Do something only in one of some states; elsewhere refuse an action. -/
def guarded (e : Engine) (allowed : List EngineState) (action : String) (go : Engine → Engine) :
    Except TransitionError Unit × Engine :=
  if e.state ∈ allowed then (.ok (), go e) else (.error ⟨e.state, action⟩, e)

/-- Set every node up, in compiled order. -/
def bringUp (e : Engine) : Except TransitionError Unit × Engine :=
  e.guarded [.uninitialized] "initialize" fun e =>
    (e.broadcast .setUp e.order).enter .initialized

/-- Enable every node, in compiled order. -/
def enable (e : Engine) : Except TransitionError Unit × Engine :=
  e.guarded [.initialized, .disabled] "enable" fun e =>
    (e.broadcast .enable e.order).enter .enabled

/-- Disable every node, in compiled order. -/
def disable (e : Engine) : Except TransitionError Unit × Engine :=
  e.guarded [.enabled] "disable" fun e => (e.broadcast .disable e.order).enter .disabled

/-- The states in which an engine can be started and torn down. -/
def running : List EngineState := [.initialized, .enabled, .disabled]

/-- Send every node the start event, in compiled order, once in a life. -/
def start (e : Engine) : Except TransitionError Unit × Engine :=
  if e.started then (.error ⟨e.state, "start again"⟩, e)
  else
    e.guarded running "start" fun e =>
      (({ e with started := true }).record (.notice .engineStarted)).broadcast .start e.order

/-- Tear every node down, in reverse compiled order. An enabled engine is disabled first. -/
def tearDown (e : Engine) : Except TransitionError Unit × Engine :=
  e.guarded running "deinitialize" fun e =>
    let e := if e.state = .enabled then e.disable.2 else e
    (e.broadcast .tearDown e.order.reverse).enter .deInitialized

/-! ### Requests from outside -/

/-- The answer to a request made in a node's name. -/
def answer (e : Engine) (a : PackedAddress) (r : Request) : r.Answer × Engine :=
  let (x, world) := e.server a r e.world
  (x, { e with world })

/-- Fire a port of a node. Nothing is done unless the engine runs. -/
def call (e : Engine) (a : PackedAddress) (port : PortIndex) : Engine :=
  if e.isRunning then (e.answer a (.call port)).2
  else e.record (.notice (.callIgnored a port e.state))

/-- Read an input of a node at a type. Unless the engine runs, the default is the answer. -/
def read (e : Engine) (a : PackedAddress) (port : PortIndex) (type : DataType)
    (default : type.Carrier) : type.Carrier × Engine :=
  if e.isRunning then e.answer a (.read port type default)
  else (default, e.record (.notice (.readDefaulted a port e.state)))

/-- Remove one node's instance, torn down first if the engine runs. Answers whether there was one;
links to it stay but lead nowhere from now on. -/
def release (e : Engine) (a : PackedAddress) : Bool × Engine :=
  if !e.pools.contains a then (false, e)
  else
    let world := if e.isRunning then World.notify e.server .tearDown e.world a else e.world
    let released := world.pools.release a
    (released.value.1,
      { e with
        world := { world with pools := released.value.2 }.noteAll released.notices })

end Engine

/-! ### Hosts -/

/-- How an application listens to its engine. -/
inductive Host
  /-- Keeps messages and states. -/
  | recording
  /-- Keeps messages and states, and turns them into notices too. -/
  | tracing
  /-- Keeps messages only. -/
  | quiet
  deriving DecidableEq, Inhabited

namespace Host

/-- Whether the host takes an interest in states. -/
def hearsStates : Host → Bool
  | quiet => false
  | recording | tracing => true

/-- The notices that something which happened amounts to. -/
def notice? (h : Host) : Happening → Option Notice
  | .notice n => some n
  | .message a text => if h = tracing then some (.hostMessage a text) else none
  | .entered s => if h = tracing then some (.hostState s) else none
  | .hook .. => none

end Host

namespace Happening

/-- A message to the host, with its sender. -/
def message? : Happening → Option (PackedAddress × String)
  | .message a text => some (a, text)
  | _ => none

/-- A state that the host was told of. -/
def entered? : Happening → Option EngineState
  | .entered s => some s
  | _ => none

end Happening

namespace Engine

/-- What has happened so far, first things first. -/
def journal (e : Engine) : List Happening := e.world.journal.reverse

/-- The messages to the host, in order. -/
def messages (e : Engine) : List (PackedAddress × String) := e.journal.filterMap (·.message?)

/-- The states that the host was told of, in order. -/
def statesEntered (e : Engine) : List EngineState := e.journal.filterMap (·.entered?)

/-- Forget what has happened. -/
def clearJournal (e : Engine) : Engine := { e with world := { e.world with journal := [] } }

/-! ### Small laws -/

/-- What is asked in the wrong state is refused and changes nothing. -/
theorem guarded_refused (e : Engine) (allowed : List EngineState) (action : String)
    (go : Engine → Engine) (h : e.state ∉ allowed) :
    e.guarded allowed action go = (.error ⟨e.state, action⟩, e) := by
  simp [guarded, h]

end Engine

end FlowGraph
