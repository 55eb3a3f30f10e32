import FlowGraph.Address
import FlowGraph.Engine.State
import FlowGraph.Ident

/-!
# Notices

Nothing that an author does to a graph stops the program: what cannot be done is left undone, and a
notice says so. Each notice is a value that names its cause; level, origin and wording are functions
of the cause.

* `Level` — how severe a notice is.
* `Notice` — the causes, `Notice.level`, `Notice.origin`, `Notice.message`.
* `Notice.line` — a notice as one line.
* `Noted` — a result together with the notices of its computation.
-/

namespace FlowGraph

/-! ### Levels -/

/-- How severe a notice is, least severe first. -/
inductive Level
  | trace
  | debug
  | info
  | warn
  | error
  deriving DecidableEq, Inhabited

namespace Level

/-- The place of the level, severer ones higher. -/
def rank : Level → Nat
  | trace => 0
  | debug => 1
  | info => 2
  | warn => 3
  | error => 4

/-- The name of the level in lines. -/
def label : Level → String
  | trace => "TRACE"
  | debug => "DEBUG"
  | info => "INFO"
  | warn => "WARN"
  | error => "ERROR"

/-- Every level. -/
def all : List Level := [trace, debug, info, warn, error]

/-- Whether a notice of level `l` passes where only those of level `floor` and above do. -/
def passes (floor l : Level) : Bool := decide (floor.rank ≤ l.rank)

end Level

/-! ### Causes -/

/-- What a notice is about. -/
inductive Notice
  /- Authoring -/
  | behaviorUnknown (behavior : BehaviorId)
  | nodeAdded (node : NodeId) (behavior : BehaviorId)
  | nodeRemoved (node : NodeId) (connections : Nat)
  | nodeInvalidated (node : NodeId) (connections : Nat)
  | producerReplaced (consumer : PortRef)
  | connected (source sink : PortRef) (connection : ConnectionId)
  /- Behaviours -/
  | behaviorRegisteredAgain (behavior : BehaviorId)
  | dataInvalid (behavior : BehaviorId)
  | arityClamped (arity : Nat) (limit : Nat)
  /- Storage -/
  | poolCompacted (live reclaimed : Nat)
  | poolCreated (pool : PoolId) (behavior : BehaviorId)
  | poolMissing (pool : PoolId)
  | poolRetired (pool : PoolId) (behavior : BehaviorId)
  | copySourceMissing (source : PackedAddress)
  | copyRefused (source : PackedAddress) (pool : PoolId) (behavior : BehaviorId)
  | tableOverReserved (used reserved : Nat)
  /- Compiling -/
  | nodeSkipped (node : NodeId) (behavior : BehaviorId)
  | linkDropped (source sink : PortRef)
  | graphCompiled (nodes skipped links headers dropped : Nat)
  | linkTableBroken (reason : String)
  /- Running -/
  | depthReached (limit : Nat) (node : PackedAddress) (port : PortIndex)
  | callTargetMissing (node : PackedAddress) (port : PortIndex) (target : PackedAddress)
  | producerMissing (node : PackedAddress) (port : PortIndex) (producer : PackedAddress)
  | typeDiffers (node : PackedAddress) (port : PortIndex) (producer : PackedAddress)
      (producerPort : PortIndex)
  | eventUndelivered (event : LifecycleEvent) (node : PackedAddress)
  | engineMoved (before after : EngineState)
  | engineStarted
  | callIgnored (node : PackedAddress) (port : PortIndex) (state : EngineState)
  | readDefaulted (node : PackedAddress) (port : PortIndex) (state : EngineState)
  /- Settings -/
  | settingsUnusable
  /- The host -/
  | hostMessage (source : PackedAddress) (text : String)
  | hostState (state : EngineState)
  /- The demonstration -/
  | demoStarted (settings : String)
  | behaviorsListed (names : List String)
  | programBuilt (nodes pools links : Nat)
  | counterFinished (count : Int)
  | tableListed (json : String)
  | demoDone

namespace Notice

/-- How severe the notice is. -/
def level : Notice → Level
  | poolCompacted .. => .trace
  | nodeAdded .. | nodeRemoved .. | nodeInvalidated .. | producerReplaced .. | connected ..
  | behaviorRegisteredAgain .. | poolCreated .. | poolRetired .. | tableOverReserved ..
  | typeDiffers .. | hostState .. | behaviorsListed .. | tableListed .. => .debug
  | graphCompiled .. | engineMoved .. | engineStarted | hostMessage .. | demoStarted ..
  | programBuilt .. | counterFinished .. | demoDone => .info
  | behaviorUnknown .. | dataInvalid .. | arityClamped .. | poolMissing .. | copySourceMissing ..
  | copyRefused .. | nodeSkipped .. | linkDropped .. | depthReached .. | callTargetMissing ..
  | producerMissing .. | eventUndelivered .. | callIgnored .. | readDefaulted ..
  | settingsUnusable => .warn
  | linkTableBroken .. => .error

/-- The part of the system that filters know the notice by. -/
def origin : Notice → String
  | behaviorUnknown .. | nodeAdded .. | nodeRemoved .. | nodeInvalidated .. | producerReplaced ..
  | connected .. => "nodegraph_rs::graph::model"
  | behaviorRegisteredAgain .. | dataInvalid .. => "nodegraph_rs::runtime::behavior"
  | arityClamped .. => "nodegraph_rs::runtime::nodes::flow"
  | poolCompacted .. => "nodegraph_rs::storage::pool"
  | poolCreated .. | poolMissing .. | poolRetired .. | copySourceMissing .. | copyRefused .. =>
    "nodegraph_rs::storage::registry"
  | tableOverReserved .. => "nodegraph_rs::storage::links"
  | nodeSkipped .. | linkDropped .. | graphCompiled .. | linkTableBroken .. =>
    "nodegraph_rs::runtime::compiler"
  | depthReached .. | callTargetMissing .. | producerMissing .. | typeDiffers ..
  | eventUndelivered .. | engineMoved .. | engineStarted | callIgnored .. | readDefaulted .. =>
    "nodegraph_rs::runtime::engine"
  | settingsUnusable => "nodegraph_rs::config"
  | hostMessage .. | hostState .. => "nodegraph::host"
  | demoStarted .. | behaviorsListed .. | programBuilt .. | counterFinished .. | tableListed ..
  | demoDone => "nodegraph_rs"

/-- A port of a running node in running text. -/
def place (node : PackedAddress) (port : PortIndex) : String :=
  node.display ++ " port " ++ port.digits

/-- The wording of the notice. -/
def message : Notice → String
  | behaviorUnknown b => "Unknown behavior type '" ++ b.name ++ "', node has no ports"
  | nodeAdded n b => s!"Added node {n.text} ({b.name})"
  | nodeRemoved n k => s!"Removed node {n.text} and {k} connection(s)"
  | nodeInvalidated n k => s!"Invalidated node {n.text}: dropped {k} stale connection(s)"
  | producerReplaced r => s!"Replaced producer of {r.text}"
  | connected r s c => s!"Connected {r.text} -> {s.text} as {c.text}"
  | behaviorRegisteredAgain b => s!"Behavior {b.name} registered again"
  | dataInvalid b => s!"Invalid instance data for {b.name}"
  | arityClamped n k => s!"Sequence arity {n} exceeds {k}, clamping"
  | poolCompacted n k => s!"Compacted pool: {n} live, {k} reclaimed"
  | poolCreated p b => s!"Created pool {p.text} for {b.name}"
  | poolMissing p => s!"Pool {p.text} not found"
  | poolRetired p b => s!"Retired empty pool {p.text} ({b.name})"
  | copySourceMissing a => s!"Copy source {a.display} not found"
  | copyRefused a p b => s!"Cannot copy {a.display} into pool {p.text}: pool holds {b.name}"
  | tableOverReserved n k => s!"Link table over-reserved: {n} of {k} records used"
  | nodeSkipped n b => "Skipping node " ++ n.text ++ ": unknown behavior '" ++ b.name ++ "'"
  | linkDropped r s => s!"Dropping link {r.text} -> {s.text}: endpoint unresolved"
  | graphCompiled n k l h d =>
    s!"Compiled graph: {n} node(s), {k} skipped, {l} link(s) in {h} header(s), {d} dropped"
  | linkTableBroken reason => "Link table invariant violated: " ++ reason
  | depthReached k a p => s!"Call depth limit ({k}) reached at {place a p}; dispatch skipped"
  | callTargetMissing a p t => s!"Call from {place a p}: target {t.display} not found"
  | producerMissing a p t => s!"Read at {place a p}: producer {t.display} not found"
  | typeDiffers a p t q => s!"Read at {place a p}: producer {place t q} has a different type"
  | eventUndelivered e a => s!"{e.name}: node {a.display} not found"
  | engineMoved s t => s!"Engine {s.name} -> {t.name}"
  | engineStarted => "Engine start"
  | callIgnored a p s => s!"Call to {place a p} while {s.name}; ignored"
  | readDefaulted a p s => s!"Read from {place a p} while {s.name}; default used"
  | settingsUnusable => "Failed to load config, using defaults"
  | hostMessage _ m => m
  | hostState s => s!"Engine state: {s.name}"
  | demoStarted path => s!"Starting nodegraph-rs demo (config: {path})"
  | behaviorsListed names => "Registered behaviors: " ++ String.intercalate ", " names
  | programBuilt n k l => s!"Program: {n} node(s), {k} pool(s), {l} link(s)"
  | counterFinished n => s!"Counter finished at {n}"
  | tableListed json => "Compiled link table:\n" ++ json
  | demoDone => "Done"

/-- The named values that follow the wording. -/
def fields : Notice → List (String × String)
  | hostMessage a _ => [("source", a.display)]
  | _ => []

/-- The names of the notice's fields: its wording is one, too. -/
def fieldNames (n : Notice) : List String := "message" :: n.fields.map Prod.fst

/-- The wording followed by the named values. -/
def body (n : Notice) : String :=
  n.fields.foldl (fun s f => s ++ " " ++ f.1 ++ "=" ++ f.2) n.message

/-- The notice as a line: its level and its text. -/
def line (n : Notice) : String := n.level.label ++ " " ++ n.body

end Notice

/-! ### Results with notices -/

/-- A result, and the notices of its computation in order. -/
@[ext] structure Noted (α : Type) where
  value : α
  notices : List Notice

namespace Noted

instance : Monad Noted where
  pure a := ⟨a, []⟩
  bind x f := ⟨(f x.value).value, x.notices ++ (f x.value).notices⟩

/-- A notice with no other result. -/
def note (n : Notice) : Noted Unit := ⟨(), [n]⟩

/-- A notice given only under a condition. -/
def noteIf (b : Bool) (n : Notice) : Noted Unit := ⟨(), if b then [n] else []⟩

@[simp] theorem value_pure {α : Type} (a : α) : (pure a : Noted α).value = a := rfl

@[simp] theorem notices_pure {α : Type} (a : α) : (pure a : Noted α).notices = [] := rfl

@[simp] theorem value_bind {α β : Type} (x : Noted α) (f : α → Noted β) :
    (x >>= f).value = (f x.value).value := rfl

@[simp] theorem notices_bind {α β : Type} (x : Noted α) (f : α → Noted β) :
    (x >>= f).notices = x.notices ++ (f x.value).notices := rfl

instance : LawfulMonad Noted := LawfulMonad.mk' Noted
  (fun x => by cases x; simp [Functor.map])
  (fun x f => by simp [pure, bind])
  (fun x f g => by simp [bind])

end Noted

example : (Notice.poolMissing ⟨3⟩).line = "WARN Pool PoolId(3) not found" := by decide

end FlowGraph
