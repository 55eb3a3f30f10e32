/-!
# Life of an engine

* `EngineState` — where an engine stands between its creation and its end.
* `EngineState.isRunning` — the states in which dispatch is accepted.
* `LifecycleEvent` — what every node is told as the engine moves on.
-/

namespace FlowGraph

/-- Where an engine stands. -/
inductive EngineState
  | uninitialized
  | initialized
  | enabled
  | disabled
  /-- The end; no operation leads out of it. -/
  | deInitialized
  deriving DecidableEq, Inhabited

namespace EngineState

/-- Whether calls and reads are accepted. -/
def isRunning : EngineState → Bool
  | initialized | enabled | disabled => true
  | uninitialized | deInitialized => false

/-- The name of the state. -/
def name : EngineState → String
  | uninitialized => "Uninitialized"
  | initialized => "Initialized"
  | enabled => "Enabled"
  | disabled => "Disabled"
  | deInitialized => "DeInitialized"

/-- Every state, in the order of a life. -/
def all : List EngineState := [uninitialized, initialized, enabled, disabled, deInitialized]

/-- The state of a given name. -/
def ofName? (s : String) : Option EngineState := all.find? (·.name = s)

end EngineState

/-- What every node is told as the engine moves on. -/
inductive LifecycleEvent
  | setUp
  | tearDown
  | enable
  | disable
  | start
  deriving DecidableEq, Inhabited

/-- The name of the event. -/
def LifecycleEvent.name : LifecycleEvent → String
  | .setUp => "Initialize"
  | .tearDown => "DeInitialize"
  | .enable => "Enable"
  | .disable => "Disable"
  | .start => "Start"

end FlowGraph
