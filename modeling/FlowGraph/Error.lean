import FlowGraph.Engine.Basic
import FlowGraph.Graph.Basic
import FlowGraph.Link.Builder

/-!
# Errors of the outer surfaces

Edits and lookups that miss are no errors. What can fail is joining two ports, building a link
table, moving an engine on in the wrong state, and dealing with settings and files.

* `EngineError` — the causes, with `kind` and `message`.
* `EngineError.sources` — the messages of the errors behind an error.
-/

namespace FlowGraph

/-- Why an operation failed. -/
inductive EngineError
  /-- Two ports could not be joined. -/
  | connect (e : ConnectError)
  /-- The protocol of building a link table was broken. -/
  | linkTable (e : LinkTableError)
  /-- An engine refused an action. -/
  | transition (e : TransitionError)
  /-- Settings could not be read or cannot be worked with. -/
  | config (reason : String)
  /-- JSON could not be read or written. -/
  | serialization (reason : String)
  /-- The file system refused. -/
  | io (reason : String)
  /-- What was being done when the error arose. -/
  | withContext (context : String) (e : EngineError)
  deriving DecidableEq

namespace EngineError

/-- The name of the kind of error. -/
def kind : EngineError → String
  | connect _ => "Connect"
  | linkTable _ => "LinkTable"
  | transition _ => "InvalidTransition"
  | config _ => "Config"
  | serialization _ => "Serialization"
  | io _ => "Io"
  | withContext .. => "WithContext"

/-- The wording of the error. -/
def message : EngineError → String
  | connect e => "Connection rejected: " ++ e.message
  | linkTable e => "Link table error: " ++ e.message
  | transition e => e.message
  | config reason => "Configuration error: " ++ reason
  | serialization reason => "Serialization error: " ++ reason
  | io reason => "IO error: " ++ reason
  | withContext context e => context ++ ": " ++ e.message

/-- The messages of the errors behind the error, nearest first. -/
def sources : EngineError → List String
  | connect e => [e.message]
  | linkTable e => [e.message]
  | transition _ | config _ => []
  | serialization reason | io reason => [reason]
  | withContext _ e => e.message :: e.sources

/-- Put contexts around an error, the first innermost. -/
def within (e : EngineError) (contexts : List String) : EngineError :=
  contexts.foldl (fun e context => withContext context e) e

/-- Each context adds one error to the chain. -/
theorem length_sources_within (e : EngineError) (contexts : List String) :
    (e.within contexts).sources.length = e.sources.length + contexts.length := by
  induction contexts generalizing e with
  | nil => rfl
  | cons c cs ih =>
    rw [within, List.foldl_cons]
    have := ih (withContext c e)
    rw [within] at this
    rw [this]
    simp [sources]
    omega

example : (EngineError.linkTable (.incomplete 2)).message
    = "Link table error: 2 reserved link entries were never written" := by decide

end EngineError

end FlowGraph
