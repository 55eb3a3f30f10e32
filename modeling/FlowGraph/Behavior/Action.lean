import FlowGraph.Address
import FlowGraph.Engine.State
import FlowGraph.Ident
import FlowGraph.Port

/-!
# What a node does when it is called upon

A hook of a node is a finite tree of actions: it fires its own exits, reads its own inputs, speaks
to the host and, for a counter, sets its count; each answer selects the next action. A hook knows
nothing of how the answers come about, so the same hooks serve every machine that can answer.

Messages are the one way in which a hook reaches the host, and each of them goes out under the
address of the node that sends it. A host also hears of the states that an engine enters, and
whoever had the host itself in hand could report a state that was never entered, or speak in another
node's name. No kind of node ever asks for the host, so there is no action that hands it out. All
that is said of the states that a host was told of, and of who sent it a message, rests on this.

* `Request`, `Request.Answer` — firing an exit, reading an input.
* `Action`, `Action.bind` — trees of actions.
* `Stage`, `Action.run` — a machine's ways of taking messages and counts, and the run of a tree.
* `OutputSlot` — where a producer puts a value of the type that the reader asked for.
* `Hook` — the ways in which a node is called upon.
-/

namespace FlowGraph

/-! ### Requests -/

/-- What a node can ask of the machine that runs it. -/
inductive Request
  /-- Fire an exit: whatever is connected there runs before the answer. -/
  | call (port : PortIndex)
  /-- Read an input at a type, with a value to take if nothing of that type is produced. -/
  | read (port : PortIndex) (type : DataType) (default : type.Carrier)

namespace Request

/-- The answer to a request. -/
@[reducible] def Answer : Request → Type
  | call _ => Unit
  | read _ type _ => type.Carrier

/-- The port that a request goes through. -/
def port : Request → PortIndex
  | call p => p
  | read p _ _ => p

/-- The answer where nothing can be done. -/
def refusal : (r : Request) → r.Answer
  | call _ => ()
  | read _ _ default => default

end Request

/-! ### Trees of actions -/

/-- A hook's actions, up to a result. -/
inductive Action (α : Type) : Type
  | done (result : α)
  | ask (request : Request) (next : request.Answer → Action α)
  | say (message : String) (next : Action α)
  | setCount (count : Int64) (next : Action α)

namespace Action

variable {α β : Type}

/-- Go on with another tree where the first ends. -/
def bind : Action α → (α → Action β) → Action β
  | done a, f => f a
  | ask r next, f => ask r fun x => (next x).bind f
  | say m next, f => say m (next.bind f)
  | setCount n next, f => setCount n (next.bind f)

instance : Monad Action where
  pure := done
  bind := bind

/-- Fire an exit. -/
def call (port : UInt32) : Action Unit := ask (.call ⟨port⟩) done

/-- Read an input. -/
def read (port : UInt32) (type : DataType) (default : type.Carrier) : Action type.Carrier :=
  ask (.read ⟨port⟩ type default) done

/-- Send the host a message. -/
def log (message : String) : Action Unit := say message (done ())

/-- Set the count of a counter. -/
def count (n : Int64) : Action Unit := setCount n (done ())

/-- Fire exits one after the other. -/
def callAll : List Nat → Action Unit
  | [] => done ()
  | p :: ps => ask (.call ⟨p.toUInt32⟩) fun _ => callAll ps

end Action

/-! ### Running a tree -/

/-- How a machine with states `σ` and nodes named by `κ` takes what a node says and keeps. What is
said reaches the machine with the name of the node that says it. -/
structure Stage (κ σ : Type) where
  say : κ → String → σ → σ
  setCount : κ → Int64 → σ → σ

/-- Run a node's actions, every request being answered by `serve`. -/
def Action.run {κ σ α : Type} (stage : Stage κ σ)
    (serve : κ → (r : Request) → σ → r.Answer × σ) (self : κ) : Action α → σ → α × σ
  | .done a, s => (a, s)
  | .ask r next, s =>
    let (x, s) := serve self r s
    (next x).run stage serve self s
  | .say m next, s => next.run stage serve self (stage.say self m s)
  | .setCount n next, s => next.run stage serve self (stage.setCount self n s)

/-- Running one tree after the other is running the joined tree. -/
theorem Action.run_bind {κ σ α β : Type} (stage : Stage κ σ)
    (serve : κ → (r : Request) → σ → r.Answer × σ) (self : κ) (a : Action α)
    (f : α → Action β) (s : σ) :
    (a.bind f).run stage serve self s
      = (f (a.run stage serve self s).1).run stage serve self (a.run stage serve self s).2 := by
  induction a generalizing s with
  | done a => rfl
  | ask r next ih => exact ih _ _
  | say m next ih => exact ih _
  | setCount n next ih => exact ih _

/-! ### Produced values -/

/-- Where a producer puts its value: a reader's place for a value of the type it asked for. -/
structure OutputSlot (type : DataType) where
  content : Option type.Carrier

namespace OutputSlot

variable {type : DataType}

/-- The place before anything is put there. -/
def empty : OutputSlot type := ⟨none⟩

/-- Whether values of a type can be put here. -/
def accepts (_ : OutputSlot type) (t : DataType) : Bool := t == type

/-- Put a value here; answers whether it was of the type asked for. -/
def put (slot : OutputSlot type) (v : Value) : Bool × OutputSlot type :=
  match v.as? type with
  | some x => (true, ⟨some x⟩)
  | none => (false, slot)

/-- A value is taken exactly if its type is accepted. -/
theorem put_fst (slot : OutputSlot type) (v : Value) : (slot.put v).1 = slot.accepts v.type := by
  by_cases h : v.type = type <;> simp [put, accepts, Value.as?, h]

end OutputSlot

/-! ### Hooks -/

/-- The ways in which a node is called upon. -/
inductive Hook
  /-- A lifecycle event. -/
  | lifecycle (event : LifecycleEvent)
  /-- Control arrived at an enter port. -/
  | control (port : PortIndex)
  /-- A value of a stated type was asked of an output port. -/
  | produce (port : PortIndex)
  /-- A value of any type was asked of an output port. -/
  | offer (port : PortIndex)
  deriving DecidableEq

end FlowGraph
