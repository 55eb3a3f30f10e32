import FlowGraph.Stock.Probe

/-!
# The kinds of node in stock

Ten kinds of node do the work of a graph: constants, arithmetic, control flow, a counter and text
output. Three more are instruments, with which graphs are tried out: a tracer that reports every
event, a shape whose one port changes with its data, and a probe that answers in every way.

* `Stock.Behavior`, `Stock.Behavior.id` — the kinds and their stable names.
* `Stock.Instance` — the data of one node, by kind.
* `Stock.Instance.ports` — the ordered port list, derived from the data.
-/

namespace FlowGraph.Stock

/-! ### Kinds of node -/

/-- The known behaviours. -/
inductive Behavior
  | constantInt
  | constantText
  | addInt
  | greaterThan
  | intToText
  | startEvent
  | sequence
  | branch
  | counter
  | printText
  | tracer
  | shape
  | probe
  deriving DecidableEq, Inhabited

namespace Behavior

/-- The stable name of the behaviour. -/
def id : Behavior → BehaviorId
  | constantInt => ⟨"core.constant_int"⟩
  | constantText => ⟨"core.constant_text"⟩
  | addInt => ⟨"core.add_int"⟩
  | greaterThan => ⟨"core.greater_than"⟩
  | intToText => ⟨"core.int_to_text"⟩
  | startEvent => ⟨"core.start_event"⟩
  | sequence => ⟨"core.sequence"⟩
  | branch => ⟨"core.branch"⟩
  | counter => ⟨"core.counter"⟩
  | printText => ⟨"core.print_text"⟩
  | tracer => ⟨"test.tracer"⟩
  | shape => ⟨"test.shape"⟩
  | probe => ⟨"test.probe"⟩

/-- The behaviours that graphs are made of. -/
def builtin : List Behavior :=
  [constantInt, constantText, addInt, greaterThan, intToText, startEvent, sequence, branch,
    counter, printText]

/-- The behaviours that observe running graphs. -/
def instruments : List Behavior := [tracer, shape, probe]

/-- Every known behaviour. -/
def all : List Behavior := builtin ++ instruments

theorem mem_all (b : Behavior) : b ∈ all := by cases b <;> decide

/-- Different behaviours have different names. -/
theorem id_injective {a b : Behavior} (h : a.id = b.id) : a = b := by
  cases a <;> cases b <;> simp_all [id]

end Behavior

/-! ### Instance data -/

/-- Adds a step to its count at each increment. The count is state of a run and no part of what an
author writes. -/
structure Counter where
  start : Int64
  step : Int64
  count : Int64
  deriving DecidableEq

/-- The data of one node. -/
inductive Instance
  /-- Produces a fixed integer. -/
  | constantInt (value : Int64)
  /-- Produces a fixed text. -/
  | constantText (value : String)
  /-- Produces the sum of its inputs, wrapped to 64 bits. -/
  | addInt
  /-- Produces whether its first input is greater than its second. -/
  | greaterThan
  /-- Produces the decimal text of its input. -/
  | intToText
  /-- Fires once when the engine starts. -/
  | startEvent
  /-- Fires its exits in order. -/
  | sequence (arity : UInt32)
  /-- Fires one of two exits, by a condition. -/
  | branch
  | counter (c : Counter)
  /-- Sends a lead text and its input to the host. -/
  | printText (lead : String)
  /-- Reports every event to the host, with its tag. -/
  | tracer (tag : String)
  /-- Has one port, of a kind and type chosen by its mode. -/
  | shape (mode : UInt8)
  | probe (p : Probe)
  deriving DecidableEq

namespace Instance

/-- The kind of node that the data belongs to. -/
def behavior : Instance → Behavior
  | constantInt _ => .constantInt
  | constantText _ => .constantText
  | addInt => .addInt
  | greaterThan => .greaterThan
  | intToText => .intToText
  | startEvent => .startEvent
  | sequence _ => .sequence
  | branch => .branch
  | counter _ => .counter
  | printText _ => .printText
  | tracer _ => .tracer
  | shape _ => .shape
  | probe _ => .probe

/-- The most exits of a sequence. -/
def maxArity : UInt32 := 256

/-- The data of a node about which an author said nothing. -/
def blank : Behavior → Instance
  | .constantInt => constantInt 0
  | .constantText => constantText ""
  | .addInt => addInt
  | .greaterThan => greaterThan
  | .intToText => intToText
  | .startEvent => startEvent
  | .sequence => sequence 2
  | .branch => branch
  | .counter => counter ⟨0, 1, 0⟩
  | .printText => printText ""
  | .tracer => tracer ""
  | .shape => shape 0
  | .probe => probe .blank

theorem behavior_blank (b : Behavior) : (blank b).behavior = b := by cases b <;> rfl

instance : Inhabited Instance := ⟨addInt⟩

/-! ### Ports -/

/-- The number of exits that a sequence of a given arity has. -/
def exitCount (arity : UInt32) : Nat := min arity.toNat maxArity.toNat

/-- The ordered port list of a node. -/
def ports : Instance → List Port
  | constantInt _ => [.output .int "value"]
  | constantText _ => [.output .text "value"]
  | addInt => [.input .int "a", .input .int "b", .output .int "sum"]
  | greaterThan => [.input .int "a", .input .int "b", .output .bool "result"]
  | intToText => [.input .int "value", .output .text "text"]
  | startEvent => [(Port.exit "fired").external]
  | sequence arity =>
    .enter "in" :: (List.range (exitCount arity)).map fun i => .exit s!"then {i}"
  | branch => [.enter "in", .input .bool "condition", .exit "true", .exit "false"]
  | counter _ => [.enter "increment", .exit "then", .dynamicOutput "count"]
  | printText _ => [.enter "in", .input .text "text", .exit "then"]
  | tracer _ => [.enter "in", .exit "out"]
  | shape mode =>
    if mode = 0 then [.enter "in"]
    else if mode = 1 then [.input .int "value"]
    else [.input .text "value"]
  | probe _ => Probe.ports

/-- A sequence has its entry and one port for each exit. -/
theorem length_ports_sequence (arity : UInt32) :
    (sequence arity).ports.length = exitCount arity + 1 := by
  simp [ports]

/-- A node has no more ports than a sequence of the greatest arity. -/
theorem length_ports_le (i : Instance) : i.ports.length ≤ 257 := by
  cases i with
  | sequence arity =>
      rw [length_ports_sequence, exitCount]
      have hmax : maxArity.toNat = 256 := rfl
      omega
  | shape mode =>
      rw [ports]
      split
      · decide
      · split <;> decide
  | probe p => exact show Probe.ports.length ≤ 257 by decide
  | _ => simp [ports]

/-! ### The count of a counter -/

/-- The count of a counter. -/
def count? : Instance → Option Int64
  | counter c => some c.count
  | _ => none

/-- The same node with another count, if it is a counter. -/
def withCount (n : Int64) : Instance → Instance
  | counter c => counter { c with count := n }
  | i => i

theorem behavior_withCount (n : Int64) (i : Instance) :
    (i.withCount n).behavior = i.behavior := by
  cases i <;> rfl

theorem ports_withCount (n : Int64) (i : Instance) : (i.withCount n).ports = i.ports := by
  cases i <;> rfl

theorem withCount_withCount (m n : Int64) (i : Instance) :
    (i.withCount m).withCount n = i.withCount n := by
  cases i <;> rfl

/-- Every node has some count; one that does not count has any. -/
theorem exists_withCount (i : Instance) : ∃ n, i.withCount n = i := by
  cases i with
  | counter c => exact ⟨c.count, rfl⟩
  | _ => exact ⟨0, rfl⟩

end Instance

end FlowGraph.Stock
