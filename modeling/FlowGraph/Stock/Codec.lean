import FlowGraph.Json.Basic
import FlowGraph.Notice
import FlowGraph.Stock.Basic
import FlowGraph.Text.Record

/-!
# Data of the kinds of node in stock as JSON

A record may be an object or an array and may leave out fields; a kind of node without data has the
one value null.

* `Stock.Instance.read?` — the data of a kind of node from JSON, or nothing.
* `Stock.Instance.encode` — the data as JSON; the count of a counter is not part of it.
* `Stock.Instance.text` — the data as diagnostics write it.
-/

namespace FlowGraph.Stock.Instance

/-! ### Reading -/

/-- A record of one field. -/
def readField? {α : Type} (name : String) (default : α) (read : Json → Option α) (j : Json) :
    Option α := do
  let r ← Json.Record.ofJson? [name] j
  let a ← r.withDefault 0 default read
  if r.isExact then some a else none

/-- A behaviour without fields has the one value null. -/
def readUnit? (i : Instance) : Json → Option Instance
  | .null => some i
  | _ => none

/-- The arity that a sequence's data asks for, if it can be read. -/
def readArity? (j : Json) : Option UInt32 := do
  (← Json.Record.ofJson? ["arity"] j).withDefault 0 2 Json.uint32?

/-- The data of a behaviour from JSON. -/
def read? (b : Behavior) (j : Json) : Option Instance :=
  match b with
  | .constantInt => (readField? "value" 0 Json.int64? j).map constantInt
  | .constantText => (readField? "value" "" Json.text? j).map constantText
  | .addInt => readUnit? addInt j
  | .greaterThan => readUnit? greaterThan j
  | .intToText => readUnit? intToText j
  | .startEvent => readUnit? startEvent j
  | .branch => readUnit? branch j
  | .sequence =>
    (readField? "arity" 2 Json.uint32? j).map fun n => sequence (min n maxArity)
  | .counter => do
    let r ← Json.Record.ofJson? ["start", "step"] j
    let start ← r.withDefault 0 0 Json.int64?
    let step ← r.withDefault 1 1 Json.int64?
    if r.isExact then some (counter ⟨start, step, 0⟩) else none
  | .printText => (readField? "prefix" "" Json.text? j).map printText
  | .tracer => (readField? "tag" "" Json.text? j).map tracer
  | .shape => do
    let r ← Json.Record.ofJson? ["mode"] j
    let mode ← r.required 0 Json.uint8?
    if r.isExact then some (shape mode) else none
  | .probe => (Probe.read? j).map probe

/-- The notice about an arity above the limit, given as soon as the arity has been read. -/
def clampNotices (b : Behavior) (j : Json) : List Notice :=
  match b, readArity? j with
  | .sequence, some n => if maxArity < n then [.arityClamped n.toNat maxArity.toNat] else []
  | _, _ => []

/-! ### Writing -/

/-- A signed 64-bit integer as JSON. -/
def intJson (n : Int64) : Json := .int n.toInt

/-- The data as JSON. -/
def encode : Instance → Json
  | constantInt value => .object [("value", intJson value)]
  | constantText value => .object [("value", .text value)]
  | addInt | greaterThan | intToText | startEvent | branch => .null
  | sequence arity => .object [("arity", .int arity.toNat)]
  | counter c => .object [("start", intJson c.start), ("step", intJson c.step)]
  | printText lead => .object [("prefix", .text lead)]
  | tracer tag => .object [("tag", .text tag)]
  | shape mode => .object [("mode", .int mode.toNat)]
  | probe p => p.encode

/-- The data in diagnostics. -/
def text : Instance → String
  | constantInt value => Text.record "ConstantInt" [("value", toString value.toInt)]
  | constantText value => Text.record "ConstantText" [("value", Text.quoted value)]
  | addInt => "AddInt"
  | greaterThan => "GreaterThan"
  | intToText => "IntToText"
  | startEvent => "StartEvent"
  | branch => "Branch"
  | sequence arity => Text.record "Sequence" [("arity", toString arity.toNat)]
  | counter c =>
    Text.record "Counter"
      [("start", toString c.start.toInt), ("step", toString c.step.toInt),
        ("count", Text.record "Cell" [("value", toString c.count.toInt)])]
  | printText lead => Text.record "PrintText" [("prefix", Text.quoted lead)]
  | tracer tag => Text.record "Tracer" [("tag", Text.quoted tag)]
  | shape mode => Text.record "Shape" [("mode", toString mode.toNat)]
  | probe p => p.text

/-! ### Laws -/

/-- What is read belongs to the behaviour that it was read for. -/
theorem behavior_of_read? {b : Behavior} {j : Json} {i : Instance} (h : read? b j = some i) :
    i.behavior = b := by
  cases b <;> simp only [read?, readUnit?, Option.map_eq_some_iff, Option.bind_eq_bind,
    Option.bind_eq_some_iff] at h
  case addInt | greaterThan | intToText | startEvent | branch =>
    split at h <;> simp_all [behavior]
    try (cases h; rfl)
  case counter | shape => grind [behavior]
  all_goals
    obtain ⟨_, _, rfl⟩ := h
    rfl

end FlowGraph.Stock.Instance
