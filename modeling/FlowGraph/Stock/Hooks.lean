import FlowGraph.Behavior.Action
import FlowGraph.Stock.Basic
import FlowGraph.Text.Record

/-!
# What the kinds of node in stock do

What each of them does at a lifecycle event, when control arrives, and when a value is asked of
one of its outputs. Values are asked for in two tiers: first at the reader's type (`produce`), then,
if that gave nothing, at whatever type the node has (`offer?`).

* `Stock.Instance.onEvent`, `Stock.Instance.onControl` — the control hooks.
* `Stock.Instance.produce` — the typed tier; answers whether a value was produced.
* `Stock.Instance.offer?` — the untyped tier.
-/

namespace FlowGraph.Stock.Instance

/-! ### Events -/

/-- What a node does at a lifecycle event. -/
def onEvent (i : Instance) (event : LifecycleEvent) : Action Unit :=
  match i, event with
  | startEvent, .start => .call 0
  | counter c, .setUp => .count c.start
  | tracer tag, .setUp => .log ("init " ++ tag)
  | tracer tag, .tearDown => .log ("deinit " ++ tag)
  | tracer tag, .enable => .log ("enable " ++ tag)
  | tracer tag, .disable => .log ("disable " ++ tag)
  | probe p, event => p.onEvent event
  | _, _ => .done ()

/-! ### Control -/

/-- What a node does when control arrives at one of its ports. -/
def onControl (i : Instance) (port : PortIndex) : Action Unit :=
  match i with
  | sequence arity =>
    if port = ⟨0⟩ then .callAll ((List.range (exitCount arity)).map (· + 1)) else .done ()
  | branch =>
    if port = ⟨0⟩ then do
      let condition ← Action.read 1 .bool false
      if condition then .call 2 else .call 3
    else .done ()
  | counter c =>
    if port = ⟨0⟩ then do
      Action.count (c.count + c.step)
      .call 1
    else .done ()
  | printText lead =>
    if port = ⟨0⟩ then do
      let text ← Action.read 1 .text ""
      Action.log (lead ++ text)
      .call 2
    else .done ()
  | tracer tag => do
    Action.log ("control " ++ tag)
    .call 1
  | probe p => p.onControl port
  | _ => .done ()

/-! ### Values -/

/-- Ask a node for a value of a stated type. The answer tells whether it claims to have produced
one, and what it put into the slot. -/
def produce (i : Instance) (self : PackedAddress) (port : PortIndex) {type : DataType}
    (slot : OutputSlot type) : Action (Bool × OutputSlot type) :=
  match i with
  | constantInt value =>
    if port = ⟨0⟩ then .done (slot.put (.int value)) else .done (false, slot)
  | constantText value =>
    if port = ⟨0⟩ then .done (slot.put (.text value)) else .done (false, slot)
  | addInt =>
    if port = ⟨2⟩ ∧ slot.accepts .int then do
      let a ← Action.read 0 .int 0
      let b ← Action.read 1 .int 0
      .done (slot.put (.int (a + b)))
    else .done (false, slot)
  | greaterThan =>
    if port = ⟨2⟩ ∧ slot.accepts .bool then do
      let a ← Action.read 0 .int 0
      let b ← Action.read 1 .int 0
      .done (slot.put (.bool (decide (b < a))))
    else .done (false, slot)
  | intToText =>
    if port = ⟨1⟩ ∧ slot.accepts .text then do
      let n ← Action.read 0 .int 0
      .done (slot.put (.text (toString n.toInt)))
    else .done (false, slot)
  | probe p => p.produce self port slot
  | _ => .done (false, slot)

/-- The value that a node has at a port, at the node's own type. -/
def offer? (i : Instance) (port : PortIndex) : Option Value :=
  match i with
  | counter c => if port = ⟨2⟩ then some (.int c.count) else none
  | probe p => p.offer? port
  | _ => none

end FlowGraph.Stock.Instance
