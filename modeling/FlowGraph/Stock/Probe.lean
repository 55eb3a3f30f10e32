import FlowGraph.Behavior.Action
import FlowGraph.Json.Basic
import FlowGraph.Text.Record

/-!
# A probe

An engine is best tried out with a node that answers in every way in which a node can, the odd ones
included: with a value of another type than its port declares, with a claim and no value, with a
value and no claim. The probe is such an instrument. Its mode chooses among the ways. No other kind
of node has anything to do with it.

* `Stock.Probe` — the data of a probe.
* `Stock.Probe.read?`, `Stock.Probe.encode`, `Stock.Probe.text` — its data as JSON and in
  diagnostics.
* `Stock.Probe.onEvent`, `Stock.Probe.onControl`, `Stock.Probe.produce`, `Stock.Probe.offer?` — what
  it does.
-/

namespace FlowGraph.Stock

/-- The instrument's way of answering and the values it answers with. -/
structure Probe where
  mode : UInt8
  number : Int64
  label : String
  deriving DecidableEq

namespace Probe

/-- The data of a probe about which nothing was said. -/
def blank : Probe := ⟨0, 0, ""⟩

/-- The ordered port list. -/
def ports : List Port :=
  [.dynamicInput "in_any", .dynamicOutput "out_any", .output .int "int",
    (Port.output .text "text").external, .exit "fire", .enter "go"]

/-! ### Data -/

/-- The data from JSON, or nothing. -/
def read? (j : Json) : Option Probe := do
  let r ← Json.Record.ofJson? ["mode", "num", "text"] j
  let mode ← r.withDefault 0 0 Json.uint8?
  let number ← r.withDefault 1 0 Json.int64?
  let label ← r.withDefault 2 "" Json.text?
  if r.isExact then some ⟨mode, number, label⟩ else none

/-- The data as JSON. -/
def encode (p : Probe) : Json :=
  .object
    [("mode", .int p.mode.toNat), ("num", .int p.number.toInt), ("text", .text p.label)]

/-- The data in diagnostics. -/
def text (p : Probe) : String :=
  Text.record "Probe"
    [("mode", toString p.mode.toNat), ("num", toString p.number.toInt),
      ("text", Text.quoted p.label)]

/-! ### Hooks -/

/-- Two modes fire the exit at a lifecycle event. -/
def onEvent (p : Probe) : LifecycleEvent → Action Unit
  | .setUp => if p.mode = 4 then .call 4 else .done ()
  | .start => if p.mode = 3 then .call 4 else .done ()
  | _ => .done ()

/-- Control at any port reads the one input at every type and reports what came. -/
def onControl (p : Probe) (port : PortIndex) : Action Unit := do
  let number ← Action.read 0 .int p.number
  let label ← Action.read 0 .text p.label
  let flag ← Action.read 0 .bool false
  Action.log (port.digits ++ " i=" ++ toString number.toInt ++ " s=" ++ label ++ " b="
    ++ Text.truth flag)
  .call 4

/-- A value of a stated type, with or without a claim to have produced it. -/
def produce (p : Probe) (self : PackedAddress) (port : PortIndex) {type : DataType}
    (slot : OutputSlot type) : Action (Bool × OutputSlot type) :=
  if p.mode = 7 then .done (slot.put (.int p.number))
  else if port = ⟨2⟩ then
    if p.mode = 0 then .done (slot.put (.int p.number))
    else if p.mode = 1 then .done (true, slot)
    else if p.mode = 2 then .done (false, (slot.put (.int p.number)).2)
    else do
      let n ← Action.read 0 .int p.number
      .done (slot.put (.int (n * 2)))
  else if port = ⟨3⟩ then .done (slot.put (.text (p.label ++ "@" ++ self.display)))
  else .done (false, slot)

/-- A value of whatever type the mode has it. -/
def offer? (p : Probe) (port : PortIndex) : Option Value :=
  if port = ⟨1⟩ then
    if p.mode = 0 then some (.int p.number)
    else if p.mode = 1 then some (.text p.label)
    else if p.mode = 2 then some (.bool (p.number != 0))
    else none
  else if port = ⟨2⟩ then
    if p.mode = 1 then some (.int (p.number + 1000))
    else if p.mode = 2 then some (.text p.label)
    else none
  else none

end Probe

end FlowGraph.Stock
