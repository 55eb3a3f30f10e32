import FlowGraph.Behavior.Action
import FlowGraph.Json.Basic
import FlowGraph.Notice

/-!
# Repertoires

Which kinds of node there are, with what data, is no business of graphs and engines. They take them
from a repertoire, which says of every kind its name, its data, its ports and its hooks. What is said
of graphs, of programs and of running them is said of every repertoire, unless it is about kinds of
node in particular.

Authors give a node's data as JSON. Null stands for data about which nothing was said, and what
cannot be read counts as nothing said, with a notice. The one thing that a node keeps from one hook
to the next is a count; it is no part of what authors write.

A hook goes by the data that its node has when it begins. The value that a node has at its own type
is read off these data: making it asks for nothing and says nothing, for no kind of node has a use
for more.

* `Repertoire` — kinds of node with their data, ports and hooks, and what must hold of them.
* `Behavior`, `Instance` — the kinds of node, and the data of one node.
* `Instance.decode` — the data of a kind of node from any JSON.
-/

namespace FlowGraph

/-- The kinds of node that graphs are made of. -/
class Repertoire where
  /-- The kinds of node. -/
  Behavior : Type
  /-- The data of one node. -/
  Instance : Type
  decidableEq : DecidableEq Behavior
  /-- The stable name of a kind of node. -/
  id : Behavior → BehaviorId
  /-- The kind of node that data belong to. -/
  behavior : Instance → Behavior
  /-- The data of a node about which an author said nothing. -/
  blank : Behavior → Instance
  /-- The ordered port list of a node. -/
  ports : Instance → List Port
  /-- The data of a kind of node from JSON, or nothing. -/
  read? : Behavior → Json → Option Instance
  /-- The notices that reading gives, be it successful or not. -/
  readNotices : Behavior → Json → List Notice
  /-- Data as JSON. -/
  encode : Instance → Json
  /-- Data in diagnostics. -/
  text : Instance → String
  /-- What a node does at a lifecycle event. -/
  onEvent : Instance → LifecycleEvent → Action Unit
  /-- What a node does when control arrives at one of its ports. -/
  onControl : Instance → PortIndex → Action Unit
  /-- What a node does when it is asked for a value of a stated type. -/
  produce : Instance → PackedAddress → PortIndex → {type : DataType} → OutputSlot type →
    Action (Bool × OutputSlot type)
  /-- The value that a node has at a port, at the node's own type. -/
  offer? : Instance → PortIndex → Option Value
  /-- The count that a node keeps, if it keeps one. -/
  count? : Instance → Option Int64
  /-- The same node with another count; a node that keeps none stays as it is. -/
  withCount : Int64 → Instance → Instance
  behavior_blank (b : Behavior) : behavior (blank b) = b
  /-- What is read belongs to the kind of node that it was read for. -/
  behavior_of_read? {b : Behavior} {j : Json} {i : Instance} (h : read? b j = some i) :
    behavior i = b
  /-- Ports are numbered by 32 bits. -/
  length_ports (i : Instance) : (ports i).length ≤ 2 ^ 32
  behavior_withCount (n : Int64) (i : Instance) : behavior (withCount n i) = behavior i
  ports_withCount (n : Int64) (i : Instance) : ports (withCount n i) = ports i
  encode_withCount (n : Int64) (i : Instance) : encode (withCount n i) = encode i
  withCount_withCount (m n : Int64) (i : Instance) : withCount n (withCount m i) = withCount n i
  /-- Every node has some count; one that keeps none has any. -/
  exists_withCount (i : Instance) : ∃ n, withCount n i = i

/-- The kinds of node. -/
abbrev Behavior [R : Repertoire] : Type := R.Behavior

/-- The data of one node. -/
abbrev Instance [R : Repertoire] : Type := R.Instance

instance [R : Repertoire] : DecidableEq Behavior := R.decidableEq

variable [Repertoire]

/-- The stable name of a kind of node. -/
def Behavior.id (b : Behavior) : BehaviorId := Repertoire.id b

namespace Instance

/-! ### Data -/

/-- The kind of node that data belong to. -/
def behavior (i : Instance) : Behavior := Repertoire.behavior i

/-- The data of a node about which an author said nothing. -/
def blank (b : Behavior) : Instance := Repertoire.blank b

/-- The ordered port list of a node. -/
def ports (i : Instance) : List Port := Repertoire.ports i

/-- The count that a node keeps, if it keeps one. -/
def count? (i : Instance) : Option Int64 := Repertoire.count? i

/-- The same node with another count; a node that keeps none stays as it is. -/
def withCount (n : Int64) (i : Instance) : Instance := Repertoire.withCount n i

/-! ### Data as JSON -/

/-- The data of a kind of node from JSON, or nothing. -/
def read? (b : Behavior) (j : Json) : Option Instance := Repertoire.read? b j

/-- Data as JSON. -/
def encode (i : Instance) : Json := Repertoire.encode i

/-- Data in diagnostics. -/
def text (i : Instance) : String := Repertoire.text i

/-- The data of a kind of node from any JSON. -/
def decode (b : Behavior) (j : Json) : Noted Instance :=
  match j with
  | .null => pure (blank b)
  | j =>
    match read? b j with
    | some i => ⟨i, Repertoire.readNotices b j⟩
    | none => ⟨blank b, Repertoire.readNotices b j ++ [.dataInvalid b.id]⟩

/-! ### Hooks -/

/-- What a node does at a lifecycle event. -/
def onEvent (i : Instance) (event : LifecycleEvent) : Action Unit := Repertoire.onEvent i event

/-- What a node does when control arrives at one of its ports. -/
def onControl (i : Instance) (port : PortIndex) : Action Unit := Repertoire.onControl i port

/-- Ask a node for a value of a stated type. The answer tells whether it claims to have produced
one, and what it put into the slot. -/
def produce (i : Instance) (self : PackedAddress) (port : PortIndex) {type : DataType}
    (slot : OutputSlot type) : Action (Bool × OutputSlot type) :=
  Repertoire.produce i self port slot

/-- The value that a node has at a port, at the node's own type. -/
def offer? (i : Instance) (port : PortIndex) : Option Value := Repertoire.offer? i port

/-! ### Laws -/

@[simp] theorem behavior_blank (b : Behavior) : (blank b).behavior = b :=
  Repertoire.behavior_blank b

@[simp] theorem behavior_withCount (n : Int64) (i : Instance) :
    (i.withCount n).behavior = i.behavior :=
  Repertoire.behavior_withCount n i

@[simp] theorem ports_withCount (n : Int64) (i : Instance) : (i.withCount n).ports = i.ports :=
  Repertoire.ports_withCount n i

@[simp] theorem encode_withCount (n : Int64) (i : Instance) : (i.withCount n).encode = i.encode :=
  Repertoire.encode_withCount n i

theorem withCount_withCount (m n : Int64) (i : Instance) :
    (i.withCount m).withCount n = i.withCount n :=
  Repertoire.withCount_withCount m n i

/-- Every node has some count; one that keeps none has any. -/
theorem exists_withCount (i : Instance) : ∃ n, i.withCount n = i := Repertoire.exists_withCount i

/-- Ports are numbered by 32 bits. -/
theorem length_ports (i : Instance) : i.ports.length ≤ 2 ^ 32 := Repertoire.length_ports i

/-- Decoding always gives data of the kind of node asked for. -/
theorem behavior_decode (b : Behavior) (j : Json) : (decode b j).value.behavior = b := by
  unfold decode
  split
  · exact behavior_blank b
  · split
    · next h => exact Repertoire.behavior_of_read? h
    · exact behavior_blank b

end Instance

end FlowGraph
