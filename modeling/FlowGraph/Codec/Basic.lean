import FlowGraph.Address
import FlowGraph.Ident
import FlowGraph.Json.Basic

/-!
# Codecs

A type with a codec has a JSON form, which is read back strictly, and a text for diagnostics.

* `Codec` — the class.
* Instances for the names of nodes, connections, ports, pools and slots, and for packed addresses:
  each is its bare number in JSON.
-/

namespace FlowGraph

/-- A JSON form and a text for diagnostics. -/
class Codec (α : Type) where
  encode : α → Json
  decode? : Json → Option α
  text : α → String

namespace Codec

/-- The codec of a 32-bit name: its bare number. -/
@[reducible] def ofName {α : Type} (raw : α → UInt32) (make : UInt32 → α)
    (text : α → String) : Codec α where
  encode a := .int (raw a).toNat
  decode? j := j.uint32?.map make
  text := text

instance : Codec NodeId := ofName NodeId.raw NodeId.mk NodeId.text

instance : Codec ConnectionId := ofName ConnectionId.raw ConnectionId.mk ConnectionId.text

instance : Codec PortIndex := ofName PortIndex.raw PortIndex.mk PortIndex.text

instance : Codec PoolId := ofName PoolId.raw PoolId.mk PoolId.text

instance : Codec SlotId := ofName SlotId.raw SlotId.mk SlotId.text

instance : Codec PackedAddress where
  encode a := .int a.raw.toNat
  decode? j := j.uint64?.map PackedAddress.mk
  text := PackedAddress.text

end Codec

end FlowGraph
