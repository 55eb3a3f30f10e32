import FlowGraph.Behavior.Catalog
import FlowGraph.Stock.Codec
import FlowGraph.Stock.Hooks

/-!
# The repertoire in stock

The kinds of node in stock make a repertoire. Where nothing else is said, it is the one that graphs
are made from.

* `Stock.repertoire` — the kinds of node in stock as a repertoire.
* `Catalog.builtin`, `Catalog.full` — the catalogs without and with the instruments.
-/

namespace FlowGraph

instance Stock.repertoire : Repertoire where
  Behavior := Stock.Behavior
  Instance := Stock.Instance
  decidableEq := inferInstance
  id := Stock.Behavior.id
  behavior := Stock.Instance.behavior
  blank := Stock.Instance.blank
  ports := Stock.Instance.ports
  read? := Stock.Instance.read?
  readNotices := Stock.Instance.clampNotices
  encode := Stock.Instance.encode
  text := Stock.Instance.text
  onEvent := Stock.Instance.onEvent
  onControl := Stock.Instance.onControl
  produce := Stock.Instance.produce
  offer? := Stock.Instance.offer?
  count? := Stock.Instance.count?
  withCount := Stock.Instance.withCount
  behavior_blank := Stock.Instance.behavior_blank
  behavior_of_read? := Stock.Instance.behavior_of_read?
  length_ports i := Nat.le_trans (Stock.Instance.length_ports_le i) (by decide)
  behavior_withCount := Stock.Instance.behavior_withCount
  ports_withCount := Stock.Instance.ports_withCount
  encode_withCount n i := by cases i <;> rfl
  withCount_withCount := Stock.Instance.withCount_withCount
  exists_withCount := Stock.Instance.exists_withCount

instance : DecidableEq Instance := inferInstanceAs (DecidableEq Stock.Instance)

namespace Behavior

export Stock.Behavior (constantInt constantText addInt greaterThan intToText startEvent sequence
  branch counter printText tracer shape probe all)

end Behavior

namespace Instance

export Stock.Instance (constantInt constantText addInt greaterThan intToText startEvent sequence
  branch counter printText tracer shape probe)

end Instance

/-- The catalog of the behaviours that graphs are made of. -/
def Catalog.builtin : Catalog := ⟨Stock.Behavior.builtin⟩

/-- The catalog of all behaviours, instruments included. -/
def Catalog.full : Catalog := ⟨Stock.Behavior.all⟩

end FlowGraph
