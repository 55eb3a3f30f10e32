import FlowGraph.Link.Builder
import FlowGraph.Program.Plan

/-!
# Compiling graphs

The plan of a graph fixes how many records its table has, so the table is laid down in one pass:
for each port with far ends a header, and behind it an entry for each far end.

* `PortPlan.layDown`, `LinkTableBuilder.ofPlan` — one port, and all of them.
* `LinkTable.ofPlan` — the table of a plan, and how much is in it.
* `Graph.tryCompile` — the program of a graph, or what the table's builder objected to.
* `Graph.compile` — the program of a graph; without links if the builder objected.
-/

namespace FlowGraph

/-- Lay down a port's header and fill its entries. -/
def PortPlan.layDown (b : LinkTableBuilder) (p : PortPlan) :
    Except LinkTableError LinkTableBuilder := do
  let (first, b) ← b.reserve p.address p.near.port p.kind p.targets.length.toUInt32
  b.writeAll first p.targets

/-- A builder that was given nodes and planned ports, each of which has far ends. -/
def LinkTableBuilder.ofPlan (nodes : List PackedAddress) (plan : List PortPlan) :
    Except LinkTableError LinkTableBuilder := do
  let b ← (LinkTableBuilder.withCapacity nodes.length
    (plan.map PortPlan.recordCount).sum).pushNodes nodes
  plan.foldlM PortPlan.layDown b

/-- The table of nodes and planned ports. Headers and links are counted once all of them are laid
down, so they are counted even if the table is not sealed then. -/
def LinkTable.ofPlan (nodes : List PackedAddress) (plan : List PortPlan) (stats : CompileStats) :
    Noted (Except LinkTableError LinkTable × CompileStats) :=
  match LinkTableBuilder.ofPlan nodes plan with
  | .error e => pure (.error e, stats)
  | .ok b => do
    let table ← b.finish
    return (table,
      { stats with headers := plan.length, links := (plan.map (·.targets.length)).sum })

/-- The table of nodes without any links. -/
def LinkTable.ofNodes (nodes : List PackedAddress) : LinkTable :=
  ⟨nodes.filter PackedAddress.isValid, [], .empty⟩

namespace Graph

variable [Repertoire]

/-- The program of a graph, `recover` being asked for a table if the builder objects. -/
def compileWith {ε : Type} (g : Graph) (config : PoolConfig)
    (recover : LinkTableError → List PackedAddress → Noted (Except ε LinkTable)) :
    Noted (Except ε Program) := do
  let (⟨placement, skipped⟩, pools) ← placeNodes g.nodes (.empty g.catalog config)
  let plan := g.plan placement
  ⟨(), plan.flatMap PortPlan.notices⟩
  let (table, stats) ← LinkTable.ofPlan placement.addresses (plan.filter (!·.targets.isEmpty))
    { total := g.nodeCount
      materialized := placement.length
      skipped
      headers := 0
      links := 0
      dropped := (plan.map (·.unresolved.length)).sum }
  let links ← match table with
    | .ok links => pure (.ok links)
    | .error e => recover e placement.addresses
  match links with
  | .error e => return .error e
  | .ok links =>
    Noted.note
      (.graphCompiled stats.materialized stats.skipped stats.links stats.headers stats.dropped)
    return .ok { links, pools, placement, stats }

/-- The program of a graph, or what the table's builder objected to. -/
def tryCompile (g : Graph) (config : PoolConfig) : Noted (Except LinkTableError Program) :=
  g.compileWith config fun e _ => pure (.error e)

/-- The program of a graph. Nodes of unknown behaviour are left out; should the table's builder
object, all links are. -/
def compile (g : Graph) (config : PoolConfig) : Noted Program := do
  let recover (e : LinkTableError) (nodes : List PackedAddress) :
      Noted (Except Empty LinkTable) := do
    Noted.note (.linkTableBroken e.message)
    return .ok (LinkTable.ofNodes nodes)
  match ← g.compileWith config recover with
  | .ok p => return p

end Graph

end FlowGraph
