import FlowGraph.Engine.Basic
import FlowGraph.Graph.Edit
import FlowGraph.Link.Image
import FlowGraph.Program.Compile
import FlowGraph.Stock.Repertoire

/-!
# A sample graph

A start event fires a sequence. Its first exit increments a counter, whose count is printed; its
second prints one of two words, depending on whether the count is positive.

* `Sample.nodes`, `Sample.links` — the graph as two lists.
* `Sample.graph` — the graph, built up by edits.
* `Sample.run` — the notices of building, compiling and running it.
-/

namespace FlowGraph.Sample

/-- A node to add: its behaviour, its data and its place. -/
structure NodeSketch where
  behavior : Behavior
  data : Json
  position : Position

/-- The nodes, in the order in which they are added. -/
def nodes : List NodeSketch :=
  [ ⟨.startEvent, .null, ⟨0, 0⟩⟩
  , ⟨.sequence, .object [("arity", .int 2)], ⟨150, 0⟩⟩
  , ⟨.counter, .object [("step", .int 3)], ⟨300, -100⟩⟩
  , ⟨.intToText, .null, ⟨450, -50⟩⟩
  , ⟨.printText, .object [("prefix", .text "count: ")], ⟨600, -100⟩⟩
  , ⟨.constantInt, .null, ⟨300, 150⟩⟩
  , ⟨.greaterThan, .null, ⟨450, 100⟩⟩
  , ⟨.branch, .null, ⟨600, 50⟩⟩
  , ⟨.printText, .object [("prefix", .text "positive")], ⟨750, 0⟩⟩
  , ⟨.printText, .object [("prefix", .text "not positive")], ⟨750, 100⟩⟩ ]

/-- A port of a sketched node, nodes being counted from one as their ids are. -/
def port (node port : UInt32) : PortRef := ⟨⟨node⟩, ⟨port⟩⟩

/-- The links, in the order in which they are made. -/
def links : List (PortRef × PortRef) :=
  [ (port 1 0, port 2 0)
  , (port 2 1, port 3 0)
  , (port 3 1, port 5 0)
  , (port 3 2, port 4 0)
  , (port 4 1, port 5 1)
  , (port 2 2, port 8 0)
  , (port 3 2, port 7 0)
  , (port 6 0, port 7 1)
  , (port 7 2, port 8 1)
  , (port 8 2, port 9 0)
  , (port 8 3, port 10 0) ]

/-- The node that counts. -/
def counter : NodeId := ⟨3⟩

/-- The graph, built up by edits. -/
def graph : Noted Graph := do
  let g ← nodes.foldlM (fun g n => do return (← g.addNode n.behavior.id n.position n.data).2)
    (Graph.empty .builtin)
  links.foldlM (fun g l => do return (← g.connect l.1 l.2).2) g

/-- What a run of an engine has given notice of, its host turning what it hears into notices. -/
def heard (e : Engine) : List Notice := e.journal.filterMap Host.tracing.notice?

/-- The count of the counter; zero if there is none. -/
def count (e : Engine) : Int64 :=
  (((e.addressOf? counter).bind e.pools.find?).bind Instance.count?).getD 0

/-- The notices of building, compiling and running the sample, from the start to the end of the
engine's life. -/
def run (settings : Option String) (pools : PoolConfig) (limit : Nat) : Noted Unit := do
  Noted.note (.demoStarted (Text.optional (settings.map Text.quoted)))
  Noted.note (.behaviorsListed Catalog.builtin.sortedNames)
  let g ← graph
  let program ← g.compile pools
  Noted.note (.programBuilt program.order.length program.pools.poolCount program.stats.links)
  let engine := (Engine.ofProgram program limit).bringUp.2.enable.2.start.2
  ⟨(), heard engine⟩
  Noted.note (.counterFinished (count engine).toInt)
  Noted.note (.tableListed engine.links.toJson)
  ⟨(), heard engine.clearJournal.tearDown.2⟩
  Noted.note .demoDone

end FlowGraph.Sample
