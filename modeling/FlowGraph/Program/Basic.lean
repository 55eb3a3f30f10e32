import FlowGraph.Link.Table
import FlowGraph.Pool.Registry

/-!
# Programs

A program is what a graph is compiled to: the instances of its nodes and one table of the links
between them. It no longer depends on the graph.

* `Placement` — which address each node got, in the order in which the addresses were given out.
* `Program`, `Program.order`, `Program.addressOf?` — the program and its nodes.
* `CompileStats` — how much of the graph went into it.
-/

namespace FlowGraph

/-- The addresses that nodes got, in the order in which they were given out. -/
abbrev Placement := List (NodeId × PackedAddress)

namespace Placement

/-- The address of a node, if it got one. -/
def find? (p : Placement) (n : NodeId) : Option PackedAddress := Table.lookup n p

/-- The addresses in the order in which they were given out. -/
def addresses (p : Placement) : List PackedAddress := p.map Prod.snd

/-- The nodes with their addresses, by ascending node. -/
def sorted (p : Placement) : Placement := p.mergeSort fun a b => decide (a.1.raw ≤ b.1.raw)

/-- A node that was placed is in the list with its address. -/
theorem mem_of_find? {p : Placement} {n : NodeId} {a : PackedAddress} (h : p.find? n = some a) :
    (n, a) ∈ p := Table.mem_of_lookup h

end Placement

/-- How much of a graph went into its program. -/
structure CompileStats where
  /-- Nodes of the graph. -/
  total : Nat
  /-- Nodes that got an instance. -/
  materialized : Nat
  /-- Nodes left out because their behaviour is unknown. -/
  skipped : Nat
  /-- Ports with links. -/
  headers : Nat
  /-- Far ends of links, each connection counted at both of its ends. -/
  links : Nat
  /-- Far ends left out because they could not be resolved. -/
  dropped : Nat
  deriving DecidableEq, Inhabited

variable [Repertoire]

/-- The runnable form of a graph. -/
structure Program where
  links : LinkTable
  pools : Registry
  placement : Placement
  stats : CompileStats
  deriving Inhabited

namespace Program

/-- The addresses of the nodes in compiled order. -/
def order (p : Program) : List PackedAddress := p.links.nodes

/-- The address of a node of the graph. -/
def addressOf? (p : Program) (n : NodeId) : Option PackedAddress := p.placement.find? n

/-- Whether there are no nodes. -/
def isEmpty (p : Program) : Bool := p.order.isEmpty

end Program

end FlowGraph
