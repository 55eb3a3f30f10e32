import FlowGraph.Proofs.Behavior.Codec
import FlowGraph.Proofs.Engine.Release
import FlowGraph.Proofs.Graph.Refitting
import FlowGraph.Proofs.Program.Ports

/-!
# Snapshots written back

A snapshot of a node that is under way is JSON like any other, and there are two places to put it. A
pool can make an instance of it, which is then the same node over again, with a counter back at its
start. And the author's graph can take it as the data of the node. Nothing is lost on the way: the
data are those that the author's were read as, if perhaps in other words, so the node keeps its
ports and all that is connected to them.

* `Registry.Sound.materialize_snapshot` — an instance made from a snapshot.
* `Graph.Reachable.snapshots_written_back` — both, at any point of a run.
-/

namespace FlowGraph

/-! ### Instances from snapshots -/

theorem Registry.snapshot_of_find? {r : Registry} {a : PackedAddress} {i : Instance}
    (hi : r.find? a = some i) : r.snapshot a = some i.encode := by
  rw [snapshot, hi, Option.map_some]

/-- **An instance made from a snapshot**, in the pool where the snapshot was taken, is what it was
taken of, with its count at the start. It lies at an address of its own, and no other notices. -/
theorem Registry.Sound.materialize_snapshot {r : Registry} (h : r.Sound) {a : PackedAddress}
    {i : Instance} (hi : r.find? a = some i) (hfit : i.Fitting) :
    ∃ a' r', (r.materialize a.pool i.encode).value = (some a', r') ∧ a'.pool = a.pool ∧
      r.Extends r' a' (i.withCount 0) := by
  cases hs : r.pools.find? a.pool with
  | none =>
    rw [find?_of_missing hs] at hi
    cases hi
  | some s =>
    rw [find?_of_store hs] at hi
    have hdecoded : (Instance.decode s.behavior i.encode).value = i.withCount 0 := by
      rw [← (h.stores a.pool s hs).held a.slot i hi]
      exact Instance.decode_encode hfit
    refine ⟨.pack a.pool s.pool.freshId, r.added a.pool s (i.withCount 0), ?_,
      PackedAddress.pool_pack _ _, h.wellFormed.extends_added hs (h.ascending a.pool s hs) _⟩
    rw [materialize_value hs, hdecoded]

/-! ### Nodes under way -/

namespace Graph

section

variable {g : Graph} {config : PoolConfig} {P : Program}

/-- A node that is still there in a run is what its data were decoded to, but for a count. -/
theorem Compiles.instance_after (hP : g.Compiles config P) (h : g.WellFormed) {limit : Nat}
    {ops : List Operation} {n : NodeId} {a : PackedAddress} {i : Instance}
    (ha : P.addressOf? n = some a)
    (hi : ((Engine.ofProgram P limit).after ops).pools.find? a = some i) :
    ∃ node ∈ g.nodes, ∃ b count, node.id = n ∧ g.catalog.find? node.behavior = some b ∧
      i = (Instance.decode b node.data).value.withCount count := by
  obtain ⟨node, hnode, b, hid, hb, hstart⟩ := hP.node_of_address h ha
  have hlive : ((Engine.ofProgram P limit).after ops).world.isLive a = true :=
    Option.isSome_iff_exists.2 ⟨i, hi⟩
  have hkept : Operation.release a ∉ ops := (((hP.sound h limit).isLive_after ops a).1 hlive).2
  obtain ⟨count, hcount⟩ := (hP.sound h limit).find?_after hstart hkept
  rw [hi] at hcount
  exact ⟨node, hnode, b, count, hid, hb, Option.some.inj hcount⟩

/-- Written back to its node, a snapshot leaves the graph as it is but for these data. -/
theorem WellFormed.setData_snapshot (h : g.WellFormed) {node : Node} (hn : node ∈ g.nodes)
    {b : Behavior} (hb : g.catalog.find? node.behavior = some b) {i : Instance} {count : Int64}
    (hi : i = (Instance.decode b node.data).value.withCount count) :
    (g.setData node.id i.encode).value
      = (some 0, g.updateNode node.id fun m => { m with data := i.encode }) := by
  refine h.setData_settled hn ?_
  rw [h.derived node hn, derivedPorts, derivedPorts, hb]
  show (Instance.decode b i.encode).value.ports = (Instance.decode b node.data).value.ports
  rw [hi, Instance.encode_withCount, Instance.decode_encode_decode]

end

/-- **Snapshots can be written back.** Take any graph that edits lead to, its program at any point
of a run, and a node that is still there. Its snapshot makes an instance in the same pool that has
the same snapshot, the same ports and the same data, except that a counter has not counted yet;
nothing else in the registry changes. As the data of the node in the graph, the snapshot drops no
connection and leaves all ports and connections as they were. And it stays what it is: whatever was
read, to write it down and to read it again gives the same data, for every behaviour and all
JSON. -/
theorem Reachable.snapshots_written_back {g : Graph} (hg : g.Reachable) (config : PoolConfig)
    (limit : Nat) (ops : List Operation) {n : NodeId} {a : PackedAddress} {i : Instance}
    (ha : (g.compile config).value.addressOf? n = some a)
    (hi : ((Engine.ofProgram (g.compile config).value limit).after ops).pools.find? a = some i) :
    let r := ((Engine.ofProgram (g.compile config).value limit).after ops).pools
    (∃ snap, r.snapshot a = some snap ∧
      (∃ a' r', (r.materialize a.pool snap).value = (some a', r') ∧ a'.pool = a.pool ∧
        r.Extends r' a' (i.withCount 0) ∧ r'.snapshot a' = some snap ∧
        (i.withCount 0).ports = i.ports) ∧
      (g.setData n snap).value = (some 0, g.updateNode n fun node => { node with data := snap }) ∧
      (∀ m, (g.setData n snap).value.2.ports m = g.ports m) ∧
      (g.setData n snap).value.2.connections = g.connections) ∧
    ∀ b v, (Instance.decode b (Instance.decode b v).value.encode).value
      = (Instance.decode b v).value := by
  intro r
  have h := hg.wellFormed
  have hP := h.compiles config
  obtain ⟨node, hnode, b, count, rfl, hb, hdata⟩ := hP.instance_after h ha hi
  have hsound : r.Sound := ((hP.sound h limit).after ops).pools
  have hfit : i.Fitting := by
    rw [hdata]
    exact (Instance.fitting_decode b node.data).withCount count
  obtain ⟨a', r', hvalue, hpool, hext⟩ := hsound.materialize_snapshot hi hfit
  have hnew : r'.find? a' = some (i.withCount 0) := (hext.find?_eq a').trans (if_pos rfl)
  have hsnapshot : r'.snapshot a' = some i.encode := by
    rw [Registry.snapshot_of_find? hnew, Instance.encode_withCount]
  have hset := h.setData_snapshot hnode hb hdata
  have hports := ports_updateNode g node.id (fun m => { m with data := i.encode }) (fun _ => rfl)
    fun _ => rfl
  refine ⟨⟨i.encode, Registry.snapshot_of_find? hi, ⟨a', r', hvalue, hpool, hext, hsnapshot,
    Instance.ports_withCount 0 i⟩, hset, ?_, ?_⟩, Instance.decode_encode_decode⟩
  · rw [hset]
    exact hports
  · rw [hset]
    rfl

/-- The counter of the sample has made a step of three. Its snapshot spells out a start that its
author left to be understood; an instance made of it has not counted, and its node takes it. -/
theorem Reachable.snapshots_written_back_counter :
    let g := Sample.graph.value
    let P := (g.compile .standard).value
    let r := ((Engine.ofProgram P defaultDepth).after Sample.opening).pools
    r.find? Sample.counterAddress = some (.counter ⟨0, 3, 3⟩) ∧
      ∃ snap a' r', r.snapshot Sample.counterAddress = some snap ∧
        (r.materialize Sample.counterAddress.pool snap).value = (some a', r') ∧
        r'.find? a' = some (.counter ⟨0, 3, 0⟩) ∧
        (g.setData Sample.counter snap).value.1 = some 0 ∧
        (g.setData Sample.counter snap).value.2.connections = g.connections := by
  intro g P r
  have haddress : P.addressOf? Sample.counter = some Sample.counterAddress := by decide +kernel
  have hcounted : r.find? Sample.counterAddress = some (.counter ⟨0, 3, 3⟩) := by decide +kernel
  obtain ⟨⟨snap, hsnap, ⟨a', r', hmade, -, hext, -, -⟩, hset, -, hkept⟩, -⟩ :=
    Reachable.snapshots_written_back Sample.graph_reachable .standard defaultDepth Sample.opening
      haddress hcounted
  exact ⟨hcounted, snap, a', r', hsnap, hmade, (hext.find?_eq a').trans (if_pos rfl),
    congrArg Prod.fst hset, hkept⟩

end Graph

end FlowGraph
