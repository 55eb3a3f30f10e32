import FlowGraph.Demo.Sample
import FlowGraph.Proofs.Graph.WellFormed

/-!
# Connections of reachable graphs

An editor may try anything, and still every connection that a graph holds is one that could be made
in it as it stands: a change of ports takes every connection along that it would have left dangling.
No input has two producers, no link is made twice, and ids ascend in the order of the connections.

* `Graph.Reachable.connections_fit` — the ends of every connection, and the ports of every node.
* `Graph.Reachable.connections_unique` — how connections are told apart, and producers of inputs.
* `Sample.graph_reachable` — the sample graph is reached by edits.
-/

namespace FlowGraph

namespace Graph

section

variable [Repertoire]

/-- A connection that could be made in the graph as it stands: from a source port of one node to a
sink port of another, of the counterpart kind and, where both declare one, of the same type. -/
def Fits (g : Graph) (c : Connection) : Prop :=
  ∃ s t p q, g.node? c.source.node = some s ∧ g.node? c.sink.node = some t ∧
    c.source.node ≠ c.sink.node ∧
    s.ports[c.source.port.index]? = some p ∧ t.ports[c.sink.port.index]? = some q ∧
    (p.kind = .exit ∨ p.kind = .output) ∧ q.kind = p.kind.counterpart ∧
    ∀ a b, p.declaredType = some a → q.declaredType = some b → a = b

/-- **Every connection fits, and ports follow data.** This holds of any graph that a run of edits
has led to, invalid edits and changes of data under existing connections included. -/
theorem Reachable.connections_fit {g : Graph} (h : g.Reachable) :
    (∀ c ∈ g.connections, g.Fits c) ∧
    ∀ n ∈ g.nodes, n.ports =
      match g.catalog.find? n.behavior with
      | some b => (Instance.decode b n.data).value.ports
      | none => [] := by
  have hg := h.wellFormed
  constructor
  · intro c hc
    obtain ⟨hne, p, q, hp, hq, hfeeds⟩ := (g.accepts_iff _ _).1 (hg.valid c hc)
    obtain ⟨s, hs, hsp⟩ := (g.port?_eq_some_iff _ _).1 hp
    obtain ⟨t, ht, htq⟩ := (g.port?_eq_some_iff _ _).1 hq
    refine ⟨s, t, p, q, hs, ht, hne, hsp, htq, ?_, hfeeds.counterpart, ?_⟩
    · have hsource := hfeeds.isSource
      cases hk : p.kind <;> simp [hk, PortKind.isSource] at hsource ⊢
    · intro a b ha hb
      have hcomp := hfeeds.compatible
      simpa [Port.typeCompatible, ha, hb] using hcomp
  · intro n hn
    rw [hg.derived n hn]
    unfold derivedPorts
    cases g.catalog.find? n.behavior <;> rfl

/-! ### Connections apart -/

/-- Ids that ascend tell connections apart. -/
theorem Ordered.ne_of_ids {g : Graph} (h : g.Ordered) :
    g.connections.Pairwise fun c d => c ≠ d ∧ c.id ≠ d.id := by
  refine h.connections_ascending.imp fun {c d} hlt => ?_
  have hid : c.id ≠ d.id := by
    intro heq
    rw [heq] at hlt
    exact UInt32.lt_irrefl _ hlt
  exact ⟨fun heq => hid (congrArg Connection.id heq), hid⟩

theorem mem_connectionsFrom {g : Graph} {r : PortRef} {c : Connection} :
    c ∈ g.connectionsFrom r ↔ c ∈ g.connections ∧ c.source = r := by
  rw [connectionsFrom, List.mem_filter, decide_eq_true_iff]

theorem mem_connectionsTo {g : Graph} {r : PortRef} {c : Connection} :
    c ∈ g.connectionsTo r ↔ c ∈ g.connections ∧ c.sink = r := by
  rw [connectionsTo, List.mem_filter, decide_eq_true_iff]

/-- An input is the sink of at most one connection, as two would be one and the same. -/
theorem WellFormed.length_connectionsTo {g : Graph} (h : g.WellFormed) {r : PortRef} {p : Port}
    (hp : g.port? r = some p) (hk : p.kind = .input) : (g.connectionsTo r).length ≤ 1 := by
  have hmem : ∀ c ∈ g.connectionsTo r, c ∈ g.connections ∧ c.sink = r :=
    fun c hc => mem_connectionsTo.1 hc
  have hpair : (g.connectionsTo r).Pairwise fun c d => c ≠ d ∧ c.id ≠ d.id :=
    h.toOrdered.ne_of_ids.filter _
  cases hl : g.connectionsTo r with
  | nil => exact Nat.zero_le 1
  | cons c cs =>
      cases cs with
      | nil => exact Nat.le_refl 1
      | cons d ds =>
          rw [hl] at hmem hpair
          obtain ⟨hc, hcr⟩ := hmem c (by simp)
          obtain ⟨hd, hdr⟩ := hmem d (by simp)
          have hsame : c = d := h.producer c hc d hd (hcr.trans hdr.symm) p (hcr.symm ▸ hp) hk
          exact absurd hsame ((List.pairwise_cons.1 hpair).1 d (by simp)).1

/-- **One producer, no duplicates.** In any graph that a run of edits has led to, an input is the
sink of at most one connection, no two connections join the same source to the same sink, and ids
are distinct and ascend in the order of the connections. -/
theorem Reachable.connections_unique {g : Graph} (h : g.Reachable) :
    (∀ r p, g.port? r = some p → p.kind = .input → (g.connectionsTo r).length ≤ 1) ∧
    (g.connections.map fun c => (c.source, c.sink)).Nodup ∧
    (g.connections.map Connection.id).Nodup ∧
    g.connections.Pairwise fun c d => c.id.raw < d.id.raw := by
  have hg := h.wellFormed
  have hapart := hg.toOrdered.ne_of_ids
  refine ⟨fun r p hp hk => hg.length_connectionsTo hp hk, ?_, ?_, hg.connections_ascending⟩
  · refine List.pairwise_map.2 (hapart.imp_of_mem fun {c d} hc hd hne heq => ?_)
    obtain ⟨hs, ht⟩ := Prod.mk.inj heq
    exact hne.1 (hg.distinct c hc d hd hs ht)
  · exact List.pairwise_map.2 (hapart.imp fun hne => hne.2)

end

/-- A shape that is entered from two exits is made an input, which drops both links; it is then
joined to one constant, from its own side, and after that to another. -/
def reshaping : List Edit :=
  [ .addNode Behavior.sequence.id .origin .null
  , .addNode Behavior.shape.id .origin .null
  , .addNode Behavior.constantInt.id .origin .null
  , .addNode Behavior.constantInt.id .origin .null
  , .connect ⟨⟨1⟩, ⟨1⟩⟩ ⟨⟨2⟩, ⟨0⟩⟩
  , .connect ⟨⟨1⟩, ⟨2⟩⟩ ⟨⟨2⟩, ⟨0⟩⟩
  , .setData ⟨2⟩ (.object [("mode", .int 1)])
  , .connect ⟨⟨2⟩, ⟨0⟩⟩ ⟨⟨3⟩, ⟨0⟩⟩
  , .tryConnect ⟨⟨4⟩, ⟨0⟩⟩ ⟨⟨2⟩, ⟨0⟩⟩ ]

/-- The graph that these edits lead to. -/
def reshaped : Graph := reshaping.foldl edit (.empty .full)

theorem reshaped_reachable : reshaped.Reachable := reachable_foldl .full reshaping (by decide)

/-- The second constant has replaced the first as the producer of the reshaped port. -/
theorem Reachable.connections_unique_reshaped :
    reshaped.Reachable ∧ reshaped.port? ⟨⟨2⟩, ⟨0⟩⟩ = some (.input .int "value") ∧
      reshaped.connections = [⟨⟨4⟩, ⟨⟨4⟩, ⟨0⟩⟩, ⟨⟨2⟩, ⟨0⟩⟩⟩] ∧
      (∀ r p, reshaped.port? r = some p → p.kind = .input →
        (reshaped.connectionsTo r).length ≤ 1) ∧
      (reshaped.connections.map fun c => (c.source, c.sink)).Nodup ∧
      (reshaped.connections.map Connection.id).Nodup ∧
      reshaped.connections.Pairwise fun c d => c.id.raw < d.id.raw :=
  ⟨reshaped_reachable, by decide +kernel, by decide +kernel,
    Reachable.connections_unique reshaped_reachable⟩

end Graph

namespace Sample

/-- The edits that the sample graph is built up by. -/
def edits : List Edit :=
  nodes.map (fun n => .addNode n.behavior.id n.position n.data)
    ++ links.map fun l => .connect l.1 l.2

/-- Doing noted edits one after the other is doing the edits. -/
theorem value_foldlM {α β : Type} (f : Graph → α → Noted (β × Graph)) (as : List α) (g : Graph) :
    (as.foldlM (fun g a => do return (← f g a).2) g : Noted Graph).value
      = as.foldl (fun g a => (f g a).value.2) g := by
  induction as generalizing g with
  | nil => rfl
  | cons a as ih =>
      rw [List.foldlM_cons, List.foldl_cons, Noted.value_bind]
      exact ih _

theorem graph_value : graph.value = edits.foldl Graph.edit (.empty .builtin) := by
  rw [graph, edits, Noted.value_bind, value_foldlM, value_foldlM, List.foldl_append, List.foldl_map,
    List.foldl_map]
  rfl

/-- The sample graph is one that an editor can reach. -/
theorem graph_reachable : graph.value.Reachable := by
  rw [graph_value]
  exact Graph.reachable_foldl .builtin edits (by decide)

end Sample

/-- In the sample, this is said of eleven connections, among them one that leaves a branch. -/
theorem Graph.Reachable.connections_fit_sample :
    Sample.graph.value.Reachable ∧ Sample.graph.value.connections.length = 11 ∧
      (∃ c ∈ Sample.graph.value.connections, c.source = Sample.port 8 3) ∧
      (∀ c ∈ Sample.graph.value.connections, Sample.graph.value.Fits c) ∧
      ∀ n ∈ Sample.graph.value.nodes, n.ports =
        match Sample.graph.value.catalog.find? n.behavior with
        | some b => (Instance.decode b n.data).value.ports
        | none => [] := by
  obtain ⟨hfits, hports⟩ := Graph.Reachable.connections_fit Sample.graph_reachable
  refine ⟨Sample.graph_reachable, by decide +kernel, by decide +kernel, hfits, fun n hn => ?_⟩
  refine (hports n hn).trans ?_
  cases Sample.graph.value.catalog.find? n.behavior <;> rfl

end FlowGraph
