import FlowGraph.Graph.Interpreter
import FlowGraph.Proofs.Graph.WellFormed
import FlowGraph.Stock.Repertoire
import Mathlib.Logic.Relation

/-!
# What leads where in a graph

Calls go along the connections of a graph and reads go against them. How deep the one or the other
can go is a matter of the graph alone: of the walks that can be made in it, step by step, from the
place of the first request. A graph may be entered at many places and go round in circles at others;
only what can be reached from the place in question counts.

* `Walk`, `Walk.length_le` — walks of a given length; a measure that falls at each step bounds them.
* `Graph.Leads`, `Graph.Draws` — one step of control, and one step of reading.
* `Graph.instance?`, `Graph.IsBuiltin` — what a node is.
* `Graph.WellFormed.enter_of_target`, `Graph.WellFormed.output_of_producer` — what lies at the far
  ends.
-/

namespace FlowGraph

/-! ### Walks -/

/-- From a place, so many steps can be made. -/
inductive Walk {α : Type} (R : α → α → Prop) : Nat → α → Prop
  | stay (a : α) : Walk R 0 a
  | step {a b : α} {k : Nat} (first : R a b) (rest : Walk R k b) : Walk R (k + 1) a

namespace Walk

variable {α : Type} {R : α → α → Prop} {a b : α} {k limit : Nat}

/-- No walk is longer than a measure that falls at each step. -/
theorem length_le {f : α → Nat} (hf : ∀ a b, R a b → f b < f a) (h : Walk R k a) : k ≤ f a := by
  induction h with
  | stay a => exact Nat.zero_le _
  | step first rest ih => exact Nat.lt_of_le_of_lt ih (hf _ _ first)

/-- After a step, walks are shorter. -/
theorem shorter (h : ∀ k, Walk R k a → k ≤ limit + 1) (hab : R a b) :
    ∀ k, Walk R k b → k ≤ limit :=
  fun k hk => Nat.le_of_succ_le_succ (h (k + 1) (.step hab hk))

/-- Where no walk is longer than nothing, no step can be made. -/
theorem not_step (h : ∀ k, Walk R k a → k ≤ 0) : ¬ R a b :=
  fun hab => Nat.not_succ_le_zero 0 (h 1 (.step hab (.stay b)))

end Walk

namespace Graph

section

variable [Repertoire] {g : Graph}

/-! ### Steps -/

/-- Control that leaves a node may arrive at another. -/
def Leads (g : Graph) (n m : NodeId) : Prop :=
  ∃ port, ∃ target ∈ g.targets ⟨n, port⟩, target.node = m

/-- What is read at an input comes from a node, which may read at a port of its own for it. -/
def Draws (g : Graph) (r q : PortRef) : Prop :=
  ∃ producer, g.producer? r = some producer ∧ producer.node = q.node

theorem mem_targets {r target : PortRef} (h : target ∈ g.targets r) :
    ∃ c ∈ g.connections, c.source = r ∧ c.sink = target ∧
      ∃ p, g.port? r = some p ∧ p.kind = .exit := by
  rw [targets] at h
  cases hp : g.port? r with
  | none =>
      rw [hp] at h
      cases h
  | some p =>
      simp only [hp] at h
      split at h
      · next hk =>
        obtain ⟨c, hc, hsink⟩ := List.mem_map.1 h
        obtain ⟨hmem, hsource⟩ := List.mem_filter.1 hc
        exact ⟨c, hmem, of_decide_eq_true hsource, hsink, p, rfl, hk⟩
      · cases h

theorem producer?_eq_some {r producer : PortRef} (h : g.producer? r = some producer) :
    ∃ c ∈ g.connections, c.source = producer ∧ c.sink = r ∧
      ∃ p, g.port? r = some p ∧ p.kind = .input := by
  rw [producer?] at h
  cases hp : g.port? r with
  | none =>
      rw [hp] at h
      cases h
  | some p =>
      simp only [hp] at h
      split at h
      · next hk =>
        obtain ⟨c, hc, hsource⟩ := Option.map_eq_some_iff.1 h
        obtain ⟨hmem, hsink⟩ := List.mem_filter.1 (List.mem_of_head? hc)
        exact ⟨c, hmem, hsource, of_decide_eq_true hsink, p, rfl, hk⟩
      · cases h

/-- An input without connections has no producer. -/
theorem producer?_of_unfed {r : PortRef} (h : g.connectionsTo r = []) : g.producer? r = none := by
  cases hp : g.producer? r with
  | none => rfl
  | some producer =>
      obtain ⟨c, hc, -, hsink, -⟩ := producer?_eq_some hp
      have hmem : c ∈ g.connectionsTo r := List.mem_filter.2 ⟨hc, decide_eq_true hsink⟩
      rw [h] at hmem
      cases hmem

/-! ### Levels -/

/-- Levels of nodes that rise along all connections. -/
def Rises (g : Graph) (level : NodeId → Nat) : Prop :=
  ∀ c ∈ g.connections, level c.source.node < level c.sink.node

instance (g : Graph) (level : NodeId → Nat) : Decidable (g.Rises level) :=
  inferInstanceAs (Decidable (∀ c ∈ g.connections, level c.source.node < level c.sink.node))

/-- No chain of producers is longer than the level where it is read from. -/
theorem Rises.draws_le {level : NodeId → Nat} (h : g.Rises level) {r : PortRef} {k : Nat}
    (hk : Walk g.Draws k r) : k ≤ level r.node := by
  refine hk.length_le (f := fun r => level r.node) fun r q hrq => ?_
  obtain ⟨producer, hproducer, hnode⟩ := hrq
  obtain ⟨c, hc, rfl, rfl, -⟩ := producer?_eq_some hproducer
  exact hnode ▸ h c hc

/-- No chain of control is longer than what its start lies below the top. -/
theorem Rises.leads_le {level : NodeId → Nat} (h : g.Rises level) (top : Nat)
    (htop : ∀ n, level n ≤ top) {n : NodeId} {k : Nat} (hk : Walk g.Leads k n) :
    k ≤ top - level n := by
  refine hk.length_le (f := fun n => top - level n) fun n m hnm => ?_
  obtain ⟨port, target, htarget, rfl⟩ := hnm
  obtain ⟨c, hc, hsource, rfl, -⟩ := mem_targets htarget
  have hrise := h c hc
  rw [hsource] at hrise
  exact Nat.sub_lt_sub_left (Nat.lt_of_lt_of_le hrise (htop _)) hrise

/-! ### Nodes and what they are -/

/-- What the data of a node say that it is; nothing if its behaviour is unknown. -/
def instance? (g : Graph) (n : NodeId) : Option Instance :=
  (g.node? n).bind fun node =>
    (g.catalog.find? node.behavior).map fun b => (Instance.decode b node.data).value

/-- A node is of a behaviour that the catalog knows. -/
theorem instance?_eq_some {n : NodeId} {i : Instance} (h : g.instance? n = some i) :
    ∃ node ∈ g.nodes, node.id = n ∧ g.catalog.find? node.behavior = some i.behavior ∧
      (Instance.decode i.behavior node.data).value = i := by
  obtain ⟨node, hnode, h⟩ := Option.bind_eq_some_iff.1 h
  obtain ⟨b, hb, rfl⟩ := Option.map_eq_some_iff.1 h
  obtain ⟨hmem, hid⟩ := node?_eq_some hnode
  rw [Instance.behavior_decode]
  exact ⟨node, hmem, hid, hb, rfl⟩

theorem WellFormed.instance?_of_mem (h : g.WellFormed) {node : Node} (hn : node ∈ g.nodes)
    {b : Behavior} (hb : g.catalog.find? node.behavior = some b) :
    g.instance? node.id = some (Instance.decode b node.data).value := by
  rw [instance?, h.node?_of_mem hn, Option.bind_some, hb]
  rfl

/-- The ports that a graph shows are those of what its nodes are. -/
theorem WellFormed.port?_eq (h : g.WellFormed) (r : PortRef) :
    g.port? r = (g.instance? r.node).bind fun i => i.ports[r.port.index]? := by
  rw [port?_eq_bind, instance?]
  cases hn : g.node? r.node with
  | none => rfl
  | some node =>
      rw [Option.bind_some, Option.bind_some, Node.port?, h.derived node (node?_eq_some hn).1,
        derivedPorts]
      cases g.catalog.find? node.behavior <;> rfl

theorem WellFormed.instance_of_port (h : g.WellFormed) {r : PortRef} {p : Port}
    (hp : g.port? r = some p) :
    ∃ i, g.instance? r.node = some i ∧ i.ports[r.port.index]? = some p :=
  Option.bind_eq_some_iff.1 ((h.port?_eq r).symm.trans hp)

/-- Control arrives at an enter port. -/
theorem WellFormed.enter_of_target (h : g.WellFormed) {r target : PortRef}
    (ht : target ∈ g.targets r) :
    ∃ i p, g.instance? target.node = some i ∧ i.ports[target.port.index]? = some p ∧
      p.kind = .enter := by
  obtain ⟨c, hc, rfl, rfl, p, hp, hk⟩ := mem_targets ht
  obtain ⟨p', q, hp', hq, hfeeds⟩ := h.toSound.ends hc
  obtain rfl : p = p' := Option.some.inj (hp.symm.trans hp')
  obtain ⟨i, hi, hport⟩ := h.instance_of_port hq
  exact ⟨i, q, hi, hport, by rw [hfeeds.counterpart, hk]; rfl⟩

/-- What is read is produced at an output. -/
theorem WellFormed.output_of_producer (h : g.WellFormed) {r producer : PortRef}
    (hp : g.producer? r = some producer) :
    ∃ i p, g.instance? producer.node = some i ∧ i.ports[producer.port.index]? = some p ∧
      p.kind = .output := by
  obtain ⟨c, hc, rfl, rfl, q, hq, hk⟩ := producer?_eq_some hp
  obtain ⟨p, q', hp, hq', hfeeds⟩ := h.toSound.ends hc
  obtain rfl : q = q' := Option.some.inj (hq.symm.trans hq')
  obtain ⟨i, hi, hport⟩ := h.instance_of_port hp
  refine ⟨i, p, hi, hport, ?_⟩
  rw [PortKind.eq_counterpart hfeeds.counterpart, hk]
  rfl

end

/-! ### Built-in nodes -/

section

variable {g : Graph}

/-- All nodes that can run are of built-in behaviours. -/
def IsBuiltin (g : Graph) : Prop :=
  ∀ n ∈ g.nodes, ∀ k, g.catalog.find? n.behavior = some k → k ∈ Stock.Behavior.builtin

theorem IsBuiltin.behavior_mem (h : g.IsBuiltin) {n : NodeId} {i : Instance}
    (hi : g.instance? n = some i) : i.behavior ∈ Stock.Behavior.builtin := by
  obtain ⟨node, hmem, -, hb, -⟩ := instance?_eq_some hi
  exact h node hmem i.behavior hb

/-- Nodes whose behaviours come from a catalog of built-in ones. -/
theorem isBuiltin_of_catalog (h : g.catalog = .builtin) : g.IsBuiltin := by
  intro n _ k hk
  rw [h] at hk
  exact List.mem_of_find?_eq_some hk

end

end Graph

end FlowGraph
