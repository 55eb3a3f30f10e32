import FlowGraph.Demo.Sample
import FlowGraph.Proofs.Graph.Connections
import FlowGraph.Proofs.Lists
import FlowGraph.Proofs.Program.Plan

/-!
# What the table of a compiled graph says

A lookup in the table of a compiled graph answers the far ends of a port's connections, in the order
in which these were made, and nothing at any other place. Every connection is thus found from both
of its ends, and from each of them once.

* `Graph.Tabulates` — the whole content of a table, in terms of the graph.
* `LinkTable.occurrences` — how often a port is found among the links of another.
* `Graph.Reachable.tabulates` — the table of every reachable graph.
-/

namespace FlowGraph

/-- How often the port `q` of the node at `b` is found among the links of the port `p` of the node
at `a`. -/
def LinkTable.occurrences (t : LinkTable) (a : PackedAddress) (p : PortIndex) (b : PackedAddress)
    (q : PortIndex) : Nat :=
  (t.links a p).countP fun e => e.address = b ∧ e.port = q

namespace Graph

/-- Whether a connection joins two ports, in one direction or the other. -/
def joins (c : Connection) (r s : PortRef) : Bool := decide (c.other? r = some s)

theorem joins_comm {c : Connection} (hne : c.source ≠ c.sink) (r s : PortRef) :
    joins c r s = joins c s r := by
  have hof : ∀ {x y : PortRef}, c.other? x = some y → c.other? y = some x := by
    intro x y hxy
    rcases other?_cases hxy with ⟨rfl, rfl⟩ | ⟨rfl, rfl⟩
    · simp [Connection.other?, hne]
    · simp [Connection.other?]
  show decide (c.other? r = some s) = decide (c.other? s = some r)
  rw [decide_eq_decide]
  exact ⟨hof, hof⟩

section

variable [Repertoire]

/-- A port of a node of a program, as the program's table names it. -/
def entryIn? (g : Graph) (P : Program) (far : PortRef) : Option LinkEntry :=
  g.linkTo? P.placement far

/-- The whole content of a program's table, in terms of the graph. -/
structure Tabulates (g : Graph) (P : Program) : Prop where
  /-- The links of a port are the far ends of its connections, in the order of these. -/
  links : ∀ n a p, P.addressOf? n = some a →
    (P.links.links a p).map some = (g.partners ⟨n, p⟩).map (g.entryIn? P)
  unconnected : ∀ n a p, P.addressOf? n = some a →
    (∀ c ∈ g.connections, c.source ≠ ⟨n, p⟩ ∧ c.sink ≠ ⟨n, p⟩) → P.links.getLinks a p = .empty
  strangers : ∀ a p, a ∉ P.order → P.links.getLinks a p = .empty
  /-- A header carries the kind of its port. -/
  kinds : ∀ x ∈ P.links.headers, ∃ n port, P.addressOf? n = some x.2.address ∧
    g.port? ⟨n, x.2.port⟩ = some port ∧ x.2.kind = port.kind
  symmetric : ∀ a p b q, P.links.occurrences a p b q = P.links.occurrences b q a p
  once : ∀ a p b q, P.links.occurrences a p b q ≤ 1

/-! ### Lookups -/

variable {g : Graph} {config : PoolConfig} {P : Program}

/-- The only block of a port is the one that the port is planned with. -/
theorem Compiles.plan_of_header (hP : g.Compiles config P) (h : g.WellFormed) {b : LinkBlock}
    (hb : b ∈ (g.linkedPlans (g.placed config).1).map PortPlan.block) {n : NodeId}
    (hn : P.addressOf? n = some b.header.address) :
    ∃ port, g.port? ⟨n, b.header.port⟩ = some port ∧
      b = (g.portPlan (g.placed config).1 b.header.address ⟨n, b.header.port⟩ port).block ∧
      (g.portPlan (g.placed config).1 b.header.address ⟨n, b.header.port⟩ port).targets ≠ [] := by
  have hproper := h.toOrdered.proper config
  obtain ⟨q, hq, rfl⟩ := List.mem_map.1 hb
  obtain ⟨r, a, port, ha, hport, rfl, hne⟩ := (h.mem_linkedPlans hproper).1 hq
  rw [hP.addressOf?_eq] at hn
  obtain rfl : r.node = n := hproper.injective ha hn
  exact ⟨port, hport, rfl, hne⟩

/-- A port without far ends has no entries in the table. -/
theorem Compiles.getLinks_of_no_targets (hP : g.Compiles config P) (h : g.WellFormed) {n : NodeId}
    {a : PackedAddress} (hn : P.addressOf? n = some a) {p : PortIndex}
    (hnone : g.partners ⟨n, p⟩ = []) : P.links.getLinks a p = .empty := by
  refine hP.links.getLinks_of_missing fun b hb => Bool.eq_false_iff.2 fun hfor => ?_
  obtain ⟨rfl, rfl⟩ := isFor_iff.1 hfor
  obtain ⟨port, hport, -, hne⟩ := hP.plan_of_header h hb hn
  have htargets := h.targets_portPlan config b.header.address hport
  rw [hnone, List.map_nil, List.map_eq_nil_iff] at htargets
  exact hne htargets

/-- **Lookup in the table of a graph**: the far ends of a port, in the order of the connections. -/
theorem Compiles.links_eq (hP : g.Compiles config P) (h : g.WellFormed) {n : NodeId}
    {a : PackedAddress} (hn : P.addressOf? n = some a) (p : PortIndex) :
    (P.links.links a p).map some = (g.partners ⟨n, p⟩).map (g.entryIn? P) := by
  have hentry : g.entryIn? P = g.linkTo? (g.placed config).1 := by
    funext far
    rw [entryIn?, hP.placement]
  rw [hentry]
  by_cases hnone : g.partners ⟨n, p⟩ = []
  · have hempty := hP.getLinks_of_no_targets h hn hnone
    rw [LinkTable.links_eq_slice, hempty, hnone]
    rfl
  · cases hport : g.port? ⟨n, p⟩ with
    | none => exact absurd (h.toSound.partners_of_missing hport) hnone
    | some port =>
        have htargets := h.targets_portPlan config a hport
        have hplan : g.portPlan (g.placed config).1 a ⟨n, p⟩ port
            ∈ g.linkedPlans (g.placed config).1 := by
          refine (h.mem_linkedPlans (h.toOrdered.proper config)).2
            ⟨⟨n, p⟩, a, port, (hP.addressOf?_eq n).symm.trans hn, hport, rfl, fun hnil => ?_⟩
          rw [hnil, List.map_nil, eq_comm, List.map_eq_nil_iff] at htargets
          exact hnone htargets
        have hlinks := hP.links.links_of_block (List.mem_map.2 ⟨_, hplan, rfl⟩)
        rw [PortPlan.block_entries] at hlinks
        rw [← htargets]
        exact congrArg (List.map some) hlinks

theorem Compiles.getLinks_of_stranger (hP : g.Compiles config P) (h : g.WellFormed)
    {a : PackedAddress} (ha : a ∉ P.order) (p : PortIndex) : P.links.getLinks a p = .empty := by
  refine hP.links.getLinks_of_missing fun b hb => Bool.eq_false_iff.2 fun hfor => ?_
  obtain ⟨rfl, rfl⟩ := isFor_iff.1 hfor
  obtain ⟨q, hq, rfl⟩ := List.mem_map.1 hb
  obtain ⟨r, a, port, hr, -, rfl, -⟩ := (h.mem_linkedPlans (h.toOrdered.proper config)).1 hq
  rw [hP.order] at ha
  exact ha (Placement.mem_addresses_of_find? hr)

theorem Compiles.exists_of_mem_order (hP : g.Compiles config P) (h : g.WellFormed)
    {a : PackedAddress} (ha : a ∈ P.order) : ∃ n, P.addressOf? n = some a := by
  rw [hP.order] at ha
  obtain ⟨n, hn⟩ := (h.toOrdered.proper config).exists_of_mem ha
  exact ⟨n, (hP.addressOf?_eq n).trans hn⟩

/-! ### Symmetry -/

/-- Between nodes of a program, a port is found among another's links once for each connection that
joins the two. -/
theorem Compiles.occurrences_eq (hP : g.Compiles config P) (h : g.WellFormed) {m n : NodeId}
    {a b : PackedAddress} (hn : P.addressOf? n = some a) (hm : P.addressOf? m = some b)
    (p q : PortIndex) : P.links.occurrences a p b q
      = g.connections.countP fun c => joins c ⟨n, p⟩ ⟨m, q⟩ := by
  rw [LinkTable.occurrences, countP_map_some _ (hP.links_eq h hn p), List.countP_map, partners,
    List.countP_filterMap]
  refine List.countP_congr fun c hc => ?_
  cases hfar : c.other? ⟨n, p⟩ with
  | none => simp [joins, hfar]
  | some far =>
      -- The far end lies on a placed node, whose address tells it from all others.
      obtain ⟨s, t, hs, ht, -⟩ := h.toSound.ends hc
      obtain ⟨x, hx⟩ : ∃ x, g.port? far = some x := by
        rcases other?_cases hfar with ⟨-, rfl⟩ | ⟨-, rfl⟩
        · exact ⟨t, ht⟩
        · exact ⟨s, hs⟩
      obtain ⟨e, he⟩ := h.find?_placed config hx
      have hentry : g.entryIn? P far = some ⟨e, far.port, x.kind⟩ := by
        rw [entryIn?, hP.placement]
        exact linkTo?_eq_some he hx
      have hnode : e = b ↔ far.node = m := by
        rw [hP.addressOf?_eq] at hm
        constructor
        · rintro rfl
          exact (h.toOrdered.proper config).injective he hm
        · rintro rfl
          exact Option.some.inj (he.symm.trans hm)
      obtain ⟨node, port⟩ := far
      simp only [Option.map_some, Option.getD_some, Option.any_some, Function.comp, hentry, joins,
        hfar, decide_eq_true_eq, hnode, Option.some.injEq, PortRef.mk.injEq]

/-- No two connections join the same two ports. -/
theorem Sound.countP_joins_le_one (h : g.Sound) (hord : g.Ordered) (r s : PortRef) :
    g.connections.countP (fun c => joins c r s) ≤ 1 := by
  rw [List.countP_eq_length_filter]
  refine length_filter_le_one ?_
  refine List.Pairwise.imp_of_mem (fun {c d} hc hd hlt hboth => ?_) hord.connections_ascending
  have hsame : c = d := by
    rcases other?_cases (of_decide_eq_true hboth.1) with ⟨hcs, hct⟩ | ⟨hct, hcs⟩ <;>
      rcases other?_cases (of_decide_eq_true hboth.2) with ⟨hds, hdt⟩ | ⟨hdt, hds⟩
    · exact h.distinct c hc d hd (hcs.trans hds.symm) (hct.trans hdt.symm)
    · exact absurd (hcs.trans hdt.symm) (h.source_ne_sink hc hd)
    · exact absurd (hds.trans hct.symm) (h.source_ne_sink hd hc)
    · exact h.distinct c hc d hd (hcs.trans hds.symm) (hct.trans hdt.symm)
  rw [hsame] at hlt
  exact UInt32.lt_irrefl _ hlt

/-- An address that is no node's is not found among any links, and has none. -/
theorem Compiles.occurrences_of_stranger (hP : g.Compiles config P) (h : g.WellFormed)
    {b : PackedAddress} (hb : b ∉ P.order) (a : PackedAddress) (p q : PortIndex) :
    P.links.occurrences a p b q = 0 ∧ P.links.occurrences b q a p = 0 := by
  have hnil : ∀ {x : PackedAddress} (y : PortIndex), x ∉ P.order → P.links.links x y = [] := by
    intro x y hx
    rw [LinkTable.links_eq_slice, hP.getLinks_of_stranger h hx]
    rfl
  constructor
  · by_cases ha : a ∈ P.order
    · obtain ⟨n, hn⟩ := hP.exists_of_mem_order h ha
      refine List.countP_eq_zero.2 fun e he hfound => ?_
      have hmem : some e ∈ (g.partners ⟨n, p⟩).map (g.entryIn? P) := by
        rw [← hP.links_eq h hn p]
        exact List.mem_map.2 ⟨e, he, rfl⟩
      obtain ⟨far, -, hfar⟩ := List.mem_map.1 hmem
      obtain ⟨x, hx, hfar⟩ := Option.bind_eq_some_iff.1 hfar
      obtain ⟨y, -, hfar⟩ := Option.bind_eq_some_iff.1 hfar
      cases hfar
      obtain ⟨rfl, -⟩ := of_decide_eq_true hfound
      rw [hP.placement] at hx
      rw [hP.order] at hb
      exact hb (Placement.mem_addresses_of_find? hx)
    · rw [LinkTable.occurrences, hnil p ha]
      rfl
  · rw [LinkTable.occurrences, hnil q hb]
    rfl

theorem Compiles.occurrences_comm (hP : g.Compiles config P) (h : g.WellFormed)
    (a : PackedAddress) (p : PortIndex) (b : PackedAddress) (q : PortIndex) :
    P.links.occurrences a p b q = P.links.occurrences b q a p := by
  by_cases ha : a ∈ P.order
  · by_cases hb : b ∈ P.order
    · obtain ⟨n, hn⟩ := hP.exists_of_mem_order h ha
      obtain ⟨m, hm⟩ := hP.exists_of_mem_order h hb
      rw [hP.occurrences_eq h hn hm, hP.occurrences_eq h hm hn]
      refine List.countP_congr fun c hc => ?_
      rw [joins_comm (h.toSound.source_ne_sink hc hc)]
    · have hzero := hP.occurrences_of_stranger h hb a p q
      rw [hzero.1, hzero.2]
  · have hzero := hP.occurrences_of_stranger h ha b q p
    rw [hzero.1, hzero.2]

theorem Compiles.occurrences_le_one (hP : g.Compiles config P) (h : g.WellFormed)
    (a : PackedAddress) (p : PortIndex) (b : PackedAddress) (q : PortIndex) :
    P.links.occurrences a p b q ≤ 1 := by
  by_cases ha : a ∈ P.order
  · by_cases hb : b ∈ P.order
    · obtain ⟨n, hn⟩ := hP.exists_of_mem_order h ha
      obtain ⟨m, hm⟩ := hP.exists_of_mem_order h hb
      rw [hP.occurrences_eq h hn hm]
      exact h.toSound.countP_joins_le_one h.toOrdered _ _
    · rw [(hP.occurrences_of_stranger h hb a p q).1]
      exact Nat.zero_le 1
  · rw [(hP.occurrences_of_stranger h ha b q p).2]
    exact Nat.zero_le 1

/-! ### The whole table -/

/-- **The content of the table.** Whatever edits led to a graph, the table of its program holds the
graph's connections, each of them at both of its ends, and nothing else. -/
theorem Reachable.tabulates {g : Graph} (hg : g.Reachable) (config : PoolConfig) :
    g.Tabulates (g.compile config).value := by
  have h := hg.wellFormed
  have hP := h.compiles config
  refine
    { links := fun n a p hn => hP.links_eq h hn p
      unconnected := fun n a p hn hfree => hP.getLinks_of_no_targets h hn ?_
      strangers := fun a p ha => hP.getLinks_of_stranger h ha p
      kinds := fun x hx => ?_
      symmetric := hP.occurrences_comm h
      once := hP.occurrences_le_one h }
  · refine List.eq_nil_iff_forall_not_mem.2 fun far hfar => ?_
    obtain ⟨c, hc, hother⟩ := mem_partners.1 hfar
    rcases other?_cases hother with ⟨hs, -⟩ | ⟨ht, -⟩
    · exact (hfree c hc).1 hs
    · exact (hfree c hc).2 ht
  · obtain ⟨pre, b, post, hsplit, rfl⟩ := hP.links.block_of_header hx
    have hb : b ∈ (g.linkedPlans (g.placed config).1).map PortPlan.block := by
      rw [hsplit]
      simp
    obtain ⟨q, hq, rfl⟩ := List.mem_map.1 hb
    obtain ⟨r, a, port, ha, hport, rfl, -⟩ := (h.mem_linkedPlans (h.toOrdered.proper config)).1 hq
    exact ⟨r.node, port, (hP.addressOf?_eq r.node).trans ha, hport, rfl⟩

end

/-- In the sample, the counter's count goes to two readers, in the order in which they were
joined. -/
theorem Reachable.tabulates_sample :
    Sample.graph.value.Reachable ∧
      Sample.graph.value.Tabulates (Sample.graph.value.compile .standard).value ∧
      Sample.graph.value.partners (Sample.port 3 2) = [Sample.port 4 0, Sample.port 7 0] :=
  ⟨Sample.graph_reachable, Reachable.tabulates Sample.graph_reachable .standard,
    by decide +kernel⟩

end Graph

end FlowGraph
