import FlowGraph.Proofs.Link.Sealing
import FlowGraph.Proofs.Program.Compiling
import Mathlib.Algebra.BigOperators.Group.List.Lemmas
import Mathlib.Data.Finset.Card

/-!
# What the statistics of a program count

The compiler counts while it plans, port by port, and knows neither the connections of the graph as
a whole nor the table that is laid down afterwards. Its counts are those of both. Every connection
is met at its source and at its sink and nowhere else, so the links are the ends of the connections;
and a walk over the headers of the table meets one header for each port with links.

* `Graph.ends`, `Graph.touched` — the ends of connections, and the ports that have any.
* `Graph.WellFormed.linkedPorts_perm` — the ports planned with links are those that have any.
* `Graph.WellFormed.sum_targets` — links counted at ports are ends counted at connections.
* `Graph.Accounts` — statistics that are exact.
* `Graph.Reachable.statistics_exact` — so they are for every graph that edits lead to.
-/

namespace FlowGraph

open LinkTableBuilder (headerCount_flatten linkCount_flatten)

namespace Graph

/-! ### Ends of connections -/

/-- A port that no connection joins to itself is met by each connection as often as it is an end of
the connection. -/
theorem length_filterMap_other? {cs : List Connection} (h : ∀ c ∈ cs, c.source ≠ c.sink)
    (r : PortRef) : (cs.filterMap fun c => c.other? r).length
      = (cs.map (·.source)).count r + (cs.map (·.sink)).count r := by
  induction cs with
  | nil => rfl
  | cons c cs ih =>
      have hne := h c (by simp)
      have hrest := ih fun d hd => h d (by simp [hd])
      rw [List.map_cons, List.map_cons, List.count_cons, List.count_cons]
      by_cases hs : c.source = r
      · have ht : c.sink ≠ r := fun heq => hne (hs.trans heq.symm)
        rw [List.filterMap_cons_some (b := c.sink) (by simp [Connection.other?, hs]),
          List.length_cons, hrest]
        simp only [hs, ht, beq_iff_eq, beq_self_eq_true, if_true, if_false]
        omega
      · by_cases ht : c.sink = r
        · rw [List.filterMap_cons_some (b := c.source) (by simp [Connection.other?, hs, ht]),
            List.length_cons, hrest]
          simp only [hs, ht, beq_iff_eq, beq_self_eq_true, if_true, if_false]
          omega
        · rw [List.filterMap_cons_none (by simp [Connection.other?, hs, ht]), hrest]
          simp only [hs, ht, beq_iff_eq, if_false]
          omega

section

variable [Repertoire]

/-- The ends of all connections. A port comes as often as connections end at it. -/
def ends (g : Graph) : List PortRef :=
  g.connections.map (·.source) ++ g.connections.map (·.sink)

/-- The ports at which a connection ends. -/
def touched (g : Graph) : Finset PortRef := g.ends.toFinset

/-- Every connection has two ends. -/
theorem length_ends (g : Graph) : g.ends.length = 2 * g.connections.length := by
  rw [ends, List.length_append, List.length_map, List.length_map]
  omega

/-- A port has as many far ends as connections end at it. -/
theorem Sound.length_partners {g : Graph} (h : g.Sound) (r : PortRef) :
    (g.partners r).length = g.ends.count r := by
  rw [partners, length_filterMap_other? fun c hc => h.source_ne_sink hc hc, Graph.ends,
    List.count_append]

/-! ### Plans -/

section

variable {g : Graph} (h : g.WellFormed) (config : PoolConfig)
include h

/-- A port is planned with a link for each connection that ends at it. -/
theorem WellFormed.length_targets_eq (a : PackedAddress) {r : PortRef} {p : Port}
    (hp : g.port? r = some p) :
    (g.portPlan (g.placed config).1 a r p).targets.length = g.ends.count r := by
  have htargets := congrArg List.length (h.targets_portPlan config a hp)
  rw [List.length_map, List.length_map, h.toSound.length_partners] at htargets
  exact htargets

/-- Every far end of every port is resolved. -/
theorem WellFormed.unresolved_eq_nil {q : PortPlan} (hq : q ∈ g.plan (g.placed config).1) :
    q.unresolved = [] := by
  obtain ⟨⟨n, a⟩, -, hq⟩ := List.mem_flatMap.1 hq
  obtain ⟨port, p, hp, rfl⟩ := h.mem_nodePlan.1 hq
  have hsplit := length_portPlan g (g.placed config).1 a ⟨n, port⟩ p
  rw [h.length_targets_eq config a hp, h.toSound.farEnds_eq hp, h.toSound.length_partners] at hsplit
  exact List.eq_nil_of_length_eq_zero (by omega)

/-- The ports that are planned with links, one after the other. -/
theorem WellFormed.mem_linkedPorts {r : PortRef} :
    r ∈ (g.linkedPlans (g.placed config).1).map PortPlan.near ↔ r ∈ g.ends := by
  have hproper := h.toOrdered.proper config
  rw [List.mem_map, ← List.count_pos_iff]
  constructor
  · rintro ⟨q, hq, rfl⟩
    obtain ⟨r, a, p, -, hp, rfl, hne⟩ := (h.mem_linkedPlans hproper).1 hq
    have hcount := h.length_targets_eq config a hp
    have hpos := List.length_pos_iff.2 hne
    show 0 < g.ends.count r
    omega
  · intro hcount
    have hpartners : g.partners r ≠ [] := by
      rw [← List.length_pos_iff, h.toSound.length_partners]
      exact hcount
    obtain ⟨p, hp⟩ : ∃ p, g.port? r = some p :=
      Option.ne_none_iff_exists'.1 fun hnone => hpartners (h.toSound.partners_of_missing hnone)
    obtain ⟨a, ha⟩ := h.find?_placed config hp
    have htargets : (g.portPlan (g.placed config).1 a r p).targets ≠ [] := by
      rw [← List.length_pos_iff, h.length_targets_eq config a hp]
      exact hcount
    exact ⟨_, (h.mem_linkedPlans hproper).2 ⟨r, a, p, ha, hp, rfl, htargets⟩, rfl⟩

/-- No port is planned twice: ports of one node ascend, and no node is placed twice. -/
theorem WellFormed.nodup_linkedPorts :
    ((g.linkedPlans (g.placed config).1).map PortPlan.near).Nodup := by
  rw [linkedPlans, List.map_flatMap, List.nodup_flatMap]
  constructor
  · rintro ⟨n, a⟩ hmem
    refine List.pairwise_map.2 ((h.nodePlans config hmem).ascending.imp fun hlt heq => ?_)
    rw [heq] at hlt
    exact UInt32.lt_irrefl _ hlt
  · have hnodes := List.pairwise_map.1 (h.toOrdered.proper config).nodes
    refine hnodes.imp fun {x y} hne => ?_
    intro r hx hy
    obtain ⟨q, hq, rfl⟩ := List.mem_map.1 hx
    obtain ⟨q', hq', heq⟩ := List.mem_map.1 hy
    obtain ⟨port, p, -, rfl, -⟩ := h.mem_linkedPlansOf.1 hq
    obtain ⟨port', p', -, rfl, -⟩ := h.mem_linkedPlansOf.1 hq'
    exact hne (congrArg PortRef.node heq).symm

/-- **The ports planned with links** are those at which connections end, each of them once. -/
theorem WellFormed.linkedPorts_perm :
    ((g.linkedPlans (g.placed config).1).map PortPlan.near).Perm g.ends.dedup :=
  (List.perm_ext_iff_of_nodup (h.nodup_linkedPorts config) (List.nodup_dedup _)).2 fun _ =>
    (h.mem_linkedPorts config).trans List.mem_dedup.symm

theorem WellFormed.length_linkedPlans :
    (g.linkedPlans (g.placed config).1).length = g.touched.card := by
  have hlength := (h.linkedPorts_perm config).length_eq
  rw [List.length_map] at hlength
  rw [hlength, touched, List.card_toFinset]

/-- **Counting twice.** Links counted port by port are ends counted connection by connection. -/
theorem WellFormed.sum_targets :
    ((g.linkedPlans (g.placed config).1).map (·.targets.length)).sum = 2 * g.connections.length :=
  calc ((g.linkedPlans (g.placed config).1).map (·.targets.length)).sum
      = (((g.linkedPlans (g.placed config).1).map PortPlan.near).map (g.ends.count ·)).sum := by
        rw [List.map_map]
        refine congrArg List.sum (List.map_congr_left fun q hq => ?_)
        obtain ⟨r, a, p, -, hp, rfl, -⟩ :=
          (h.mem_linkedPlans (h.toOrdered.proper config)).1 hq
        exact h.length_targets_eq config a hp
    _ = (g.ends.dedup.map (g.ends.count ·)).sum := ((h.linkedPorts_perm config).map _).sum_eq
    _ = g.ends.length := List.sum_map_count_dedup_eq_length g.ends
    _ = 2 * g.connections.length := g.length_ends

/-! ### Nodes -/

/-- A node of unknown behaviour has no ports, so no connection touches it. -/
theorem WellFormed.untouched_of_unknown {node : Node} (hn : node ∈ g.nodes)
    (hb : g.catalog.find? node.behavior = none) {c : Connection} (hc : c ∈ g.connections) :
    c.touches node.id = false := by
  have hports : ∀ r : PortRef, r.node = node.id → g.port? r = none := by
    intro r hr
    refine Option.eq_none_iff_forall_ne_some.2 fun p hp => ?_
    obtain ⟨other, hother, hid, b, hknown⟩ := h.known_of_port? hp
    have hfound := h.toOrdered.node?_of_mem hother
    rw [hid, hr, h.toOrdered.node?_of_mem hn] at hfound
    cases hfound
    rw [hb] at hknown
    cases hknown
  rw [Connection.touches, Bool.or_eq_false_iff, beq_eq_false_iff_ne, beq_eq_false_iff_ne]
  exact ⟨fun hs => (h.toSound.ne_of_missing hc (hports _ hs)).1 rfl,
    fun ht => (h.toSound.ne_of_missing hc (hports _ ht)).2 rfl⟩

end

/-- The nodes that are not placed are those of unknown behaviour. -/
theorem Ordered.length_placed_add {g : Graph} (h : g.Ordered) (config : PoolConfig) :
    (g.placed config).1.length
      + g.nodes.countP (fun n => (g.catalog.find? n.behavior).isNone) = g.nodes.length := by
  have hplaced := congrArg List.length (h.places config).nodes_eq
  rw [List.length_map, List.length_map, decoded, List.length_filterMap_eq_countP] at hplaced
  rw [hplaced, List.length_eq_countP_add_countP (fun n => (g.catalog.find? n.behavior).isSome)]
  refine congrArg₂ _ (List.countP_congr fun n _ => ?_) (List.countP_congr fun n _ => ?_)
  · rw [Option.isSome_map]
    rfl
  · cases g.catalog.find? n.behavior <;> simp

/-! ### Statistics -/

/-- The statistics of a program are exact: they say what a count over the graph says, and what a
count over the table says. -/
structure Accounts (g : Graph) (P : Program) : Prop where
  dropped : P.stats.dropped = 0
  /-- Each connection is linked at both of its ends. -/
  links : P.stats.links = 2 * g.connections.length
  linkCount : P.links.linkCount = P.stats.links
  /-- There is one header for each port at which a connection ends. -/
  headers : P.stats.headers = g.touched.card
  headerCount : P.links.headerCount = P.stats.headers
  total : P.stats.total = g.nodeCount
  split : P.stats.materialized + P.stats.skipped = P.stats.total
  materialized : P.stats.materialized = P.order.length
  skipped : P.stats.skipped = g.nodes.countP fun n => (g.catalog.find? n.behavior).isNone
  /-- Skipping a node loses no connection. -/
  untouched : ∀ n ∈ g.nodes, g.catalog.find? n.behavior = none →
    ∀ c ∈ g.connections, c.touches n.id = false

/-- **The statistics are exact.** Whatever edits led to a graph and whatever the settings of the
pools, compiling drops no connection and links each at both of its ends; the numbers of links and
headers are those that a walk over the table finds; and the nodes left out are those of unknown
behaviour, which nothing is connected to. -/
theorem Reachable.statistics_exact {g : Graph} (hg : g.Reachable) (config : PoolConfig) :
    g.Accounts (g.compile config).value := by
  have h := hg.wellFormed
  obtain ⟨b, c, t, hlaid, hholds⟩ := h.laidDown config
  have hlinkable : ∀ q ∈ g.linkedPlans (g.placed config).1, q.Linkable := by
    intro q hq
    obtain ⟨x, hx, hq⟩ := List.mem_flatMap.1 hq
    exact (h.nodePlans config hx).linkable q hq
  have hplaced := h.toOrdered.length_placed_add config
  have hvisited : (g.placed config).1.length + (g.placing config).skipped = g.nodes.length :=
    count_placeNodes g.nodes _
  rw [compile_eq hlaid]
  refine
    { dropped := ?_
      links := h.sum_targets config
      linkCount := ?_
      headers := h.length_linkedPlans config
      headerCount := ?_
      total := rfl
      split := ?_
      materialized := ?_
      skipped := ?_
      untouched := fun n hn hb c hc => h.untouched_of_unknown hn hb hc }
  · show ((g.plan (g.placed config).1).map (·.unresolved.length)).sum = 0
    refine List.sum_eq_zero fun k hk => ?_
    obtain ⟨q, hq, rfl⟩ := List.mem_map.1 hk
    rw [h.unresolved_eq_nil config hq, List.length_nil]
  · show t.linkCount = ((g.linkedPlans (g.placed config).1).map (·.targets.length)).sum
    rw [linkCount_flatten hholds.full hholds.records, List.map_map, List.map_map]
    exact congrArg List.sum (List.map_congr_left fun q hq => (hlinkable q hq).count)
  · show t.headerCount = (g.linkedPlans (g.placed config).1).length
    rw [headerCount_flatten hholds.full hholds.records, List.length_map]
  · exact hvisited
  · show (g.placed config).1.length = t.nodes.length
    rw [hlaid.nodes, Placement.addresses, List.length_map]
  · show (g.placing config).skipped = _
    omega

end

end Graph

/-- The sample with one more node, of a behaviour that nobody knows. -/
def Sample.withStranger : Graph :=
  (Sample.edits ++ [Edit.addNode ⟨"debug.unheard_of"⟩ .origin .null]).foldl Graph.edit
    (.empty .builtin)

/-- Of the sample's nodes and a stranger among them, the stranger alone is left out. -/
theorem Graph.Reachable.statistics_exact_stranger :
    Sample.withStranger.Reachable ∧
      Sample.withStranger.Accounts (Sample.withStranger.compile .standard).value ∧
      (Sample.withStranger.compile .standard).value.stats = ⟨11, 10, 1, 21, 22, 0⟩ := by
  have hg : Sample.withStranger.Reachable := Graph.reachable_foldl .builtin _ (by decide)
  exact ⟨hg, Graph.Reachable.statistics_exact hg .standard, by decide +kernel⟩

end FlowGraph
