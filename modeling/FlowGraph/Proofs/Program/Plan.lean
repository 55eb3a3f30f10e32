import FlowGraph.Proofs.Lists
import FlowGraph.Proofs.Program.Building
import FlowGraph.Proofs.Program.Placement

/-!
# Plans of well-formed graphs

In a well-formed graph both ends of every connection lie on placed nodes and fit each other, so a
port is planned with the far ends of all of its connections, and no far end is left out.

* `Graph.partners` — the far ends of a port's connections, in the order of the connections.
* `Graph.WellFormed.targets_portPlan` — they are what the port is planned with.
* `Graph.mem_linkedPlans_iff` — which ports are planned with links.
* `Graph.WellFormed.compiles` — what the program of a graph is made of.
* `Graph.Compiles.instance_of_node`, `Graph.Compiles.node_of_address` — nodes and their instances.
-/

namespace FlowGraph

/-! ### Far ends -/

/-- The other end of a connection, seen from a port that is one of its ends. -/
def Connection.other? (c : Connection) (r : PortRef) : Option PortRef :=
  if c.source = r then some c.sink else if c.sink = r then some c.source else none

theorem Graph.filterMap_other?_source {cs : List Connection} {r : PortRef}
    (h : ∀ c ∈ cs, c.sink ≠ r) :
    cs.filterMap (fun c => c.other? r) = (cs.filter fun c => c.source = r).map (·.sink) := by
  induction cs with
  | nil => rfl
  | cons c cs ih =>
      have hc := h c (by simp)
      have hrest := ih fun d hd => h d (by simp [hd])
      by_cases hs : c.source = r
      · rw [List.filterMap_cons_some (b := c.sink) (by simp [Connection.other?, hs]),
          List.filter_cons_of_pos (by simpa using hs), List.map_cons, hrest]
      · rw [List.filterMap_cons_none (by simp [Connection.other?, hs, hc]),
          List.filter_cons_of_neg (by simpa using hs), hrest]

theorem Graph.filterMap_other?_sink {cs : List Connection} {r : PortRef}
    (h : ∀ c ∈ cs, c.source ≠ r) :
    cs.filterMap (fun c => c.other? r) = (cs.filter fun c => c.sink = r).map (·.source) := by
  induction cs with
  | nil => rfl
  | cons c cs ih =>
      have hc := h c (by simp)
      have hrest := ih fun d hd => h d (by simp [hd])
      by_cases hs : c.sink = r
      · rw [List.filterMap_cons_some (b := c.source) (by simp [Connection.other?, hs, hc]),
          List.filter_cons_of_pos (by simpa using hs), List.map_cons, hrest]
      · rw [List.filterMap_cons_none (by simp [Connection.other?, hs, hc]),
          List.filter_cons_of_neg (by simpa using hs), hrest]

theorem Graph.other?_cases {c : Connection} {r far : PortRef} (h : c.other? r = some far) :
    (c.source = r ∧ c.sink = far) ∨ (c.sink = r ∧ c.source = far) := by
  unfold Connection.other? at h
  split at h
  · next hs => exact .inl ⟨hs, Option.some.inj h⟩
  · split at h
    · next ht => exact .inr ⟨ht, Option.some.inj h⟩
    · cases h

variable [Repertoire]

/-- The far ends of the connections that have a port as one end, in the order in which these were
made. -/
def Graph.partners (g : Graph) (r : PortRef) : List PortRef :=
  g.connections.filterMap fun c => c.other? r

namespace Graph

/-- A source of connections is no sink of any. -/
theorem Sound.source_ne_sink {g : Graph} (h : g.Sound) {c d : Connection}
    (hc : c ∈ g.connections) (hd : d ∈ g.connections) : c.source ≠ d.sink := by
  obtain ⟨p, _, hp, -, hpf⟩ := h.ends hc
  obtain ⟨s, q, -, hq, hqf⟩ := h.ends hd
  intro heq
  rw [heq, hq] at hp
  cases hp
  have hk := hpf.isSource
  rw [hqf.counterpart, PortKind.isSource_counterpart, hqf.isSource] at hk
  cases hk

/-- The far ends of a port by its kind are those of all of its connections. -/
theorem Sound.farEnds_eq {g : Graph} (h : g.Sound) {r : PortRef} {p : Port}
    (hp : g.port? r = some p) : g.farEnds r p.kind = g.partners r := by
  unfold farEnds partners connectionsFrom connectionsTo
  cases hk : p.kind.isSource with
  | true =>
      rw [if_pos rfl, filterMap_other?_source fun c hc hs => ?_]
      obtain ⟨s, q, -, hq, hf⟩ := h.ends hc
      rw [hs, hp] at hq
      cases hq
      rw [hf.counterpart, PortKind.isSource_counterpart, hf.isSource] at hk
      cases hk
  | false =>
      rw [if_neg Bool.false_ne_true, filterMap_other?_sink fun c hc hs => ?_]
      obtain ⟨s, q, hs', -, hf⟩ := h.ends hc
      rw [hs, hp] at hs'
      cases hs'
      rw [hf.isSource] at hk
      cases hk

theorem mem_partners {g : Graph} {r far : PortRef} :
    far ∈ g.partners r ↔ ∃ c ∈ g.connections, c.other? r = some far := List.mem_filterMap

/-- The far end of a connection is a port of the counterpart kind. -/
theorem Sound.port?_of_mem_partners {g : Graph} (h : g.Sound) {r far : PortRef} {p : Port}
    (hp : g.port? r = some p) (hfar : far ∈ g.partners r) :
    ∃ q, g.port? far = some q ∧ q.kind = p.kind.counterpart := by
  obtain ⟨c, hc, hother⟩ := mem_partners.1 hfar
  obtain ⟨s, t, hs, ht, hf⟩ := h.ends hc
  rcases other?_cases hother with ⟨rfl, rfl⟩ | ⟨rfl, rfl⟩
  · rw [hp] at hs
    cases hs
    exact ⟨t, ht, hf.counterpart⟩
  · rw [hp] at ht
    cases ht
    exact ⟨s, hs, by rw [hf.counterpart, PortKind.counterpart_counterpart]⟩

/-- A port that does not exist has no far ends. -/
theorem Sound.partners_of_missing {g : Graph} (h : g.Sound) {r : PortRef}
    (hr : g.port? r = none) : g.partners r = [] := by
  refine List.eq_nil_iff_forall_not_mem.2 fun far hfar => ?_
  obtain ⟨c, hc, hother⟩ := mem_partners.1 hfar
  have hne := h.ne_of_missing hc hr
  rcases other?_cases hother with ⟨hs, -⟩ | ⟨ht, -⟩
  · exact hne.1 hs
  · exact hne.2 ht

/-! ### Plans of ports -/

/-- A port of a placed node, as an entry of the table names it. -/
def linkTo? (g : Graph) (placement : Placement) (far : PortRef) : Option LinkEntry := do
  let a ← placement.find? far.node
  let p ← g.port? far
  some ⟨a, far.port, p.kind⟩

theorem linkTo?_eq_some {g : Graph} {placement : Placement} {far : PortRef} {a : PackedAddress}
    {p : Port} (ha : placement.find? far.node = some a) (hp : g.port? far = some p) :
    g.linkTo? placement far = some ⟨a, far.port, p.kind⟩ := by
  rw [linkTo?, ha, hp]
  rfl

/-- **No far end is left out.** A port is planned with the far ends of all of its connections. -/
theorem WellFormed.targets_portPlan {g : Graph} (h : g.WellFormed) (config : PoolConfig)
    (a : PackedAddress) {r : PortRef} {p : Port} (hp : g.port? r = some p) :
    (g.portPlan (g.placed config).1 a r p).targets.map some
      = (g.partners r).map (g.linkTo? (g.placed config).1) := by
  rw [portPlan, h.toSound.farEnds_eq hp]
  refine map_some_filterMap fun far hfar => ?_
  obtain ⟨q, hq, hk⟩ := h.toSound.port?_of_mem_partners hp hfar
  obtain ⟨b, hb⟩ := h.find?_placed config hq
  have hentry := linkTo?_eq_some hb hq
  constructor
  · rw [hentry, resolveEnd, hb, hq, ← hk]
    exact if_pos rfl
  · rw [hentry]
    rfl

theorem WellFormed.length_targets {g : Graph} (h : g.WellFormed) (config : PoolConfig)
    (a : PackedAddress) {r : PortRef} {p : Port} (hp : g.port? r = some p) :
    (g.portPlan (g.placed config).1 a r p).targets.length < 2 ^ 32 := by
  have hlength := congrArg List.length (h.targets_portPlan config a hp)
  rw [List.length_map, List.length_map] at hlength
  have hpartners : (g.partners r).length ≤ g.connections.length :=
    List.length_filterMap_le _ _
  have hconnections := h.toOrdered.length_connections
  have hmax := g.nextConnectionId.toNat_lt
  omega

/-! ### Ports in range -/

theorem WellFormed.length_ports {g : Graph} (h : g.WellFormed) (n : NodeId) :
    (g.ports n).length ≤ 2 ^ 32 := by
  unfold Graph.ports
  cases hn : g.node? n with
  | none => exact Nat.zero_le _
  | some node =>
      simp only [h.derived node (node?_eq_some hn).1, derivedPorts]
      cases g.catalog.find? node.behavior with
      | none => exact Nat.zero_le _
      | some b => exact Instance.length_ports _

/-- The numbers of a node's ports fit their word. -/
theorem WellFormed.toNat_index {g : Graph} (h : g.WellFormed) {n : NodeId} {i : Nat}
    (hi : i < (g.ports n).length) : (Nat.toUInt32 i).toNat = i := by
  have hports := h.length_ports n
  rw [Nat.toUInt32, UInt32.toNat_ofNat']
  exact Nat.mod_eq_of_lt (by omega)

/-! ### Plans of nodes -/

/-- The plans of one node that have far ends. -/
def linkedPlansOf (g : Graph) (placement : Placement) (n : NodeId) (a : PackedAddress) :
    List PortPlan := (g.nodePlan placement n a).filter fun p => !p.targets.isEmpty

/-- The plans of a graph that have far ends. -/
def linkedPlans (g : Graph) (placement : Placement) : List PortPlan :=
  placement.flatMap fun x => g.linkedPlansOf placement x.1 x.2

theorem filter_plan (g : Graph) (placement : Placement) :
    (g.plan placement).filter (fun p => !p.targets.isEmpty) = g.linkedPlans placement := by
  rw [plan, List.filter_flatMap]
  rfl

/-- A node is planned port by port. -/
theorem WellFormed.mem_nodePlan {g : Graph} (h : g.WellFormed) {placement : Placement}
    {n : NodeId} {a : PackedAddress} {q : PortPlan} :
    q ∈ g.nodePlan placement n a ↔ ∃ port p, g.port? ⟨n, port⟩ = some p ∧
      q = g.portPlan placement a ⟨n, port⟩ p := by
  rw [nodePlan, List.mem_map]
  constructor
  · intro hq
    obtain ⟨⟨p, i⟩, hp, rfl⟩ := hq
    have hget := List.mem_zipIdx_iff_getElem?.1 hp
    have hi := (List.getElem?_eq_some_iff.1 hget).1
    refine ⟨⟨Nat.toUInt32 i⟩, p, ?_, rfl⟩
    rw [← ports_get, PortIndex.index, h.toNat_index hi]
    exact hget
  · intro hq
    obtain ⟨port, p, hp, rfl⟩ := hq
    rw [← ports_get] at hp
    refine ⟨(p, port.index), List.mem_zipIdx_iff_getElem?.2 hp, ?_⟩
    simp only [PortIndex.index, Nat.toUInt32, UInt32.ofNat_toNat]

theorem WellFormed.mem_linkedPlansOf {g : Graph} (h : g.WellFormed) {placement : Placement}
    {n : NodeId} {a : PackedAddress} {q : PortPlan} :
    q ∈ g.linkedPlansOf placement n a ↔ ∃ port p, g.port? ⟨n, port⟩ = some p ∧
      q = g.portPlan placement a ⟨n, port⟩ p ∧ q.targets ≠ [] := by
  rw [linkedPlansOf, List.mem_filter, h.mem_nodePlan]
  constructor
  · rintro ⟨⟨port, p, hp, rfl⟩, hne⟩
    exact ⟨port, p, hp, rfl, by simpa using hne⟩
  · rintro ⟨port, p, hp, rfl, hne⟩
    exact ⟨⟨port, p, hp, rfl⟩, by simpa using hne⟩

theorem WellFormed.mem_linkedPlans {g : Graph} (h : g.WellFormed) {placement : Placement}
    (hproper : placement.Proper) {q : PortPlan} :
    q ∈ g.linkedPlans placement ↔ ∃ r a p, placement.find? r.node = some a ∧
      g.port? r = some p ∧ q = g.portPlan placement a r p ∧ q.targets ≠ [] := by
  rw [linkedPlans, List.mem_flatMap]
  constructor
  · intro hplans
    obtain ⟨⟨n, a⟩, hmem, hq⟩ := hplans
    obtain ⟨port, p, hp, hplan, hne⟩ := h.mem_linkedPlansOf.1 hq
    exact ⟨⟨n, port⟩, a, p, hproper.find?_of_mem hmem, hp, hplan, hne⟩
  · intro hport
    obtain ⟨r, a, p, ha, hp, hplan, hne⟩ := hport
    exact ⟨(r.node, a), Placement.mem_of_find? ha,
      h.mem_linkedPlansOf.2 ⟨r.port, p, hp, hplan, hne⟩⟩

/-- The plans of one node are such as the builder takes. -/
theorem WellFormed.nodePlans {g : Graph} (h : g.WellFormed) (config : PoolConfig) {n : NodeId}
    {a : PackedAddress} (hmem : (n, a) ∈ (g.placed config).1) :
    LinkTableBuilder.NodePlans a (g.linkedPlansOf (g.placed config).1 n a) where
  linkable q hq := by
    obtain ⟨port, p, hp, rfl, hne⟩ := h.mem_linkedPlansOf.1 hq
    have hproper := h.toOrdered.proper config
    refine ⟨hproper.valid a (List.mem_map.2 ⟨_, hmem, rfl⟩), hne, h.length_targets config a hp,
      fun e he => ?_⟩
    have hsome : some e ∈ (g.partners ⟨n, port⟩).map (g.linkTo? (g.placed config).1) := by
      rw [← h.targets_portPlan config a hp]
      exact List.mem_map.2 ⟨e, he, rfl⟩
    obtain ⟨far, -, hfar⟩ := List.mem_map.1 hsome
    obtain ⟨b, hb, hfar⟩ := Option.bind_eq_some_iff.1 hfar
    obtain ⟨s, -, hfar⟩ := Option.bind_eq_some_iff.1 hfar
    cases hfar
    exact hproper.valid b (Placement.mem_addresses_of_find? hb)
  address q hq := by
    obtain ⟨port, p, -, rfl, -⟩ := h.mem_linkedPlansOf.1 hq
    rfl
  ascending := by
    unfold linkedPlansOf nodePlan
    refine List.Pairwise.filter _ (List.pairwise_map.2 ?_)
    have hrange : ((g.ports n).zipIdx.map Prod.snd).Pairwise fun i j => i < j := by
      rw [List.zipIdx_map_snd]
      exact List.pairwise_lt_range'
    refine List.Pairwise.imp_of_mem (fun {x y} hx hy hlt => ?_) (List.pairwise_map.1 hrange)
    have hxi := (List.getElem?_eq_some_iff.1 (List.mem_zipIdx_iff_getElem?.1 hx)).1
    have hyi := (List.getElem?_eq_some_iff.1 (List.mem_zipIdx_iff_getElem?.1 hy)).1
    rw [UInt32.lt_iff_toNat_lt]
    simp only [portPlan, h.toNat_index hxi, h.toNat_index hyi]
    exact hlt

/-! ### Programs -/

/-- What the program of a graph is made of: the placed instances, and a block for each port with
far ends. -/
structure Compiles (g : Graph) (config : PoolConfig) (P : Program) : Prop where
  placement : P.placement = (g.placed config).1
  pools : P.pools = (g.placed config).2
  order : P.order = (g.placed config).1.addresses
  links : P.links.Holds ((g.linkedPlans (g.placed config).1).map PortPlan.block)

/-- How much of a graph goes into a program that is placed in some way. -/
def tally (g : Graph) (p : Placing) : CompileStats where
  total := g.nodeCount
  materialized := p.placement.length
  skipped := p.skipped
  headers := (g.linkedPlans p.placement).length
  links := ((g.linkedPlans p.placement).map (·.targets.length)).sum
  dropped := ((g.plan p.placement).map (·.unresolved.length)).sum

/-- The program of a graph with a given table. -/
def programWith (g : Graph) (config : PoolConfig) (t : LinkTable) : Program :=
  ⟨t, (g.placed config).2, (g.placed config).1, g.tally (g.placing config)⟩

/-- What compiling a graph gives notice of. -/
def compileNotices (g : Graph) (config : PoolConfig) : List Notice :=
  let stats := g.tally (g.placing config)
  (placeNodes g.nodes (.empty g.catalog config)).notices
    ++ ((g.plan (g.placed config).1).flatMap PortPlan.notices
      ++ [.graphCompiled stats.materialized stats.skipped stats.links stats.headers stats.dropped])

/-- Once the table of the plan is there, nobody is asked for another. -/
theorem compileWith_eq {g : Graph} {config : PoolConfig} {b c : LinkTableBuilder} {t : LinkTable}
    (h : LinkTable.LaidDown (g.placed config).1.addresses (g.linkedPlans (g.placed config).1) b c t)
    {ε : Type} (recover : LinkTableError → List PackedAddress → Noted (Except ε LinkTable)) :
    g.compileWith config recover = ⟨.ok (g.programWith config t), g.compileNotices config⟩ := by
  have hplacing : (placeNodes g.nodes (.empty g.catalog config)).value
      = (g.placing config, (g.placed config).2) := rfl
  have hplaced : (g.placing config).placement = (g.placed config).1 := rfl
  refine Noted.ext ?_ ?_
  · unfold compileWith
    simp only [Noted.value_bind, hplacing, hplaced, filter_plan, h.ofPlan_eq, Noted.value_pure]
    rfl
  · unfold compileWith
    simp only [Noted.notices_bind, hplacing, hplaced, filter_plan, h.ofPlan_eq, Noted.value_pure,
      Noted.notices_pure, List.nil_append, List.append_nil]
    rfl

theorem compile_eq {g : Graph} {config : PoolConfig} {b c : LinkTableBuilder} {t : LinkTable}
    (h : LinkTable.LaidDown (g.placed config).1.addresses (g.linkedPlans (g.placed config).1) b c
      t) :
    g.compile config = ⟨g.programWith config t, g.compileNotices config⟩ := by
  refine Noted.ext ?_ ?_
  · simp only [compile, compileWith_eq h, Noted.value_bind, Noted.value_pure]
  · simp only [compile, compileWith_eq h, Noted.notices_bind, Noted.notices_pure, List.append_nil]

/-- The builder takes what a well-formed graph is planned with. -/
theorem WellFormed.laidDown {g : Graph} (h : g.WellFormed) (config : PoolConfig) :
    ∃ b c t, LinkTable.LaidDown (g.placed config).1.addresses (g.linkedPlans (g.placed config).1)
        b c t ∧
      t.Holds ((g.linkedPlans (g.placed config).1).map PortPlan.block) := by
  have hproper := h.toOrdered.proper config
  exact LinkTable.ofPlan_ok (g.placed config).1 Prod.snd
    (fun x => g.linkedPlansOf (g.placed config).1 x.1 x.2)
    (fun x hx => hproper.valid _ (List.mem_map.2 ⟨x, hx, rfl⟩))
    (fun x hx => h.nodePlans config hx) hproper.addresses

/-- **Compiling never fails.** The builder objects to nothing that a well-formed graph is planned
with, so no link is lost. -/
theorem WellFormed.compiles {g : Graph} (h : g.WellFormed) (config : PoolConfig) :
    g.Compiles config (g.compile config).value := by
  obtain ⟨b, c, t, hlaid, hholds⟩ := h.laidDown config
  rw [compile_eq hlaid]
  exact { placement := rfl, pools := rfl, order := hlaid.nodes, links := hholds }

/-! ### Nodes and their instances -/

namespace Compiles

variable {g : Graph} {config : PoolConfig} {P : Program}

theorem addressOf?_eq (hP : g.Compiles config P) (n : NodeId) :
    P.addressOf? n = (g.placed config).1.find? n := by
  rw [Program.addressOf?, hP.placement]

theorem proper (hP : g.Compiles config P) (h : g.WellFormed) : P.placement.Proper :=
  hP.placement ▸ h.toOrdered.proper config

theorem sound_pools (hP : g.Compiles config P) (h : g.WellFormed) : P.pools.Sound := by
  rw [hP.pools]
  exact h.toOrdered.sound_placed config

/-- Behind the address of a node lies its decoded data. -/
theorem instance_of_node (hP : g.Compiles config P) (h : g.WellFormed) {node : Node}
    (hn : node ∈ g.nodes) {b : Behavior} (hb : g.catalog.find? node.behavior = some b) :
    ∃ a, P.addressOf? node.id = some a ∧
      P.pools.find? a = some (Instance.decode b node.data).value := by
  have hplaces := h.toOrdered.places config
  obtain ⟨a, ha⟩ := hplaces.find?_of_known hn hb
  refine ⟨a, (hP.addressOf?_eq node.id).trans ha, ?_⟩
  rw [hP.pools]
  exact hplaces.find?_decoded h.toOrdered.ids_nodup hn hb ha

/-- Only nodes of known behaviour have addresses. -/
theorem node_of_address (hP : g.Compiles config P) (h : g.WellFormed) {n : NodeId}
    {a : PackedAddress} (ha : P.addressOf? n = some a) :
    ∃ node ∈ g.nodes, ∃ b, node.id = n ∧ g.catalog.find? node.behavior = some b ∧
      P.pools.find? a = some (Instance.decode b node.data).value := by
  have hfound := (h.toOrdered.places config).find?_map n
  rw [hP.addressOf?_eq] at ha
  rw [ha, Option.map_some, ← hP.pools] at hfound
  obtain ⟨i, hi, hia⟩ := Option.map_eq_some_iff.1 hfound.symm
  obtain ⟨node, hnode, hdecoded⟩ := List.mem_filterMap.1 (Table.mem_of_lookup hi)
  obtain ⟨b, hb, hpair⟩ := Option.map_eq_some_iff.1 hdecoded
  obtain ⟨hid, hdata⟩ := Prod.mk.inj hpair
  exact ⟨node, hnode, b, hid, hb, by rw [← hia, ← hdata]⟩

end Compiles

end Graph

end FlowGraph
