import FlowGraph.Proofs.Graph.Edits

/-!
# Well-formed graphs

What holds of every graph that an editor can reach, whatever it asked for on the way. Ids ascend
and stay below the counters, ports are those that behaviours derive from data, and every connection
is one that could be made in the graph as it stands.

## Which edit endangers what

Adding a node takes a fresh id, so no reference changes its meaning. New ports of a node can make
connections of that node invalid and no others, and exactly those are dropped. An input that is new
at its place has no connection that survives, since its former partners were no outputs.

* `Port.Feeds`, `Graph.accepts_iff` — when a link is valid, in terms of the two ports.
* `Graph.WellFormed` — the invariant.
* `Graph.WellFormed.edit`, `Graph.Reachable.wellFormed` — it is kept by each edit, hence by runs.
-/

namespace FlowGraph

/-- A port that may be the source of a link to another. -/
structure Port.Feeds (p q : Port) : Prop where
  isSource : p.kind.isSource = true
  counterpart : q.kind = p.kind.counterpart
  compatible : p.typeCompatible q = true

theorem Graph.checkPorts_ok_iff (p q : Port) : checkPorts p q = .ok () ↔ p.Feeds q := by
  unfold checkPorts
  constructor
  · intro h
    split at h
    · cases h
    · rename_i hk
      split at h
      · cases h
      · rename_i ht
        simp only [Bool.or_eq_true, Bool.not_eq_true', decide_eq_true_eq, not_or, Bool.not_eq_false,
          ne_eq, Decidable.not_not] at hk
        exact ⟨hk.1, hk.2.symm, by simpa using ht⟩
  · intro h
    simp [h.isSource, h.counterpart, h.compatible]

variable [Repertoire]

namespace Graph

/-! ### Ports and links by reference -/

theorem port?_eq_bind (g : Graph) (r : PortRef) :
    g.port? r = (g.node? r.node).bind fun node => node.port? r.port := by
  unfold port? portAt
  cases g.node? r.node with
  | none => rfl
  | some node =>
      simp only [Option.bind_some]
      cases node.port? r.port <;> rfl

theorem port?_eq_some_iff (g : Graph) (r : PortRef) (p : Port) :
    g.port? r = some p ↔ ∃ node, g.node? r.node = some node ∧ node.port? r.port = some p := by
  rw [port?_eq_bind, Option.bind_eq_some_iff]

theorem ports_get (g : Graph) (n : NodeId) (p : PortIndex) :
    (g.ports n)[p.index]? = g.port? ⟨n, p⟩ := by
  rw [port?_eq_bind]
  unfold ports
  cases g.node? n <;> rfl

/-- **When a link is valid**: it joins two nodes, its ends exist, and the source may feed the
sink. -/
theorem accepts_iff (g : Graph) (source sink : PortRef) :
    g.accepts source sink = true ↔
      source.node ≠ sink.node ∧
        ∃ p q, g.port? source = some p ∧ g.port? sink = some q ∧ p.Feeds q := by
  unfold accepts checkLink port?
  by_cases hn : source.node = sink.node
  · simp [hn]
  · simp only [hn, if_false, ne_eq, not_false_eq_true, true_and]
    cases hp : g.portAt source with
    | error e => simp [bind, Except.bind, Except.toOption]
    | ok p =>
        cases hq : g.portAt sink with
        | error e => simp [bind, Except.bind, Except.toOption]
        | ok q =>
            simp only [bind, Except.bind, Except.toOption, Option.some.injEq, exists_and_left,
              exists_eq_left', ← checkPorts_ok_iff]
            cases checkPorts p q <;> simp

/-- Validity of a link hangs on its two ports only. -/
theorem accepts_congr {g h : Graph} {source sink : PortRef}
    (hs : h.port? source = g.port? source) (ht : h.port? sink = g.port? sink) :
    h.accepts source sink = g.accepts source sink := by
  rw [Bool.eq_iff_iff, accepts_iff, accepts_iff, hs, ht]

/-! ### The invariant -/

/-- Ids of nodes and connections: each above all earlier ones and below the counter. -/
structure Ordered (g : Graph) : Prop where
  nodes_ascending : g.nodes.Pairwise fun m n => m.id.raw < n.id.raw
  nodes_positive : ∀ n ∈ g.nodes, 0 < n.id.raw
  nodes_below : ∀ n ∈ g.nodes, n.id.raw < g.nextNodeId
  nextNode_positive : 0 < g.nextNodeId
  connections_ascending : g.connections.Pairwise fun c d => c.id.raw < d.id.raw
  connections_positive : ∀ c ∈ g.connections, 0 < c.id.raw
  connections_below : ∀ c ∈ g.connections, c.id.raw < g.nextConnectionId
  nextConnection_positive : 0 < g.nextConnectionId

/-- Connections: each is valid, no two join the same ports, and an input has one producer. -/
structure Sound (g : Graph) : Prop where
  valid : ∀ c ∈ g.connections, g.accepts c.source c.sink = true
  distinct : ∀ c ∈ g.connections, ∀ d ∈ g.connections,
    c.source = d.source → c.sink = d.sink → c = d
  producer : ∀ c ∈ g.connections, ∀ d ∈ g.connections, c.sink = d.sink →
    ∀ p, g.port? c.sink = some p → p.kind = .input → c = d

/-- What holds of every graph that an editor can reach. -/
structure WellFormed (g : Graph) : Prop extends g.Ordered, g.Sound where
  derived : ∀ n ∈ g.nodes, n.ports = g.derivedPorts n.behavior n.data

/-! ### Consequences -/

theorem node?_eq_some {g : Graph} {n : NodeId} {node : Node} (h : g.node? n = some node) :
    node ∈ g.nodes ∧ node.id = n :=
  ⟨List.mem_of_find?_eq_some h, by simpa using List.find?_some h⟩

/-- Under ascending ids a node is found by its id. -/
theorem Ordered.node?_of_mem {g : Graph} (h : g.Ordered) {node : Node} (hmem : node ∈ g.nodes) :
    g.node? node.id = some node := by
  have hasc := h.nodes_ascending
  unfold node?
  clear h
  generalize g.nodes = nodes at hmem hasc
  induction nodes with
  | nil => cases hmem
  | cons m nodes ih =>
      rw [List.pairwise_cons] at hasc
      rcases List.mem_cons.1 hmem with rfl | hin
      · simp
      · have hne : m.id ≠ node.id := by
          intro heq
          have hlt := hasc.1 node hin
          rw [heq] at hlt
          exact absurd hlt (UInt32.lt_irrefl _)
        rw [List.find?_cons_of_neg (by simpa using hne)]
        exact ih hin hasc.2

/-- Under ascending ids no two connections share one. -/
theorem Ordered.connectionIds_nodup {g : Graph} (h : g.Ordered) :
    (g.connections.map Connection.id).Nodup :=
  List.pairwise_map.2 (h.connections_ascending.imp fun hlt heq => by
    rw [heq] at hlt
    exact UInt32.lt_irrefl _ hlt)

/-- The ends of a connection are ports of nodes. -/
theorem Sound.ends {g : Graph} (h : g.Sound) {c : Connection} (hc : c ∈ g.connections) :
    ∃ p q, g.port? c.source = some p ∧ g.port? c.sink = some q ∧ p.Feeds q :=
  ((g.accepts_iff _ _).1 (h.valid c hc)).2

/-- No connection has an end at a port that does not exist. -/
theorem Sound.ne_of_missing {g : Graph} (h : g.Sound) {c : Connection} (hc : c ∈ g.connections)
    {r : PortRef} (hr : g.port? r = none) : c.source ≠ r ∧ c.sink ≠ r := by
  obtain ⟨p, q, hp, hq, -⟩ := h.ends hc
  constructor
  · rintro rfl
    rw [hr] at hp
    cases hp
  · rintro rfl
    rw [hr] at hq
    cases hq

/-! ### How edits keep it -/

theorem wellFormed_empty (catalog : Catalog) : (empty catalog).WellFormed where
  nodes_ascending := List.Pairwise.nil
  nodes_positive := by simp [empty]
  nodes_below := by simp [empty]
  nextNode_positive := by simp [empty]
  connections_ascending := List.Pairwise.nil
  connections_positive := by simp [empty]
  connections_below := by simp [empty]
  nextConnection_positive := by simp [empty]
  valid := by simp [empty]
  distinct := by simp [empty]
  producer := by simp [empty]
  derived := by simp [empty]

/-- **Dropping connections.** Where fewer connections remain and each of them is still valid, an
input among their sinks having been one before, connections stay sound. -/
theorem Sound.of_sublist {g h : Graph} (hg : g.Sound)
    (hsub : h.connections.Sublist g.connections)
    (hvalid : ∀ c ∈ h.connections, h.accepts c.source c.sink = true)
    (hinput : ∀ c ∈ h.connections, ∀ q, h.port? c.sink = some q → q.kind = .input →
      ∃ p, g.port? c.sink = some p ∧ p.kind = .input) : h.Sound where
  valid := hvalid
  distinct c hc d hd := hg.distinct c (hsub.subset hc) d (hsub.subset hd)
  producer c hc d hd hsink q hq hk := by
    obtain ⟨p, hp, hpk⟩ := hinput c hc q hq hk
    exact hg.producer c (hsub.subset hc) d (hsub.subset hd) hsink p hp hpk

/-- Where no port that a remaining connection ends at has changed, connections stay sound. -/
theorem Sound.of_sublist_same {g h : Graph} (hg : g.Sound)
    (hsub : h.connections.Sublist g.connections)
    (hport : ∀ c ∈ h.connections, h.port? c.source = g.port? c.source ∧
      h.port? c.sink = g.port? c.sink) : h.Sound := by
  refine hg.of_sublist hsub (fun c hc => ?_) (fun c hc q hq hk => ?_)
  · rw [accepts_congr (hport c hc).1 (hport c hc).2]
    exact hg.valid c (hsub.subset hc)
  · rw [(hport c hc).2] at hq
    exact ⟨q, hq, hk⟩

/-! #### Nodes -/

/-- References to other nodes keep their meaning. -/
theorem port?_congr {g h : Graph} {r : PortRef} (hn : h.node? r.node = g.node? r.node) :
    h.port? r = g.port? r := by
  rw [port?_eq_bind, port?_eq_bind, hn]

/-- A change of a node that keeps its ports keeps the meaning of every reference. -/
theorem port?_updateNode (g : Graph) (n : NodeId) (f : Node → Node)
    (hid : ∀ node, (f node).id = node.id) (hports : ∀ node, (f node).ports = node.ports)
    (r : PortRef) : (g.updateNode n f).port? r = g.port? r := by
  rw [port?_eq_bind, port?_eq_bind, node?_updateNode g n r.node f hid]
  split
  · cases g.node? r.node with
    | none => rfl
    | some node => simp only [Option.map_some, Option.bind_some, Node.port?, hports]
  · rfl

theorem Ordered.updateNode {g : Graph} (h : g.Ordered) (n : NodeId) (f : Node → Node)
    (hid : ∀ node, (f node).id = node.id) : (g.updateNode n f).Ordered := by
  have hsame : ∀ node : Node, (if node.id = n then f node else node).id = node.id := by
    intro node
    split
    · exact hid node
    · rfl
  refine { h with nodes_ascending := ?_, nodes_positive := ?_, nodes_below := ?_ }
  · show (g.nodes.map _).Pairwise _
    rw [List.pairwise_map]
    refine h.nodes_ascending.imp fun {a b} hab => ?_
    rw [hsame a, hsame b]
    exact hab
  · intro m hm
    obtain ⟨node, hmem, rfl⟩ := List.mem_map.1 hm
    rw [hsame node]
    exact h.nodes_positive node hmem
  · intro m hm
    obtain ⟨node, hmem, rfl⟩ := List.mem_map.1 hm
    rw [hsame node]
    exact h.nodes_below node hmem

theorem Ordered.keep {g : Graph} (h : g.Ordered) {cs : List Connection}
    (hsub : cs.Sublist g.connections) : ({ g with connections := cs } : Graph).Ordered :=
  { h with
    connections_ascending := h.connections_ascending.sublist hsub
    connections_positive := fun c hc => h.connections_positive c (hsub.subset hc)
    connections_below := fun c hc => h.connections_below c (hsub.subset hc) }

/-- A port is found on a node whose id was given out. -/
theorem Ordered.below_of_port {g : Graph} (h : g.Ordered) {r : PortRef} {p : Port}
    (hp : g.port? r = some p) : r.node.raw < g.nextNodeId := by
  obtain ⟨node, hnode, -⟩ := (g.port?_eq_some_iff r p).1 hp
  obtain ⟨hmem, hid⟩ := node?_eq_some hnode
  rw [← hid]
  exact h.nodes_below node hmem

/-- A new node takes no id over from an old one. -/
theorem node?_grown (g : Graph) (behavior : BehaviorId) (position : Position) (data : Json)
    {n : NodeId} (hn : n.raw < g.nextNodeId) :
    (g.grown behavior position data).node? n = g.node? n := by
  have hne : (⟨g.nextNodeId⟩ : NodeId) ≠ n := by
    intro heq
    rw [← heq] at hn
    exact absurd hn (UInt32.lt_irrefl _)
  simp [grown, node?, List.find?_append, hne]

/-- So references keep their meaning. -/
theorem port?_grown (g : Graph) (behavior : BehaviorId) (position : Position) (data : Json)
    {r : PortRef} (hr : r.node.raw < g.nextNodeId) :
    (g.grown behavior position data).port? r = g.port? r :=
  port?_congr (g.node?_grown behavior position data hr)

theorem Ordered.grown {g : Graph} (h : g.Ordered) (behavior : BehaviorId) (position : Position)
    (data : Json) (hlt : g.nextNodeId < g.nextNodeId + 1) :
    (g.grown behavior position data).Ordered := by
  refine { h with
    nodes_ascending := ?_, nodes_positive := ?_, nodes_below := ?_
    nextNode_positive := UInt32.lt_trans h.nextNode_positive hlt }
  · refine List.pairwise_append.2 ⟨h.nodes_ascending, List.pairwise_singleton _ _, ?_⟩
    intro m hm n hn
    rw [List.mem_singleton.1 hn]
    exact h.nodes_below m hm
  · intro m hm
    rcases List.mem_append.1 hm with hm | hm
    · exact h.nodes_positive m hm
    · rw [List.mem_singleton.1 hm]
      exact h.nextNode_positive
  · intro m hm
    rcases List.mem_append.1 hm with hm | hm
    · exact UInt32.lt_trans (h.nodes_below m hm) hlt
    · rw [List.mem_singleton.1 hm]
      exact hlt

theorem WellFormed.addNode {g : Graph} (h : g.WellFormed) (behavior : BehaviorId)
    (position : Position) (data : Json) (hc : g.nextNodeId ≤ g.nextNodeId + 1) :
    (g.addNode behavior position data).value.2.WellFormed := by
  rw [addNode_value]
  refine { toOrdered := h.toOrdered.grown behavior position data (Counter.lt_next hc)
           toSound := ?_, derived := ?_ }
  · refine h.toSound.of_sublist_same (List.Sublist.refl _) fun c hmem => ?_
    obtain ⟨p, q, hp, hq, -⟩ := h.toSound.ends hmem
    exact ⟨g.port?_grown _ _ _ (h.toOrdered.below_of_port hp),
      g.port?_grown _ _ _ (h.toOrdered.below_of_port hq)⟩
  · intro m hm
    rcases List.mem_append.1 hm with hm | hm
    · exact h.derived m hm
    · rw [List.mem_singleton.1 hm]
      rfl

theorem WellFormed.removeNode {g : Graph} (h : g.WellFormed) (n : NodeId) :
    (g.removeNode n).value.2.WellFormed := by
  cases hn : g.node? n with
  | none =>
      rw [removeNode_missing hn]
      exact h
  | some node =>
      rw [removeNode_value hn]
      have hsub := List.filter_sublist (p := fun m : Node => decide (m.id ≠ n)) (l := g.nodes)
      refine { toOrdered := ?_, toSound := ?_, derived := ?_ }
      · exact { h.toOrdered.keep List.filter_sublist with
          nodes_ascending := h.nodes_ascending.sublist hsub
          nodes_positive := fun m hm => h.nodes_positive m (hsub.subset hm)
          nodes_below := fun m hm => h.nodes_below m (hsub.subset hm) }
      · refine h.toSound.of_sublist_same List.filter_sublist fun c hc => ?_
        have hother : ∀ r : PortRef, r.node ≠ n → ({ g with
            nodes := g.nodes.filter (·.id ≠ n)
            connections := g.connections.filter fun c => !c.touches n } : Graph).port? r
              = g.port? r := by
          intro r hr
          apply port?_congr
          unfold node?
          rw [List.find?_filter]
          congr 1
          funext m
          by_cases hm : m.id = r.node <;> simp [hm, hr]
        have hfree := (List.mem_filter.1 hc).2
        simp only [Connection.touches, Bool.not_eq_true', Bool.or_eq_false_iff,
          beq_eq_false_iff_ne] at hfree
        exact ⟨hother _ hfree.1, hother _ hfree.2⟩
      · exact fun m hm => h.derived m (hsub.subset hm)

theorem WellFormed.setPosition {g : Graph} (h : g.WellFormed) (n : NodeId)
    (position : Position) : (g.setPosition n position).2.WellFormed := by
  unfold Graph.setPosition
  cases g.node? n with
  | none => exact h
  | some _ =>
      have hport := port?_updateNode g n (fun node => { node with position })
        (fun _ => rfl) fun _ => rfl
      refine
        { toOrdered := h.toOrdered.updateNode n _ fun _ => rfl
          toSound := h.toSound.of_sublist_same (List.Sublist.refl _) fun c _ =>
            ⟨hport c.source, hport c.sink⟩
          derived := fun m hm => ?_ }
      obtain ⟨node, hmem, rfl⟩ := List.mem_map.1 hm
      by_cases hid : node.id = n
      · simp only [hid, if_true]
        exact h.derived node hmem
      · simp only [hid, if_false]
        exact h.derived node hmem

/-! #### New ports -/

theorem port?_withPorts_of_ne (g : Graph) (n : NodeId) (ports : List Port) {r : PortRef}
    (hr : r.node ≠ n) : (g.withPorts n ports).port? r = g.port? r := by
  apply port?_congr
  rw [withPorts, node?_updateNode g n r.node (fun node => { node with ports }) fun _ => rfl,
    if_neg hr]

/-- **New ports.** Whatever ports a node gets, dropping the connections of the node that do not fit
them keeps connections sound. -/
theorem Sound.refit {g : Graph} (h : g.Sound) (n : NodeId) (ports : List Port) :
    (g.refit n ports).Sound := by
  have hport : ∀ r, (g.refit n ports).port? r = (g.withPorts n ports).port? r := fun _ => rfl
  have hvalid : ∀ c ∈ (g.refit n ports).connections,
      (g.refit n ports).accepts c.source c.sink = true := by
    intro c hc
    obtain ⟨hmem, hkeep⟩ := List.mem_filter.1 hc
    rw [accepts_congr (hport _) (hport _)]
    cases ht : c.touches n with
    | true => simpa [isStale, ht] using hkeep
    | false =>
        simp only [Connection.touches, Bool.or_eq_false_iff, beq_eq_false_iff_ne] at ht
        rw [accepts_congr (port?_withPorts_of_ne g n ports ht.1)
          (port?_withPorts_of_ne g n ports ht.2)]
        exact h.valid c hmem
  refine h.of_sublist List.filter_sublist hvalid fun c hc q hq hk => ?_
  obtain ⟨hmem, -⟩ := List.mem_filter.1 hc
  by_cases hsink : c.sink.node = n
  · -- The source lies on another node, so its port is the old one, and its kind fixes the sink's.
    obtain ⟨hne, s, t, hs, ht, hfeeds⟩ := (accepts_iff _ _ _).1 (hvalid c hc)
    obtain ⟨s', t', hs', ht', hfeeds'⟩ := h.ends hmem
    rw [hport, port?_withPorts_of_ne g n ports (fun he => hne (he.trans hsink.symm)), hs'] at hs
    rw [hq] at ht
    cases hs
    cases ht
    exact ⟨t', ht', by rw [hfeeds'.counterpart, ← hfeeds.counterpart, hk]⟩
  · rw [hport, port?_withPorts_of_ne g n ports hsink] at hq
    exact ⟨q, hq, hk⟩

/-- Deriving a node's ports anew needs nothing of the ports that the node had. -/
theorem wellFormed_invalidate {g : Graph} (hord : g.Ordered) (hsound : g.Sound) (n : NodeId)
    (hder : ∀ m ∈ g.nodes, m.id ≠ n → m.ports = g.derivedPorts m.behavior m.data)
    {node : Node} (hn : g.node? n = some node) : (g.invalidate n).value.2.WellFormed := by
  rw [invalidate_value hord.connectionIds_nodup hn]
  have hord' := hord.updateNode n
    (fun m => { m with ports := g.derivedPorts node.behavior node.data }) fun _ => rfl
  refine
    { toOrdered := hord'.keep List.filter_sublist
      toSound := hsound.refit n _
      derived := fun m hm => ?_ }
  obtain ⟨x, hmem, rfl⟩ := List.mem_map.1 hm
  by_cases hid : x.id = n
  · have hx : x = node := by
      have hfound := hord.node?_of_mem hmem
      rw [hid, hn] at hfound
      exact (Option.some.inj hfound).symm
    subst hx
    simp only [hid, if_true]
    rfl
  · simp only [hid, if_false]
    exact hder x hmem hid

theorem WellFormed.invalidate {g : Graph} (h : g.WellFormed) (n : NodeId) :
    (g.invalidate n).value.2.WellFormed := by
  cases hn : g.node? n with
  | none =>
      rw [invalidate_missing hn]
      exact h
  | some node =>
      exact wellFormed_invalidate h.toOrdered h.toSound n (fun m hm _ => h.derived m hm) hn

theorem WellFormed.setData {g : Graph} (h : g.WellFormed) (n : NodeId) (data : Json) :
    (g.setData n data).value.2.WellFormed := by
  unfold Graph.setData
  have hnode := node?_updateNode g n n (fun node => { node with data }) fun _ => rfl
  rw [if_pos rfl] at hnode
  cases hn : g.node? n with
  | none =>
      rw [updateNode_missing hn]
      exact h.invalidate n
  | some node =>
      rw [hn] at hnode
      have hord := h.toOrdered.updateNode n (fun node => { node with data }) fun _ => rfl
      have hport := port?_updateNode g n (fun node => { node with data })
        (fun _ => rfl) fun _ => rfl
      have hsound : (g.updateNode n fun node => { node with data }).Sound :=
        h.toSound.of_sublist_same (List.Sublist.refl _) fun c _ =>
          ⟨hport c.source, hport c.sink⟩
      refine wellFormed_invalidate hord hsound n (fun m hm hid => ?_) hnode
      obtain ⟨x, hmem, rfl⟩ := List.mem_map.1 hm
      by_cases hx : x.id = n
      · simp only [hx, if_true] at hid
        exact absurd rfl hid
      · simp only [hx, if_false]
        exact h.derived x hmem

/-! #### Links -/

theorem makeRoom_sublist (g : Graph) (sink : PortRef) :
    (g.makeRoom sink).Sublist g.connections := by
  unfold makeRoom
  split
  · split
    · exact List.filter_sublist
    · exact List.Sublist.refl _
  · exact List.Sublist.refl _

/-- An input has no producer left once room was made. -/
theorem sink_ne_of_mem_makeRoom {g : Graph} {sink : PortRef} {p : Port}
    (hp : g.port? sink = some p) (hk : p.kind = .input) {c : Connection}
    (hc : c ∈ g.makeRoom sink) : c.sink ≠ sink := by
  simp only [makeRoom, hp, hk, if_true] at hc
  simpa using (List.mem_filter.1 hc).2

theorem Ordered.linked {g : Graph} (h : g.Ordered) (source sink : PortRef)
    (hlt : g.nextConnectionId < g.nextConnectionId + 1) : (g.linked source sink).Ordered := by
  have hsub := g.makeRoom_sublist sink
  refine { h with
    connections_ascending := ?_, connections_positive := ?_, connections_below := ?_
    nextConnection_positive := UInt32.lt_trans h.nextConnection_positive hlt }
  · refine List.pairwise_append.2
      ⟨h.connections_ascending.sublist hsub, List.pairwise_singleton _ _, ?_⟩
    intro c hmem d hd
    rw [List.mem_singleton.1 hd]
    exact h.connections_below c (hsub.subset hmem)
  · intro c hmem
    rcases List.mem_append.1 hmem with hmem | hmem
    · exact h.connections_positive c (hsub.subset hmem)
    · rw [List.mem_singleton.1 hmem]
      exact h.nextConnection_positive
  · intro c hmem
    rcases List.mem_append.1 hmem with hmem | hmem
    · exact UInt32.lt_trans (h.connections_below c (hsub.subset hmem)) hlt
    · rw [List.mem_singleton.1 hmem]
      exact hlt

/-- An input's former producer has made room, so the new link is the only one to it. -/
theorem Sound.linked {g : Graph} (h : g.Sound) {source sink : PortRef}
    (hacc : g.accepts source sink = true) (hnew : g.joined source sink = false) :
    (g.linked source sink).Sound := by
  have hsub := g.makeRoom_sublist sink
  have hport : ∀ r, (g.linked source sink).port? r = g.port? r := fun _ => rfl
  have hunjoined : ∀ c ∈ g.connections, c.source = source → c.sink ≠ sink := by
    intro c hmem hs ht
    have hany := List.any_eq_false.1 hnew c hmem
    simp only [hs, ht, and_self, decide_true, not_true_eq_false] at hany
  refine ⟨fun c hmem => ?_, fun c hmem d hd hs ht => ?_, fun c hmem d hd ht p hp hk => ?_⟩
  · rw [accepts_congr (hport _) (hport _)]
    rcases List.mem_append.1 hmem with hmem | hmem
    · exact h.valid c (hsub.subset hmem)
    · rw [List.mem_singleton.1 hmem]
      exact hacc
  · rcases List.mem_append.1 hmem with hmem | hmem <;> rcases List.mem_append.1 hd with hd | hd
    · exact h.distinct c (hsub.subset hmem) d (hsub.subset hd) hs ht
    · rw [List.mem_singleton.1 hd] at hs ht
      exact absurd ht (hunjoined c (hsub.subset hmem) hs)
    · rw [List.mem_singleton.1 hmem] at hs ht
      exact absurd ht.symm (hunjoined d (hsub.subset hd) hs.symm)
    · rw [List.mem_singleton.1 hmem, List.mem_singleton.1 hd]
  · rw [hport] at hp
    rcases List.mem_append.1 hmem with hmem | hmem <;> rcases List.mem_append.1 hd with hd | hd
    · exact h.producer c (hsub.subset hmem) d (hsub.subset hd) ht p hp hk
    · rw [List.mem_singleton.1 hd] at ht
      rw [ht] at hp
      exact absurd ht (sink_ne_of_mem_makeRoom hp hk hmem)
    · rw [List.mem_singleton.1 hmem] at ht hp
      exact absurd ht.symm (sink_ne_of_mem_makeRoom hp hk hd)
    · rw [List.mem_singleton.1 hmem, List.mem_singleton.1 hd]

theorem WellFormed.connect {g : Graph} (h : g.WellFormed) (a b : PortRef)
    (hc : g.nextConnectionId ≤ (g.connect a b).value.2.nextConnectionId) :
    (g.connect a b).value.2.WellFormed := by
  rcases g.connect_cases a b with ⟨e, he⟩ | ⟨source, sink, -, hacc, hnew, he⟩
  · rw [he]
    exact h
  · rw [he] at hc ⊢
    exact { toOrdered := h.toOrdered.linked source sink (Counter.lt_next hc)
            toSound := h.toSound.linked hacc hnew
            derived := h.derived }

theorem WellFormed.disconnect {g : Graph} (h : g.WellFormed) (c : ConnectionId) :
    (g.disconnect c).2.WellFormed := by
  cases hx : g.connection? c with
  | none =>
      rw [disconnect_missing hx]
      exact h
  | some x =>
      rw [disconnect_value hx]
      have hsub := List.eraseP_sublist (p := fun d : Connection => decide (d.id = c))
        (l := g.connections)
      exact
        { toOrdered := h.toOrdered.keep hsub
          toSound := h.toSound.of_sublist_same hsub fun _ _ => ⟨rfl, rfl⟩
          derived := h.derived }

/-! ### Runs -/

/-- **Step.** An edit that makes no counter start over keeps a graph well formed. -/
theorem WellFormed.edit {g : Graph} (h : g.WellFormed) (e : Edit) (hc : g.Counts e) :
    (g.edit e).WellFormed := by
  cases e with
  | addNode behavior position data =>
      have hnode := hc.1
      simp only [Graph.edit, addNode_value] at hnode
      exact h.addNode behavior position data hnode
  | removeNode n => exact h.removeNode n
  | setPosition n position => exact h.setPosition n position
  | setData n data => exact h.setData n data
  | invalidate n => exact h.invalidate n
  | connect a b => exact h.connect a b hc.2
  | tryConnect a b => exact h.connect a b hc.2
  | disconnect c => exact h.disconnect c

/-- **Run.** Every graph that an editor can reach is well formed. -/
theorem Reachable.wellFormed {g : Graph} (h : g.Reachable) : g.WellFormed := by
  induction h with
  | empty catalog => exact wellFormed_empty catalog
  | edit _ e counts ih => exact ih.edit e counts

end Graph

end FlowGraph
