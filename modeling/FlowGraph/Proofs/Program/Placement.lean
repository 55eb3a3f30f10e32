import FlowGraph.Graph.Interpreter
import FlowGraph.Program.Plan
import FlowGraph.Proofs.Graph.WellFormed
import FlowGraph.Proofs.Pool.Changes

/-!
# Where nodes are placed

Compiling starts by giving every node of known behaviour an instance. Node and address then
determine each other, and at the address lies the instance that the node's data says.

* `decoded` — the nodes of known behaviour with their instances, in node order.
* `Places` — what placing nodes comes to.
* `places_placeNodes` — the run, by induction on the nodes.
* `Graph.WellFormed.places` — a graph has few enough nodes for all of its counters.
-/

namespace FlowGraph

/-! ### Bindings in a list -/

namespace Table

variable {κ ν : Type} [DecidableEq κ]

theorem lookup_eq_none_iff {k : κ} {bs : List (κ × ν)} :
    lookup k bs = none ↔ k ∉ bs.map Prod.fst := by
  induction bs with
  | nil => simp [lookup]
  | cons b bs ih =>
      rw [lookup, List.map_cons, List.mem_cons, not_or, ← ih]
      by_cases hk : k = b.1 <;> simp [hk]

/-- Bindings that come later are not looked at if they are of other keys. -/
theorem lookup_append_left {k : κ} {bs cs : List (κ × ν)} (h : k ∉ cs.map Prod.fst) :
    lookup k (bs ++ cs) = lookup k bs := by
  induction bs with
  | nil => exact lookup_eq_none_iff.2 h
  | cons b bs ih => rw [List.cons_append, lookup, lookup, ih]

/-- Bindings whose values are looked up elsewhere. -/
theorem lookup_filterMap {μ : Type} {bs : List (κ × μ)}
    (h : (bs.map Prod.fst).Nodup) (f : μ → Option ν) (k : κ) :
    lookup k (bs.filterMap fun b => (f b.2).map (b.1, ·)) = (lookup k bs).bind f := by
  induction bs with
  | nil => rfl
  | cons b bs ih =>
      rw [List.map_cons, List.nodup_cons] at h
      have hrest := ih h.2
      by_cases hk : k = b.1
      · have hnone : lookup k bs = none := lookup_eq_none_iff.2 (hk ▸ h.1)
        rw [hnone] at hrest
        rw [lookup, if_pos hk, Option.bind_some]
        cases hf : f b.2 with
        | none =>
            rw [List.filterMap_cons_none (by rw [hf]; rfl)]
            exact hrest
        | some v =>
            rw [List.filterMap_cons_some (by rw [hf]; rfl)]
            exact if_pos hk
      · rw [lookup, if_neg hk, ← hrest]
        cases hf : f b.2 with
        | none => rw [List.filterMap_cons_none (by rw [hf]; rfl)]
        | some v =>
            rw [List.filterMap_cons_some (by rw [hf]; rfl)]
            exact if_neg hk

theorem find?_foldr_insert (k : κ) (bs : List (κ × ν)) :
    (bs.foldr (fun b (t : Table κ ν) => t.insert b.1 b.2) .empty).find? k = lookup k bs := by
  induction bs with
  | nil => rfl
  | cons b bs ih => rw [List.foldr_cons, find?_insert, lookup, ih]

end Table

/-! ### Placements -/

/-- A placement under which nodes and addresses determine each other. -/
structure Placement.Proper (p : Placement) : Prop where
  nodes : (p.map Prod.fst).Nodup
  addresses : p.addresses.Nodup
  valid : ∀ a ∈ p.addresses, a.isValid = true

namespace Placement

theorem Proper.find?_of_mem {p : Placement} (h : p.Proper) {n : NodeId} {a : PackedAddress}
    (hm : (n, a) ∈ p) : p.find? n = some a := Table.lookup_of_mem h.nodes hm

theorem mem_addresses_of_find? {p : Placement} {n : NodeId} {a : PackedAddress}
    (h : p.find? n = some a) : a ∈ p.addresses := List.mem_map.2 ⟨_, mem_of_find? h, rfl⟩

theorem Proper.exists_of_mem {p : Placement} (h : p.Proper) {a : PackedAddress}
    (ha : a ∈ p.addresses) : ∃ n, p.find? n = some a := by
  obtain ⟨⟨n, b⟩, hm, rfl⟩ := List.mem_map.1 ha
  exact ⟨n, h.find?_of_mem hm⟩

/-- No two nodes share an address. -/
theorem Proper.injective {p : Placement} (h : p.Proper) {m n : NodeId} {a : PackedAddress}
    (hm : p.find? m = some a) (hn : p.find? n = some a) : m = n := by
  have hmem := mem_of_find? hm
  have hnem := mem_of_find? hn
  have haddr := h.addresses
  clear h hm hn
  induction p with
  | nil => cases hmem
  | cons b p ih =>
      rw [Placement.addresses, List.map_cons, List.nodup_cons] at haddr
      have hlast : ∀ x, (x, b.2) ∉ p := fun x hx => haddr.1 (List.mem_map.2 ⟨_, hx, rfl⟩)
      rcases List.mem_cons.1 hmem with hm | hm <;> rcases List.mem_cons.1 hnem with hn | hn
      · exact congrArg Prod.fst (hm.trans hn.symm)
      · exact absurd (congrArg Prod.snd hm ▸ hn) (hlast n)
      · exact absurd (congrArg Prod.snd hn ▸ hm) (hlast m)
      · exact ih hm hn haddr.2

end Placement

variable [Repertoire]

/-! ### Placing nodes -/

/-- The nodes of known behaviour, each with the instance that its data says, in node order. -/
def decoded (c : Catalog) (nodes : List Node) : List (NodeId × Instance) :=
  nodes.filterMap fun n =>
    (c.find? n.behavior).map fun b => (n.id, (Instance.decode b n.data).value)

theorem decoded_cons_unknown {c : Catalog} {node : Node} (h : c.find? node.behavior = none)
    (nodes : List Node) : decoded c (node :: nodes) = decoded c nodes := by
  rw [decoded, List.filterMap_cons_none (by rw [h]; rfl), decoded]

theorem decoded_cons_known {c : Catalog} {node : Node} {b : Behavior}
    (h : c.find? node.behavior = some b) (nodes : List Node) :
    decoded c (node :: nodes)
      = (node.id, (Instance.decode b node.data).value) :: decoded c nodes := by
  rw [decoded, List.filterMap_cons_some (by rw [h]; rfl), decoded]

/-- What placing nodes comes to: a registry with an instance more for each node of known behaviour,
at addresses of their own. -/
structure Places (r : Registry) (nodes : List Node) (p : Placement) (r' : Registry) : Prop where
  instances : p.map (fun x => (x.1, r'.find? x.2))
    = (decoded r.catalog nodes).map fun x => (x.1, some x.2)
  addresses : p.addresses.Nodup
  valid : ∀ a ∈ p.addresses, a.isValid = true
  fresh : ∀ a ∈ p.addresses, r.find? a = none
  others : ∀ a, a ∉ p.addresses → r'.find? a = r.find? a
  wellFormed : r'.WellFormed
  catalog : r'.catalog = r.catalog

theorem placeNode_unknown {node : Node} {r : Registry}
    (h : r.catalog.find? node.behavior = none) : (placeNode node r).value = (none, r) := by
  have hregister : (r.register node.behavior).value = (none, r) := by
    unfold Registry.register
    rw [h]
    rfl
  unfold placeNode
  rw [Noted.value_bind, hregister]
  rfl

/-- **One node.** A node of known behaviour gets an instance, and counters move on by one. -/
theorem placeNode_known {node : Node} {r : Registry} (h : r.WellFormed) {b : Behavior}
    (hb : r.catalog.find? node.behavior = some b) {k : Nat} (hw : r.Within (k + 1) (k + 1))
    (hroom : k + 2 < 2 ^ 32) :
    ∃ a r', (placeNode node r).value = (some a, r') ∧
      r.Extends r' a (Instance.decode b node.data).value ∧ r'.Within (k + 2) (k + 2) := by
  obtain ⟨p, r₁, s, hvalue, hs, rfl, hr₁, hw₁, hcatalog, hfind⟩ :=
    Registry.register_known h hb hw (Nat.succ_le_succ (Nat.zero_le k)) hroom
  obtain ⟨a, r₂, hvalue₂, hext, hw₂⟩ :=
    Registry.materialize_known hr₁ hs hw₁ hroom node.data
  refine ⟨a, r₂, ?_, ?_, hw₂⟩
  · unfold placeNode
    rw [Noted.value_bind, hvalue]
    exact hvalue₂
  · exact
      { valid := hext.valid
        fresh := (hfind a).symm.trans hext.fresh
        find?_eq := fun x => (hext.find?_eq x).trans (by rw [hfind])
        wellFormed := hext.wellFormed
        catalog := hext.catalog.trans hcatalog }

theorem placeNodes_cons (node : Node) (nodes : List Node) (r : Registry) :
    (placeNodes (node :: nodes) r).value
      = ((placeNodes nodes (placeNode node r).value.2).value.1.cons node.id
          (placeNode node r).value.1,
        (placeNodes nodes (placeNode node r).value.2).value.2) := rfl

/-- Every node is placed or skipped. -/
theorem count_placeNodes (nodes : List Node) (r : Registry) :
    (placeNodes nodes r).value.1.placement.length + (placeNodes nodes r).value.1.skipped
      = nodes.length := by
  induction nodes generalizing r with
  | nil => rfl
  | cons node nodes ih => rw [placeNodes_cons, Placing.count_cons, ih, List.length_cons]

/-- A node placed before the others: its address is taken from then on, so no later node gets it. -/
theorem Places.cons {node : Node} {nodes : List Node} {r r₁ r₂ : Registry} {p : Placement}
    {a : PackedAddress} {b : Behavior} (hb : r.catalog.find? node.behavior = some b)
    (hext : r.Extends r₁ a (Instance.decode b node.data).value) (hrest : Places r₁ nodes p r₂) :
    Places r (node :: nodes) ((node.id, a) :: p) r₂ := by
  have ha : a ∉ p.addresses := by
    intro hmem
    have hnone := hrest.fresh a hmem
    rw [hext.find?_eq, if_pos rfl] at hnone
    cases hnone
  have hfound : r₂.find? a = some (Instance.decode b node.data).value := by
    rw [hrest.others a ha, hext.find?_eq, if_pos rfl]
  refine
    { instances := ?_, addresses := List.nodup_cons.2 ⟨ha, hrest.addresses⟩
      valid := fun x hx => ?_, fresh := fun x hx => ?_, others := fun x hx => ?_
      wellFormed := hrest.wellFormed, catalog := hrest.catalog.trans hext.catalog }
  · have htail := hrest.instances
    rw [hext.catalog] at htail
    rw [decoded_cons_known hb, List.map_cons, List.map_cons, ← htail, ← hfound]
  · rcases List.mem_cons.1 hx with rfl | hx
    · exact hext.valid
    · exact hrest.valid x hx
  · rcases List.mem_cons.1 hx with rfl | hxp
    · exact hext.fresh
    · have hnone := hrest.fresh x hxp
      have hne : x ≠ a := fun heq => ha (heq ▸ hxp)
      rw [hext.find?_eq, if_neg hne] at hnone
      exact hnone
  · have hne : x ≠ a := fun heq => hx (heq ▸ List.mem_cons_self)
    have hmem : x ∉ p.addresses := fun hmem => hx (List.mem_cons_of_mem _ hmem)
    rw [hrest.others x hmem, hext.find?_eq, if_neg hne]

/-- **All nodes.** While there are numbers left, every node of known behaviour is placed. -/
theorem places_placeNodes {nodes : List Node} {r : Registry} (h : r.WellFormed) {k : Nat}
    (hw : r.Within (k + 1) (k + 1)) (hroom : k + nodes.length + 1 < 2 ^ 32) :
    Places r nodes (placeNodes nodes r).value.1.placement (placeNodes nodes r).value.2 := by
  induction nodes generalizing r k with
  | nil =>
      exact
        { instances := rfl
          addresses := List.nodup_nil
          valid := fun _ ha => by cases ha
          fresh := fun _ ha => by cases ha
          others := fun _ _ => rfl
          wellFormed := h
          catalog := rfl }
  | cons node nodes ih =>
      rw [List.length_cons] at hroom
      rw [placeNodes_cons]
      cases hb : r.catalog.find? node.behavior with
      | none =>
          rw [placeNode_unknown hb]
          have hrest := ih h hw (by omega)
          exact { hrest with instances := by rw [decoded_cons_unknown hb]; exact hrest.instances }
      | some b =>
          obtain ⟨a, r₁, hvalue, hext, hw₁⟩ := placeNode_known h hb hw (by omega)
          rw [hvalue]
          exact .cons hb hext (ih hext.wellFormed hw₁ (by omega))

/-- One node leaves every store with instances of its own behaviour. -/
theorem sound_placeNode {node : Node} {r : Registry} (h : r.Sound) {k : Nat}
    (hw : r.Within (k + 1) (k + 1)) (hroom : k + 2 < 2 ^ 32) :
    (placeNode node r).value.2.Sound := by
  cases hb : r.catalog.find? node.behavior with
  | none =>
      rw [placeNode_unknown hb]
      exact h
  | some b =>
      obtain ⟨p, r₁, s, hvalue, -, -, -, hw₁, -, -⟩ :=
        Registry.register_known h.wellFormed hb hw (Nat.succ_le_succ (Nat.zero_le k)) hroom
      have hpools := hw.pools
      have hle : r.nextId ≤ r.nextId + 1 := by
        rw [UInt32.le_iff_toNat_le, Counter.toNat_next (by omega)]
        exact Nat.le_succ _
      have hr₁ := h.register node.behavior hle
      rw [hvalue] at hr₁
      unfold placeNode
      rw [Noted.value_bind, hvalue]
      refine hr₁.materialize p node.data fun t ht => ?_
      have hslots := (hw₁.slots p t ht).2
      omega

/-- So do all nodes. -/
theorem sound_placeNodes {nodes : List Node} {r : Registry} (h : r.Sound) {k : Nat}
    (hw : r.Within (k + 1) (k + 1)) (hroom : k + nodes.length + 1 < 2 ^ 32) :
    (placeNodes nodes r).value.2.Sound := by
  induction nodes generalizing r k with
  | nil => exact h
  | cons node nodes ih =>
      rw [List.length_cons] at hroom
      rw [placeNodes_cons]
      have hfirst : (placeNode node r).value.2.Sound := sound_placeNode h hw (by omega)
      cases hb : r.catalog.find? node.behavior with
      | none =>
          rw [placeNode_unknown hb]
          exact ih h hw (by omega)
      | some b =>
          obtain ⟨a, r₁, hvalue, -, hw₁⟩ := placeNode_known h.wellFormed hb hw (by omega)
          rw [hvalue] at hfirst ⊢
          exact ih hfirst hw₁ (by omega)

namespace Places

variable {r r' : Registry} {nodes : List Node} {p : Placement}

theorem nodes_eq (h : Places r nodes p r') :
    p.map Prod.fst = (decoded r.catalog nodes).map Prod.fst := by
  have hfst := congrArg (List.map Prod.fst) h.instances
  rw [List.map_map, List.map_map] at hfst
  exact hfst

/-- At a node's address lies the node's instance, and a node without an address has none. -/
theorem find?_map (h : Places r nodes p r') (n : NodeId) :
    (p.find? n).map r'.find? = (Table.lookup n (decoded r.catalog nodes)).map some := by
  have hlookup := congrArg (Table.lookup n) h.instances
  rw [Table.lookup_map, Table.lookup_map] at hlookup
  exact hlookup

theorem proper (h : Places r nodes p r') (hids : (nodes.map Node.id).Nodup) : p.Proper where
  nodes := by
    rw [h.nodes_eq]
    refine hids.sublist ?_
    clear h hids
    induction nodes with
    | nil => exact List.Sublist.refl _
    | cons node nodes ih =>
        cases hb : r.catalog.find? node.behavior with
        | none =>
            rw [decoded_cons_unknown hb]
            exact ih.cons _
        | some b =>
            rw [decoded_cons_known hb]
            exact ih.cons_cons _
  addresses := h.addresses
  valid := h.valid

/-- A node of known behaviour has an address. -/
theorem find?_of_known (h : Places r nodes p r') {node : Node} (hn : node ∈ nodes) {b : Behavior}
    (hb : r.catalog.find? node.behavior = some b) : ∃ a, p.find? node.id = some a := by
  have hmem : node.id ∈ p.map Prod.fst := by
    rw [h.nodes_eq]
    refine List.mem_map.2 ⟨(node.id, (Instance.decode b node.data).value), ?_, rfl⟩
    exact List.mem_filterMap.2 ⟨node, hn, by rw [hb]; rfl⟩
  cases hf : p.find? node.id with
  | none => exact absurd hmem (Table.lookup_eq_none_iff.1 hf)
  | some a => exact ⟨a, rfl⟩

/-- At the address of a node of known behaviour lies what its data says. -/
theorem find?_decoded (h : Places r nodes p r') (hids : (nodes.map Node.id).Nodup) {node : Node}
    (hn : node ∈ nodes) {b : Behavior} (hb : r.catalog.find? node.behavior = some b)
    {a : PackedAddress} (ha : p.find? node.id = some a) :
    r'.find? a = some (Instance.decode b node.data).value := by
  have hkeys := (h.proper hids).nodes
  rw [h.nodes_eq] at hkeys
  have hmem : (node.id, (Instance.decode b node.data).value) ∈ decoded r.catalog nodes :=
    List.mem_filterMap.2 ⟨node, hn, by rw [hb]; rfl⟩
  have hfound := h.find?_map node.id
  rw [ha, Table.lookup_of_mem hkeys hmem] at hfound
  exact Option.some.inj hfound

end Places

/-! ### Nodes of graphs -/

namespace Graph

theorem Ordered.length_nodes {g : Graph} (h : g.Ordered) :
    g.nodes.length < g.nextNodeId.toNat := by
  have hlt := Counter.length_lt_of_ascending (l := g.nodes.map fun n => n.id.raw)
    (List.pairwise_map.2 h.nodes_ascending)
    (fun m hm => by obtain ⟨n, hn, rfl⟩ := List.mem_map.1 hm; exact h.nodes_positive n hn)
    (fun m hm => by obtain ⟨n, hn, rfl⟩ := List.mem_map.1 hm; exact h.nodes_below n hn)
    h.nextNode_positive
  rw [List.length_map] at hlt
  exact hlt

theorem Ordered.length_connections {g : Graph} (h : g.Ordered) :
    g.connections.length < g.nextConnectionId.toNat := by
  have hlt := Counter.length_lt_of_ascending (l := g.connections.map fun c => c.id.raw)
    (List.pairwise_map.2 h.connections_ascending)
    (fun m hm => by obtain ⟨c, hc, rfl⟩ := List.mem_map.1 hm; exact h.connections_positive c hc)
    (fun m hm => by obtain ⟨c, hc, rfl⟩ := List.mem_map.1 hm; exact h.connections_below c hc)
    h.nextConnection_positive
  rw [List.length_map] at hlt
  exact hlt

theorem Ordered.ids_nodup {g : Graph} (h : g.Ordered) : (g.nodes.map Node.id).Nodup := by
  refine List.pairwise_map.2 (h.nodes_ascending.imp fun hlt heq => ?_)
  rw [heq] at hlt
  exact UInt32.lt_irrefl _ hlt

/-- What placing the nodes of a graph comes to when it is compiled. -/
def placing (g : Graph) (config : PoolConfig) : Placing :=
  (placeNodes g.nodes (.empty g.catalog config)).value.1

/-- Where the nodes of a graph are placed when it is compiled. -/
def placed (g : Graph) (config : PoolConfig) : Placement × Registry :=
  ((g.placing config).placement, (placeNodes g.nodes (.empty g.catalog config)).value.2)

/-- **Placing a graph.** Its ids are 32-bit numbers, so the counters of pools and slots suffice. -/
theorem Ordered.places {g : Graph} (h : g.Ordered) (config : PoolConfig) :
    Places (.empty g.catalog config) g.nodes (g.placed config).1 (g.placed config).2 := by
  have hlength := h.length_nodes
  have hmax := g.nextNodeId.toNat_lt
  exact places_placeNodes (Registry.wellFormed_empty _ _) (Registry.within_empty _ _) (by omega)

theorem Ordered.sound_placed {g : Graph} (h : g.Ordered) (config : PoolConfig) :
    (g.placed config).2.Sound := by
  have hlength := h.length_nodes
  have hmax := g.nextNodeId.toNat_lt
  exact sound_placeNodes (Registry.sound_empty _ _) (Registry.within_empty _ _) (by omega)

theorem Ordered.proper {g : Graph} (h : g.Ordered) (config : PoolConfig) :
    (g.placed config).1.Proper := (h.places config).proper h.ids_nodup

/-- What lies in the pools of a placed graph was placed, and all that was placed lies there. -/
theorem Ordered.found_iff {g : Graph} (h : g.Ordered) (config : PoolConfig) (a : PackedAddress) :
    ((g.placed config).2.find? a).isSome = true ↔ a ∈ (g.placed config).1.addresses := by
  have hplaces := h.places config
  constructor
  · intro hsome
    refine Decidable.byContradiction fun hout => ?_
    rw [hplaces.others a hout] at hsome
    cases hsome
  · intro hmem
    obtain ⟨n, hn⟩ := (h.proper config).exists_of_mem hmem
    have hfound := hplaces.find?_map n
    rw [hn] at hfound
    obtain ⟨i, -, hi⟩ := Option.map_eq_some_iff.1 hfound.symm
    rw [← hi]
    rfl

/-- Nodes are placed in the order of their ids. -/
theorem Ordered.placed_ascending {g : Graph} (h : g.Ordered) (config : PoolConfig) :
    (g.placed config).1.Pairwise fun x y => x.1.raw < y.1.raw := by
  have hdecoded : (decoded g.catalog g.nodes).Pairwise fun x y => x.1.raw < y.1.raw := by
    refine h.nodes_ascending.filterMap _ fun m n hlt x hx y hy => ?_
    obtain ⟨b, -, rfl⟩ := Option.map_eq_some_iff.1 hx
    obtain ⟨c, -, rfl⟩ := Option.map_eq_some_iff.1 hy
    exact hlt
  have hnodes : (g.placed config).1.map Prod.fst = (decoded g.catalog g.nodes).map Prod.fst :=
    (h.places config).nodes_eq
  refine (List.pairwise_map (f := Prod.fst) (R := fun m n : NodeId => m.raw < n.raw)).1 ?_
  rw [hnodes]
  exact List.pairwise_map.2 hdecoded

/-- Only nodes of known behaviour have ports. -/
theorem WellFormed.known_of_port? {g : Graph} (h : g.WellFormed) {r : PortRef} {p : Port}
    (hp : g.port? r = some p) :
    ∃ node ∈ g.nodes, node.id = r.node ∧ ∃ b, g.catalog.find? node.behavior = some b := by
  obtain ⟨node, hnode, hport⟩ := (g.port?_eq_some_iff r p).1 hp
  obtain ⟨hmem, hid⟩ := node?_eq_some hnode
  rw [Node.port?, h.derived node hmem, derivedPorts] at hport
  cases hb : g.catalog.find? node.behavior with
  | none =>
      rw [hb] at hport
      cases hport
  | some b => exact ⟨node, hmem, hid, b, hb⟩

/-- A node with ports has an address. -/
theorem WellFormed.find?_placed {g : Graph} (h : g.WellFormed) (config : PoolConfig) {r : PortRef}
    {p : Port} (hp : g.port? r = some p) : ∃ a, (g.placed config).1.find? r.node = some a := by
  obtain ⟨node, hmem, hid, b, hb⟩ := h.known_of_port? hp
  rw [← hid]
  exact (h.toOrdered.places config).find?_of_known hmem hb

end Graph

end FlowGraph
