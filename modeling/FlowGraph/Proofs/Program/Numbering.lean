import FlowGraph.Proofs.Graph.Connections
import FlowGraph.Proofs.Lists
import FlowGraph.Proofs.Pool.Addresses
import FlowGraph.Proofs.Program.Links
import Mathlib.Data.List.Basic

/-!
# The numbers in addresses

Nodes are placed in the order of their ids. A pool is opened when the first node of a behaviour is
met, and pools are numbered from one as they are opened; in each pool the instances are numbered
from one as they come in. So an address can be told from the behaviours of the nodes alone: one half
says when the behaviour first appeared, the other how many nodes of that behaviour came before. What
comes later makes no difference to it, and a node that is added to a graph disturbs nothing until it
is connected.

* `rank` — the place of a behaviour by first appearance.
* `Registry.Numbered` — the numbers that a registry gives out next; `register` and `added` keep this
  up.
* `seats`, `placeNodes_seats` — the addresses of nodes in a row, by induction on the row.
* `Graph.Numbers` — the addresses of a program in closed form.
* `Graph.Compiles.numbers` — it is these that a program has.
* `Graph.WellFormed.linkedPlans_grown` — a new node leaves the plans of all links as they are.
* `Graph.Reachable.addresses_are_numbered` — programs of compiled graphs.
-/

namespace FlowGraph

section

variable [Repertoire]

/-! ### First appearances -/

/-- The place of a behaviour among all that there are, in the order of their first appearance and
counted from one. -/
def rank (bs : List Behavior) (b : Behavior) : Nat := bs.eraseDups.idxOf b + 1

/-- What comes later does not change a rank. -/
theorem rank_append {bs : List Behavior} {b : Behavior} (h : b ∈ bs) (cs : List Behavior) :
    rank (bs ++ cs) b = rank bs b := by
  rw [rank, rank, List.eraseDups_append, List.idxOf_append, if_pos (List.mem_eraseDups.2 h)]

/-- There are no more ranks than behaviours. -/
theorem rank_le {bs : List Behavior} {b : Behavior} (h : b ∈ bs) :
    rank bs b ≤ bs.eraseDups.length :=
  List.idxOf_lt_length_iff.2 (List.mem_eraseDups.2 h)

/-! ### Numbers given out -/

namespace Registry

/-- How far a registry's numbers have got. Its pools are those of certain behaviours, in the order
in which they were opened, and the next slot in each of them is told by how often its behaviour has
been seen. -/
structure Numbered (r : Registry) (firsts seen : List Behavior) : Prop where
  next : r.nextId.toNat = firsts.length + 1
  size : r.pools.size = firsts.length
  pool : ∀ b p, r.byBehavior.find? b = some p ↔ b ∈ firsts ∧ p.raw.toNat = firsts.idxOf b + 1
  slots : ∀ p s, r.pools.find? p = some s → s.pool.nextId.toNat = seen.count s.behavior + 1

variable {r : Registry} {firsts seen : List Behavior}

theorem numbered_empty (catalog : Catalog) (config : PoolConfig) :
    (empty catalog config).Numbered [] [] where
  next := rfl
  size := rfl
  pool b p := ⟨nofun, nofun⟩
  slots p s h := by cases h

theorem Numbered.mem_iff (h : r.Numbered firsts seen) (b : Behavior) :
    b ∈ firsts ↔ (r.byBehavior.find? b).isSome = true := by
  rw [Option.isSome_iff_exists]
  constructor
  · intro hb
    have hlt : firsts.idxOf b < firsts.length := List.idxOf_lt_length_iff.2 hb
    have hnext := h.next
    have hmax := r.nextId.toNat_lt
    refine ⟨⟨.ofNat (firsts.idxOf b + 1)⟩, (h.pool b _).2 ⟨hb, ?_⟩⟩
    rw [UInt32.toNat_ofNat']
    exact Nat.mod_eq_of_lt (by omega)
  · rintro ⟨p, hp⟩
    exact ((h.pool b p).1 hp).1

/-- **A pool is opened** for a behaviour that was not met before. -/
theorem Numbered.opened (h : r.Numbered firsts seen) (hr : r.WellFormed) {b : Behavior}
    (hfirst : b ∉ firsts) (hseen : b ∉ seen) (hroom : r.nextId.toNat + 1 < 2 ^ 32) :
    (r.opened b).Numbered (firsts ++ [b]) seen where
  next := by
    show (r.nextId + 1).toNat = _
    rw [Counter.toNat_next hroom, h.next, List.length_append, List.length_singleton]
  size := by
    have hnew : r.pools.contains ⟨r.nextId⟩ = false := by
      rw [Table.contains, hr.find?_nextId]
      rfl
    show (r.pools.insert _ _).size = _
    rw [Table.size_insert, hnew, h.size, List.length_append, List.length_singleton]
    rfl
  pool c p := by
    show (r.byBehavior.insert b ⟨r.nextId⟩).find? c = some p ↔ _
    rw [Table.find?_insert, List.mem_append, List.mem_singleton]
    by_cases hc : c = b
    · subst hc
      rw [if_pos rfl, List.idxOf_append, if_neg hfirst, List.idxOf_cons_self, Option.some_inj,
        Nat.zero_add, ← h.next, UInt32.toNat_inj]
      exact ⟨fun heq => ⟨.inr rfl, (congrArg PoolId.raw heq).symm⟩,
        fun heq => congrArg PoolId.mk heq.2.symm⟩
    · rw [if_neg hc, h.pool]
      refine ⟨fun hold => ⟨.inl hold.1, ?_⟩, fun hnew => ?_⟩
      · rw [List.idxOf_append, if_pos hold.1]
        exact hold.2
      · have hold := hnew.1.resolve_right hc
        rw [List.idxOf_append, if_pos hold] at hnew
        exact ⟨hold, hnew.2⟩
  slots p s hs := by
    rcases Table.find?_insert_eq_some hs with ⟨-, rfl⟩ | ⟨-, hold⟩
    · show (1 : UInt32).toNat = seen.count b + 1
      rw [List.count_eq_zero.2 hseen]
      rfl
    · exact h.slots p s hold

/-- **An instance comes in.** The next one in its pool gets the next number; other pools take no
notice. -/
theorem Numbered.added (h : r.Numbered firsts seen) (hr : r.WellFormed) {p : PoolId} {s : Store}
    (hs : r.pools.find? p = some s) (hasc : s.pool.Ascending)
    (hroom : s.pool.nextId.toNat + 1 < 2 ^ 32) (i : Instance) :
    (r.added p s i).Numbered firsts (seen ++ [s.behavior]) where
  next := h.next
  size := by
    have hold : r.pools.contains p = true := by
      rw [Table.contains, hs]
      rfl
    show (r.pools.insert _ _).size = _
    rw [Table.size_insert, hold, if_pos rfl, h.size]
  pool := h.pool
  slots q u hu := by
    rw [List.count_append]
    rcases Table.find?_insert_eq_some hu with ⟨-, rfl⟩ | ⟨hq, hold⟩
    · have hnext := (hasc.allocateWith i hroom).2
      rw [hnext, h.slots p s hs, List.count_singleton_self]
    · -- No two pools are of one behaviour.
      have hne : s.behavior ≠ u.behavior := by
        intro heq
        have hown := (hr.own u.behavior q).2 ⟨u, hold, rfl⟩
        have hown' := (hr.own u.behavior p).2 ⟨s, hs, heq⟩
        exact hq (Option.some.inj (hown.symm.trans hown'))
      have hnone : [s.behavior].count u.behavior = 0 :=
        List.count_eq_zero.2 (by simpa using hne.symm)
      rw [h.slots q u hold, hnone, Nat.add_zero]

/-- **A pool for a behaviour**, opened already or only now. -/
theorem Numbered.register (h : r.Numbered seen.eraseDups seen) (hr : r.WellFormed)
    {id : BehaviorId} {b : Behavior} (hb : r.catalog.find? id = some b) {k : Nat}
    (hw : r.Within (k + 1) (k + 1)) (hroom : k + 2 < 2 ^ 32) :
    ∃ p r' s, (r.register id).value = (some p, r') ∧ r'.pools.find? p = some s ∧ s.behavior = b ∧
      r'.WellFormed ∧ r'.Within (k + 2) (k + 1) ∧ r'.Numbered (seen ++ [b]).eraseDups seen := by
  have hpools := hw.pools
  obtain ⟨p, r', s, hvalue, hs, hsb, hr', hw', -, -⟩ :=
    register_known hr hb hw (Nat.succ_le_succ (Nat.zero_le k)) hroom
  refine ⟨p, r', s, hvalue, hs, hsb, hr', hw', ?_⟩
  by_cases hseen : b ∈ seen
  · have hfirst := (h.mem_iff b).1 (List.mem_eraseDups.2 hseen)
    obtain ⟨q, hq⟩ := Option.isSome_iff_exists.1 hfirst
    rw [register_present hb hq] at hvalue
    obtain ⟨-, rfl⟩ := Prod.mk.inj hvalue
    rw [eraseDups_concat_of_mem hseen]
    exact h
  · have hfirst : b ∉ seen.eraseDups := fun hmem => hseen (List.mem_eraseDups.1 hmem)
    have hnone : r.byBehavior.find? b = none := by
      rw [h.mem_iff, Option.isSome_iff_ne_none, Decidable.not_not] at hfirst
      exact hfirst
    rw [register_new hb hnone] at hvalue
    obtain ⟨-, rfl⟩ := Prod.mk.inj hvalue
    rw [eraseDups_concat_of_not_mem hseen]
    exact h.opened hr hfirst hseen (by omega)

end Registry

/-! ### Placing nodes in a row -/

/-- **One node** gets the rank of its behaviour and a number in the pool of that rank. -/
theorem placeNode_numbered {node : Node} {r : Registry} (h : r.WellFormed) {seen : List Behavior}
    (hn : r.Numbered seen.eraseDups seen) {b : Behavior}
    (hb : r.catalog.find? node.behavior = some b) {k : Nat} (hw : r.Within (k + 1) (k + 1))
    (hroom : k + 2 < 2 ^ 32) :
    ∃ a, (placeNode node r).value.1 = some a ∧ a.pool.raw.toNat = rank (seen ++ [b]) b ∧
      a.slot.raw.toNat = seen.count b + 1 ∧
      (placeNode node r).value.2.Numbered (seen ++ [b]).eraseDups (seen ++ [b]) := by
  obtain ⟨p, r', s, hvalue, hs, rfl, hr', hw', hn'⟩ := hn.register h hb hw hroom
  have hplaced : (placeNode node r).value = (r'.materialize p node.data).value := by
    unfold placeNode
    rw [Noted.value_bind, hvalue]
  have hpool := (hn'.pool s.behavior p).1 ((hr'.own s.behavior p).2 ⟨s, hs, rfl⟩)
  obtain ⟨hasc, hle⟩ := hw'.slots p s hs
  rw [hplaced, Registry.materialize_value hs]
  refine ⟨_, rfl, ?_, ?_, hn'.added hr' hs hasc (by omega) _⟩
  · rw [PackedAddress.pool_pack]
    exact hpool.2
  · rw [PackedAddress.slot_pack, hasc.freshId]
    exact hn'.slots p s hs

/-- The nodes of known behaviour among some nodes, in order, each with its behaviour. -/
def known (c : Catalog) (nodes : List Node) : List (NodeId × Behavior) :=
  nodes.filterMap fun n => (c.find? n.behavior).map fun b => (n.id, b)

theorem known_cons_unknown {c : Catalog} {node : Node} (h : c.find? node.behavior = none)
    (nodes : List Node) : known c (node :: nodes) = known c nodes := by
  rw [known, List.filterMap_cons_none (by rw [h]; rfl), known]

theorem known_cons_known {c : Catalog} {node : Node} {b : Behavior}
    (h : c.find? node.behavior = some b) (nodes : List Node) :
    known c (node :: nodes) = (node.id, b) :: known c nodes := by
  rw [known, List.filterMap_cons_some (by rw [h]; rfl), known]

theorem node_of_mem_known {c : Catalog} {nodes : List Node} {x : NodeId × Behavior}
    (hx : x ∈ known c nodes) : ∃ node ∈ nodes, node.id = x.1 := by
  obtain ⟨node, hnode, hmap⟩ := List.mem_filterMap.1 hx
  obtain ⟨b, -, rfl⟩ := Option.map_eq_some_iff.1 hmap
  exact ⟨node, hnode, rfl⟩

/-- The address of the next node of a behaviour, once nodes of certain behaviours have been
placed. -/
def seat (seen : List Behavior) (b : Behavior) : PackedAddress :=
  .pack ⟨.ofNat (rank (seen ++ [b]) b)⟩ ⟨.ofNat (seen.count b + 1)⟩

/-- An address is told by its two numbers. -/
theorem eq_seat {seen : List Behavior} {b : Behavior} {a : PackedAddress}
    (hpool : a.pool.raw.toNat = rank (seen ++ [b]) b)
    (hslot : a.slot.raw.toNat = seen.count b + 1) : a = seat seen b := by
  rw [seat, PackedAddress.eq_pack_iff, ← hpool, ← hslot, UInt32.ofNat_toNat, UInt32.ofNat_toNat]
  exact ⟨rfl, rfl⟩

/-- The addresses of nodes in a row, once nodes of certain behaviours have been placed. -/
def seats (seen : List Behavior) : List (NodeId × Behavior) → Placement
  | [] => []
  | (n, b) :: ks => (n, seat seen b) :: seats (seen ++ [b]) ks

theorem seats_append (seen : List Behavior) (ks ls : List (NodeId × Behavior)) :
    seats seen (ks ++ ls) = seats seen ks ++ seats (seen ++ ks.map Prod.snd) ls := by
  induction ks generalizing seen with
  | nil => rw [List.map_nil, List.append_nil]; rfl
  | cons x ks ih =>
      obtain ⟨n, b⟩ := x
      rw [List.cons_append, seats, seats, ih, List.map_cons, List.append_assoc]
      rfl

theorem nodes_seats (seen : List Behavior) (ks : List (NodeId × Behavior)) :
    (seats seen ks).map Prod.fst = ks.map Prod.fst := by
  induction ks generalizing seen with
  | nil => rfl
  | cons x ks ih => rw [seats, List.map_cons, List.map_cons, ih]

/-- **All nodes** are placed by the behaviours of those before them. -/
theorem placeNodes_seats {nodes : List Node} {r : Registry} (h : r.WellFormed)
    {seen : List Behavior} (hn : r.Numbered seen.eraseDups seen) {k : Nat}
    (hw : r.Within (k + 1) (k + 1)) (hroom : k + nodes.length + 1 < 2 ^ 32) :
    (placeNodes nodes r).value.1.placement = seats seen (known r.catalog nodes) ∧
      (placeNodes nodes r).value.2.Numbered
        (seen ++ (known r.catalog nodes).map Prod.snd).eraseDups
        (seen ++ (known r.catalog nodes).map Prod.snd) := by
  induction nodes generalizing r seen k with
  | nil =>
      rw [known, List.filterMap_nil, List.map_nil, List.append_nil]
      exact ⟨rfl, hn⟩
  | cons node nodes ih =>
      rw [List.length_cons] at hroom
      rw [placeNodes_cons]
      cases hb : r.catalog.find? node.behavior with
      | none =>
          rw [placeNode_unknown hb, known_cons_unknown hb]
          exact ih h hn hw (by omega)
      | some b =>
          obtain ⟨a, ha, hpool, hslot, hn₁⟩ := placeNode_numbered h hn hb hw (by omega)
          obtain ⟨a', r₁, hvalue, hext, hw₁⟩ := placeNode_known h hb hw (by omega)
          rw [hvalue] at ha hn₁
          obtain rfl := Option.some.inj ha
          obtain ⟨hrest, hlast⟩ := ih hext.wellFormed hn₁ hw₁ (by omega)
          rw [hext.catalog] at hrest hlast
          rw [hvalue, known_cons_known hb, List.map_cons, seats, ← eq_seat hpool hslot]
          rw [List.append_assoc] at hlast
          exact ⟨congrArg ((node.id, a') :: ·) hrest, hlast⟩

/-! ### Graphs -/

end

namespace Graph

section

variable [Repertoire]

/-- The nodes of known behaviour, in the order of their ids, each with its behaviour. -/
def known (g : Graph) : List (NodeId × Behavior) := FlowGraph.known g.catalog g.nodes

/-- The behaviours of these nodes, in the order of the nodes. -/
def used (g : Graph) : List Behavior := g.known.map Prod.snd

/-- The addresses of a program in closed form. -/
structure Numbers (g : Graph) (P : Program) : Prop where
  /-- Exactly the nodes of known behaviour have an address. -/
  addressed : ∀ n, (P.addressOf? n).isSome = true ↔
    ∃ node ∈ g.nodes, node.id = n ∧ (g.catalog.find? node.behavior).isSome = true
  ascending : g.known.Pairwise fun x y => x.1.raw < y.1.raw
  /-- One half of a node's address is the rank of its behaviour, and the other tells how many nodes
  of this behaviour come before. -/
  address : ∀ before n b after, g.known = before ++ (n, b) :: after →
    ∃ i j, P.addressOf? n = some (.pack i j) ∧ i.raw.toNat = rank g.used b ∧
      j.raw.toNat = (before.map Prod.snd).count b + 1
  order : P.order.map some = g.known.map fun x => P.addressOf? x.1
  distinct : P.order.Nodup
  valid : ∀ a ∈ P.order, a.isValid = true
  pools : P.pools.poolCount = g.used.eraseDups.length
  instances : P.pools.instanceCount = g.known.length

section

variable {g : Graph} {config : PoolConfig} {P : Program}

theorem Ordered.known_ascending (h : g.Ordered) :
    g.known.Pairwise fun x y => x.1.raw < y.1.raw := by
  refine h.nodes_ascending.filterMap _ fun m n hlt x hx y hy => ?_
  obtain ⟨b, -, rfl⟩ := Option.map_eq_some_iff.1 hx
  obtain ⟨c, -, rfl⟩ := Option.map_eq_some_iff.1 hy
  exact hlt

theorem Ordered.length_known (h : g.Ordered) : g.known.length + 1 < 2 ^ 32 := by
  have hknown : g.known.length ≤ g.nodes.length := List.length_filterMap_le _ _
  have hlength := h.length_nodes
  have hmax := g.nextNodeId.toNat_lt
  omega

/-- **Placing a graph** gives every node its seat. -/
theorem Ordered.placed_seats (h : g.Ordered) (config : PoolConfig) :
    (g.placed config).1 = seats [] g.known ∧
      (g.placed config).2.Numbered g.used.eraseDups g.used := by
  have hlength := h.length_nodes
  have hmax := g.nextNodeId.toNat_lt
  exact placeNodes_seats (Registry.wellFormed_empty _ _) (Registry.numbered_empty _ _)
    (Registry.within_empty _ _) (by omega)

theorem Ordered.nodes_placed (h : g.Ordered) (config : PoolConfig) :
    (g.placed config).1.map Prod.fst = g.known.map Prod.fst := by
  rw [(h.placed_seats config).1, nodes_seats]

/-- The seat of a node is found under the node. -/
theorem Compiles.address_seat (hP : g.Compiles config P) (h : g.Ordered)
    {before after : List (NodeId × Behavior)} {n : NodeId} {b : Behavior}
    (hsplit : g.known = before ++ (n, b) :: after) :
    P.addressOf? n = some (seat (before.map Prod.snd) b) := by
  rw [hP.addressOf?_eq]
  refine (h.proper config).find?_of_mem ?_
  rw [(h.placed_seats config).1, hsplit, seats_append, seats]
  exact List.mem_append_right _ List.mem_cons_self

/-- The numbers of a node are told by the behaviours in a graph; there are enough for all nodes. -/
theorem Compiles.address_numbers (hP : g.Compiles config P) (h : g.Ordered)
    {before after : List (NodeId × Behavior)} {n : NodeId} {b : Behavior}
    (hsplit : g.known = before ++ (n, b) :: after) :
    ∃ i j, P.addressOf? n = some (.pack i j) ∧ i.raw.toNat = rank g.used b ∧
      j.raw.toNat = (before.map Prod.snd).count b + 1 := by
  have hused : g.used = before.map Prod.snd ++ [b] ++ after.map Prod.snd := by
    rw [used, hsplit, List.map_append, List.map_cons, List.append_assoc]
    rfl
  have hmem : b ∈ before.map Prod.snd ++ [b] := List.mem_append_right _ (List.mem_singleton.2 rfl)
  have hrank : rank (before.map Prod.snd ++ [b]) b = rank g.used b := by
    rw [hused, rank_append hmem]
  refine ⟨_, _, hP.address_seat h hsplit, ?_, ?_⟩
  · have hle : rank g.used b ≤ g.used.eraseDups.length :=
      rank_le (hused ▸ List.mem_append_left _ hmem)
    have hnext := (h.placed_seats config).2.next
    have hmax := (g.placed config).2.nextId.toNat_lt
    rw [hrank, UInt32.toNat_ofNat']
    exact Nat.mod_eq_of_lt (by omega)
  · have hcount : (before.map Prod.snd).count b ≤ (before.map Prod.snd).length :=
      List.count_le_length
    have hlength := h.length_known
    rw [hsplit, List.length_append, List.length_cons] at hlength
    rw [List.length_map] at hcount
    rw [UInt32.toNat_ofNat']
    exact Nat.mod_eq_of_lt (by omega)

/-- The order of a program lists the addresses of its nodes. -/
theorem Compiles.order_map (hP : g.Compiles config P) (h : g.Ordered) :
    P.order.map some = g.known.map fun x => P.addressOf? x.1 := by
  have hnodes : (g.known.map fun x => P.addressOf? x.1)
      = (g.placed config).1.map fun x => P.addressOf? x.1 := by
    have hmap := congrArg (List.map P.addressOf?) (h.nodes_placed config)
    rw [List.map_map, List.map_map] at hmap
    exact hmap.symm
  rw [hnodes, hP.order, Placement.addresses, List.map_map]
  refine List.map_congr_left fun x hx => ?_
  rw [hP.addressOf?_eq]
  exact ((h.proper config).find?_of_mem hx).symm

/-- There is an instance for each node and no other. -/
theorem Compiles.instanceCount_eq (hP : g.Compiles config P) (h : g.Ordered) :
    P.pools.instanceCount = g.known.length := by
  have hpools := (h.places config).wellFormed
  have hperm : (g.placed config).2.addresses.Perm (g.placed config).1.addresses := by
    refine (List.perm_ext_iff_of_nodup hpools.nodup_addresses (h.proper config).addresses).2
      fun a => ?_
    rw [hpools.mem_addresses_iff, ← Option.isSome_iff_ne_none, h.found_iff]
  have hnodes := congrArg List.length (h.nodes_placed config)
  rw [List.length_map, List.length_map] at hnodes
  rw [hP.pools, ← hpools.length_addresses, hperm.length_eq, Placement.addresses, List.length_map,
    hnodes]

/-- **The addresses of a program**, in closed form. -/
theorem Compiles.numbers (hP : g.Compiles config P) (h : g.WellFormed) : g.Numbers P where
  addressed n := by
    constructor
    · intro hsome
      obtain ⟨a, ha⟩ := Option.isSome_iff_exists.1 hsome
      obtain ⟨node, hnode, b, hid, hb, -⟩ := hP.node_of_address h ha
      exact ⟨node, hnode, hid, by rw [hb]; rfl⟩
    · rintro ⟨node, hnode, rfl, hsome⟩
      obtain ⟨b, hb⟩ := Option.isSome_iff_exists.1 hsome
      obtain ⟨a, ha, -⟩ := hP.instance_of_node h hnode hb
      rw [ha]
      rfl
  ascending := h.toOrdered.known_ascending
  address _ _ _ _ hsplit := hP.address_numbers h.toOrdered hsplit
  order := hP.order_map h.toOrdered
  distinct := by
    rw [hP.order]
    exact (h.toOrdered.proper config).addresses
  valid := by
    rw [hP.order]
    exact (h.toOrdered.proper config).valid
  pools := by
    rw [hP.pools]
    exact (h.toOrdered.placed_seats config).2.size
  instances := hP.instanceCount_eq h.toOrdered

end

/-! ### A node more -/

section

variable {g : Graph} {config : PoolConfig} {behavior : BehaviorId} {position : Position}
  {data : Json} {p q : Placement}

/-- A node that was added is placed after all others, if it is placed at all. -/
theorem Ordered.placed_grown (h : g.Ordered) (hgrown : (g.grown behavior position data).Ordered)
    (config : PoolConfig) :
    ∃ extra : Placement, ((g.grown behavior position data).placed config).1
        = (g.placed config).1 ++ extra ∧ ∀ x ∈ extra, x.1 = ⟨g.nextNodeId⟩ := by
  have hknown : (g.grown behavior position data).known
      = g.known ++ FlowGraph.known g.catalog
        [⟨⟨g.nextNodeId⟩, behavior, position, g.derivedPorts behavior data, data⟩] :=
    List.filterMap_append
  refine ⟨_, by rw [(hgrown.placed_seats config).1, hknown, seats_append,
    ← (h.placed_seats config).1], fun x hx => ?_⟩
  have hnode := List.mem_map_of_mem (f := Prod.fst) hx
  rw [nodes_seats] at hnode
  obtain ⟨y, hy, hxy⟩ := List.mem_map.1 hnode
  obtain ⟨node, hmem, hid⟩ := node_of_mem_known hy
  rw [← hxy, ← hid, List.mem_singleton.1 hmem]

/-- Two placements agree on the nodes whose ids were given out. -/
def AgreesOnOld (g : Graph) (p q : Placement) : Prop :=
  ∀ n : NodeId, n.raw < g.nextNodeId → q.find? n = p.find? n

theorem agreesOnOld_append {extra : Placement} (h : ∀ x ∈ extra, x.1 = ⟨g.nextNodeId⟩) :
    g.AgreesOnOld p (p ++ extra) := by
  intro n hn
  refine Table.lookup_append_left fun hmem => ?_
  obtain ⟨x, hx, rfl⟩ := List.mem_map.1 hmem
  rw [h x hx] at hn
  exact UInt32.lt_irrefl _ hn

/-- Far ends lie on nodes whose ids were given out. -/
theorem WellFormed.below_of_farEnd (h : g.WellFormed) {near far : PortRef} {kind : PortKind}
    (hfar : far ∈ g.farEnds near kind) : far.node.raw < g.nextNodeId := by
  unfold farEnds at hfar
  split at hfar
  all_goals
    obtain ⟨c, hc, rfl⟩ := List.mem_map.1 hfar
    obtain ⟨s, t, hs, ht, -⟩ := h.toSound.ends (List.mem_filter.1 hc).1
  · exact h.toOrdered.below_of_port ht
  · exact h.toOrdered.below_of_port hs

/-- Far ends are resolved as they were, so a port is planned as it was. -/
theorem WellFormed.portPlan_grown (h : g.WellFormed) (hagree : g.AgreesOnOld p q)
    (a : PackedAddress) (near : PortRef) (port : Port) :
    (g.grown behavior position data).portPlan q a near port = g.portPlan p a near port := by
  have hresolve : ∀ far ∈ g.farEnds near port.kind,
      (g.grown behavior position data).resolveEnd q port.kind.counterpart far
        = g.resolveEnd p port.kind.counterpart far := by
    intro far hfar
    have hbelow := h.below_of_farEnd hfar
    rw [resolveEnd, resolveEnd, hagree _ hbelow, g.port?_grown _ _ _ hbelow]
  have hunresolved := List.filter_congr fun far hfar =>
    congrArg Option.isNone (hresolve far hfar)
  have htargets := List.filterMap_congr hresolve
  show PortPlan.mk a near port.kind ((g.farEnds near port.kind).filterMap _)
      ((g.farEnds near port.kind).filter _) = _
  rw [htargets, hunresolved]
  rfl

theorem WellFormed.linkedPlansOf_grown (h : g.WellFormed) (hagree : g.AgreesOnOld p q)
    {n : NodeId} (hn : n.raw < g.nextNodeId) (a : PackedAddress) :
    (g.grown behavior position data).linkedPlansOf q n a = g.linkedPlansOf p n a := by
  have hports : (g.grown behavior position data).ports n = g.ports n := by
    rw [ports, ports, g.node?_grown _ _ _ hn]
  rw [linkedPlansOf, linkedPlansOf, nodePlan, nodePlan, hports]
  refine congrArg (List.filter _) (List.map_congr_left fun x _ => ?_)
  exact h.portPlan_grown hagree a _ _

/-- Nothing is connected to the new node yet. -/
theorem WellFormed.linkedPlansOf_new (h : g.WellFormed)
    (hgrown : (g.grown behavior position data).WellFormed) (a : PackedAddress) :
    (g.grown behavior position data).linkedPlansOf
      ((g.grown behavior position data).placed config).1 ⟨g.nextNodeId⟩ a = [] := by
  refine List.eq_nil_iff_forall_not_mem.2 fun plan hplan => ?_
  obtain ⟨i, port, hport, rfl, hne⟩ := hgrown.mem_linkedPlansOf.1 hplan
  have hmissing : g.port? ⟨⟨g.nextNodeId⟩, i⟩ = none := by
    refine Option.eq_none_iff_forall_ne_some.2 fun x hx => ?_
    exact UInt32.lt_irrefl _ (h.toOrdered.below_of_port hx)
  have hpartners : (g.grown behavior position data).partners ⟨⟨g.nextNodeId⟩, i⟩ = [] :=
    h.toSound.partners_of_missing hmissing
  have htargets := hgrown.targets_portPlan config a hport
  rw [hpartners, List.map_nil, List.map_eq_nil_iff] at htargets
  exact hne htargets

/-- **The plans of links** are the same with a node more. -/
theorem WellFormed.linkedPlans_grown (h : g.WellFormed)
    (hgrown : (g.grown behavior position data).WellFormed) (config : PoolConfig) :
    (g.grown behavior position data).linkedPlans
        ((g.grown behavior position data).placed config).1
      = g.linkedPlans (g.placed config).1 := by
  obtain ⟨extra, hplaced, hextra⟩ := h.toOrdered.placed_grown hgrown.toOrdered config
  have hagree := agreesOnOld_append (p := (g.placed config).1) hextra
  have hold : ∀ x ∈ (g.placed config).1,
      (g.grown behavior position data).linkedPlansOf
          ((g.grown behavior position data).placed config).1 x.1 x.2
        = g.linkedPlansOf (g.placed config).1 x.1 x.2 := by
    intro x hx
    have hbelow : x.1.raw < g.nextNodeId := by
      have hmem := List.mem_map_of_mem (f := Prod.fst) hx
      rw [h.toOrdered.nodes_placed] at hmem
      obtain ⟨y, hy, hxy⟩ := List.mem_map.1 hmem
      obtain ⟨node, hnode, hid⟩ := node_of_mem_known hy
      rw [← hxy, ← hid]
      exact h.toOrdered.nodes_below node hnode
    rw [hplaced]
    exact h.linkedPlansOf_grown hagree hbelow x.2
  have hnew : ∀ x ∈ extra, (g.grown behavior position data).linkedPlansOf
      ((g.grown behavior position data).placed config).1 x.1 x.2 = [] := by
    intro x hx
    rw [hextra x hx]
    exact h.linkedPlansOf_new hgrown x.2
  calc (g.grown behavior position data).linkedPlans
        ((g.grown behavior position data).placed config).1
      = ((g.placed config).1 ++ extra).flatMap fun x =>
          (g.grown behavior position data).linkedPlansOf
            ((g.grown behavior position data).placed config).1 x.1 x.2 :=
        congrArg (List.flatMap _) hplaced
    _ = g.linkedPlans (g.placed config).1 := by
        rw [List.flatMap_append, List.flatMap_eq_nil_iff.2 hnew, List.append_nil]
        exact List.flatMap_congr hold

/-- **A node more disturbs nothing**: addresses stay, and so does every record. -/
theorem WellFormed.undisturbed (h : g.WellFormed)
    (hgrown : (g.grown behavior position data).WellFormed) (config : PoolConfig) :
    (∀ node ∈ g.nodes, ((g.grown behavior position data).compile config).value.addressOf? node.id
        = (g.compile config).value.addressOf? node.id) ∧
      ((g.grown behavior position data).compile config).value.links.records
        = (g.compile config).value.links.records := by
  have hP := h.compiles config
  have hP' := hgrown.compiles config
  constructor
  · intro node hnode
    obtain ⟨extra, hplaced, hextra⟩ := h.toOrdered.placed_grown hgrown.toOrdered config
    rw [hP'.addressOf?_eq, hP.addressOf?_eq, hplaced]
    exact agreesOnOld_append hextra _ (h.toOrdered.nodes_below node hnode)
  · rw [hP'.links.records, hP.links.records, h.linkedPlans_grown hgrown]

end

/-- **Addresses are numbered by first appearance.** In the program of every graph that edits lead
to, the nodes of known behaviour have addresses, and no others; these are told in closed form by the
behaviours of the nodes in the order of their ids. So a further node, whatever its behaviour and
data, takes nobody's address, and until it is connected the table has the very records it had. -/
theorem Reachable.addresses_are_numbered {g : Graph} (hg : g.Reachable) (config : PoolConfig) :
    let P := (g.compile config).value
    g.Numbers P ∧
      ∀ behavior position data, g.Counts (.addNode behavior position data) →
        let P' := ((g.edit (.addNode behavior position data)).compile config).value
        (∀ node ∈ g.nodes, P'.addressOf? node.id = P.addressOf? node.id) ∧
          P'.links.records = P.links.records := by
  have h := hg.wellFormed
  refine ⟨(h.compiles config).numbers h, fun behavior position data hcounts => ?_⟩
  have hedit : g.edit (.addNode behavior position data) = g.grown behavior position data :=
    congrArg Prod.snd (g.addNode_value behavior position data)
  have hgrown := (hg.edit _ hcounts).wellFormed
  rw [hedit] at hgrown ⊢
  exact h.undisturbed hgrown config

end

/-- The sample prints with three nodes, the last of them its tenth; a fourth would come after them
in their pool. -/
theorem Reachable.addresses_are_numbered_sample :
    let g := Sample.graph.value
    let P := (g.compile .standard).value
    let more : Edit := .addNode Behavior.printText.id ⟨0, 0⟩ .null
    let P' := ((g.edit more).compile .standard).value
    g.Reachable ∧ g.Counts more ∧ g.Numbers P ∧
      P.addressOf? ⟨10⟩ = some (.pack ⟨5⟩ ⟨3⟩) ∧ P'.addressOf? ⟨11⟩ = some (.pack ⟨5⟩ ⟨4⟩) ∧
      (∀ node ∈ g.nodes, P'.addressOf? node.id = P.addressOf? node.id) ∧
      P'.links.records = P.links.records := by
  have hcounts : Sample.graph.value.Counts (.addNode Behavior.printText.id ⟨0, 0⟩ .null) :=
    ⟨by decide +kernel, by decide +kernel⟩
  obtain ⟨hnumbers, hmore⟩ := Reachable.addresses_are_numbered Sample.graph_reachable .standard
  exact ⟨Sample.graph_reachable, hcounts, hnumbers, by decide +kernel, by decide +kernel,
    hmore _ _ _ hcounts⟩

end Graph

end FlowGraph
