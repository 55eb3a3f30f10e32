import FlowGraph.Program.Compile
import FlowGraph.Proofs.Link.Acceptance

/-!
# Building the table of a plan

A plan lists, node by node and port by port, the far ends that are to become links. The builder has
room for exactly these, meets each node once and its ports in ascending order, and so objects to
nothing: the table holds one block for each planned port.

* `PortPlan.Linkable`, `PortPlan.block` — a plan that can be laid down, and what it becomes.
* `LinkTableBuilder.Lays.layDown_all` — one node's plans, by induction.
* `LinkTable.LaidDown` — what building a table comes to if no call is refused.
* `LinkTable.ofPlan_ok` — the whole table.
-/

namespace FlowGraph

/-! ### Plans and blocks -/

namespace PortPlan

/-- A plan that can be laid down: it has far ends, no more than a header can count, and addresses
that name something. -/
structure Linkable (p : PortPlan) : Prop where
  valid : p.address.isValid = true
  linked : p.targets ≠ []
  counted : p.targets.length < 2 ^ 32
  targets : ∀ e ∈ p.targets, e.address.isValid = true

/-- The block that a plan becomes. -/
def block (p : PortPlan) : LinkBlock :=
  ⟨⟨p.address, p.near.port, p.kind, p.targets.length.toUInt32⟩, p.targets.map .ofEntry⟩

theorem Linkable.count {p : PortPlan} (h : p.Linkable) :
    p.targets.length.toUInt32.toNat = p.targets.length := by
  have hlt := h.counted
  rw [Nat.toUInt32, UInt32.toNat_ofNat']
  exact Nat.mod_eq_of_lt hlt

theorem Linkable.blockLength {p : PortPlan} (h : p.Linkable) :
    p.block.header.blockLength = p.recordCount := by
  rw [block, LinkRecord.blockLength, h.count, recordCount]

/-- Blocks take as many records as were planned for them. -/
theorem extent_blocks {ps : List PortPlan} (h : ∀ p ∈ ps, p.Linkable) :
    extent ((ps.map block).map LinkBlock.header) = (ps.map recordCount).sum := by
  rw [extent, List.map_map, List.map_map]
  exact congrArg List.sum (List.map_congr_left fun p hp => (h p hp).blockLength)

/-- The links of a block are the targets that it was planned for. -/
theorem block_entries (p : PortPlan) : p.block.entries.map LinkRecord.toEntry = p.targets := by
  rw [block, List.map_map]
  exact List.map_id _

end PortPlan

namespace LinkTableBuilder

/-! ### One port -/

/-- **One port.** A linkable plan that may come next is laid down as its block. -/
theorem Lays.layDown_ok {b : LinkTableBuilder} {bs : List LinkBlock} (h : b.Lays bs) {p : PortPlan}
    (hp : p.Linkable) (hc : Continues bs p.address p.near.port)
    (hroom : extent (bs.map LinkBlock.header) + p.recordCount ≤ b.records.length) :
    ∃ c, p.layDown b = .ok c ∧ c.records.length = b.records.length ∧ c.nodes = b.nodes ∧
      c.Lays (bs ++ [p.block]) := by
  have hpositive : p.targets.length.toUInt32 ≠ 0 := by
    intro hzero
    have hcount := hp.count
    rw [hzero] at hcount
    exact hp.linked (List.eq_nil_of_length_eq_zero hcount.symm)
  rw [PortPlan.recordCount, ← h.cursor] at hroom
  have hreserve := (b.reserve_ok_iff _ p.address p.near.port p.kind p.targets.length.toUInt32 _).2
    ⟨hp.valid, hpositive, h.orderError?_eq_none hc, by rw [hp.count]; exact hroom, rfl, rfl⟩
  have hlays := h.reserve hreserve
  have hblank : reserved ⟨p.address, p.near.port, p.kind, p.targets.length.toUInt32⟩
      = ⟨p.block.header, [] ++ List.replicate p.targets.length .unwritten⟩ := by
    simp only [reserved, PortPlan.block, hp.count, List.nil_append]
  rw [hblank] at hlays
  obtain ⟨c, hc, hlength, hnodes, hdone⟩ := hlays.writeAll_ok hp.targets
  rw [List.length_nil, Nat.add_zero, LinkBlock.length_flatten h.full, ← h.cursor] at hc
  refine ⟨c, Except.bind_eq_ok.2 ⟨_, hreserve, hc⟩, ?_, hnodes, hdone⟩
  rw [hlength]
  exact List.length_set

/-! ### One node and all nodes -/

/-- **One node.** Plans of one node with ascending ports are laid down side by side. -/
theorem Lays.layDown_node {ps : List PortPlan} {b : LinkTableBuilder} {bs : List LinkBlock}
    (h : b.Lays bs) {a : PackedAddress} (hp : ∀ p ∈ ps, p.Linkable) (ha : ∀ p ∈ ps, p.address = a)
    (hasc : ps.Pairwise fun p q => p.near.port.raw < q.near.port.raw)
    (hc : ∀ p ∈ ps, Continues bs a p.near.port)
    (hroom : extent (bs.map LinkBlock.header) + (ps.map PortPlan.recordCount).sum
      ≤ b.records.length) :
    ∃ c, ps.foldlM PortPlan.layDown b = .ok c ∧ c.records.length = b.records.length ∧
      c.nodes = b.nodes ∧ c.Lays (bs ++ ps.map PortPlan.block) := by
  induction ps generalizing b bs with
  | nil => exact ⟨b, rfl, rfl, rfl, by simpa using h⟩
  | cons p ps ih =>
      rw [List.pairwise_cons] at hasc
      rw [List.map_cons, List.sum_cons] at hroom
      have hpl := hp p (by simp)
      obtain rfl := ha p (by simp)
      obtain ⟨c, hd, hlength, hnodes, hlays⟩ :=
        h.layDown_ok hpl (hc p (by simp)) (by omega)
      obtain ⟨d, hd', hlength', hnodes', hlays'⟩ := ih hlays (fun q hq => hp q (by simp [hq]))
        (fun q hq => ha q (by simp [hq])) hasc.2
        (fun q hq => .inr ⟨p.block, List.getLast?_concat, rfl, hasc.1 q hq⟩)
        (by
          rw [hlength, List.map_append, extent_append, List.map_singleton, extent_cons, extent_nil,
            hpl.blockLength]
          omega)
      refine ⟨d, ?_, hlength'.trans hlength, hnodes'.trans hnodes, ?_⟩
      · rw [List.foldlM_cons]
        exact Except.bind_eq_ok.2 ⟨c, hd, hd'⟩
      · rw [List.map_cons]
        simpa only [List.append_assoc, List.singleton_append] using hlays'

/-- The plans of one node, as far as the builder cares: linkable, of one address, with ascending
ports. -/
structure NodePlans (a : PackedAddress) (ps : List PortPlan) : Prop where
  linkable : ∀ p ∈ ps, p.Linkable
  address : ∀ p ∈ ps, p.address = a
  ascending : ps.Pairwise fun p q => p.near.port.raw < q.near.port.raw

/-- **All nodes.** Plans of different nodes are laid down one node after the other. -/
theorem Lays.layDown_all {α : Type} {nodes : List α} {address : α → PackedAddress}
    {plans : α → List PortPlan} {b : LinkTableBuilder} {bs : List LinkBlock} (h : b.Lays bs)
    (hplans : ∀ x ∈ nodes, NodePlans (address x) (plans x))
    (hdistinct : (nodes.map address).Nodup)
    (hnew : ∀ x ∈ nodes, ∀ y ∈ bs, y.header.address ≠ address x)
    (hroom : extent (bs.map LinkBlock.header)
      + ((nodes.flatMap plans).map PortPlan.recordCount).sum ≤ b.records.length) :
    ∃ c, (nodes.flatMap plans).foldlM PortPlan.layDown b = .ok c ∧
      c.records.length = b.records.length ∧ c.nodes = b.nodes ∧
      c.Lays (bs ++ (nodes.flatMap plans).map PortPlan.block) := by
  induction nodes generalizing b bs with
  | nil => exact ⟨b, rfl, rfl, rfl, by simpa using h⟩
  | cons x nodes ih =>
      rw [List.map_cons, List.nodup_cons] at hdistinct
      rw [List.flatMap_cons, List.map_append, List.sum_append] at hroom
      have hx := hplans x (by simp)
      obtain ⟨c, hd, hlength, hnodes, hlays⟩ := h.layDown_node hx.linkable hx.address hx.ascending
        (fun p _ => .inl (hnew x (by simp))) (by omega)
      have hextent := PortPlan.extent_blocks hx.linkable
      have hnew' : ∀ y ∈ nodes, ∀ z ∈ bs ++ (plans x).map PortPlan.block,
          z.header.address ≠ address y := by
        intro y hy z hz
        rcases List.mem_append.1 hz with hz | hz
        · exact hnew y (by simp [hy]) z hz
        · obtain ⟨p, hp, rfl⟩ := List.mem_map.1 hz
          intro heq
          have hsame : address x = address y := (hx.address p hp).symm.trans heq
          exact hdistinct.1 (List.mem_map.2 ⟨y, hy, hsame.symm⟩)
      obtain ⟨d, hd', hlength', hnodes', hlays'⟩ := ih hlays (fun y hy => hplans y (by simp [hy]))
        hdistinct.2 hnew' (by rw [hlength, List.map_append, extent_append, hextent]; omega)
      refine ⟨d, ?_, hlength'.trans hlength, hnodes'.trans hnodes, ?_⟩
      · rw [List.flatMap_cons, List.foldlM_append]
        exact Except.bind_eq_ok.2 ⟨c, hd, hd'⟩
      · rw [List.flatMap_cons, List.map_append, ← List.append_assoc]
        exact hlays'

end LinkTableBuilder

/-! ### The table -/

open LinkTableBuilder (NodePlans lays_withCapacity pushNodes_ok)

/-- A builder with room for a plan takes the nodes, then takes the plan, and is sealed: no call is
refused, and the records that were set aside are all written. -/
structure LinkTable.LaidDown (nodes : List PackedAddress) (plan : List PortPlan)
    (b c : LinkTableBuilder) (t : LinkTable) : Prop where
  pushed : (LinkTableBuilder.withCapacity nodes.length
    (plan.map PortPlan.recordCount).sum).pushNodes nodes = .ok b
  filled : plan.foldlM PortPlan.layDown b = .ok c
  closed : c.finish = pure (.ok t)
  capacity : c.records.length = (plan.map PortPlan.recordCount).sum
  usedUp : c.cursor = c.records.length
  written : .unwritten ∉ c.records
  nodes : t.nodes = nodes
  records : t.records = c.records

theorem LinkTable.LaidDown.ofPlan_eq {nodes : List PackedAddress} {plan : List PortPlan}
    {b c : LinkTableBuilder} {t : LinkTable} (h : LinkTable.LaidDown nodes plan b c t)
    (stats : CompileStats) :
    LinkTable.ofPlan nodes plan stats = pure (.ok t,
      { stats with headers := plan.length, links := (plan.map (·.targets.length)).sum }) := by
  have hlaid : LinkTableBuilder.ofPlan nodes plan = .ok c :=
    Except.bind_eq_ok.2 ⟨b, h.pushed, h.filled⟩
  unfold LinkTable.ofPlan
  rw [hlaid]
  simp only [h.closed]
  rfl

/-- **The builder never objects** to the plans of different nodes: the table has the nodes, and a
block for each plan. -/
theorem LinkTable.ofPlan_ok {α : Type} (nodes : List α) (address : α → PackedAddress)
    (plans : α → List PortPlan) (hvalid : ∀ x ∈ nodes, (address x).isValid = true)
    (hplans : ∀ x ∈ nodes, NodePlans (address x) (plans x))
    (hdistinct : (nodes.map address).Nodup) :
    ∃ b c t, LinkTable.LaidDown (nodes.map address) (nodes.flatMap plans) b c t ∧
      t.Holds ((nodes.flatMap plans).map PortPlan.block) := by
  have hstart := lays_withCapacity (nodes.map address).length
    ((nodes.flatMap plans).map PortPlan.recordCount).sum
  obtain ⟨b, hb, hlays, hnodes, hlength⟩ := pushNodes_ok hstart
    (fun a ha => by obtain ⟨x, hx, rfl⟩ := List.mem_map.1 ha; exact hvalid x hx)
    (Nat.le_of_eq (Nat.zero_add _))
  have hcapacity : b.records.length = ((nodes.flatMap plans).map PortPlan.recordCount).sum :=
    hlength.trans List.length_replicate
  obtain ⟨c, hc, hlength', hnodes', hdone⟩ := hlays.layDown_all hplans hdistinct
    (fun _ _ _ hy => by cases hy)
    (Nat.le_of_eq (by rw [hcapacity, List.map_nil, extent_nil, Nat.zero_add]))
  rw [List.nil_append] at hdone
  have hlinkable : ∀ p ∈ nodes.flatMap plans, p.Linkable := by
    intro p hp
    obtain ⟨x, hx, hpx⟩ := List.mem_flatMap.1 hp
    exact (hplans x hx).linkable p hpx
  have hextent : c.records.length
      = extent (((nodes.flatMap plans).map PortPlan.block).map LinkBlock.header) := by
    rw [hlength', hcapacity, PortPlan.extent_blocks hlinkable]
  obtain ⟨hwritten, hfinish⟩ := hdone.finish_ok (fun x hx r hr => by
    obtain ⟨p, hp, rfl⟩ := List.mem_map.1 hx
    obtain ⟨e, he, rfl⟩ := List.mem_map.1 hr
    exact LinkTableBuilder.ne_unwritten_of_valid ((hlinkable p hp).targets e he)) hextent
  have hsame : c.nodes = nodes.map address := by
    rw [hnodes', hnodes]
    rfl
  have hholds := (hdone.finish (t := ⟨c.nodes, c.records, c.spans⟩) (by rw [hfinish]; rfl)).1
  exact ⟨b, c, ⟨c.nodes, c.records, c.spans⟩,
    { pushed := hb, filled := hc, closed := hfinish, capacity := hlength'.trans hcapacity
      usedUp := hdone.cursor.trans hextent.symm, written := hwritten, nodes := hsame
      records := rfl }, hholds⟩

end FlowGraph
