import FlowGraph.Proofs.Link.Lookup

/-!
# What a builder of link tables accepts

Nodes are taken as long as there is room for them, a header if it may come next to the headers that
are there, and entries wherever one is waited for.

* `LinkTableBuilder.pushNodes_ok` — nodes.
* `LinkTableBuilder.Continues` — the headers that may come next.
* `LinkTableBuilder.Lays.writeAll_ok` — the entries of the last header.
* `LinkTableBuilder.Lays.finish_ok` — the end.
-/

namespace FlowGraph.LinkTableBuilder

/-! ### Nodes -/

theorem pushNodes_ok {as : List PackedAddress} {b : LinkTableBuilder} {bs : List LinkBlock}
    (h : b.Lays bs) (hvalid : ∀ a ∈ as, a.isValid = true)
    (hroom : b.nodes.length + as.length ≤ b.nodeCapacity) :
    ∃ c, b.pushNodes as = .ok c ∧ c.Lays bs ∧ c.nodes = b.nodes ++ as ∧
      c.records.length = b.records.length := by
  induction as generalizing b with
  | nil => exact ⟨b, rfl, h, (List.append_nil _).symm, rfl⟩
  | cons a as ih =>
      rw [List.length_cons] at hroom
      have hpush := (b.pushNode_ok_iff { b with nodes := b.nodes ++ [a] } a).2
        ⟨hvalid a (by simp), by omega, rfl⟩
      have hrest : (b.nodes ++ [a]).length + as.length ≤ b.nodeCapacity := by
        rw [List.length_append, List.length_singleton]
        omega
      obtain ⟨c, hc, hlays, hnodes, hrecords⟩ := ih (h.pushNode hpush)
        (fun x hx => hvalid x (by simp [hx])) hrest
      refine ⟨c, Except.bind_eq_ok.2 ⟨_, hpush, hc⟩, hlays, ?_, hrecords⟩
      rw [hnodes, List.append_assoc, List.singleton_append]

/-- Nodes that were taken have valid addresses. -/
theorem valid_of_pushNodes {as : List PackedAddress} {b c : LinkTableBuilder}
    (h : b.pushNodes as = .ok c) : ∀ a ∈ as, a.isValid = true := by
  induction as generalizing b with
  | nil => exact fun a ha => absurd ha List.not_mem_nil
  | cons a as ih =>
      obtain ⟨d, hd, hrest⟩ := Except.bind_eq_ok.1 h
      exact List.forall_mem_cons.2 ⟨((b.pushNode_ok_iff d a).1 hd).1, ih hrest⟩

/-! ### Headers -/

/-- What may come next to a row of blocks: a port of a node without blocks, or a higher port of the
node that has the last one. -/
def Continues (bs : List LinkBlock) (a : PackedAddress) (port : PortIndex) : Prop :=
  (∀ x ∈ bs, x.header.address ≠ a) ∨
    ∃ x, bs.getLast? = some x ∧ x.header.address = a ∧ x.header.port.raw < port.raw

theorem Lays.orderError?_eq_none {b : LinkTableBuilder} {bs : List LinkBlock} (h : b.Lays bs)
    {a : PackedAddress} {port : PortIndex} (hc : Continues bs a port) :
    b.orderError? a port = none := by
  rw [orderError?_eq_none_iff, h.last, List.getLast?_map, Option.map_map]
  rcases hc with hnew | ⟨x, hx, rfl, hlt⟩
  · refine .inr ⟨fun q hq => ?_, (h.spans a).eq_none fun k hk => ?_⟩
    · obtain ⟨x, hx, heq⟩ := Option.map_eq_some_iff.1 hq
      exact hnew x (List.mem_of_getLast? hx) (congrArg Prod.fst heq)
    · obtain ⟨x, hx, rfl⟩ := List.mem_map.1 hk
      exact hnew x hx
  · refine .inl ⟨x.header.port, ?_, hlt⟩
    rw [hx]
    rfl

/-- The builder lets exactly those headers come next. -/
theorem Lays.order_ok_iff {b : LinkTableBuilder} {bs : List LinkBlock} (h : b.Lays bs)
    (a : PackedAddress) (port : PortIndex) : b.orderError? a port = none ↔ Continues bs a port := by
  refine ⟨fun horder => ?_, h.orderError?_eq_none⟩
  rcases (b.orderError?_eq_none_iff a port).1 horder with ⟨q, hq, hlt⟩ | ⟨-, hfree⟩
  · rw [h.last, List.getLast?_map, Option.map_map] at hq
    obtain ⟨x, hx, heq⟩ := Option.map_eq_some_iff.1 hq
    have haddress : x.header.address = a := congrArg Prod.fst heq
    have hport : x.header.port = q := congrArg Prod.snd heq
    exact .inr ⟨x, hx, haddress, hport ▸ hlt⟩
  · have hspan := h.spans a
    rw [hfree] at hspan
    cases hspan with
    | absent other => exact .inl fun x hx => other x.header (List.mem_map_of_mem hx)

/-! ### Entries -/

/-- The places of a block that still wait are filled in order, up to the first entry that leads
nowhere. -/
theorem Lays.writeAll_cases {es : List LinkEntry} {b : LinkTableBuilder} {bs : List LinkBlock}
    {header : LinkRecord} {filled : List LinkRecord}
    (h : b.Lays (bs ++ [⟨header, filled ++ List.replicate es.length .unwritten⟩])) :
    (∃ c, (∀ e ∈ es, e.address.isValid = true) ∧
        b.writeAll ((LinkBlock.flatten bs).length + 1 + filled.length) es = .ok c ∧
        c.records.length = b.records.length ∧ c.nodes = b.nodes ∧
        c.Lays (bs ++ [⟨header, filled ++ es.map .ofEntry⟩])) ∨
      ∃ e ∈ es, e.address.isValid = false ∧
        b.writeAll ((LinkBlock.flatten bs).length + 1 + filled.length) es
          = .error (.invalidAddress e.address) := by
  induction es generalizing b filled with
  | nil => exact .inl ⟨b, by simp, rfl, rfl, rfl, h⟩
  | cons e es ih =>
      cases he : e.address.isValid with
      | false =>
          have hwrite : ∀ i, b.write i e = .error (.invalidAddress e.address) := by
            intro i
            rw [LinkTableBuilder.write, he]
            rfl
          refine .inr ⟨e, by simp, he, ?_⟩
          rw [LinkTableBuilder.writeAll, hwrite]
          rfl
      | true =>
          have hget : (filled
              ++ List.replicate (e :: es).length LinkRecord.unwritten)[filled.length]?
                = some .unwritten := by
            rw [List.getElem?_append_right (Nat.le_refl _), Nat.sub_self]
            rfl
          obtain ⟨c, hc, hlength, hnodes, hlays⟩ := h.write_at hget he
          have hset : (filled ++ List.replicate (e :: es).length LinkRecord.unwritten).set
                filled.length (.ofEntry e)
              = (filled ++ [.ofEntry e]) ++ List.replicate es.length .unwritten := by
            rw [List.set_append_right _ _ (Nat.le_refl _), Nat.sub_self, List.length_cons,
              List.replicate_succ, List.set_cons_zero, List.append_assoc, List.singleton_append]
          simp only [LinkBlock.fill, hset] at hlays
          have hrest := ih hlays
          rw [List.length_append, List.length_singleton, ← Nat.add_assoc] at hrest
          rcases hrest with ⟨d, hvalid, hd, hlength', hnodes', hlays'⟩ | ⟨x, hx, hbad, hd⟩
          · refine .inl ⟨d, ?_, Except.bind_eq_ok.2 ⟨c, hc, hd⟩, hlength'.trans hlength,
              hnodes'.trans hnodes, ?_⟩
            · exact List.forall_mem_cons.2 ⟨he, hvalid⟩
            · rw [List.map_cons]
              simpa only [List.append_assoc, List.singleton_append] using hlays'
          · refine .inr ⟨x, by simp [hx], hbad, ?_⟩
            rw [LinkTableBuilder.writeAll, hc]
            exact hd

/-- Entries that all lead somewhere fill the places that wait for them. -/
theorem Lays.writeAll_ok {es : List LinkEntry} {b : LinkTableBuilder} {bs : List LinkBlock}
    {header : LinkRecord} {filled : List LinkRecord}
    (h : b.Lays (bs ++ [⟨header, filled ++ List.replicate es.length .unwritten⟩]))
    (hvalid : ∀ e ∈ es, e.address.isValid = true) :
    ∃ c, b.writeAll ((LinkBlock.flatten bs).length + 1 + filled.length) es = .ok c ∧
      c.records.length = b.records.length ∧ c.nodes = b.nodes ∧
      c.Lays (bs ++ [⟨header, filled ++ es.map .ofEntry⟩]) := by
  rcases h.writeAll_cases with ⟨c, -, hc⟩ | ⟨e, he, hbad, -⟩
  · exact ⟨c, hc⟩
  · rw [hvalid e he] at hbad
    cases hbad

/-! ### The end -/

/-- A builder all of whose entries are filled and whose room is used up is sealed as it is. -/
theorem Lays.finish_ok {b : LinkTableBuilder} {bs : List LinkBlock} (h : b.Lays bs)
    (hfilled : ∀ x ∈ bs, ∀ r ∈ x.entries, r ≠ .unwritten)
    (hroom : b.records.length = extent (bs.map LinkBlock.header)) :
    .unwritten ∉ b.records ∧ b.finish = pure (.ok ⟨b.nodes, b.records, b.spans⟩) := by
  have hnone : .unwritten ∉ LinkBlock.flatten bs := by
    have hfull := h.full
    clear h hroom
    induction bs with
    | nil => exact List.not_mem_nil
    | cons x bs ih =>
        rw [LinkBlock.flatten, List.mem_cons, List.mem_append]
        rintro (heq | hmem | hmem)
        · exact ne_unwritten_of_valid (hfull x (by simp)).valid heq.symm
        · exact hfilled x (by simp) _ hmem rfl
        · exact ih (fun y hy => hfilled y (by simp [hy])) (fun y hy => hfull y (by simp [hy])) hmem
  have hzero : b.unfilled = 0 := by
    rw [h.unfilled]
    exact List.count_eq_zero.2 hnone
  have hrecords : b.records = LinkBlock.flatten bs := by
    obtain ⟨room, hroom'⟩ := h.records
    have hlength := congrArg List.length hroom'
    rw [hroom, List.length_append, LinkBlock.length_flatten h.full,
      List.length_replicate] at hlength
    have hnothing : room = 0 := by omega
    rw [hroom', hnothing, List.replicate_zero, List.append_nil]
  refine ⟨hrecords ▸ hnone, ?_⟩
  have hcursor : b.cursor = b.records.length := h.cursor.trans hroom.symm
  unfold LinkTableBuilder.finish
  rw [if_neg (by omega), if_neg (by omega), hcursor, List.take_length]
  rfl

end FlowGraph.LinkTableBuilder
