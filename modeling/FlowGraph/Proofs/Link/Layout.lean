import FlowGraph.Link.Image

/-!
# How records lie in a link table

The records of a table under construction are a row of blocks, each a header followed by as many
entries as it announces, and behind them the room that is left. The headers of one address stand
side by side with ascending ports, and the index knows where they begin and end.

* `LinkBlock`, `LinkBlock.flatten` — blocks and the records that they make up.
* `Spanned` — what an index may say of an address, given the row of headers.
* `LinkTableBuilder.Lays` — the invariant of the builder: which blocks it has laid down.
* `LinkTableBuilder.Lays.reserve`, `write`, `pushNode` — each accepted call keeps it.
* `LinkTable.Holds`, `LinkTableBuilder.Lays.finish` — what a sealed table is made of.
-/

namespace FlowGraph

/-! ### Blocks -/

/-- A header and the records behind it that are its entries. -/
structure LinkBlock where
  header : LinkRecord
  entries : List LinkRecord

/-- The places that a row of headers takes up, entries included. -/
def extent (hs : List LinkRecord) : Nat := (hs.map LinkRecord.blockLength).sum

@[simp] theorem extent_nil : extent [] = 0 := rfl

@[simp] theorem extent_cons (h : LinkRecord) (hs : List LinkRecord) :
    extent (h :: hs) = h.blockLength + extent hs := by
  simp only [extent, List.map_cons, List.sum_cons]

@[simp] theorem extent_append (hs ks : List LinkRecord) :
    extent (hs ++ ks) = extent hs + extent ks := by
  simp only [extent, List.map_append, List.sum_append]

theorem extent_eq (hs : List LinkRecord) :
    extent hs = (hs.map (·.count.toNat)).sum + hs.length := by
  induction hs with
  | nil => rfl
  | cons h hs ih =>
      rw [extent_cons, ih, LinkRecord.blockLength, List.map_cons, List.sum_cons, List.length_cons]
      omega

namespace LinkBlock

/-- A block whose header can have been reserved, with an entry for each place announced. -/
structure Full (b : LinkBlock) : Prop where
  valid : b.header.address.isValid = true
  positive : 0 < b.header.count.toNat
  length : b.entries.length = b.header.count.toNat

/-- The records of a row of blocks. -/
def flatten : List LinkBlock → List LinkRecord
  | [] => []
  | b :: bs => b.header :: (b.entries ++ flatten bs)

theorem flatten_append (bs cs : List LinkBlock) :
    flatten (bs ++ cs) = flatten bs ++ flatten cs := by
  induction bs with
  | nil => rfl
  | cons b bs ih => simp only [List.cons_append, flatten, ih, List.append_assoc]

theorem flatten_eq_flatMap (bs : List LinkBlock) :
    flatten bs = bs.flatMap fun x => x.header :: x.entries := by
  induction bs with
  | nil => rfl
  | cons b bs ih => rw [flatten, ih, List.flatMap_cons, List.cons_append]

theorem length_flatten {bs : List LinkBlock} (h : ∀ b ∈ bs, b.Full) :
    (flatten bs).length = extent (bs.map header) := by
  induction bs with
  | nil => rfl
  | cons b bs ih =>
      have hb := (h b (by simp)).length
      have hbs := ih fun c hc => h c (by simp [hc])
      simp only [flatten, List.map_cons, extent_cons, LinkRecord.blockLength, List.length_cons,
        List.length_append, hb, hbs]
      omega

/-- The records of a row of blocks, around the entries of one of them. -/
theorem flatten_middle (pre post : List LinkBlock) (b : LinkBlock) :
    flatten (pre ++ b :: post) = (flatten pre ++ [b.header]) ++ (b.entries ++ flatten post) := by
  simp only [flatten_append, flatten, List.append_assoc, List.cons_append, List.nil_append]

theorem length_before_entries (pre : List LinkBlock) (b : LinkBlock) :
    (flatten pre ++ [b.header]).length = (flatten pre).length + 1 := by
  rw [List.length_append, List.length_singleton]

/-- A block with another record for one of its entries. -/
def fill (b : LinkBlock) (k : Nat) (r : LinkRecord) : LinkBlock :=
  { b with entries := b.entries.set k r }

/-- Filling an entry of a block is writing one record of the row. -/
theorem flatten_fill (pre post : List LinkBlock) (b : LinkBlock) {k : Nat}
    (hk : k < b.entries.length) (r : LinkRecord) (rest : List LinkRecord) :
    (flatten (pre ++ b :: post) ++ rest).set ((flatten pre).length + 1 + k) r
      = flatten (pre ++ b.fill k r :: post) ++ rest := by
  rw [flatten_middle, flatten_middle, List.append_assoc, List.append_assoc b.entries,
    List.set_append_right _ _ (by rw [length_before_entries]; omega), length_before_entries,
    Nat.add_sub_cancel_left, List.set_append_left _ _ hk, List.append_assoc _ _ rest,
    List.append_assoc _ _ rest]
  rfl

theorem headers_fill (pre post : List LinkBlock) (b : LinkBlock) (k : Nat) (r : LinkRecord) :
    (pre ++ b.fill k r :: post).map header = (pre ++ b :: post).map header := by
  simp only [List.map_append, List.map_cons, fill]

/-- A record that waits for its entry is one fewer once it is filled. -/
theorem count_fill (pre post : List LinkBlock) (b : LinkBlock) {k : Nat} {r x : LinkRecord}
    (hk : b.entries[k]? = some x) (hr : r ≠ x) :
    (flatten (pre ++ b.fill k r :: post)).count x
      = (flatten (pre ++ b :: post)).count x - 1 := by
  obtain ⟨hlt, hold⟩ := List.getElem?_eq_some_iff.1 hk
  have hcount : (b.entries.set k r).count x = b.entries.count x - 1 := by
    rw [List.count_set hlt, hold]
    simp [hr]
  have hpos : 0 < b.entries.count x := List.count_pos_iff.2 (List.mem_of_getElem? hk)
  rw [flatten_middle, flatten_middle]
  simp only [List.count_append, fill, hcount]
  omega

theorem Full.fill {b : LinkBlock} (h : b.Full) (k : Nat) (r : LinkRecord) : (b.fill k r).Full where
  valid := h.valid
  positive := h.positive
  length := List.length_set.trans h.length

/-- Every place in a row of blocks is a header's or an entry's. -/
theorem place_cases (bs : List LinkBlock) (i : Nat) (hi : i < (flatten bs).length) :
    ∃ pre b post, bs = pre ++ b :: post ∧
      (i = (flatten pre).length ∨
        ∃ k, k < b.entries.length ∧ i = (flatten pre).length + 1 + k) := by
  induction bs generalizing i with
  | nil => simp [flatten] at hi
  | cons b bs ih =>
      simp only [flatten, List.length_cons, List.length_append] at hi
      rcases Nat.lt_or_ge i (b.entries.length + 1) with hlt | hge
      · refine ⟨[], b, bs, rfl, ?_⟩
        rcases Nat.eq_zero_or_pos i with rfl | hpos
        · exact .inl rfl
        · exact .inr ⟨i - 1, by omega, by simp only [flatten, List.length_nil]; omega⟩
      · obtain ⟨pre, c, post, rfl, hplace⟩ := ih (i - (b.entries.length + 1)) (by omega)
        refine ⟨b :: pre, c, post, rfl, ?_⟩
        simp only [flatten, List.length_cons, List.length_append]
        rcases hplace with heq | ⟨k, hk, heq⟩
        · exact .inl (by omega)
        · exact .inr ⟨k, hk, by omega⟩

end LinkBlock

/-! ### What an index may say -/

/-- What an index may say of an address, given the row of headers: that no header is the address's,
or where its headers begin and end, if they stand side by side with ascending ports. -/
inductive Spanned (hs : List LinkRecord) (a : PackedAddress) : Option NodeSpan → Prop
  | absent (other : ∀ h ∈ hs, h.address ≠ a) : Spanned hs a none
  | group (pre grp post : List LinkRecord) (split : hs = pre ++ grp ++ post)
      (present : grp ≠ []) (before : ∀ h ∈ pre, h.address ≠ a) (behind : ∀ h ∈ post, h.address ≠ a)
      (own : ∀ h ∈ grp, h.address = a)
      (ascending : grp.Pairwise fun h k => h.port.raw < k.port.raw) :
      Spanned hs a (some ⟨extent pre, extent pre + extent grp⟩)

/-- An address without headers has no span. -/
theorem Spanned.eq_none {hs : List LinkRecord} {a : PackedAddress} {s : Option NodeSpan}
    (h : Spanned hs a s) (hother : ∀ k ∈ hs, k.address ≠ a) : s = none := by
  cases h with
  | absent other => rfl
  | group pre grp post split present before behind own ascending =>
      obtain ⟨k, rest, hk⟩ := List.exists_cons_of_ne_nil present
      exact absurd (own k (by simp [hk])) (hother k (by simp [split, hk]))

/-- A header of another address leaves the span as it is. -/
theorem Spanned.append_other {hs : List LinkRecord} {a : PackedAddress} {s : Option NodeSpan}
    (h : Spanned hs a s) {k : LinkRecord} (hk : k.address ≠ a) : Spanned (hs ++ [k]) a s := by
  have hsplit : ∀ x ∈ [k], x.address ≠ a := by
    intro x hx
    rw [List.mem_singleton.1 hx]
    exact hk
  cases h with
  | absent other =>
      refine .absent fun x hx => ?_
      rcases List.mem_append.1 hx with hx | hx
      · exact other x hx
      · exact hsplit x hx
  | group pre grp post split present before behind own ascending =>
      refine .group pre grp (post ++ [k]) (by rw [split, List.append_assoc (pre ++ grp)])
        present before (fun x hx => ?_) own ascending
      rcases List.mem_append.1 hx with hx | hx
      · exact behind x hx
      · exact hsplit x hx

/-- The first header of an address starts a span of its own. -/
theorem Spanned.append_first {hs : List LinkRecord} {k : LinkRecord}
    (h : Spanned hs k.address none) :
    Spanned (hs ++ [k]) k.address (some ⟨extent hs, extent hs + k.blockLength⟩) := by
  cases h with
  | absent other =>
      have hgroup : Spanned (hs ++ [k]) k.address _ := .group hs [k] [] (by simp) (by simp)
        other (by simp) (by simp) (List.pairwise_singleton _ _)
      simpa only [extent_cons, extent_nil, Nat.add_zero] using hgroup

/-- A header behind the last one of its address, for a higher port, extends the span. -/
theorem Spanned.append_next {hs : List LinkRecord} {k last : LinkRecord} {s : NodeSpan}
    (h : Spanned hs k.address (some s)) (hlast : hs.getLast? = some last)
    (hown : last.address = k.address) (hport : last.port.raw < k.port.raw) :
    Spanned (hs ++ [k]) k.address (some ⟨s.start, extent hs + k.blockLength⟩) := by
  cases h with
  | group pre grp post split present before behind own ascending =>
      -- The last header is the address's own, so nothing can stand behind the group.
      have hpost : post = [] := by
        rcases List.eq_nil_or_concat post with hnil | ⟨init, x, hx⟩
        · exact hnil
        · rw [List.concat_eq_append] at hx
          rw [split, hx, ← List.append_assoc, List.getLast?_concat] at hlast
          exact absurd ((Option.some.inj hlast) ▸ hown) (behind x (by simp [hx]))
      subst hpost
      rw [List.append_nil] at split
      have hbelow : ∀ x ∈ grp, x.port.raw < k.port.raw := by
        intro x hx
        rcases List.eq_nil_or_concat grp with hnil | ⟨init, y, hy⟩
        · simp [hnil] at hx
        · rw [List.concat_eq_append] at hy
          rw [split, hy, ← List.append_assoc, List.getLast?_concat] at hlast
          have hylast := Option.some.inj hlast
          rw [hy] at hx ascending
          rcases List.mem_append.1 hx with hx | hx
          · have hxy := (List.pairwise_append.1 ascending).2.2 x hx y (by simp)
            rw [hylast] at hxy
            exact UInt32.lt_trans hxy hport
          · rw [List.mem_singleton.1 hx, hylast]
            exact hport
      have hgroup : Spanned (hs ++ [k]) k.address _ := .group pre (grp ++ [k]) []
        (by rw [split]; simp) (by simp) before (by simp)
        (fun x hx => by
          rcases List.mem_append.1 hx with hx | hx
          · exact own x hx
          · rw [List.mem_singleton.1 hx])
        (List.pairwise_append.2 ⟨ascending, List.pairwise_singleton _ _, fun x hx y hy => by
          rw [List.mem_singleton.1 hy]
          exact hbelow x hx⟩)
      rw [split]
      simpa only [extent_append, extent_cons, extent_nil, Nat.add_zero, Nat.add_assoc,
        split] using hgroup

/-! ### The builder -/

namespace LinkTableBuilder

/-- **The invariant of the builder.** It has laid down these blocks: places that wait for an entry
hold the unwritten record, all others a header or a valid entry. -/
structure Lays (b : LinkTableBuilder) (bs : List LinkBlock) : Prop where
  full : ∀ x ∈ bs, x.Full
  entries : ∀ x ∈ bs, ∀ r ∈ x.entries,
    r = .unwritten ∨ (r.address.isValid = true ∧ r.count = 0)
  cursor : b.cursor = extent (bs.map LinkBlock.header)
  records : ∃ room, b.records = LinkBlock.flatten bs ++ List.replicate room .unwritten
  unfilled : b.unfilled = (LinkBlock.flatten bs).count .unwritten
  last : b.last = (bs.map LinkBlock.header).getLast?.map fun x => (x.address, x.port)
  spans : ∀ a, Spanned (bs.map LinkBlock.header) a (b.spans.find? a)

theorem lays_withCapacity (nodes records : Nat) : (withCapacity nodes records).Lays [] where
  full := by simp
  entries := by simp
  cursor := rfl
  records := ⟨records, rfl⟩
  unfilled := rfl
  last := rfl
  spans _ := .absent (by simp)

/-! #### Nodes -/

theorem pushNode_ok_iff (b c : LinkTableBuilder) (a : PackedAddress) :
    b.pushNode a = .ok c ↔
      a.isValid = true ∧ b.nodes.length ≠ b.nodeCapacity ∧
        c = { b with nodes := b.nodes ++ [a] } := by
  unfold pushNode
  cases a.isValid with
  | false => simp
  | true =>
      by_cases hroom : b.nodes.length = b.nodeCapacity
      · simp [hroom]
      · simp [hroom, eq_comm]

theorem Lays.pushNode {b c : LinkTableBuilder} {bs : List LinkBlock} (h : b.Lays bs)
    {a : PackedAddress} (hc : b.pushNode a = .ok c) : c.Lays bs := by
  obtain ⟨-, -, rfl⟩ := (b.pushNode_ok_iff c a).1 hc
  exact { h with }

/-! #### Headers -/

theorem orderError?_eq_none_iff (b : LinkTableBuilder) (a : PackedAddress) (port : PortIndex) :
    b.orderError? a port = none ↔
      (∃ q, b.last = some (a, q) ∧ q.raw < port.raw) ∨
        ((∀ q, b.last ≠ some (a, q)) ∧ b.spans.find? a = none) := by
  unfold orderError?
  have hfresh : (if b.spans.contains a then some (LinkTableError.nonContiguous a) else none) = none
      ↔ b.spans.find? a = none := by
    unfold Table.contains
    cases b.spans.find? a <;> simp
  cases hl : b.last with
  | none =>
      simp only [hfresh]
      simp
  | some l =>
      obtain ⟨x, q⟩ := l
      by_cases hx : x = a
      · subst hx
        simp [UInt32.not_le]
      · simp only [hx, if_false, hfresh]
        simp [hx]

theorem reserve_ok_iff (b c : LinkTableBuilder) (a : PackedAddress) (port : PortIndex)
    (kind : PortKind) (count : UInt32) (i : Nat) :
    b.reserve a port kind count = .ok (i, c) ↔
      a.isValid = true ∧ count ≠ 0 ∧ b.orderError? a port = none ∧
        b.cursor + (count.toNat + 1) ≤ b.records.length ∧ i = b.cursor + 1 ∧
        c = { b with
          records := b.records.set b.cursor ⟨a, port, kind, count⟩
          cursor := b.cursor + (count.toNat + 1)
          spans := extendSpan b.spans a b.cursor (b.cursor + (count.toNat + 1))
          last := some (a, port)
          unfilled := b.unfilled + count.toNat } := by
  unfold reserve
  cases a.isValid with
  | false => simp
  | true =>
      by_cases hzero : count = 0
      · simp [hzero]
      · cases horder : b.orderError? a port with
        | some e => simp [hzero]
        | none =>
            by_cases hroom : b.records.length < b.cursor + (count.toNat + 1)
            · simp only [hzero, hroom, Bool.not_true, Bool.false_eq_true, if_false, if_true,
                reduceCtorEq, false_iff, not_and]
              intro _ _ _ hle
              omega
            · simp only [hzero, hroom, Bool.not_true, Bool.false_eq_true, if_false,
                Except.ok.injEq, Prod.mk.injEq, ne_eq, not_false_eq_true, true_and]
              constructor
              · rintro ⟨rfl, rfl⟩
                exact ⟨by omega, rfl, rfl⟩
              · rintro ⟨-, rfl, rfl⟩
                exact ⟨rfl, rfl⟩

theorem find?_extendSpan (spans : Table PackedAddress NodeSpan) (a x : PackedAddress)
    (start stop : Nat) :
    (extendSpan spans a start stop).find? x =
      if x = a then some ⟨((spans.find? a).map NodeSpan.start).getD start, stop⟩
      else spans.find? x := by
  unfold extendSpan
  cases h : spans.find? a with
  | none => rw [Table.find?_insert]; rfl
  | some s => rw [Table.find?_insert]; rfl

/-- The block that a header starts out with: none of its entries is there yet. -/
def reserved (header : LinkRecord) : LinkBlock :=
  ⟨header, List.replicate header.count.toNat .unwritten⟩

theorem ne_unwritten_of_valid {r : LinkRecord} (h : r.address.isValid = true) :
    r ≠ .unwritten := by
  intro hr
  rw [hr] at h
  exact absurd h (by decide)

theorem flatten_reserved (bs : List LinkBlock) (header : LinkRecord) :
    LinkBlock.flatten (bs ++ [reserved header]) = LinkBlock.flatten bs
      ++ header :: List.replicate header.count.toNat .unwritten := by
  simp only [LinkBlock.flatten_append, LinkBlock.flatten, reserved, List.append_nil]

theorem headers_reserved (bs : List LinkBlock) (header : LinkRecord) :
    (bs ++ [reserved header]).map LinkBlock.header = bs.map LinkBlock.header ++ [header] := by
  simp only [List.map_append, List.map_cons, List.map_nil, reserved]

/-- A header written at the start of the room takes the places of its entries along. -/
theorem set_room (bs : List LinkBlock) (header : LinkRecord) {room : Nat}
    (hroom : header.count.toNat + 1 ≤ room) :
    (LinkBlock.flatten bs ++ List.replicate room LinkRecord.unwritten).set
        (LinkBlock.flatten bs).length header
      = LinkBlock.flatten (bs ++ [reserved header])
        ++ List.replicate (room - (header.count.toNat + 1)) .unwritten := by
  have hsplit : List.replicate room LinkRecord.unwritten
      = .unwritten :: (List.replicate header.count.toNat .unwritten
          ++ List.replicate (room - (header.count.toNat + 1)) .unwritten) := by
    rw [List.replicate_append_replicate, ← List.replicate_succ]
    congr 1
    omega
  rw [List.set_append_right _ _ (Nat.le_refl _), Nat.sub_self, hsplit, List.set_cons_zero,
    flatten_reserved, List.append_assoc, List.cons_append]

/-- The builder checks exactly what the span of a new header needs. -/
theorem Lays.spanned_reserved {b : LinkTableBuilder} {bs : List LinkBlock} (h : b.Lays bs)
    {r : LinkRecord} (horder : b.orderError? r.address r.port = none) :
    Spanned (bs.map LinkBlock.header ++ [r]) r.address
      (some ⟨((b.spans.find? r.address).map NodeSpan.start).getD b.cursor,
        b.cursor + r.blockLength⟩) := by
  have hspan := h.spans r.address
  rw [h.cursor]
  rcases (b.orderError?_eq_none_iff _ _).1 horder with ⟨q, hq, hlt⟩ | ⟨-, hfree⟩
  · rw [h.last, Option.map_eq_some_iff] at hq
    obtain ⟨y, hy, hyq⟩ := hq
    have hown : y.address = r.address := congrArg Prod.fst hyq
    have hport : y.port = q := congrArg Prod.snd hyq
    cases hs : b.spans.find? r.address with
    | none =>
        rw [hs] at hspan
        cases hspan with
        | absent other => exact absurd hown (other y (List.mem_of_getLast? hy))
    | some s =>
        rw [hs] at hspan
        exact hspan.append_next hy hown (hport ▸ hlt)
  · rw [hfree] at hspan ⊢
    exact hspan.append_first

theorem Lays.reserve {b c : LinkTableBuilder} {bs : List LinkBlock} (h : b.Lays bs)
    {a : PackedAddress} {port : PortIndex} {kind : PortKind} {count : UInt32} {i : Nat}
    (hc : b.reserve a port kind count = .ok (i, c)) :
    c.Lays (bs ++ [reserved ⟨a, port, kind, count⟩]) := by
  obtain ⟨hvalid, hzero, horder, hroom, -, rfl⟩ := (b.reserve_ok_iff c a port kind count i).1 hc
  have hpos : 0 < count.toNat := by
    rcases Nat.eq_zero_or_pos count.toNat with h0 | hpos
    · exact absurd (UInt32.toNat_inj.1 h0) hzero
    · exact hpos
  have hne := ne_unwritten_of_valid (r := ⟨a, port, kind, count⟩) hvalid
  obtain ⟨room, hrecords⟩ := h.records
  have hcursor : b.cursor = (LinkBlock.flatten bs).length := by
    rw [h.cursor, LinkBlock.length_flatten h.full]
  have hsize : count.toNat + 1 ≤ room := by
    rw [hrecords, List.length_append, List.length_replicate, ← hcursor] at hroom
    omega
  refine
    { full := fun x hx => ?_
      entries := fun x hx r hr => ?_
      cursor := ?_
      records := ⟨room - (count.toNat + 1), ?_⟩
      unfilled := ?_
      last := ?_
      spans := fun x => ?_ }
  · rcases List.mem_append.1 hx with hx | hx
    · exact h.full x hx
    · rw [List.mem_singleton.1 hx]
      exact ⟨hvalid, hpos, List.length_replicate⟩
  · rcases List.mem_append.1 hx with hx | hx
    · exact h.entries x hx r hr
    · rw [List.mem_singleton.1 hx] at hr
      exact .inl (List.eq_of_mem_replicate hr)
  · rw [headers_reserved, extent_append, ← h.cursor, extent_cons, extent_nil]
    rfl
  · show b.records.set b.cursor _ = _
    rw [hrecords, hcursor]
    exact set_room bs ⟨a, port, kind, count⟩ hsize
  · rw [flatten_reserved, List.count_append, ← h.unfilled, List.count_cons_of_ne hne,
      List.count_replicate_self]
  · rw [headers_reserved, List.getLast?_concat]
    rfl
  · rw [headers_reserved, find?_extendSpan]
    split
    · next hxa =>
      subst hxa
      exact h.spanned_reserved (r := ⟨x, port, kind, count⟩) horder
    · next hxa => exact (h.spans x).append_other fun heq => hxa heq.symm

/-! #### Entries -/

theorem write_ok_iff (b c : LinkTableBuilder) (i : Nat) (e : LinkEntry) :
    b.write i e = .ok c ↔
      e.address.isValid = true ∧ i < b.cursor ∧ b.records[i]? = some .unwritten ∧
        c = { b with records := b.records.set i (.ofEntry e), unfilled := b.unfilled - 1 } := by
  unfold write
  cases e.address.isValid with
  | false => simp
  | true =>
      by_cases hplace : b.cursor ≤ i ∨ b.records[i]? ≠ some .unwritten
      · simp only [hplace, Bool.not_true, Bool.false_eq_true, if_false, if_true, reduceCtorEq,
          false_iff, not_and]
        intro _ hlt hrecord
        rcases hplace with hle | hne
        · omega
        · exact absurd hrecord hne
      · simp only [hplace, Bool.not_true, Bool.false_eq_true, if_false, Except.ok.injEq, true_and]
        simp only [not_or, Nat.not_le, ne_eq, Decidable.not_not] at hplace
        constructor
        · rintro rfl
          exact ⟨hplace.1, hplace.2, rfl⟩
        · rintro ⟨-, -, rfl⟩
          rfl

/-- The record at the place of a header. -/
theorem Lays.getElem?_header {b : LinkTableBuilder} {pre post : List LinkBlock} {x : LinkBlock}
    (h : b.Lays (pre ++ x :: post)) :
    b.records[(LinkBlock.flatten pre).length]? = some x.header := by
  obtain ⟨room, hrecords⟩ := h.records
  rw [hrecords, LinkBlock.flatten_append, List.append_assoc,
    List.getElem?_append_right (Nat.le_refl _), Nat.sub_self]
  rfl

/-- The record at the place of an entry. -/
theorem Lays.getElem?_entry {b : LinkTableBuilder} {pre post : List LinkBlock} {x : LinkBlock}
    (h : b.Lays (pre ++ x :: post)) {k : Nat} (hk : k < x.entries.length) :
    b.records[(LinkBlock.flatten pre).length + 1 + k]? = x.entries[k]? := by
  obtain ⟨room, hrecords⟩ := h.records
  rw [hrecords, LinkBlock.flatten_middle, List.append_assoc,
    List.getElem?_append_right (by rw [LinkBlock.length_before_entries]; omega),
    LinkBlock.length_before_entries, Nat.add_sub_cancel_left, List.append_assoc,
    List.getElem?_append_left hk]

theorem Lays.entry_lt_cursor {b : LinkTableBuilder} {pre post : List LinkBlock} {x : LinkBlock}
    (h : b.Lays (pre ++ x :: post)) {k : Nat} (hk : k < x.entries.length) :
    (LinkBlock.flatten pre).length + 1 + k < b.cursor := by
  have hlength := LinkBlock.length_flatten h.full
  rw [← h.cursor, LinkBlock.flatten_middle, List.length_append, LinkBlock.length_before_entries,
    List.length_append] at hlength
  omega

/-- A place of a laid down block that still waits for its entry takes any valid one. -/
theorem Lays.write_at {b : LinkTableBuilder} {pre post : List LinkBlock} {x : LinkBlock}
    (h : b.Lays (pre ++ x :: post)) {k : Nat} (hk : x.entries[k]? = some .unwritten)
    {e : LinkEntry} (he : e.address.isValid = true) :
    ∃ c, b.write ((LinkBlock.flatten pre).length + 1 + k) e = .ok c ∧
      c.records.length = b.records.length ∧ c.nodes = b.nodes ∧
      c.Lays (pre ++ x.fill k (.ofEntry e) :: post) := by
  obtain ⟨room, hrecords⟩ := h.records
  have hklt : k < x.entries.length := (List.getElem?_eq_some_iff.1 hk).1
  refine ⟨_, (b.write_ok_iff _ _ e).2
    ⟨he, h.entry_lt_cursor hklt, (h.getElem?_entry hklt).trans hk, rfl⟩, List.length_set, rfl, ?_⟩
  refine
    { full := fun y hy => ?_
      entries := fun y hy r hr => ?_
      cursor := ?_
      records := ⟨room, ?_⟩
      unfilled := ?_
      last := ?_
      spans := fun a => ?_ }
  · rcases List.mem_append.1 hy with hy | hy
    · exact h.full y (List.mem_append_left _ hy)
    · rcases List.mem_cons.1 hy with rfl | hy
      · exact (h.full x (by simp)).fill k _
      · exact h.full y (by simp [hy])
  · rcases List.mem_append.1 hy with hy | hy
    · exact h.entries y (List.mem_append_left _ hy) r hr
    · rcases List.mem_cons.1 hy with rfl | hy
      · rcases List.mem_or_eq_of_mem_set hr with hr | rfl
        · exact h.entries x (by simp) r hr
        · exact .inr ⟨he, rfl⟩
      · exact h.entries y (by simp [hy]) r hr
  · rw [LinkBlock.headers_fill]
    exact h.cursor
  · show b.records.set _ _ = _
    rw [hrecords, LinkBlock.flatten_fill pre post x hklt]
  · show b.unfilled - 1 = _
    have hne : LinkRecord.ofEntry e ≠ .unwritten := ne_unwritten_of_valid (r := .ofEntry e) he
    rw [LinkBlock.count_fill pre post x hk hne, h.unfilled]
  · rw [LinkBlock.headers_fill]
    exact h.last
  · rw [LinkBlock.headers_fill]
    exact h.spans a

/-- A call that fills an entry finds one of a laid down block waiting. -/
theorem Lays.write {b c : LinkTableBuilder} {bs : List LinkBlock} (h : b.Lays bs) {i : Nat}
    {e : LinkEntry} (hc : b.write i e = .ok c) : ∃ cs, c.Lays cs := by
  obtain ⟨he, hlt, hget, -⟩ := (b.write_ok_iff c i e).1 hc
  rw [h.cursor, ← LinkBlock.length_flatten h.full] at hlt
  obtain ⟨pre, x, post, rfl, hplace⟩ := LinkBlock.place_cases bs i hlt
  rcases hplace with rfl | ⟨k, hk, rfl⟩
  · have hvalid := (h.full x (by simp)).valid
    rw [h.getElem?_header] at hget
    exact absurd (Option.some.inj hget) (ne_unwritten_of_valid hvalid)
  · have hentry : x.entries[k]? = some .unwritten := (h.getElem?_entry hk).symm.trans hget
    obtain ⟨d, hd, -, -, hlays⟩ := h.write_at hentry he
    rw [hc] at hd
    cases hd
    exact ⟨_, hlays⟩

/-! #### Runs of calls -/

/-- A call of the builder. -/
inductive Call
  | pushNode (a : PackedAddress)
  | reserve (a : PackedAddress) (port : PortIndex) (kind : PortKind) (count : UInt32)
  | write (i : Nat) (e : LinkEntry)

/-- The builder after a call; a call that fails leaves it as it was. -/
def attempt (b : LinkTableBuilder) : Call → LinkTableBuilder
  | .pushNode a => (b.pushNode a).toOption.getD b
  | .reserve a port kind count => ((b.reserve a port kind count).toOption.map Prod.snd).getD b
  | .write i e => (b.write i e).toOption.getD b

/-- **Step.** Accepted or not, a call leaves a row of blocks laid down. -/
theorem Lays.attempt {b : LinkTableBuilder} {bs : List LinkBlock} (h : b.Lays bs) (call : Call) :
    ∃ cs, (b.attempt call).Lays cs := by
  cases call with
  | pushNode a =>
      show ∃ cs, Lays ((b.pushNode a).toOption.getD b) cs
      cases hc : b.pushNode a with
      | error e => exact ⟨bs, h⟩
      | ok c => exact ⟨bs, h.pushNode hc⟩
  | reserve a port kind count =>
      show ∃ cs, Lays (((b.reserve a port kind count).toOption.map Prod.snd).getD b) cs
      cases hc : b.reserve a port kind count with
      | error e => exact ⟨bs, h⟩
      | ok r => exact ⟨_, h.reserve hc⟩
  | write i e =>
      show ∃ cs, Lays ((b.write i e).toOption.getD b) cs
      cases hc : b.write i e with
      | error e => exact ⟨bs, h⟩
      | ok c => exact h.write hc

/-- **Run.** After any calls, a row of blocks is laid down. -/
theorem lays_foldl_attempt (nodes records : Nat) (calls : List Call) :
    ∃ bs, (calls.foldl LinkTableBuilder.attempt (withCapacity nodes records)).Lays bs := by
  have hrun : ∀ (calls : List Call) (b : LinkTableBuilder) (bs : List LinkBlock), b.Lays bs →
      ∃ cs, (calls.foldl LinkTableBuilder.attempt b).Lays cs := by
    intro calls
    induction calls with
    | nil => exact fun b bs h => ⟨bs, h⟩
    | cons call calls ih =>
        intro b bs h
        obtain ⟨cs, hcs⟩ := h.attempt call
        exact ih _ cs hcs
  exact hrun calls _ [] (lays_withCapacity nodes records)

end LinkTableBuilder

/-! ### Sealed tables -/

/-- What a sealed table is made of: blocks without gaps, and an index that knows them. -/
structure LinkTable.Holds (t : LinkTable) (bs : List LinkBlock) : Prop where
  full : ∀ x ∈ bs, x.Full
  entries : ∀ x ∈ bs, ∀ r ∈ x.entries, r.address.isValid = true ∧ r.count = 0
  records : t.records = LinkBlock.flatten bs
  spans : ∀ a, Spanned (bs.map LinkBlock.header) a (t.spans.find? a)

/-- **Sealing.** A builder whose entries are all filled is sealed, and the table holds its
blocks. -/
theorem LinkTableBuilder.Lays.finish {b : LinkTableBuilder} {bs : List LinkBlock} (h : b.Lays bs)
    {t : LinkTable} (ht : b.finish.value = .ok t) : t.Holds bs ∧ t.nodes = b.nodes := by
  unfold LinkTableBuilder.finish at ht
  split at ht
  · cases ht
  · rename_i hfilled
    cases ht
    obtain ⟨room, hrecords⟩ := h.records
    have hcount : (LinkBlock.flatten bs).count .unwritten = 0 := by
      rw [← h.unfilled]
      omega
    refine ⟨{
      full := h.full
      entries := fun x hx r hr => ?_
      records := ?_
      spans := h.spans }, rfl⟩
    · rcases h.entries x hx r hr with rfl | hr'
      · obtain ⟨pre, post, rfl⟩ := List.append_of_mem hx
        simp only [LinkBlock.flatten_append, LinkBlock.flatten, List.count_append,
          List.count_cons] at hcount
        have hpos := List.count_pos_iff.2 hr
        omega
      · exact hr'
    · show b.records.take b.cursor = _
      rw [hrecords, h.cursor, ← LinkBlock.length_flatten h.full, List.take_left]

end FlowGraph
