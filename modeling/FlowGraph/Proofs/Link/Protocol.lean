import FlowGraph.Proofs.Link.Deeds

/-!
# The protocol of a builder of link tables

What a builder accepts can be told from the deeds of the run alone: a node needs room, a header room
and its turn, an entry a place that was reserved and not filled, and the seal every place filled.

* `LinkTableBuilder.Permits`, `Complete` — the protocol, in terms of the deeds.
* `LinkTableBuilder.Keeps.accepts_iff`, `Keeps.finish_ok_iff` — what a builder accepts next.
* `LinkTableBuilder.follows_protocol` — the builder accepts exactly what the protocol permits.
-/

namespace FlowGraph.LinkTableBuilder

/-! ### The protocol -/

/-- **The protocol.** The calls that may follow what has been done so far. -/
def Permits (nodes records : Nat) (ds : List Deed) : Call → Prop
  | .pushNode a => a.isValid = true ∧ (Deed.nodes ds).length < nodes
  | .reserve a port _ count =>
      a.isValid = true ∧ 1 ≤ count.toNat ∧
        extent (Deed.headers ds) + (count.toNat + 1) ≤ records ∧
        ((∀ h ∈ Deed.headers ds, h.address ≠ a) ∨
          ∃ h, (Deed.headers ds).getLast? = some h ∧ h.address = a ∧ h.port.raw < port.raw)
  | .write i e =>
      e.address.isValid = true ∧ (∃ r ∈ Deed.reservations ds, Covers r i) ∧
        ∀ w ∈ Deed.entries ds, w.1 ≠ i

/-- Every reserved place has been filled. -/
def Complete (ds : List Deed) : Prop :=
  ∀ r ∈ Deed.reservations ds, ∀ i, Covers r i → ∃ w ∈ Deed.entries ds, w.1 = i

/-- What the builder owes to the protocol after some calls. -/
structure FollowsProtocol (nodes records : Nat) (calls : List Call) : Prop where
  accepts : ∀ call, (∃ d, (after nodes records calls).deed call = .ok d) ↔
    Permits nodes records (done nodes records calls) call
  /-- The entries of a header lie right behind it, and it right behind all that was reserved. -/
  place : ∀ a port kind count first c,
    (after nodes records calls).reserve a port kind count = .ok (first, c) →
      first = extent (Deed.headers (done nodes records calls)) + 1
  seals : (∃ t, (after nodes records calls).finish.value = .ok t) ↔
    Complete (done nodes records calls)
  refuses : ∀ call e, (after nodes records calls).deed call = .error e →
    (after nodes records calls).attempt call = after nodes records calls
  /-- The accepted calls alone are all accepted, answered alike, and lead to the same builder. -/
  alone : done nodes records ((done nodes records calls).map Deed.call) = done nodes records calls ∧
    after nodes records ((done nodes records calls).map Deed.call) = after nodes records calls

namespace Keeps

variable {nodes records : Nat} {ds : List Deed} {b : LinkTableBuilder}

/-! ### What comes next -/

theorem pushNode_iff (h : Keeps nodes records ds b) (a : PackedAddress) :
    (∃ c, b.pushNode a = .ok c) ↔ a.isValid = true ∧ (Deed.nodes ds).length < nodes := by
  have hroom : b.nodes.length ≠ b.nodeCapacity ↔ (Deed.nodes ds).length < nodes := by
    have hfits := h.fits
    rw [h.order, h.capacity]
    omega
  rw [← hroom]
  constructor
  · rintro ⟨c, hc⟩
    obtain ⟨hvalid, hne, -⟩ := (b.pushNode_ok_iff c a).1 hc
    exact ⟨hvalid, hne⟩
  · rintro ⟨hvalid, hne⟩
    exact ⟨_, (b.pushNode_ok_iff _ a).2 ⟨hvalid, hne, rfl⟩⟩

/-- The last header and the index of spans together know whose turn it is. -/
theorem order_ok_iff (h : Keeps nodes records ds b) (a : PackedAddress) (port : PortIndex) :
    b.orderError? a port = none ↔ (∀ k ∈ Deed.headers ds, k.address ≠ a) ∨
      ∃ k, (Deed.headers ds).getLast? = some k ∧ k.address = a ∧ k.port.raw < port.raw := by
  rw [h.lays.order_ok_iff, Continues, ← Deed.headers_blocks]
  refine or_congr (List.forall_mem_map (P := fun k : LinkRecord => k.address ≠ a)).symm ?_
  rw [List.getLast?_map]
  constructor
  · rintro ⟨x, hx, hcontinues⟩
    exact ⟨x.header, Option.map_eq_some_iff.2 ⟨x, hx, rfl⟩, hcontinues⟩
  · rintro ⟨k, hk, hcontinues⟩
    obtain ⟨x, hx, rfl⟩ := Option.map_eq_some_iff.1 hk
    exact ⟨x, hx, hcontinues⟩

theorem reserve_iff (h : Keeps nodes records ds b) (a : PackedAddress) (port : PortIndex)
    (kind : PortKind) (count : UInt32) :
    (∃ first c, b.reserve a port kind count = .ok (first, c)) ↔
      Permits nodes records ds (.reserve a port kind count) := by
  have hpositive : count ≠ 0 ↔ 1 ≤ count.toNat := by
    rw [ne_eq, ← UInt32.toNat_inj, UInt32.toNat_zero]
    omega
  rw [Permits, ← hpositive, ← h.cursor_eq, ← h.room, ← h.order_ok_iff a port]
  constructor
  · rintro ⟨first, c, hc⟩
    obtain ⟨hvalid, hne, horder, hroom, -⟩ := (b.reserve_ok_iff c a port kind count first).1 hc
    exact ⟨hvalid, hne, hroom, horder⟩
  · rintro ⟨hvalid, hne, hroom, horder⟩
    exact ⟨_, _, (b.reserve_ok_iff _ a port kind count _).2
      ⟨hvalid, hne, horder, hroom, rfl, rfl⟩⟩

theorem write_iff (h : Keeps nodes records ds b) (i : Nat) (e : LinkEntry) :
    (∃ c, b.write i e = .ok c) ↔ Permits nodes records ds (.write i e) := by
  rw [Permits, ← h.waiting_iff i]
  constructor
  · rintro ⟨c, hc⟩
    obtain ⟨hvalid, hlt, hget, -⟩ := (b.write_ok_iff c i e).1 hc
    exact ⟨hvalid, hlt, hget⟩
  · rintro ⟨hvalid, hlt, hget⟩
    exact ⟨_, (b.write_ok_iff _ i e).2 ⟨hvalid, hlt, hget, rfl⟩⟩

/-- **The next call.** The builder accepts what the protocol permits. -/
theorem accepts_iff (h : Keeps nodes records ds b) (call : Call) :
    (∃ d, b.deed call = .ok d) ↔ Permits nodes records ds call := by
  cases call with
  | pushNode a =>
      rw [Permits, ← h.pushNode_iff a]
      constructor
      · rintro ⟨d, hd⟩
        cases does_of_deed hd with
        | node hc => exact ⟨_, hc⟩
      · rintro ⟨c, hc⟩
        exact ⟨_, (Does.node hc).deed_eq⟩
  | reserve a port kind count =>
      rw [← h.reserve_iff a port kind count]
      constructor
      · rintro ⟨d, hd⟩
        cases does_of_deed hd with
        | header hc => exact ⟨_, _, hc⟩
      · rintro ⟨first, c, hc⟩
        exact ⟨_, (Does.header hc).deed_eq⟩
  | write i e =>
      rw [← h.write_iff i e]
      constructor
      · rintro ⟨d, hd⟩
        cases does_of_deed hd with
        | entry hc => exact ⟨_, hc⟩
      · rintro ⟨c, hc⟩
        exact ⟨_, (Does.entry hc).deed_eq⟩

/-- **The end.** The count of missing entries is right: it is zero when every place was filled. -/
theorem unfilled_eq_zero_iff (h : Keeps nodes records ds b) : b.unfilled = 0 ↔ Complete ds := by
  have hwaiting : b.unfilled = 0 ↔ ∀ i, ¬ (i < b.cursor ∧ b.records[i]? = some .unwritten) := by
    obtain ⟨room, hrecords⟩ := h.lays.records
    have hcursor : b.cursor = (LinkBlock.flatten (Deed.blocks ds)).length := by
      rw [h.lays.cursor, LinkBlock.length_flatten h.lays.full]
    rw [h.lays.unfilled, List.count_eq_zero, List.mem_iff_getElem?, not_exists]
    refine forall_congr' fun i => not_congr ?_
    rw [hcursor, hrecords]
    constructor
    · intro hi
      have hlt := (List.getElem?_eq_some_iff.1 hi).1
      exact ⟨hlt, (List.getElem?_append_left hlt).trans hi⟩
    · rintro ⟨hlt, hi⟩
      rwa [List.getElem?_append_left hlt] at hi
  rw [hwaiting]
  constructor
  · intro hnone r hr i hi
    refine Classical.byContradiction fun hfree => ?_
    exact hnone i ((h.waiting_iff i).2 ⟨⟨r, hr, hi⟩, fun w hw heq => hfree ⟨w, hw, heq⟩⟩)
  · intro hcomplete i hi
    obtain ⟨⟨r, hr, hcovers⟩, hfree⟩ := (h.waiting_iff i).1 hi
    obtain ⟨w, hw, heq⟩ := hcomplete r hr i hcovers
    exact hfree w hw heq

theorem finish_ok_iff (h : Keeps nodes records ds b) :
    (∃ t, b.finish.value = .ok t) ↔ Complete ds := by
  rw [← h.unfilled_eq_zero_iff, finish]
  by_cases hfilled : 0 < b.unfilled
  · rw [if_pos hfilled]
    constructor
    · rintro ⟨t, ht⟩
      cases ht
    · intro hzero
      omega
  · rw [if_neg hfilled]
    exact ⟨fun _ => by omega, fun _ => ⟨_, rfl⟩⟩

end Keeps

/-! ### The protocol kept -/

/-- **The builder follows its protocol.** After any calls, refused ones included, it accepts exactly
the calls that the protocol permits after what was done, seals exactly the complete tables, and a
refused call leaves no trace. -/
theorem follows_protocol (nodes records : Nat) (calls : List Call) :
    FollowsProtocol nodes records calls where
  accepts := (keeps_after nodes records calls).accepts_iff
  place a port kind count first c hc := by
    rw [← (keeps_after nodes records calls).cursor_eq]
    exact ((reserve_ok_iff _ c a port kind count first).1 hc).2.2.2.2.1
  seals := (keeps_after nodes records calls).finish_ok_iff
  refuses _ _ h := attempt_of_error h
  alone := accepted_alone calls (withCapacity nodes records)

end FlowGraph.LinkTableBuilder
