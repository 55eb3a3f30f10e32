import FlowGraph.Proofs.Pool.Behaviors
import FlowGraph.Proofs.Pool.Copies

/-!
# Addresses as pairs

An address is a number that stands for a pool and a slot. Nothing is lost on the way from pairs to
numbers, and nothing on the way back: each of the `2 ^ 64` numbers is the address of one pair. The
numbers lie in the order of their pairs, so whoever sorts addresses brings those of a pool together.

What a registry issues, pools and slots alike, is counted from one on. So any pool that it has
named and any slot that it has handed out, be it in another pool, make a valid address. That holds
when the counters of slots start over, too.

* `PackedAddress.Precedes` — pairs in lexicographic order.
* `PackedAddress.raw_lt_iff`, `PackedAddress.le_iff` — the order of numbers is that of pairs.
* `Registry.InUse.valid_of_pool` — one request names a valid pool, if it names one.
* `Registry.Leads.valid_of_named`, `Registry.Leads.valid_of_returned` — and so do all.
* `PackedAddress.encodes_pairs` — addresses are pairs, one for each.
-/

namespace FlowGraph

namespace PackedAddress

/-! ### Halves -/

theorem isValid_iff (a : PackedAddress) : a.isValid = true ↔ a.pool.raw ≠ 0 ∧ a.slot.raw ≠ 0 := by
  rw [isValid, Bool.and_eq_true, PoolId.isValid_iff, Pool.isValid_iff, UInt32.pos_iff_ne_zero]

theorem unpack_pack (p : PoolId) (s : SlotId) : (pack p s).unpack = (p, s) := by
  rw [unpack, pool_pack, slot_pack]

theorem unpack_inj (a b : PackedAddress) : a.unpack = b.unpack ↔ a = b := by
  rw [unpack, unpack, Prod.mk.injEq, eq_iff]

theorem pack_inj {p q : PoolId} {s t : SlotId} (h : pack p s = pack q t) : p = q ∧ s = t := by
  have hpairs := congrArg unpack h
  rwa [unpack_pack, unpack_pack, Prod.mk.injEq] at hpairs

theorem pool_eq_iff (a b : PackedAddress) :
    a.pool = b.pool ↔ a.raw.toNat / 2 ^ 32 = b.raw.toNat / 2 ^ 32 := by
  rw [← pool_toNat, ← pool_toNat, UInt32.toNat_inj]
  exact ⟨congrArg PoolId.raw, congrArg PoolId.mk⟩

/-! ### Order -/

/-- One pair comes before another if its pool does, or, within one pool, its slot. -/
def Precedes : PoolId × SlotId → PoolId × SlotId → Prop :=
  Prod.Lex (fun p q => p.raw < q.raw) fun s t => s.raw < t.raw

/-- **Numbers in the order of pairs.** Quotients are compared first, and remainders where the
quotients are the same. -/
theorem raw_lt_iff (a b : PackedAddress) : a.raw < b.raw ↔ Precedes a.unpack b.unpack := by
  rw [Precedes, Prod.lex_def]
  simp only [unpack, pool_eq_iff, UInt32.lt_iff_toNat_lt, UInt64.lt_iff_toNat_lt, pool_toNat,
    slot_toNat]
  omega

theorem le_iff (a b : PackedAddress) :
    a.le b = true ↔ a.unpack = b.unpack ∨ Precedes a.unpack b.unpack := by
  have hraw : a = b ↔ a.raw = b.raw := ⟨congrArg raw, congrArg mk⟩
  rw [le, decide_eq_true_iff, unpack_inj, ← raw_lt_iff, hraw, UInt64.le_iff_toNat_le,
    UInt64.lt_iff_toNat_lt, ← UInt64.toNat_inj]
  omega

end PackedAddress

/-! ### What a registry issues -/

namespace Registry

variable [Repertoire] {r r' : Registry} {es : List Event}

/-- **One request.** The pool that is named is one that is there or the next one to be opened. -/
theorem InUse.valid_of_pool (h : r.InUse) {q : RegistryRequest} {a : RegistryReply}
    (hc : r.Change q a r') {p : PoolId} (hp : a.pool? = some p) : p.isValid = true := by
  have hwell := h.wellFormed
  cases hc with
  | idle hidle =>
      cases hidle with
      | unknown hb => cases hp
      | @known _ b p' hb hindex =>
          obtain ⟨s, hs, -⟩ := (hwell.own b p').1 hindex
          rw [← Option.some.inj hp]
          exact (hwell.issued p' s hs).1
      | refused asks given => cases hp
      | missed absent => cases hp
  | opened hb hindex =>
      rw [← Option.some.inj hp]
      exact hwell.isValid_nextId
  | added hs given => cases hp
  | vacated hs found => cases hp
  | retired hs found last => cases hp

/-- **All pools that are named**, by induction on the events. -/
theorem Leads.valid_of_named (h : r.Leads es r') (hr : r.InUse) {p : PoolId}
    (hp : p ∈ named (requests es)) : p.isValid = true := by
  induction h with
  | start => cases hp
  | asked before q counts room ih =>
      have hin := before.inUse hr
      rcases mem_named_cons.1 hp with hnew | hold
      · exact hin.valid_of_pool (hin.changes q) hnew
      · exact ih hold
  | changed before a f same ih => exact ih hp

/-- **All addresses that are handed out**, by induction on the events. -/
theorem Leads.valid_of_returned (h : r.Leads es r') (hr : r.InUse) {x : PackedAddress}
    (hx : x ∈ returned (requests es)) : x.isValid = true := by
  induction h with
  | start => cases hx
  | asked before q counts room ih =>
      have hin := before.inUse hr
      rcases mem_returned_cons.1 hx with hnew | hold
      · exact (hin.fresh_of_address (hin.changes q) hnew (room x hnew)).1
      · exact ih hold
  | changed before a f same ih => exact ih hx

end Registry

/-! ### Pairs and addresses -/

namespace PackedAddress

open Registry

/-- **Addresses are pairs.** Packing and unpacking undo each other, both ways and over all numbers,
so different pairs have different addresses; the order of addresses as numbers is the lexicographic
order of their pairs. Valid are the addresses neither half of which is zero, and after all that can
have happened to a registry, whatever its catalog and the settings of its pools, any pool that it
has named makes a valid address with any slot that it has handed out. -/
theorem encodes_pairs [Repertoire] :
    (∀ p s, (pack p s).unpack = (p, s)) ∧
    (∀ a : PackedAddress, pack a.pool a.slot = a) ∧
    (∀ p q s t, pack p s = pack q t → p = q ∧ s = t) ∧
    (∀ a b : PackedAddress, a.raw < b.raw ↔ Precedes a.unpack b.unpack) ∧
    (∀ a b : PackedAddress, a.le b = true ↔ a.unpack = b.unpack ∨ Precedes a.unpack b.unpack) ∧
    (∀ a : PackedAddress, a.isValid = true ↔ a.pool.raw ≠ 0 ∧ a.slot.raw ≠ 0) ∧
    (∀ catalog config es r, (Registry.empty catalog config).Leads es r →
      ∀ p ∈ named (requests es), ∀ x ∈ returned (requests es),
        (pack p x.slot).isValid = true) := by
  refine ⟨unpack_pack, pack_pool_slot, fun _ _ _ _ => pack_inj, raw_lt_iff, le_iff, isValid_iff,
    fun catalog config es r h p hp x hx => ?_⟩
  have hin := (sound_empty catalog config).toInUse
  have hslot := (Bool.and_eq_true_iff.1 (h.valid_of_returned hin hx)).2
  exact isValid_pack (h.valid_of_named hin hp) hslot

/-- The second pool that a registry names, with a slot that it has handed out in the first. -/
theorem encodes_pairs_across :
    ∃ es r, (Registry.empty .full ⟨1, true⟩).Leads es r ∧ ⟨2⟩ ∈ named (requests es) ∧
      pack ⟨1⟩ ⟨1⟩ ∈ returned (requests es) ∧
      (pack ⟨2⟩ (pack ⟨1⟩ ⟨1⟩).slot).isValid = true := by
  have hleads := (((Leads.start (r := .empty .full ⟨1, true⟩)).asked_early (by decide)
    (.register Behavior.counter.id)).asked_early (by decide) (.allocate ⟨1⟩)).asked_early
    (by decide) (.register Behavior.constantInt.id)
  obtain ⟨-, -, -, -, -, -, hvalid⟩ := encodes_pairs
  refine ⟨_, _, hleads, ?hnamed, ?hreturned, hvalid _ _ _ _ hleads _ ?hnamed _ ?hreturned⟩
  case hnamed => decide +kernel
  case hreturned => decide +kernel

end PackedAddress

end FlowGraph
