import FlowGraph.Arithmetic

/-!
# Packed addresses

A running node instance is found by the pool that holds it and the slot it occupies there. The two
32-bit numbers are packed into one 64-bit word, pool in the high half. Both are issued from 1 on,
so a zero in either half marks an address that names nothing.

* `PoolId`, `SlotId` — the halves.
* `PackedAddress.pack`, `pool`, `slot` — the encoding and its two projections.
* `PackedAddress.isValid` — both halves are issued numbers.
-/

namespace FlowGraph

/-! ### The halves -/

/-- The name of a pool inside a registry. -/
structure PoolId where
  raw : UInt32
  deriving DecidableEq, Inhabited

/-- The pool number that is never issued. -/
def PoolId.empty : PoolId := ⟨0⟩

/-- Whether the number can have been issued. -/
def PoolId.isValid (p : PoolId) : Bool := p != PoolId.empty

/-- `PoolId(5)`, as diagnostics write it. -/
def PoolId.text (p : PoolId) : String := s!"PoolId({p.raw.toNat})"

/-- The stable name of a slot inside one pool. -/
structure SlotId where
  raw : UInt32
  deriving DecidableEq, Inhabited

/-- The slot number that is never issued; it marks vacated slots. -/
def SlotId.empty : SlotId := ⟨0⟩

/-- Whether the number can have been issued. -/
def SlotId.isValid (s : SlotId) : Bool := s != SlotId.empty

/-- `SlotId(5)`, as diagnostics write it. -/
def SlotId.text (s : SlotId) : String := s!"SlotId({s.raw.toNat})"

/-! ### The packed word -/

/-- A pool in the high 32 bits and a slot in the low 32 bits. -/
structure PackedAddress where
  raw : UInt64
  deriving DecidableEq, Inhabited

namespace PackedAddress

/-- The address that names nothing. -/
def empty : PackedAddress := ⟨0⟩

/-- Put the pool above the slot. -/
def pack (pool : PoolId) (slot : SlotId) : PackedAddress :=
  ⟨(pool.raw.toUInt64 <<< 32) ||| slot.raw.toUInt64⟩

/-- The high half. -/
def pool (a : PackedAddress) : PoolId := ⟨(a.raw >>> 32).toUInt32⟩

/-- The low half. -/
def slot (a : PackedAddress) : SlotId := ⟨(a.raw &&& 0xFFFFFFFF).toUInt32⟩

/-- Both halves at once. -/
def unpack (a : PackedAddress) : PoolId × SlotId := (a.pool, a.slot)

/-- Both halves are numbers that can have been issued. -/
def isValid (a : PackedAddress) : Bool := a.pool.isValid && a.slot.isValid

/-- `pool:slot`, as messages to people write it. -/
def display (a : PackedAddress) : String :=
  s!"{a.pool.raw.toNat}:{a.slot.raw.toNat}"

/-- The long form of diagnostics, with the word `EMPTY` for the empty address. -/
def text (a : PackedAddress) : String :=
  if a = empty then "PackedAddress(EMPTY)"
  else s!"PackedAddress(pool={a.pool.raw.toNat}, slot={a.slot.raw.toNat})"

/-- Addresses are ordered as numbers. -/
def le (a b : PackedAddress) : Bool := decide (a.raw ≤ b.raw)

/-- The addresses in ascending order. -/
def sort (addresses : List PackedAddress) : List PackedAddress := addresses.mergeSort le

/-! ### Laws of the encoding -/

/-- The packed word is the pool number scaled by 2^32 plus the slot number. -/
theorem pack_toNat (p : PoolId) (s : SlotId) :
    (pack p s).raw.toNat = p.raw.toNat * 2 ^ 32 + s.raw.toNat := by
  have hp := p.raw.toNat_lt
  have hs := s.raw.toNat_lt
  simp only [pack, UInt64.toNat_or, UInt64.toNat_shiftLeft, UInt32.toNat_toUInt64]
  rw [show (32 : UInt64).toNat % 64 = 32 from rfl, Nat.shiftLeft_eq,
    Nat.mod_eq_of_lt (by omega), ← Nat.shiftLeft_eq,
    ← Nat.shiftLeft_add_eq_or_of_lt (by omega), Nat.shiftLeft_eq]

/-- The high half is the quotient by 2^32. -/
theorem pool_toNat (a : PackedAddress) : a.pool.raw.toNat = a.raw.toNat / 2 ^ 32 := by
  have ha := a.raw.toNat_lt
  simp only [pool, UInt64.toNat_toUInt32, UInt64.toNat_shiftRight]
  rw [show (32 : UInt64).toNat % 64 = 32 from rfl, Nat.shiftRight_eq_div_pow]
  omega

/-- The low half is the remainder by 2^32. -/
theorem slot_toNat (a : PackedAddress) : a.slot.raw.toNat = a.raw.toNat % 2 ^ 32 := by
  simp only [slot, UInt64.toNat_toUInt32, UInt64.toNat_and]
  rw [show (0xFFFFFFFF : UInt64).toNat = 2 ^ 32 - 1 from rfl, Nat.and_two_pow_sub_one_eq_mod]
  omega

@[simp] theorem pool_pack (p : PoolId) (s : SlotId) : (pack p s).pool = p := by
  have hs := s.raw.toNat_lt
  have h : (pack p s).pool.raw = p.raw := by
    apply UInt32.toNat_inj.1
    rw [pool_toNat, pack_toNat]
    omega
  exact congrArg PoolId.mk h

@[simp] theorem slot_pack (p : PoolId) (s : SlotId) : (pack p s).slot = s := by
  have hs := s.raw.toNat_lt
  have h : (pack p s).slot.raw = s.raw := by
    apply UInt32.toNat_inj.1
    rw [slot_toNat, pack_toNat]
    omega
  exact congrArg SlotId.mk h

/-- An address is known by its halves. -/
@[simp] theorem pack_pool_slot (a : PackedAddress) : pack a.pool a.slot = a := by
  have h : (pack a.pool a.slot).raw = a.raw := by
    apply UInt64.toNat_inj.1
    rw [pack_toNat, pool_toNat, slot_toNat]
    omega
  exact congrArg PackedAddress.mk h

theorem eq_pack_iff (a : PackedAddress) (p : PoolId) (s : SlotId) :
    a = pack p s ↔ a.pool = p ∧ a.slot = s := by
  constructor
  · intro h
    rw [h]
    exact ⟨pool_pack p s, slot_pack p s⟩
  · intro h
    rw [← h.1, ← h.2]
    exact (pack_pool_slot a).symm

/-- Addresses with the same halves are the same. -/
theorem eq_iff (a b : PackedAddress) : a = b ↔ a.pool = b.pool ∧ a.slot = b.slot := by
  rw [← pack_pool_slot b, eq_pack_iff, pool_pack, slot_pack]

example : (pack ⟨2⟩ ⟨7⟩).raw = 8589934599 := by decide

end PackedAddress

end FlowGraph
