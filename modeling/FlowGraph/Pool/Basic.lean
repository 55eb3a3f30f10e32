import FlowGraph.Address
import FlowGraph.Notice
import FlowGraph.Table

/-!
# Pools with stable ids

A pool keeps values in a dense list of slots. Whoever allocates one gets an id that stays good while
the slot moves about; an index leads from ids to places. Releasing a value leaves a vacant place,
which is queued for reuse; when the vacant places exceed a set share of the live ones, the pool is
compacted.

* `Pool.allocateWith`, `Pool.release`, `Pool.modify` — the operations that change a pool.
* `Pool.find?`, `Pool.get` — a value by id; `get` falls back on the pool's blank value.
* `Pool.sweep`, `Pool.compact` — live slots close ranks in place, in order, and keep their ids.
* `Pool.live` — the live ids with their values, in slot order.
-/

namespace FlowGraph

/-- A place in a pool: the id of the value held there, or the empty id if the place is vacant. -/
structure Slot (α : Type) where
  id : SlotId
  data : α
  deriving DecidableEq

/-- Whether the slot holds a value. -/
def Slot.isLive {α : Type} (s : Slot α) : Bool := s.id.isValid

/-- Values addressed by stable ids. -/
structure Pool (α : Type) where
  slots : List (Slot α)
  /-- The place of each live id. -/
  index : Table SlotId Nat
  /-- The vacant places, next to be reused first. -/
  vacant : List Nat
  nextId : UInt32
  /-- The share of live slots that the vacant ones may reach without a compaction. -/
  ratio : Float32
  /-- The value of vacant slots, and the answer to unknown ids. -/
  blank : α

namespace Pool

variable {α : Type}

/-- The share of vacant places that a pool tolerates unless told otherwise. -/
def defaultRatio : Float32 := 0.5

/-- A pool without values. -/
def empty (ratio : Float32) (blank : α) : Pool α := ⟨[], .empty, [], 1, ratio, blank⟩

/-! ### Queries -/

/-- The value of an id. -/
def find? (p : Pool α) (id : SlotId) : Option α := do
  let i ← p.index.find? id
  (p.slots[i]?).map (·.data)

/-- The value of an id, or the pool's blank value. -/
def get (p : Pool α) (id : SlotId) : α := (p.find? id).getD p.blank

/-- Whether an id is live. -/
def contains (p : Pool α) (id : SlotId) : Bool := p.index.contains id

/-- The number of live values. -/
def size (p : Pool α) : Nat := p.index.size

/-- Whether there are no live values. -/
def isEmpty (p : Pool α) : Bool := p.size == 0

/-- The number of places, vacant ones included. -/
def capacityUsed (p : Pool α) : Nat := p.slots.length

/-- The number of vacant places. -/
def vacantCount (p : Pool α) : Nat := p.vacant.length

/-- The live ids with their values, in slot order. -/
def live (p : Pool α) : List (SlotId × α) :=
  (p.slots.filter Slot.isLive).map fun s => (s.id, s.data)

/-- The live ids, in slot order. -/
def ids (p : Pool α) : List SlotId := (p.slots.map (·.id)).filter SlotId.isValid

/-! ### Allocation -/

/-- The id to issue after `n`; the empty id is passed over. -/
def idAfter (n : UInt32) : UInt32 := if n + 1 = 0 then 1 else n + 1

/-- The first id from `n` on that is not live, searched for `fuel` steps. -/
def freshFrom (live : SlotId → Bool) : Nat → UInt32 → UInt32
  | 0, n => n
  | fuel + 1, n => if live ⟨n⟩ then freshFrom live fuel (idAfter n) else n

/-- The id that the next value gets. Only after all ids have been used once can it be necessary to
pass over live ones, and then one more step than there are live ids is enough. -/
def freshId (p : Pool α) : SlotId := ⟨freshFrom p.contains (p.size + 1) p.nextId⟩

/-- Put a value into the first vacant place, or behind all others, under a fresh id. -/
def allocateWith (p : Pool α) (data : α) : SlotId × Pool α :=
  let id := p.freshId
  let nextId := idAfter id.raw
  match p.vacant with
  | i :: vacant =>
    (id, { p with
      slots := p.slots.set i ⟨id, data⟩, index := p.index.insert id i, vacant, nextId })
  | [] =>
    (id, { p with
      slots := p.slots ++ [⟨id, data⟩], index := p.index.insert id p.slots.length, nextId })

/-- Put the blank value under a fresh id. -/
def allocate (p : Pool α) : SlotId × Pool α := p.allocateWith p.blank

/-- Put a copy of a value of another pool under a fresh id, if the id is live there. -/
def allocateCopy (p source : Pool α) (id : SlotId) : Option (SlotId × Pool α) :=
  (source.find? id).map p.allocateWith

/-- Put a copy of one of the pool's own values under a fresh id. -/
def duplicate (p : Pool α) (id : SlotId) : Option (SlotId × Pool α) := p.allocateCopy p id

/-- Change the value of an id, if it is live. -/
def modify (p : Pool α) (id : SlotId) (f : α → α) : Pool α :=
  match p.index.find? id with
  | some i => { p with slots := p.slots.modify i fun s => { s with data := f s.data } }
  | none => p

/-! ### Release and compaction -/

/-- The slots with those at two places exchanged. -/
def exchange (slots : List (Slot α)) (i j : Nat) : List (Slot α) :=
  match slots[i]?, slots[j]? with
  | some a, some b => (slots.set i b).set j a
  | _, _ => slots

/-- A pool in the middle of a compaction. -/
structure Sweep (α : Type) where
  slots : List (Slot α)
  index : Table SlotId Nat
  /-- The number of vacant places met so far; they lie right before the next place. -/
  passed : Nat

/-- Visit a place: a vacant one is passed over, and a live slot changes places with the first of
those passed over. -/
def Sweep.visit (s : Sweep α) (i : Nat) : Sweep α :=
  match s.slots[i]? with
  | none => s
  | some slot =>
    if !slot.isLive then { s with passed := s.passed + 1 }
    else if s.passed = 0 then s
    else { s with
      slots := exchange s.slots (i - s.passed) i
      index := s.index.insert slot.id (i - s.passed) }

/-- Visit every place of a pool, from the first on. -/
def sweep (p : Pool α) : Sweep α :=
  (List.range p.slots.length).foldl Sweep.visit ⟨p.slots, p.index, 0⟩

/-- Close ranks in one sweep, which brings all vacant places to the end, and cut them off. -/
def compact (p : Pool α) : Noted (Pool α) :=
  let s := p.sweep
  let live := s.slots.length - s.passed
  ⟨{ p with slots := s.slots.take live, index := s.index, vacant := [] },
    [.poolCompacted live s.passed]⟩

/-- Whether `vacant` places beside `live` values are more than a ratio allows. -/
def exceeds (ratio : Float32) (vacant live : Nat) : Bool :=
  decide (live.toFloat32 * ratio < vacant.toFloat32)

/-- Vacate the place of an id, and compact the pool if that makes too many vacant places. Answers
whether the id was live. -/
def release (p : Pool α) (id : SlotId) : Noted (Bool × Pool α) :=
  match p.index.find? id with
  | none => pure (false, p)
  | some i =>
    let q := { p with
      slots := p.slots.set i ⟨.empty, p.blank⟩
      index := p.index.erase id
      vacant := p.vacant ++ [i] }
    if exceeds q.ratio q.vacantCount q.size then do
      let r ← q.compact
      return (true, r)
    else pure (true, q)

end Pool

end FlowGraph
