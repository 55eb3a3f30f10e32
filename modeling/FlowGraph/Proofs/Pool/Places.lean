import FlowGraph.Proofs.Pool.Reached

/-!
# Places

A pool keeps three accounts of its places: the slots that lie there, the index that leads to those
that are live, and the queue of those that are vacant. Whatever is asked of it, the three agree.

So no place is ever looked at that does not exist. To say this, each operation is set beside one
that does the same by checked places and has nothing at all to show for one that misses. None does,
be it in the middle of a compaction, and the two come to the same.

* `Pool.Accounted` — the slots, the index and the queue agree, and every place is in one of them.
* `Pool.findByPlace?`, `Pool.performByPlace?` — the operations by checked places.
* `Pool.Sweep.visitByPlace?_eq`, `Pool.WellFormed.sweepByPlace?_eq` — one visit of a sweep, and all.
* `Pool.InBounds` — nothing that can be asked of a pool misses a place.
* `Pool.InUse.hasRoom_iff` — the search for an id ends exactly while one is left.
* `Pool.Reached.places_accounted` — so it is with every pool in use.
-/

namespace FlowGraph.Pool

variable {ι α : Type}

/-! ### Accounts -/

/-- The three accounts that a pool keeps of its places agree. -/
structure Accounted (p : Pool α) : Prop where
  /-- A live id leads to a place that exists, and the slot there carries that id. -/
  indexed : ∀ id i, p.index.find? id = some i →
    id ≠ .empty ∧ ∃ h : i < p.slots.length, p.slots[i].id = id
  /-- A slot that carries an id is where the id leads to. -/
  placed : ∀ i (h : i < p.slots.length), p.slots[i].id ≠ .empty →
    p.index.find? p.slots[i].id = some i
  /-- Queued are the places of the slots that carry none. -/
  queued : ∀ i, i ∈ p.vacant ↔ ∃ h : i < p.slots.length, p.slots[i].id = .empty
  queuedOnce : p.vacant.Nodup
  /-- Every place is a live one or a vacant one. -/
  capacityUsed : p.capacityUsed = p.size + p.vacantCount

theorem isLive_eq_false_iff (s : Slot α) : s.isLive = false ↔ s.id = .empty := by
  rw [Slot.isLive, SlotId.isValid, bne_eq_false_iff_eq]

theorem WellFormed.accounted {p : Pool α} (h : p.WellFormed) : p.Accounted where
  indexed id i hi := by
    obtain ⟨hvalid, s, hs, hid⟩ := h.placed id i hi
    obtain ⟨hlt, rfl⟩ := List.getElem?_eq_some_iff.1 hs
    exact ⟨bne_iff_ne.1 hvalid, hlt, hid⟩
  placed i hlt hid := by
    refine h.indexed i _ (List.getElem?_eq_getElem hlt) ?_
    exact bne_iff_ne.2 hid
  queued i := by
    rw [h.queued i]
    constructor
    · rintro ⟨s, hs, hdead⟩
      obtain ⟨hlt, rfl⟩ := List.getElem?_eq_some_iff.1 hs
      exact ⟨hlt, (isLive_eq_false_iff _).1 hdead⟩
    · rintro ⟨hlt, hid⟩
      exact ⟨_, List.getElem?_eq_getElem hlt, (isLive_eq_false_iff _).2 hid⟩
  queuedOnce := h.queuedOnce
  capacityUsed := h.capacityUsed_eq

/-! ### Operations by checked places -/

/-- Put a slot at a place. Nothing at all if there is no such place. -/
def put? (slots : List (Slot α)) (i : Nat) (s : Slot α) : Option (List (Slot α)) :=
  if i < slots.length then some (slots.set i s) else none

/-- The place so many before another. Nothing at all if that lies before the first. -/
def back? (i n : Nat) : Option Nat := if n ≤ i then some (i - n) else none

/-- The slots with those at two places exchanged. -/
def exchange? (slots : List (Slot α)) (i j : Nat) : Option (List (Slot α)) := do
  let a ← slots[i]?
  let b ← slots[j]?
  let moved ← put? slots i b
  put? moved j a

/-- The value of an id, if it has one, read from its place. -/
def findByPlace? (p : Pool α) (id : SlotId) : Option (Option α) :=
  match p.index.find? id with
  | none => some none
  | some i => (p.slots[i]?).map fun s => some s.data

/-- The value of an id, read from its place, or the pool's blank value. -/
def getByPlace? (p : Pool α) (id : SlotId) : Option α :=
  (p.findByPlace? id).map fun data => data.getD p.blank

/-- Put a value at the first vacant place, or behind all others, under a fresh id. -/
def allocateByPlace? (p : Pool α) (data : α) : Option (SlotId × Pool α) := do
  let id := p.freshId
  let nextId := idAfter id.raw
  match p.vacant with
  | i :: vacant =>
    let slots ← put? p.slots i ⟨id, data⟩
    return (id, { p with slots, index := p.index.insert id i, vacant, nextId })
  | [] =>
    let slots := p.slots ++ [⟨id, data⟩]
    let i ← back? slots.length 1
    return (id, { p with slots, index := p.index.insert id i, nextId })

/-- Put a copy of a value, read from its place, under a fresh id. -/
def copyByPlace? (p source : Pool α) (id : SlotId) : Option (PoolReply × Pool α) := do
  match ← source.findByPlace? id with
  | none => return p.replyTo none
  | some data => return p.replyTo (some (← p.allocateByPlace? data))

/-- Change the value of an id at its place, if it is live. -/
def modifyByPlace? (p : Pool α) (id : SlotId) (f : α → α) : Option (Pool α) :=
  match p.index.find? id with
  | none => some p
  | some i => do
    let s ← p.slots[i]?
    let slots ← put? p.slots i { s with data := f s.data }
    return { p with slots }

/-- Visit a place of a sweep. What is entered is the id that is read where the slot was moved to. -/
def Sweep.visitByPlace? (s : Sweep α) (i : Nat) : Option (Sweep α) := do
  let slot ← s.slots[i]?
  if !slot.isLive then return { s with passed := s.passed + 1 }
  else if s.passed = 0 then return s
  else
    let front ← back? i s.passed
    let slots ← exchange? s.slots front i
    let moved ← slots[front]?
    return { s with slots, index := s.index.insert moved.id front }

/-- Visit every place of a pool, from the first on. -/
def sweepByPlace? (p : Pool α) : Option (Sweep α) :=
  (List.range p.slots.length).foldlM Sweep.visitByPlace? ⟨p.slots, p.index, 0⟩

/-- Close ranks in one sweep and cut off the vacant places. -/
def compactByPlace? (p : Pool α) : Option (Noted (Pool α)) := do
  let s ← p.sweepByPlace?
  let live ← back? s.slots.length s.passed
  return ⟨{ p with slots := s.slots.take live, index := s.index, vacant := [] },
    [.poolCompacted live s.passed]⟩

/-- Vacate the place of an id, and compact the pool if that makes too many vacant places. -/
def releaseByPlace? (p : Pool α) (id : SlotId) : Option (Noted (Bool × Pool α)) :=
  match p.index.find? id with
  | none => some (pure (false, p))
  | some i => do
    let slots ← put? p.slots i ⟨.empty, p.blank⟩
    let q := { p with slots, index := p.index.erase id, vacant := p.vacant ++ [i] }
    if exceeds q.ratio q.vacantCount q.size then
      let compacted ← q.compactByPlace?
      return do
        let r ← compacted
        return (true, r)
    else return pure (true, q)

/-- The reply to a request put to a pool, and the pool afterwards, by checked places. -/
def performByPlace? (ps : ι → Pool α) (i : ι) : PoolRequest ι α → Option (PoolReply × Pool α)
  | .allocate => ((ps i).allocateByPlace? (ps i).blank).map fun x => (ps i).replyTo (some x)
  | .allocateWith data => ((ps i).allocateByPlace? data).map fun x => (ps i).replyTo (some x)
  | .allocateCopy j id => (ps i).copyByPlace? (ps j) id
  | .duplicate id => (ps i).copyByPlace? (ps i) id
  | .modify id f => ((ps i).modifyByPlace? id f).map fun q => (.flag ((ps i).contains id), q)
  | .release id => ((ps i).releaseByPlace? id).map fun x => (.flag x.value.1, x.value.2)
  | .compact => (ps i).compactByPlace?.map fun x => (.done, x.value)

theorem put?_eq {slots : List (Slot α)} {i : Nat} (h : i < slots.length) (s : Slot α) :
    put? slots i s = some (slots.set i s) := if_pos h

theorem back?_eq {i n : Nat} (h : n ≤ i) : back? i n = some (i - n) := if_pos h

/-- Two places that exist are exchanged without a miss. -/
theorem exchange?_eq {slots : List (Slot α)} {i j : Nat} (hi : i < slots.length)
    (hj : j < slots.length) : exchange? slots i j = some (exchange slots i j) := by
  have hset : j < (slots.set i slots[j]).length := by rwa [List.length_set]
  simp only [exchange?, exchange, List.getElem?_eq_getElem hi, List.getElem?_eq_getElem hj,
    Option.bind_eq_bind, Option.bind_some, put?_eq hi, put?_eq hset]

/-! ### Sweeps -/

/-- **One visit.** A sweep that has not passed over more places than there are before the next one
visits that without a miss. -/
theorem Sweep.visitByPlace?_eq {s : Sweep α} {i : Nat} (hi : i < s.slots.length)
    (hpassed : s.passed ≤ i) : s.visitByPlace? i = some (s.visit i) := by
  obtain ⟨x, hx⟩ : ∃ x, s.slots[i]? = some x := ⟨_, List.getElem?_eq_getElem hi⟩
  simp only [visitByPlace?, visit, hx, Option.bind_eq_bind, Option.bind_some]
  split
  · rfl
  · split
    · rfl
    · next hsome =>
      have hfront : i - s.passed < s.slots.length := by omega
      -- The slot that is read again is the one that was moved there.
      have hmoved : (exchange s.slots (i - s.passed) i)[i - s.passed]? = some x := by
        rw [getElem?_exchange (List.getElem?_eq_getElem hfront) hx, if_neg (by omega), if_pos rfl]
      simp only [back?_eq hpassed, exchange?_eq hfront hi, Option.bind_some, hmoved]
      rfl

/-- The sweep keeps all places, and has not passed over more than it has visited. -/
theorem Halfway.bounds {slots dead : List (Slot α)} {i : Nat} {s : Sweep α}
    (h : Halfway slots i s dead) (hi : i ≤ slots.length) :
    s.slots.length = slots.length ∧ s.passed ≤ i := by
  have hplace := h.place
  have hpassed := h.passed
  refine ⟨?_, by omega⟩
  rw [h.shape, List.length_append, List.length_append, List.length_drop]
  omega

namespace WellFormed

variable {p : Pool α}

/-- **All visits**, by induction on the places visited. -/
theorem foldlM_visitByPlace? (h : p.WellFormed) {n : Nat} (hn : n ≤ p.slots.length) :
    (List.range n).foldlM Sweep.visitByPlace? ⟨p.slots, p.index, 0⟩
      = some ((List.range n).foldl Sweep.visit ⟨p.slots, p.index, 0⟩) := by
  induction n with
  | zero => rfl
  | succ n ih =>
      obtain ⟨dead, hhalf⟩ := halfway_foldl h.indexes (Nat.le_of_succ_le hn)
      obtain ⟨hlength, hpassed⟩ := hhalf.bounds (Nat.le_of_succ_le hn)
      rw [List.range_succ, List.foldlM_append, List.foldl_append, ih (Nat.le_of_succ_le hn)]
      simp only [Option.bind_eq_bind, Option.bind_some, List.foldlM_cons, List.foldlM_nil,
        List.foldl_cons, List.foldl_nil, Sweep.visitByPlace?_eq (hlength ▸ hn) hpassed]
      rfl

theorem sweepByPlace?_eq (h : p.WellFormed) : p.sweepByPlace? = some p.sweep :=
  h.foldlM_visitByPlace? (Nat.le_refl _)

/-- A compaction cuts off no more places than there are. -/
theorem compactByPlace?_eq (h : p.WellFormed) : p.compactByPlace? = some p.compact := by
  obtain ⟨dead, hhalf⟩ := halfway_foldl h.indexes (Nat.le_refl p.slots.length)
  obtain ⟨hlength, hpassed⟩ := hhalf.bounds (Nat.le_refl _)
  have hcut : p.sweep.passed ≤ p.sweep.slots.length := hlength.symm ▸ hpassed
  simp only [compactByPlace?, h.sweepByPlace?_eq, Option.bind_eq_bind, Option.bind_some,
    back?_eq hcut]
  rfl

/-! ### Requests -/

theorem findByPlace?_eq (h : p.WellFormed) (id : SlotId) :
    p.findByPlace? id = some (p.find? id) := by
  unfold findByPlace? Pool.find?
  cases hi : p.index.find? id with
  | none => rfl
  | some i =>
      obtain ⟨-, s, hs, -⟩ := h.placed id i hi
      simp only [Option.bind_eq_bind, Option.bind_some, hs, Option.map_some]

theorem getByPlace?_eq (h : p.WellFormed) (id : SlotId) : p.getByPlace? id = some (p.get id) := by
  rw [getByPlace?, h.findByPlace?_eq, Option.map_some, Pool.get]

/-- The place at the head of the queue exists. -/
theorem allocateByPlace?_eq (h : p.WellFormed) (data : α) :
    p.allocateByPlace? data = some (p.allocateWith data) := by
  unfold allocateByPlace? Pool.allocateWith
  cases hv : p.vacant with
  | nil =>
      have hlast : back? (p.slots.length + 1) 1 = some p.slots.length :=
        back?_eq (Nat.le_add_left 1 _)
      simp only [List.length_append, List.length_singleton, hlast]
      rfl
  | cons i vacant =>
      have hlt : i < p.slots.length := by
        obtain ⟨s, hs, -⟩ := (h.queued i).1 (hv ▸ List.mem_cons_self)
        exact (List.getElem?_eq_some_iff.1 hs).1
      simp only [put?_eq hlt]
      rfl

theorem copyByPlace?_eq (h : p.WellFormed) {source : Pool α} (hsource : source.WellFormed)
    (id : SlotId) : p.copyByPlace? source id = some (p.replyTo (p.allocateCopy source id)) := by
  rw [copyByPlace?, hsource.findByPlace?_eq, Pool.allocateCopy]
  cases source.find? id with
  | none => rfl
  | some data =>
      simp only [Option.bind_eq_bind, Option.bind_some, h.allocateByPlace?_eq]
      rfl

theorem modifyByPlace?_eq (h : p.WellFormed) (id : SlotId) (f : α → α) :
    p.modifyByPlace? id f = some (p.modify id f) := by
  unfold modifyByPlace? Pool.modify
  cases hi : p.index.find? id with
  | none => rfl
  | some i =>
      have hlt := h.lt_of_indexed hi
      simp only [List.getElem?_eq_getElem hlt, Option.bind_eq_bind, Option.bind_some, put?_eq hlt,
        List.modify_eq_set_get _ hlt]
      rfl

/-- The pool that a release may have to compact is in agreement, too. -/
theorem releaseByPlace?_eq (h : p.WellFormed) (id : SlotId) :
    p.releaseByPlace? id = some (p.release id) := by
  unfold releaseByPlace? Pool.release
  cases hi : p.index.find? id with
  | none => rfl
  | some i =>
      have hcompact := (h.vacated hi).compactByPlace?_eq
      rw [Pool.vacated] at hcompact
      simp only [put?_eq (h.lt_of_indexed hi), Option.bind_eq_bind, Option.bind_some, hcompact]
      split <;> rfl

end WellFormed

/-- Nothing that can be asked of a pool misses a place. -/
structure InBounds (ps : ι → Pool α) (i : ι) : Prop where
  find : ∀ id, (ps i).findByPlace? id = some ((ps i).find? id)
  get : ∀ id, (ps i).getByPlace? id = some ((ps i).get id)
  perform : ∀ q, performByPlace? ps i q = some (Pool.perform ps i q)

theorem inBounds {ps : ι → Pool α} (h : ∀ i, (ps i).WellFormed) (i : ι) : InBounds ps i where
  find := (h i).findByPlace?_eq
  get := (h i).getByPlace?_eq
  perform q := by
    cases q with
    | allocate => exact congrArg (Option.map _) ((h i).allocateByPlace?_eq _)
    | allocateWith data => exact congrArg (Option.map _) ((h i).allocateByPlace?_eq data)
    | allocateCopy j id => exact (h i).copyByPlace?_eq (h j) id
    | duplicate id => exact (h i).copyByPlace?_eq (h i) id
    | modify id f => exact congrArg (Option.map _) ((h i).modifyByPlace?_eq id f)
    | release id => exact congrArg (Option.map _) ((h i).releaseByPlace?_eq id)
    | compact => exact congrArg (Option.map _) (h i).compactByPlace?_eq

/-! ### Pools in use -/

/-- **No search in vain.** The ids that the counter comes to, one after the other, are all live only
where every id is. -/
theorem InUse.hasRoom_iff {p : Pool α} (h : p.InUse) :
    p.HasRoom ↔ ∃ k, p.contains ⟨idAfter^[k] p.nextId⟩ = false := by
  constructor
  · intro hroom
    obtain ⟨k, -, hfree⟩ := exists_free hroom h.nextId
    exact ⟨k, hfree⟩
  · rintro ⟨k, hfree⟩
    refine h.wellFormed.hasRoom_of_free ((isValid_iff _).2 ?_) hfree
    exact UInt32.pos_iff_ne_zero.2 (iterate_idAfter_ne_zero h.nextId k)

section

variable [DecidableEq ι] {ratio : ι → Float32} {blank : α} {ps : ι → Pool α}

/-- **Every place is accounted for.** Whatever has been asked of pools with whatever ratios, live
ids lead to the slots that carry them and vacant places are queued once each, so the places are as
many as the two together; and nothing that can be asked next looks at a place that does not exist.
The one thing that can be asked in vain is an id where all are live, for which the search does not
end. -/
theorem Reached.places_accounted (h : Reached ratio blank ps) (i : ι) :
    (ps i).Accounted ∧ InBounds ps i ∧
      ((ps i).HasRoom ↔ ∃ k, (ps i).contains ⟨idAfter^[k] (ps i).nextId⟩ = false) := by
  have hwell : ∀ j, (ps j).WellFormed := fun j => (h.inUse j).wellFormed
  exact ⟨(hwell i).accounted, inBounds hwell i, (h.inUse i).hasRoom_iff⟩

end

/-- A place is vacated and used again under another id; then another is vacated, and a value is
copied to a second pool. -/
def reuse : List (Bool × PoolRequest Bool Nat) :=
  [(true, .allocateWith 10), (true, .allocateWith 20), (true, .allocateWith 30),
    (true, .release ⟨2⟩), (true, .allocateWith 40), (true, .release ⟨1⟩),
    (false, .allocateCopy true ⟨4⟩)]

/-- The pools that are left. The ratio of the first is no number, so it is never compacted. -/
def reused : Bool → Pool Nat := (runAll (fun i => .empty (oddRatio i) 0) reuse).2

theorem places_accounted_reused :
    Reached oddRatio 0 reused ∧
    (reused true).Accounted ∧ InBounds reused true ∧
      ((reused true).HasRoom ↔
        ∃ k, (reused true).contains ⟨idAfter^[k] (reused true).nextId⟩ = false) := by
  have hlength : 0 + reuse.length < 2 ^ 32 := by decide
  have hreached : Reached oddRatio 0 reused := Reached.start.runAll reuse fun _ => hlength
  exact ⟨hreached, hreached.places_accounted true⟩

/-- The third value has stayed at its place, and the fourth has taken that of the second. -/
example : ((reused true).slots.map (·.id.raw), (reused true).vacant) = ([0, 4, 3], [0]) := by
  decide +kernel

end FlowGraph.Pool
