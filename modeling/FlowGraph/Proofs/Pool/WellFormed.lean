import FlowGraph.Pool.Basic
import FlowGraph.Proofs.Counter

/-!
# Well-formed pools

The index of a pool and its places tell the same story: an id leads to the one place that carries
it, and the places that carry none are those queued for reuse. As long as the counter of ids has
not started over, all live ids lie below it, and the next id is fresh.

* `Pool.WellFormed` — the index and the places agree.
* `Pool.Ascending` — the live ids lie below the counter.
* `Pool.WellFormed.allocateWith_fresh` — an allocation keeps the agreement under any id not live.
* `Pool.WellFormed.allocateWith`, `modify` — both are kept.
* `Pool.find?_allocateWith`, `Pool.find?_modify` — the two operations through the view.
-/

namespace FlowGraph.Pool

variable {α : Type}

/-! ### The invariant -/

/-- The index, the places and the queue of vacant places agree. -/
structure WellFormed (p : Pool α) : Prop where
  /-- An indexed id is found at its place. -/
  placed : ∀ id i, p.index.find? id = some i →
    id.isValid = true ∧ ∃ s, p.slots[i]? = some s ∧ s.id = id
  /-- A live slot is indexed at its own place. -/
  indexed : ∀ i s, p.slots[i]? = some s → s.isLive = true → p.index.find? s.id = some i
  queued : ∀ i, i ∈ p.vacant ↔ ∃ s, p.slots[i]? = some s ∧ s.isLive = false
  queuedOnce : p.vacant.Nodup

/-- All live ids lie below the counter, which has not started over. -/
structure Ascending (p : Pool α) : Prop where
  positive : 0 < p.nextId
  below : ∀ id i, p.index.find? id = some i → id.raw < p.nextId

theorem isValid_iff (id : SlotId) : id.isValid = true ↔ 0 < id.raw := by
  obtain ⟨n⟩ := id
  rw [SlotId.isValid, SlotId.empty, bne_iff_ne, ne_eq, SlotId.mk.injEq, UInt32.pos_iff_ne_zero]

/-- An id is found exactly if it is indexed. -/
theorem WellFormed.find?_eq_none_iff {p : Pool α} (h : p.WellFormed) (id : SlotId) :
    p.find? id = none ↔ p.index.find? id = none := by
  unfold Pool.find?
  cases hi : p.index.find? id with
  | none => simp
  | some i =>
      obtain ⟨-, s, hs, -⟩ := h.placed id i hi
      simp [hs]

theorem wellFormed_empty (ratio : Float32) (blank : α) : (empty ratio blank).WellFormed where
  placed _ _ h := by cases h
  indexed _ _ h := by cases h
  queued i := by simp [empty]
  queuedOnce := List.nodup_nil

theorem ascending_empty (ratio : Float32) (blank : α) : (empty ratio blank).Ascending where
  positive := show (0 : UInt32) < 1 by decide
  below _ _ h := by cases h

/-! ### Allocation -/

/-- An id that lies at the counter is not live. -/
theorem Ascending.find?_counter {p : Pool α} (h : p.Ascending) :
    p.index.find? ⟨p.nextId⟩ = none := by
  cases hi : p.index.find? ⟨p.nextId⟩ with
  | none => rfl
  | some i => exact absurd (h.below _ i hi) (UInt32.lt_irrefl _)

/-- **Fresh ids.** While the live ids lie below the counter, the counter is the next id. -/
theorem Ascending.freshId {p : Pool α} (h : p.Ascending) : p.freshId = ⟨p.nextId⟩ := by
  have hnew : p.contains ⟨p.nextId⟩ = false := by
    rw [Pool.contains, Table.contains, h.find?_counter]
    rfl
  simp only [Pool.freshId, freshFrom, hnew, Bool.false_eq_true, if_false]

/-- Where a fresh id is put. -/
def freshPlace (p : Pool α) : Nat := p.vacant.head?.getD p.slots.length

/-- The slots after a value was put at the fresh place. -/
def filled (p : Pool α) (s : Slot α) : List (Slot α) :=
  if p.vacant.isEmpty then p.slots ++ [s] else p.slots.set p.freshPlace s

theorem freshPlace_nil {p : Pool α} (hv : p.vacant = []) : p.freshPlace = p.slots.length := by
  rw [freshPlace, hv, List.head?_nil, Option.getD_none]

theorem freshPlace_cons {p : Pool α} {i : Nat} {vacant : List Nat} (hv : p.vacant = i :: vacant) :
    p.freshPlace = i := by
  rw [freshPlace, hv, List.head?_cons, Option.getD_some]

theorem allocateWith_eq (p : Pool α) (data : α) :
    p.allocateWith data
      = (p.freshId, { p with
          slots := p.filled ⟨p.freshId, data⟩
          index := p.index.insert p.freshId p.freshPlace
          vacant := p.vacant.tail
          nextId := idAfter p.freshId.raw }) := by
  unfold allocateWith filled
  cases hv : p.vacant with
  | nil =>
      rw [freshPlace_nil hv, ← hv]
      simp [hv]
  | cons i vacant =>
      rw [freshPlace_cons hv]
      simp

/-- The slot at the fresh place is the new one, all others are what they were. -/
theorem WellFormed.getElem?_filled {p : Pool α} (h : p.WellFormed) (s : Slot α) (i : Nat) :
    (p.filled s)[i]? = if i = p.freshPlace then some s else p.slots[i]? := by
  unfold filled
  cases hv : p.vacant with
  | nil =>
      rw [freshPlace_nil hv, List.isEmpty_nil, if_pos rfl]
      rcases Nat.lt_trichotomy i p.slots.length with hlt | heq | hgt
      · rw [List.getElem?_append_left hlt, if_neg (Nat.ne_of_lt hlt)]
      · simp [heq]
      · rw [if_neg (Nat.ne_of_gt hgt), List.getElem?_eq_none (by simp; omega),
          List.getElem?_eq_none (by omega)]
  | cons j vacant =>
      have hlt : j < p.slots.length := by
        obtain ⟨t, ht, -⟩ := (h.queued j).1 (by simp [hv])
        exact (List.getElem?_eq_some_iff.1 ht).1
      rw [freshPlace_cons hv, List.isEmpty_cons, if_neg Bool.false_ne_true, List.getElem?_set]
      by_cases hij : i = j
      · simp [hij, hlt]
      · rw [if_neg (Ne.symm hij), if_neg hij]

/-- The fresh place holds no live slot. -/
theorem WellFormed.freshPlace_free {p : Pool α} (h : p.WellFormed) {s : Slot α}
    (hs : p.slots[p.freshPlace]? = some s) : s.isLive = false := by
  cases hv : p.vacant with
  | nil =>
      rw [freshPlace_nil hv, List.getElem?_eq_none (Nat.le_refl _)] at hs
      cases hs
  | cons i vacant =>
      rw [freshPlace_cons hv] at hs
      obtain ⟨t, ht, hdead⟩ := (h.queued i).1 (by simp [hv])
      rw [ht] at hs
      exact (Option.some.inj hs) ▸ hdead

/-- Indexed places are not fresh. -/
theorem WellFormed.ne_freshPlace {p : Pool α} (h : p.WellFormed) {id : SlotId} {i : Nat}
    (hi : p.index.find? id = some i) : i ≠ p.freshPlace := by
  intro hfresh
  obtain ⟨hvalid, s, hs, rfl⟩ := h.placed id i hi
  rw [hfresh] at hs
  have hdead := h.freshPlace_free hs
  rw [Slot.isLive, hvalid] at hdead
  cases hdead

/-- Whatever number the counter stands at, an allocation under an id that is not live keeps index
and places in agreement. -/
theorem WellFormed.allocateWith_fresh {p : Pool α} (h : p.WellFormed)
    (hvalid : p.freshId.isValid = true) (hfree : p.index.find? p.freshId = none) (data : α) :
    (p.allocateWith data).2.WellFormed := by
  rw [allocateWith_eq]
  refine
    { placed := fun id i hi => ?_
      indexed := fun i s hs hlive => ?_
      queued := fun i => ?_
      queuedOnce := h.queuedOnce.sublist (List.tail_sublist _) }
  · simp only [h.getElem?_filled]
    rcases Table.find?_insert_eq_some hi with ⟨hid, hplace⟩ | ⟨-, hold⟩
    · exact ⟨hid ▸ hvalid, _, if_pos hplace, hid.symm⟩
    · rw [if_neg (h.ne_freshPlace hold)]
      exact h.placed id i hold
  · simp only [h.getElem?_filled] at hs
    simp only [Table.find?_insert]
    by_cases hplace : i = p.freshPlace
    · rw [if_pos hplace] at hs
      cases hs
      rw [if_pos rfl, hplace]
    · rw [if_neg hplace] at hs
      have hindex := h.indexed i s hs hlive
      have hne : s.id ≠ p.freshId := by
        intro heq
        rw [heq, hfree] at hindex
        cases hindex
      rw [if_neg hne]
      exact hindex
  · simp only [h.getElem?_filled]
    by_cases hplace : i = p.freshPlace
    · -- The fresh place was at the head of the queue, if anywhere.
      have htail : i ∉ p.vacant.tail := by
        have honce := h.queuedOnce
        cases hv : p.vacant with
        | nil => simp
        | cons j vacant =>
            rw [freshPlace_cons hv] at hplace
            rw [hv, List.nodup_cons] at honce
            rw [List.tail_cons, hplace]
            exact honce.1
      simp only [htail, if_pos hplace, Option.some.injEq, exists_eq_left', Slot.isLive, hvalid,
        Bool.true_eq_false]
    · rw [if_neg hplace, ← h.queued i]
      cases hv : p.vacant with
      | nil => simp
      | cons j vacant =>
          rw [freshPlace_cons hv] at hplace
          simp [hplace]

theorem WellFormed.allocateWith {p : Pool α} (h : p.WellFormed) (hasc : p.Ascending) (data : α) :
    (p.allocateWith data).2.WellFormed := by
  refine h.allocateWith_fresh ?_ ?_ data
  · rw [hasc.freshId]
    exact (isValid_iff _).2 hasc.positive
  · rw [hasc.freshId]
    exact hasc.find?_counter

/-- Allocation binds the new id and leaves every other as it was. -/
theorem WellFormed.find?_allocateWith {p : Pool α} (h : p.WellFormed) (data : α) (id : SlotId) :
    (p.allocateWith data).2.find? id = if id = p.freshId then some data else p.find? id := by
  rw [allocateWith_eq]
  unfold Pool.find?
  simp only [Table.find?_insert, h.getElem?_filled]
  by_cases hid : id = p.freshId
  · simp [hid]
  · rw [if_neg hid, if_neg hid]
    cases hi : p.index.find? id with
    | none => rfl
    | some i =>
        have hne := h.ne_freshPlace hi
        simp only [Option.bind_eq_bind, Option.bind_some, if_neg hne]

theorem Ascending.allocateWith {p : Pool α} (h : p.Ascending) (data : α)
    (hroom : p.nextId.toNat + 1 < 2 ^ 32) :
    (p.allocateWith data).2.Ascending ∧
      (p.allocateWith data).2.nextId.toNat = p.nextId.toNat + 1 := by
  rw [allocateWith_eq, h.freshId]
  have hnat := Counter.toNat_next hroom
  have hne : p.nextId + 1 ≠ 0 := by
    intro heq
    have h0 : (0 : UInt32).toNat = 0 := rfl
    rw [heq] at hnat
    omega
  have hnext : idAfter p.nextId = p.nextId + 1 := if_neg hne
  simp only [hnext]
  refine ⟨⟨UInt32.pos_iff_ne_zero.2 hne, fun id i hi => ?_⟩, hnat⟩
  · rw [UInt32.lt_iff_toNat_lt, hnat]
    rcases Table.find?_insert_eq_some hi with ⟨hid, -⟩ | ⟨-, hold⟩
    · rw [hid]
      exact Nat.lt_succ_self _
    · have hlt := h.below id i hold
      rw [UInt32.lt_iff_toNat_lt] at hlt
      exact Nat.lt_succ_of_lt hlt

/-- The next id is one that is not found. -/
theorem WellFormed.find?_freshId {p : Pool α} (h : p.WellFormed) (hasc : p.Ascending) :
    p.find? p.freshId = none := by
  rw [h.find?_eq_none_iff, hasc.freshId, hasc.find?_counter]

/-! ### Change of a value -/

theorem getElem?_modify_map (slots : List (Slot α)) (i j : Nat) (f : α → α) :
    (slots.modify i fun s => { s with data := f s.data })[j]?
      = (slots[j]?).map fun s => if j = i then { s with data := f s.data } else s := by
  rw [List.getElem?_modify]
  cases slots[j]? with
  | none => rfl
  | some s =>
      by_cases hji : j = i
      · subst hji
        simp
      · simp [hji, Ne.symm hji]

theorem modify_of_missing {p : Pool α} {id : SlotId} (h : p.index.find? id = none) (f : α → α) :
    p.modify id f = p := by
  simp only [modify, h]

theorem modify_of_indexed {p : Pool α} {id : SlotId} {i : Nat} (h : p.index.find? id = some i)
    (f : α → α) :
    p.modify id f = { p with slots := p.slots.modify i fun s => { s with data := f s.data } } := by
  simp only [modify, h]

/-- A change of a value neither adds one nor takes one away. -/
theorem isSome_find?_modify (p : Pool α) (id x : SlotId) (f : α → α) :
    ((p.modify id f).find? x).isSome = (p.find? x).isSome := by
  cases hi : p.index.find? id with
  | none => rw [modify_of_missing hi]
  | some i =>
      rw [modify_of_indexed hi, find?, find?]
      cases p.index.find? x with
      | none => rfl
      | some j =>
          simp only [Option.bind_eq_bind, Option.bind_some, getElem?_modify_map, Option.isSome_map]

theorem WellFormed.modify {p : Pool α} (h : p.WellFormed) (id : SlotId) (f : α → α) :
    (p.modify id f).WellFormed := by
  cases hi : p.index.find? id with
  | none =>
      rw [modify_of_missing hi]
      exact h
  | some i =>
      rw [modify_of_indexed hi]
      -- No slot changes its id.
      have hid : ∀ (s : Slot α) (j : Nat),
          (if j = i then { s with data := f s.data } else s).id = s.id := by
        intro s j
        split <;> rfl
      refine
        { placed := fun x j hj => ?_
          indexed := fun j s hs hlive => ?_
          queued := fun j => ?_
          queuedOnce := h.queuedOnce }
      · obtain ⟨hvalid, s, hs, hsx⟩ := h.placed x j hj
        refine ⟨hvalid, _, by rw [getElem?_modify_map, hs, Option.map_some], ?_⟩
        rw [hid, hsx]
      · simp only [getElem?_modify_map, Option.map_eq_some_iff] at hs
        obtain ⟨t, ht, rfl⟩ := hs
        rw [Slot.isLive, hid] at hlive
        rw [hid]
        exact h.indexed j t ht hlive
      · rw [h.queued j]
        simp only [getElem?_modify_map, Option.map_eq_some_iff]
        constructor
        · intro hvacant
          obtain ⟨s, hs, hdead⟩ := hvacant
          refine ⟨_, ⟨s, hs, rfl⟩, ?_⟩
          rw [Slot.isLive, hid]
          exact hdead
        · intro hvacant
          obtain ⟨_, ⟨s, hs, rfl⟩, hdead⟩ := hvacant
          rw [Slot.isLive, hid] at hdead
          exact ⟨s, hs, hdead⟩

/-- A change of a value touches neither the index nor the counter nor the blank value. -/
theorem modify_rest (p : Pool α) (id : SlotId) (f : α → α) :
    (p.modify id f).index = p.index ∧ (p.modify id f).nextId = p.nextId ∧
      (p.modify id f).blank = p.blank := by
  cases hi : p.index.find? id with
  | none =>
      rw [modify_of_missing hi]
      exact ⟨rfl, rfl, rfl⟩
  | some i =>
      rw [modify_of_indexed hi]
      exact ⟨rfl, rfl, rfl⟩

theorem Ascending.modify {p : Pool α} (h : p.Ascending) (id : SlotId) (f : α → α) :
    (p.modify id f).Ascending := by
  obtain ⟨hindex, hnext, -⟩ := p.modify_rest id f
  refine ⟨?_, fun x i hx => ?_⟩
  · rw [hnext]
    exact h.positive
  · rw [hindex] at hx
    rw [hnext]
    exact h.below x i hx

/-- A change of one value leaves every other as it was. -/
theorem WellFormed.find?_modify {p : Pool α} (h : p.WellFormed) (id x : SlotId) (f : α → α) :
    (p.modify id f).find? x = if x = id then (p.find? x).map f else p.find? x := by
  cases hi : p.index.find? id with
  | none =>
      rw [modify_of_missing hi]
      split
      · next hx => rw [hx, (h.find?_eq_none_iff id).2 hi]; rfl
      · rfl
  | some i =>
      rw [modify_of_indexed hi]
      unfold Pool.find?
      cases hj : p.index.find? x with
      | none => simp
      | some j =>
          obtain ⟨-, s, hs, hsx⟩ := h.placed x j hj
          obtain ⟨-, t, ht, hti⟩ := h.placed id i hi
          simp only [Option.bind_eq_bind, Option.bind_some, getElem?_modify_map, hs,
            Option.map_some]
          -- Two ids at one place are one id.
          have hsame : x = id ↔ j = i := by
            constructor
            · intro hx
              rw [hx, hi] at hj
              exact (Option.some.inj hj).symm
            · intro hplace
              rw [← hplace, hs] at ht
              rw [← hsx, ← hti, Option.some.inj ht]
          by_cases hx : x = id
          · rw [if_pos hx, if_pos (hsame.1 hx)]
          · rw [if_neg hx, if_neg fun hji => hx (hsame.2 hji)]

end FlowGraph.Pool
