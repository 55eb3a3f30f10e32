import FlowGraph.Proofs.Pool.WellFormed

/-!
# Compaction in place

A sweep visits the places of a pool one after the other and exchanges each live slot with the first
of the vacant ones that it has passed. What lies before the next place is then always the live
slots met so far, in order, and behind them the vacant ones; and the index is never out of step with
the places, as each exchange is entered before the next place is visited.

## Why nobody notices

A pool answers by the slots that carry an id, wherever they lie. The exchange moves such a slot and
changes none, and only vacant ones are cut off at the end.

* `Pool.Indexes` — an index that leads each id to the one place that carries it.
* `Pool.Halfway`, `Pool.Halfway.visit` — the invariant of the sweep, kept by each visit.
* `Pool.WellFormed.compact_value` — what a compaction leaves: the live slots, in order.
* `Pool.WellFormed.find?_eq_some_iff` — an id is answered by the slot that carries it.
* `Pool.WellFormed.find?_compacted`, `Pool.live_compacted` — all is answered and listed as before.
-/

namespace FlowGraph.Pool

variable {α : Type}

/-! ### Indexes -/

/-- An index that leads each id to the one place that carries it. -/
def Indexes (index : Table SlotId Nat) (slots : List (Slot α)) : Prop :=
  ∀ id i, index.find? id = some i ↔
    id.isValid = true ∧ ∃ s, slots[i]? = some s ∧ s.id = id

theorem WellFormed.indexes {p : Pool α} (h : p.WellFormed) : Indexes p.index p.slots := by
  intro id i
  constructor
  · exact h.placed id i
  · rintro ⟨hvalid, s, hs, rfl⟩
    exact h.indexed i s hs hvalid

namespace Indexes

variable {index : Table SlotId Nat} {slots : List (Slot α)}

theorem of_live (h : Indexes index slots) {i : Nat} {s : Slot α} (hs : slots[i]? = some s)
    (hlive : s.isLive = true) : index.find? s.id = some i := (h s.id i).2 ⟨hlive, s, hs, rfl⟩

/-- No two places carry one id. -/
theorem injective (h : Indexes index slots) {i j : Nat} {s t : Slot α} (hs : slots[i]? = some s)
    (ht : slots[j]? = some t) (hid : s.id = t.id) (hlive : t.isLive = true) : i = j := by
  have hlive' : s.isLive = true := by rw [Slot.isLive, hid]; exact hlive
  have hi := h.of_live hs hlive'
  have hj := h.of_live ht hlive
  rw [hid, hj] at hi
  exact (Option.some.inj hi).symm

/-- Vacant places at the end matter to no index. -/
theorem of_append {dead : List (Slot α)} (h : Indexes index (slots ++ dead))
    (hdead : ∀ d ∈ dead, d.isLive = false) : Indexes index slots := by
  intro id i
  rw [h id i]
  constructor
  · rintro ⟨hvalid, s, hs, rfl⟩
    refine ⟨hvalid, s, ?_, rfl⟩
    rcases Nat.lt_or_ge i slots.length with hlt | hge
    · rwa [List.getElem?_append_left hlt] at hs
    · rw [List.getElem?_append_right hge] at hs
      have hvacant := hdead s (List.mem_of_getElem? hs)
      rw [Slot.isLive, hvalid] at hvacant
      cases hvacant
  · rintro ⟨hvalid, s, hs, rfl⟩
    have hlt := (List.getElem?_eq_some_iff.1 hs).1
    exact ⟨hvalid, s, by rw [List.getElem?_append_left hlt, hs], rfl⟩

/-- Where every slot is live, ids differ from slot to slot. -/
theorem nodup (h : Indexes index slots) (hlive : ∀ s ∈ slots, s.isLive = true) :
    (slots.map (·.id)).Nodup := by
  rw [List.Nodup, List.pairwise_map, List.pairwise_iff_getElem]
  intro i j hi hj hlt hid
  have hsame := h.injective (List.getElem?_eq_getElem hi) (List.getElem?_eq_getElem hj) hid
    (hlive _ (List.getElem_mem hj))
  omega

end Indexes

/-! ### Exchanges -/

theorem getElem?_exchange {slots : List (Slot α)} {i j : Nat} {a b : Slot α}
    (hi : slots[i]? = some a) (hj : slots[j]? = some b) (k : Nat) :
    (exchange slots i j)[k]? = if k = j then some a else if k = i then some b else slots[k]? := by
  have hilt := (List.getElem?_eq_some_iff.1 hi).1
  have hjlt := (List.getElem?_eq_some_iff.1 hj).1
  unfold exchange
  rw [hi, hj]
  simp only [List.getElem?_set, List.length_set, hilt, hjlt, if_true, eq_comm]

/-- **Exchange.** A live slot that changes places with a vacant one is entered at its new place. -/
theorem Indexes.exchange {index : Table SlotId Nat} {slots : List (Slot α)}
    (h : Indexes index slots) {i j : Nat} {d x : Slot α} (hi : slots[i]? = some d)
    (hj : slots[j]? = some x) (hd : d.isLive = false) (hx : x.isLive = true) :
    Indexes (index.insert x.id i) (exchange slots i j) := by
  intro id k
  simp only [Table.find?_insert, getElem?_exchange hi hj]
  by_cases hid : id = x.id
  · subst hid
    rw [if_pos rfl, Option.some.injEq]
    have hij : i ≠ j := by
      rintro rfl
      rw [hi, Option.some.injEq] at hj
      rw [← hj, hd] at hx
      cases hx
    constructor
    · rintro rfl
      exact ⟨hx, x, by rw [if_neg hij, if_pos rfl], rfl⟩
    · rintro ⟨hvalid, s, hs, hsid⟩
      by_cases hkj : k = j
      · rw [if_pos hkj, Option.some.injEq] at hs
        rw [hs, Slot.isLive, hsid, hvalid] at hd
        cases hd
      · rw [if_neg hkj] at hs
        by_cases hki : k = i
        · exact hki.symm
        · rw [if_neg hki] at hs
          exact absurd (h.injective hs hj hsid hx) hkj
  · rw [if_neg hid, h id k]
    refine and_congr_right fun hvalid => ?_
    -- Neither of the two places carried the id before, and neither does after.
    by_cases hkj : k = j
    · have hdid : d.id ≠ id := by
        rintro rfl
        rw [Slot.isLive, hvalid] at hd
        cases hd
      simp [hkj, hj, Ne.symm hid, hdid]
    · by_cases hki : k = i
      · have hdid : d.id ≠ id := by
          rintro rfl
          rw [Slot.isLive, hvalid] at hd
          cases hd
        have hij : i ≠ j := hki ▸ hkj
        simp [hki, hi, hij, Ne.symm hid, hdid]
      · rw [if_neg hkj, if_neg hki]

theorem exchange_append (kept dead rest : List (Slot α)) (d x : Slot α) :
    exchange (kept ++ (d :: dead ++ x :: rest)) kept.length (kept.length + (dead.length + 1))
      = kept ++ (x :: dead ++ d :: rest) := by
  have hd : (kept ++ (d :: dead ++ x :: rest))[kept.length]? = some d := by simp
  have hx : (kept ++ (d :: dead ++ x :: rest))[kept.length + (dead.length + 1)]? = some x := by
    rw [List.getElem?_append_right (by omega), Nat.add_sub_cancel_left, List.cons_append,
      List.getElem?_cons_succ, List.getElem?_append_right (Nat.le_refl _), Nat.sub_self]
    rfl
  unfold exchange
  rw [hd, hx]
  simp only
  rw [List.set_append_right _ _ (Nat.le_refl _), Nat.sub_self, List.cons_append, List.set_cons_zero,
    List.set_append_right _ _ (by omega), Nat.add_sub_cancel_left, List.set_cons_succ,
    List.set_append_right _ _ (Nat.le_refl _), Nat.sub_self, List.set_cons_zero, List.cons_append]

/-! ### The sweep -/

/-- **The invariant of the sweep.** Before place `i` stand the live slots met so far, in order, and
behind them the vacant ones; from place `i` on nothing has changed; and the index is in step. -/
structure Halfway (slots : List (Slot α)) (i : Nat) (s : Sweep α) (dead : List (Slot α)) :
    Prop where
  shape : s.slots = (slots.take i).filter Slot.isLive ++ (dead ++ slots.drop i)
  place : ((slots.take i).filter Slot.isLive).length + dead.length = i
  vacant : ∀ d ∈ dead, d.isLive = false
  passed : s.passed = dead.length
  indexes : Indexes s.index s.slots

theorem halfway_start {index : Table SlotId Nat} {slots : List (Slot α)}
    (h : Indexes index slots) : Halfway slots 0 ⟨slots, index, 0⟩ [] where
  shape := by simp
  place := by simp
  vacant := by simp
  passed := rfl
  indexes := h

/-- **Step.** A visit takes the sweep one place further. -/
theorem Halfway.visit {slots : List (Slot α)} {i : Nat} {s : Sweep α} {dead : List (Slot α)}
    (h : Halfway slots i s dead) (hi : i < slots.length) :
    ∃ dead', Halfway slots (i + 1) (s.visit i) dead' := by
  obtain ⟨x, hx⟩ : ∃ x, slots[i] = x := ⟨_, rfl⟩
  have hshape := h.shape
  have hplace := h.place
  have hpassed := h.passed
  have htake : slots.take (i + 1) = slots.take i ++ [x] := by
    rw [List.take_succ_eq_append_getElem hi, hx]
  rw [List.drop_eq_getElem_cons hi, hx] at hshape
  generalize hkept : (slots.take i).filter Slot.isLive = kept at hshape hplace
  have hget : s.slots[i]? = some x := by
    rw [hshape, List.getElem?_append_right (by omega), List.getElem?_append_right (by omega),
      show i - kept.length - dead.length = 0 by omega]
    rfl
  unfold Sweep.visit
  rw [hget]
  simp only
  cases hlive : x.isLive with
  | false =>
      have hnext : (slots.take (i + 1)).filter Slot.isLive = kept := by
        rw [htake, List.filter_append, hkept]
        simp [hlive]
      refine ⟨dead ++ [x], ?_⟩
      simp only [Bool.not_false, if_true]
      exact
        { shape := by simp [hnext, hshape]
          place := by rw [hnext, List.length_append, List.length_singleton]; omega
          vacant := fun d hd => by
            rcases List.mem_append.1 hd with hd | hd
            · exact h.vacant d hd
            · rw [List.mem_singleton.1 hd, hlive]
          passed := by simp [hpassed]
          indexes := h.indexes }
  | true =>
      have hnext : (slots.take (i + 1)).filter Slot.isLive = kept ++ [x] := by
        rw [htake, List.filter_append, hkept]
        simp [hlive]
      simp only [Bool.not_true, Bool.false_eq_true, if_false]
      cases dead with
      | nil =>
          refine ⟨[], ?_⟩
          rw [List.length_nil] at hplace hpassed
          rw [if_pos hpassed]
          exact
            { shape := by simp [hnext, hshape]
              place := by
                rw [hnext, List.length_append, List.length_singleton, List.length_nil]
                omega
              vacant := fun d hd => by cases hd
              passed := hpassed
              indexes := h.indexes }
      | cons d dead =>
          have hd := h.vacant d (by simp)
          rw [List.length_cons] at hplace hpassed
          have hfront : i - s.passed = kept.length := by omega
          have hdget : s.slots[kept.length]? = some d := by rw [hshape]; simp
          have hmoved : exchange s.slots kept.length i
              = kept ++ (x :: dead ++ d :: slots.drop (i + 1)) := by
            rw [hshape, ← hplace]
            exact exchange_append kept dead _ d x
          refine ⟨dead ++ [d], ?_⟩
          rw [if_neg (by omega), hfront]
          exact
            { shape := by simp [hnext, hmoved]
              place := by
                rw [hnext, List.length_append, List.length_append, List.length_singleton,
                  List.length_singleton]
                omega
              vacant := fun y hy => h.vacant y (by simpa [or_comm] using hy)
              passed := by simp [hpassed]
              indexes := h.indexes.exchange hdget hget hd hlive }

/-- **Run.** After visiting the first places, the sweep is as far as these. -/
theorem halfway_foldl {index : Table SlotId Nat} {slots : List (Slot α)} (h : Indexes index slots)
    {n : Nat} (hn : n ≤ slots.length) :
    ∃ dead, Halfway slots n ((List.range n).foldl Sweep.visit ⟨slots, index, 0⟩) dead := by
  induction n with
  | zero => exact ⟨[], halfway_start h⟩
  | succ n ih =>
      obtain ⟨dead, hdead⟩ := ih (Nat.le_of_succ_le hn)
      rw [List.range_succ, List.foldl_append]
      exact hdead.visit hn

/-! ### Compaction -/

/-- What a compaction leaves. -/
def compacted (p : Pool α) : Pool α :=
  { p with slots := p.slots.filter Slot.isLive, index := p.sweep.index, vacant := [] }

/-- **Compaction.** The live slots remain, in order, and each is entered at its new place. -/
theorem WellFormed.compact_value {p : Pool α} (h : p.WellFormed) :
    p.compact.value = p.compacted ∧ Indexes p.compacted.index p.compacted.slots := by
  obtain ⟨dead, hsweep⟩ := halfway_foldl h.indexes (Nat.le_refl p.slots.length)
  have hshape : p.sweep.slots = p.slots.filter Slot.isLive ++ dead := by
    have hfull := hsweep.shape
    rw [List.take_length, List.drop_length, List.append_nil] at hfull
    exact hfull
  have hpassed : p.sweep.passed = dead.length := hsweep.passed
  have hindexes : Indexes p.sweep.index p.sweep.slots := hsweep.indexes
  rw [hshape] at hindexes
  refine ⟨?_, hindexes.of_append hsweep.vacant⟩
  simp only [compact, compacted, hshape, hpassed, List.length_append, Nat.add_sub_cancel,
    List.take_left]

theorem WellFormed.compacted {p : Pool α} (h : p.WellFormed) : p.compacted.WellFormed := by
  have hindexes := h.compact_value.2
  refine
    { placed := fun id i hi => (hindexes id i).1 hi
      indexed := fun i s hs hlive => hindexes.of_live hs hlive
      queued := fun i => ?_
      queuedOnce := List.nodup_nil }
  constructor
  · intro hi
    cases hi
  · rintro ⟨s, hs, hdead⟩
    have hlive := (List.mem_filter.1 (List.mem_of_getElem? hs)).2
    rw [hdead] at hlive
    cases hlive

/-! ### What a pool answers -/

/-- An id is answered by the slot that carries it, wherever that slot lies. -/
theorem WellFormed.find?_eq_some_iff {p : Pool α} (h : p.WellFormed) (id : SlotId) (d : α) :
    p.find? id = some d ↔ id.isValid = true ∧ (⟨id, d⟩ : Slot α) ∈ p.slots := by
  unfold Pool.find?
  constructor
  · intro hfind
    obtain ⟨i, hi, hd⟩ := Option.bind_eq_some_iff.1 hfind
    obtain ⟨hvalid, s, hs, rfl⟩ := h.placed id i hi
    rw [hs, Option.map_some, Option.some.injEq] at hd
    exact ⟨hvalid, hd ▸ List.mem_of_getElem? hs⟩
  · rintro ⟨hvalid, hmem⟩
    obtain ⟨i, hi⟩ := List.mem_iff_getElem?.1 hmem
    have hindex := h.indexed i _ hi hvalid
    simp only [hindex, Option.bind_eq_bind, Option.bind_some, hi, Option.map_some]

theorem WellFormed.find?_compacted {p : Pool α} (h : p.WellFormed) (id : SlotId) :
    p.compacted.find? id = p.find? id := by
  refine Option.ext fun d => ?_
  rw [h.compacted.find?_eq_some_iff, h.find?_eq_some_iff]
  refine and_congr_right fun hvalid => ?_
  exact List.mem_filter.trans (and_iff_left hvalid)

/-- Compaction keeps the order of the live values. -/
theorem live_compacted (p : Pool α) : p.compacted.live = p.live := by
  simp only [live, compacted, List.filter_filter, Bool.and_self]

/-! ### The list of live values -/

theorem WellFormed.mem_live_iff {p : Pool α} (h : p.WellFormed) (id : SlotId) (d : α) :
    (id, d) ∈ p.live ↔ p.find? id = some d := by
  rw [h.find?_eq_some_iff, live, List.mem_map]
  constructor
  · rintro ⟨s, hs, heq⟩
    obtain ⟨rfl, rfl⟩ := Prod.mk.inj heq
    obtain ⟨hmem, hlive⟩ := List.mem_filter.1 hs
    exact ⟨hlive, hmem⟩
  · rintro ⟨hvalid, hmem⟩
    exact ⟨⟨id, d⟩, List.mem_filter.2 ⟨hmem, hvalid⟩, rfl⟩

theorem ids_eq (p : Pool α) : p.ids = p.live.map Prod.fst := by
  rw [ids, live, List.filter_map, List.map_map]
  rfl

/-- The live ids are listed once each. -/
theorem WellFormed.nodup_ids {p : Pool α} (h : p.WellFormed) : p.ids.Nodup := by
  have hnodup := h.compact_value.2.nodup fun s hs => (List.mem_filter.1 hs).2
  rw [ids, List.filter_map]
  exact hnodup

theorem WellFormed.nodup_live {p : Pool α} (h : p.WellFormed) : p.live.Nodup := by
  have hnodup := h.nodup_ids
  rw [ids_eq] at hnodup
  exact List.Pairwise.of_map Prod.fst (fun _ _ hne heq => hne (congrArg Prod.fst heq)) hnodup

theorem WellFormed.mem_ids_iff {p : Pool α} (h : p.WellFormed) (id : SlotId) :
    id ∈ p.ids ↔ (p.find? id).isSome = true := by
  rw [ids_eq, List.mem_map, Option.isSome_iff_exists]
  constructor
  · rintro ⟨⟨x, d⟩, hmem, rfl⟩
    exact ⟨d, (h.mem_live_iff x d).1 hmem⟩
  · rintro ⟨d, hd⟩
    exact ⟨(id, d), (h.mem_live_iff id d).2 hd, rfl⟩

theorem WellFormed.contains_eq {p : Pool α} (h : p.WellFormed) (id : SlotId) :
    p.contains id = (p.find? id).isSome := by
  have hnone := h.find?_eq_none_iff id
  unfold Pool.contains Table.contains
  cases hi : p.index.find? id <;> cases hd : p.find? id <;> simp_all

/-- The index has an entry for each live value. -/
theorem WellFormed.length_live {p : Pool α} (h : p.WellFormed) : p.live.length = p.size := by
  have hmem : ∀ id, id ∈ p.index.keys ↔ id ∈ p.ids := by
    intro id
    rw [Table.mem_keys_iff, h.mem_ids_iff, ← h.contains_eq]
    rfl
  have hperm := (List.perm_ext_iff_of_nodup p.index.keysNodup h.nodup_ids).2 hmem
  have hlength := hperm.length_eq
  rw [ids_eq, List.length_map, List.length_map] at hlength
  exact hlength.symm

end FlowGraph.Pool
