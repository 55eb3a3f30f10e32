import FlowGraph.Proofs.Pool.Compaction

/-!
# Release

Releasing a value vacates its place and queues it for reuse, and may set off a compaction. Whether
it does hangs on a comparison of fractions that nothing is assumed of: with or without compaction,
the id is unbound and every other id answers as before.

* `Pool.vacated` — a pool with one place more that waits for reuse.
* `Pool.WellFormed.release_value` — all that a release can do.
* `Pool.WellFormed.find?_release` — a release through the view.
* `Pool.WellFormed.release`, `Pool.Ascending.release` — what it keeps.
-/

namespace FlowGraph.Pool

variable {α : Type}

/-! ### The place of a released value -/

/-- A pool after the place of an id was vacated. -/
def vacated (p : Pool α) (id : SlotId) (i : Nat) : Pool α :=
  { p with
    slots := p.slots.set i ⟨.empty, p.blank⟩
    index := p.index.erase id
    vacant := p.vacant ++ [i] }

section

variable {p : Pool α} {id : SlotId} {i : Nat}

theorem getElem?_vacated (hlt : i < p.slots.length) (j : Nat) :
    (p.vacated id i).slots[j]? = if j = i then some ⟨.empty, p.blank⟩ else p.slots[j]? := by
  simp only [vacated, List.getElem?_set, hlt, if_true, eq_comm]

theorem WellFormed.lt_of_indexed (h : p.WellFormed) (hi : p.index.find? id = some i) :
    i < p.slots.length := by
  obtain ⟨-, s, hs, -⟩ := h.placed id i hi
  exact (List.getElem?_eq_some_iff.1 hs).1

/-- Only the released id was found at its place. -/
theorem WellFormed.ne_place (h : p.WellFormed) (hi : p.index.find? id = some i) {x : SlotId}
    {j : Nat} (hx : p.index.find? x = some j) (hne : x ≠ id) : j ≠ i := by
  rintro rfl
  obtain ⟨-, s, hs, rfl⟩ := h.placed x j hx
  obtain ⟨-, t, ht, rfl⟩ := h.placed id j hi
  rw [hs] at ht
  exact hne (congrArg Slot.id (Option.some.inj ht))

theorem WellFormed.vacated (h : p.WellFormed) (hi : p.index.find? id = some i) :
    (p.vacated id i).WellFormed := by
  have hlt := h.lt_of_indexed hi
  have hindex : ∀ x, (p.vacated id i).index.find? x
      = if x = id then none else p.index.find? x := p.index.find?_erase id
  refine
    { placed := fun x j hj => ?_
      indexed := fun j s hs hlive => ?_
      queued := fun j => ?_
      queuedOnce := ?_ }
  · rw [hindex] at hj
    split at hj
    · cases hj
    · next hne =>
      rw [getElem?_vacated hlt, if_neg (h.ne_place hi hj hne)]
      exact h.placed x j hj
  · rw [getElem?_vacated hlt] at hs
    split at hs
    · cases hs
      cases hlive
    · next hne =>
      have hold := h.indexed j s hs hlive
      have hid : s.id ≠ id := by
        intro heq
        rw [heq, hi] at hold
        exact hne (Option.some.inj hold).symm
      rw [hindex, if_neg hid, hold]
  · show j ∈ p.vacant ++ [i] ↔ _
    rw [getElem?_vacated hlt, List.mem_append, List.mem_singleton]
    by_cases hj : j = i
    · simp [hj, Slot.isLive, SlotId.isValid]
    · rw [if_neg hj, ← h.queued j, or_iff_left hj]
  · show (p.vacant ++ [i]).Nodup
    have hnew : i ∉ p.vacant := by
      intro hmem
      obtain ⟨s, hs, hdead⟩ := (h.queued i).1 hmem
      obtain ⟨hvalid, t, ht, rfl⟩ := h.placed id i hi
      rw [hs] at ht
      rw [Slot.isLive, Option.some.inj ht, hvalid] at hdead
      cases hdead
    refine List.nodup_append.2 ⟨h.queuedOnce, List.pairwise_singleton _ i, fun x hx y hy heq => ?_⟩
    rw [List.mem_singleton.1 hy] at heq
    exact hnew (heq ▸ hx)

theorem WellFormed.find?_vacated (h : p.WellFormed) (hi : p.index.find? id = some i)
    (x : SlotId) : (p.vacated id i).find? x = if x = id then none else p.find? x := by
  have hlt := h.lt_of_indexed hi
  have hindex : (p.vacated id i).index.find? x
      = if x = id then none else p.index.find? x := p.index.find?_erase id x
  unfold Pool.find?
  rw [hindex]
  by_cases hx : x = id
  · simp [hx]
  · rw [if_neg hx, if_neg hx]
    cases hj : p.index.find? x with
    | none => rfl
    | some j =>
        have hne := h.ne_place hi hj hx
        simp only [Option.bind_eq_bind, Option.bind_some, getElem?_vacated hlt, if_neg hne]

end

/-! ### Release -/

/-- **All that a release can do.** An id that is not live is refused. Otherwise its place is
vacated, and the pool is compacted or not. -/
theorem WellFormed.release_value {p : Pool α} (h : p.WellFormed) (id : SlotId) :
    (p.index.find? id = none ∧ (p.release id).value = (false, p)) ∨
    ∃ i, p.index.find? id = some i ∧
      ((p.release id).value = (true, p.vacated id i) ∨
        (p.release id).value = (true, (p.vacated id i).compacted)) := by
  cases hi : p.index.find? id with
  | none =>
      refine .inl ⟨rfl, ?_⟩
      simp only [Pool.release, hi, Noted.value_pure]
  | some i =>
      refine .inr ⟨i, rfl, ?_⟩
      have hcompact := (h.vacated hi).compact_value.1
      simp only [Pool.release, hi]
      split
      · right
        rw [Noted.value_bind, Noted.value_pure, ← hcompact]
        rfl
      · exact .inl rfl

theorem WellFormed.release_fst {p : Pool α} (h : p.WellFormed) (id : SlotId) :
    (p.release id).value.1 = p.contains id := by
  unfold Pool.contains Table.contains
  rcases h.release_value id with ⟨hi, hr⟩ | ⟨i, hi, hr | hr⟩
  · rw [hi, hr]; rfl
  · rw [hi, hr]; rfl
  · rw [hi, hr]; rfl

theorem WellFormed.release {p : Pool α} (h : p.WellFormed) (id : SlotId) :
    (p.release id).value.2.WellFormed := by
  rcases h.release_value id with ⟨-, hr⟩ | ⟨i, hi, hr | hr⟩
  · rw [hr]; exact h
  · rw [hr]; exact h.vacated hi
  · rw [hr]; exact (h.vacated hi).compacted

/-- **Release through the view.** The id is unbound, and every other id is answered as before. -/
theorem WellFormed.find?_release {p : Pool α} (h : p.WellFormed) (id x : SlotId) :
    (p.release id).value.2.find? x = if x = id then none else p.find? x := by
  rcases h.release_value id with ⟨hi, hr⟩ | ⟨i, hi, hr | hr⟩
  · rw [hr]
    split
    · next hx => rw [hx, (h.find?_eq_none_iff id).2 hi]
    · rfl
  · rw [hr]
    exact h.find?_vacated hi x
  · rw [hr, (h.vacated hi).find?_compacted]
    exact h.find?_vacated hi x

/-- A release touches neither the counter nor the blank value. -/
theorem WellFormed.release_rest {p : Pool α} (h : p.WellFormed) (id : SlotId) :
    (p.release id).value.2.nextId = p.nextId ∧ (p.release id).value.2.blank = p.blank := by
  rcases h.release_value id with ⟨-, hr⟩ | ⟨i, -, hr | hr⟩
  · rw [hr]; exact ⟨rfl, rfl⟩
  · rw [hr]; exact ⟨rfl, rfl⟩
  · rw [hr]; exact ⟨rfl, rfl⟩

/-- Live ids lie below the counter as soon as those that are found do. -/
theorem WellFormed.ascending_iff {p : Pool α} (h : p.WellFormed) :
    p.Ascending ↔ 0 < p.nextId ∧ ∀ id, p.find? id ≠ none → id.raw < p.nextId := by
  have hfound : ∀ id, p.find? id ≠ none ↔ ∃ i, p.index.find? id = some i := by
    intro id
    rw [ne_eq, h.find?_eq_none_iff, ← ne_eq, Option.ne_none_iff_exists']
  constructor
  · intro hasc
    refine ⟨hasc.positive, fun id hid => ?_⟩
    obtain ⟨i, hi⟩ := (hfound id).1 hid
    exact hasc.below id i hi
  · rintro ⟨hpos, hbelow⟩
    exact ⟨hpos, fun id i hi => hbelow id ((hfound id).2 ⟨i, hi⟩)⟩

theorem Ascending.release {p : Pool α} (hasc : p.Ascending) (h : p.WellFormed) (id : SlotId) :
    (p.release id).value.2.Ascending := by
  obtain ⟨hpos, hbelow⟩ := h.ascending_iff.1 hasc
  rw [(h.release id).ascending_iff, (h.release_rest id).1]
  refine ⟨hpos, fun x hx => hbelow x fun hnone => hx ?_⟩
  rw [h.find?_release, hnone]
  split <;> rfl

end FlowGraph.Pool
