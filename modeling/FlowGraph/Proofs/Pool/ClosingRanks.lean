import FlowGraph.Proofs.Pool.Reached

/-!
# Closing ranks

What a compaction does to a pool is seen from outside in one respect only: there are fewer places.
The live values are listed in the order they had, each id leads to its own value, and a pool without
vacant places is not touched at all. A release that makes too many vacant places does the same to
the pool without the released value, whose list is the old one less that value.

* `Pool.ClosedRanks` — a pool before and after its ranks were closed.
* `Pool.WellFormed.closedRanks` — compaction closes the ranks.
* `Pool.without`, `Pool.WellFormed.live_without` — a pool before the compaction that a release sets
  off.
* `Pool.release_value_eq` — a release vacates a place and then may close the ranks.
* `Pool.Reached.closes_ranks` — so it is with every pool in use.
-/

namespace FlowGraph.Pool

variable {ι α : Type}

/-! ### Pools without vacant places -/

theorem WellFormed.isLive_of_full {p : Pool α} (h : p.WellFormed) (hfull : p.vacantCount = 0) :
    ∀ s ∈ p.slots, s.isLive = true := by
  rw [h.vacantCount_eq, List.length_eq_zero_iff, List.filter_eq_nil_iff] at hfull
  intro s hs
  simpa using hfull s hs

/-- Where every place is live, a sweep passes over nothing and moves nothing. -/
theorem sweep_of_full {p : Pool α} (hlive : ∀ s ∈ p.slots, s.isLive = true) :
    p.sweep = ⟨p.slots, p.index, 0⟩ := by
  have hstill : ∀ n, n ≤ p.slots.length →
      (List.range n).foldl Sweep.visit ⟨p.slots, p.index, 0⟩ = ⟨p.slots, p.index, 0⟩ := by
    intro n hn
    induction n with
    | zero => rfl
    | succ n ih =>
        rw [List.range_succ, List.foldl_append, ih (Nat.le_of_succ_le hn), List.foldl_cons,
          List.foldl_nil, Sweep.visit, List.getElem?_eq_getElem hn]
        simp only [hlive _ (List.getElem_mem hn), Bool.not_true, Bool.false_eq_true, if_false,
          if_true]
  exact hstill _ (Nat.le_refl _)

theorem WellFormed.compacted_of_full {p : Pool α} (h : p.WellFormed) (hfull : p.vacantCount = 0) :
    p.compacted = p := by
  have hlive := h.isLive_of_full hfull
  have hvacant : p.vacant = [] := List.length_eq_zero_iff.1 hfull
  rw [Pool.compacted, sweep_of_full hlive, List.filter_eq_self.2 hlive, ← hvacant]

/-! ### Compaction seen from outside -/

/-- A pool before and after its ranks were closed. -/
structure ClosedRanks (p q : Pool α) : Prop where
  /-- The same values under the same ids, in the same order. -/
  live : q.live = p.live
  finds : ∀ id, q.find? id = p.find? id
  size : q.size = p.size
  /-- No place is left vacant. -/
  capacityUsed : q.capacityUsed = q.size
  vacantCount : q.vacantCount = 0
  /-- Where no place was vacant before, nothing has happened. -/
  same : p.vacantCount = 0 → q = p

theorem WellFormed.closedRanks {p : Pool α} (h : p.WellFormed) :
    p.ClosedRanks p.compact.value := by
  rw [h.compact_value.1]
  refine
    { live := p.live_compacted
      finds := h.find?_compacted
      size := ?_
      capacityUsed := h.compacted.capacityUsed_eq
      vacantCount := rfl
      same := h.compacted_of_full }
  rw [← h.compacted.length_live, live_compacted, h.length_live]

/-! ### The pool a release leaves to be compacted -/

/-- A pool with the place of an id vacated, if the id has one. -/
def without (p : Pool α) (id : SlotId) : Pool α :=
  match p.index.find? id with
  | some i => p.vacated id i
  | none => p

theorem without_of_indexed {p : Pool α} {id : SlotId} {i : Nat} (hi : p.index.find? id = some i) :
    p.without id = p.vacated id i := by
  rw [without, hi]

theorem exists_place {p : Pool α} {id : SlotId} (hid : p.contains id = true) :
    ∃ i, p.index.find? id = some i := Option.isSome_iff_exists.1 hid

section

variable {p : Pool α} {id : SlotId}

theorem WellFormed.without (h : p.WellFormed) (hid : p.contains id = true) :
    (p.without id).WellFormed := by
  obtain ⟨i, hi⟩ := exists_place hid
  rw [without_of_indexed hi]
  exact h.vacated hi

/-- Vacating the place of an id empties the one slot that carries it. -/
theorem WellFormed.slots_without (h : p.WellFormed) (hid : p.contains id = true) :
    (p.without id).slots = p.slots.map fun s => if s.id = id then ⟨.empty, p.blank⟩ else s := by
  obtain ⟨i, hi⟩ := exists_place hid
  obtain ⟨hvalid, t, ht, htid⟩ := h.placed id i hi
  rw [without_of_indexed hi]
  refine List.ext_getElem? fun j => ?_
  rw [getElem?_vacated (h.lt_of_indexed hi), List.getElem?_map]
  by_cases hj : j = i
  · rw [if_pos hj, hj, ht, Option.map_some, if_pos htid]
  · rw [if_neg hj]
    cases hs : p.slots[j]? with
    | none => rfl
    | some s =>
        have hne : s.id ≠ id := by
          rintro rfl
          rw [h.indexed j s hs hvalid] at hi
          exact hj (Option.some.inj hi)
        rw [Option.map_some, if_neg hne]

/-- **What is listed without a value** is what was listed before, less that value. -/
theorem WellFormed.live_without (h : p.WellFormed) (hid : p.contains id = true) :
    (p.without id).live = p.live.filter fun x => x.1 ≠ id := by
  rw [live, live, h.slots_without hid]
  have hdead : ({ id := .empty, data := p.blank } : Slot α).isLive = false := rfl
  induction p.slots with
  | nil => rfl
  | cons s slots ih =>
      rw [List.map_cons]
      by_cases hs : s.id = id
      · rw [if_pos hs, List.filter_cons_of_neg (Bool.eq_false_iff.1 hdead), ih]
        cases hlive : s.isLive with
        | false => rw [List.filter_cons_of_neg (Bool.eq_false_iff.1 hlive)]
        | true =>
            rw [List.filter_cons_of_pos hlive, List.map_cons,
              List.filter_cons_of_neg (by simpa using hs)]
      · rw [if_neg hs]
        cases hlive : s.isLive with
        | false =>
            rw [List.filter_cons_of_neg (Bool.eq_false_iff.1 hlive),
              List.filter_cons_of_neg (Bool.eq_false_iff.1 hlive), ih]
        | true =>
            rw [List.filter_cons_of_pos hlive, List.filter_cons_of_pos hlive, List.map_cons,
              List.map_cons, List.filter_cons_of_pos (by simpa using hs), ih]

/-- **Release.** The place of a live id is vacated, and the ranks are closed if by then too many
places are vacant. -/
theorem release_value_eq (hid : p.contains id = true) :
    (p.release id).value
      = (true, if exceeds p.ratio (p.without id).vacantCount (p.without id).size
          then (p.without id).compact.value else p.without id) := by
  obtain ⟨i, hi⟩ := exists_place hid
  rw [without_of_indexed hi]
  have hrelease : p.release id
      = if exceeds (p.vacated id i).ratio (p.vacated id i).vacantCount (p.vacated id i).size then do
          let r ← (p.vacated id i).compact
          return (true, r)
        else pure (true, p.vacated id i) := by
    simp only [Pool.release, hi]
    rfl
  rw [hrelease]
  split
  · next hexceeds => exact congrArg (Prod.mk true) (if_pos hexceeds).symm
  · next hfew => exact congrArg (Prod.mk true) (if_neg hfew).symm

end

/-! ### Pools in use -/

section

variable [DecidableEq ι] {ratio : ι → Float32} {blank : α} {ps : ι → Pool α}

/-- **Closing ranks.** Compaction leaves what a pool in use holds as it was, in the same order, and
leaves no place vacant; where none was, it leaves the whole pool as it was. A release takes the
value of its id off the list, and if that makes too many vacant places, it closes the ranks of what
remains in the same way. -/
theorem Reached.closes_ranks (h : Reached ratio blank ps) (i : ι) :
    (ps i).ClosedRanks (ps i).compact.value ∧
    ∀ id, (ps i).contains id = true →
      ((ps i).without id).live = (ps i).live.filter (fun x => x.1 ≠ id) ∧
      ((ps i).release id).value
        = (true, if exceeds (ps i).ratio ((ps i).without id).vacantCount ((ps i).without id).size
            then ((ps i).without id).compact.value else (ps i).without id) ∧
      ((ps i).without id).ClosedRanks ((ps i).without id).compact.value := by
  have hwell := (h.inUse i).wellFormed
  refine ⟨hwell.closedRanks, fun id hid => ⟨hwell.live_without hid, release_value_eq hid, ?_⟩⟩
  exact (hwell.without hid).closedRanks

end

/-- Four values come to a pool; the third goes, and then the first. -/
def thinning : List (Unit × PoolRequest Unit Nat) :=
  [((), .allocateWith 10), ((), .allocateWith 20), ((), .allocateWith 30), ((), .allocateWith 40),
    ((), .release ⟨3⟩), ((), .release ⟨1⟩)]

/-- The pool that is left. It tolerates as many vacant places as live ones. -/
def thinned : Unit → Pool Nat := (runAll (fun _ => .empty 1 0) thinning).2

theorem closes_ranks_thinned :
    (Reached (fun _ => 1) 0 thinned ∧ (thinned ()).contains ⟨2⟩ = true) ∧
    (thinned ()).ClosedRanks (thinned ()).compact.value ∧
      ((thinned ()).without ⟨2⟩).live = (thinned ()).live.filter (fun x => x.1 ≠ ⟨2⟩) ∧
      ((thinned ()).release ⟨2⟩).value
        = (true, if exceeds (thinned ()).ratio ((thinned ()).without ⟨2⟩).vacantCount
              ((thinned ()).without ⟨2⟩).size
            then ((thinned ()).without ⟨2⟩).compact.value else (thinned ()).without ⟨2⟩) ∧
      ((thinned ()).without ⟨2⟩).ClosedRanks ((thinned ()).without ⟨2⟩).compact.value := by
  have hreached : Reached (fun _ => 1) 0 thinned := Reached.start.runAll thinning fun _ => by decide
  have hlive : (thinned ()).contains ⟨2⟩ = true := by decide +kernel
  obtain ⟨hcompact, hrelease⟩ := hreached.closes_ranks ()
  exact ⟨⟨hreached, hlive⟩, hcompact, hrelease ⟨2⟩ hlive⟩

/-- One value more goes, and that is one vacant place too many. -/
example : ((thinned ()).slots.map (·.data), ((thinned ()).release ⟨2⟩).value.2.slots.map (·.data))
    = ([0, 20, 0, 40], [40]) := by decide +kernel

end FlowGraph.Pool
