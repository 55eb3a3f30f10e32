import FlowGraph.Proofs.Pool.Runs
import Mathlib.Data.List.Nodup
import Mathlib.Data.List.Perm.Subperm
import Mathlib.Logic.Function.Iterate

/-!
# Pools that have been in use

The counter of a pool goes round all ids but the empty one and starts over behind the last. From
then on an id it comes to may still be live, and is passed over. As long as not every id is live,
the search that a pool makes is long enough to meet one that is free: it looks at one id more than
there are live ones, and those it looks at are all different. So the agreement of index and places
outlasts any number of rounds.

* `Pool.WellFormed.capacityUsed_eq` — the places are the live ones and the vacant ones.
* `Pool.toNat_iterate_idAfter` — where the counter stands after so many steps.
* `Pool.HasRoom`, `Pool.freshId_free` — while an id is left, the next id is valid and not live.
* `Pool.Reached` — pools as requests leave them, however many ids have been issued.
* `Pool.Reached.inUse` — their index and places agree.
-/

namespace FlowGraph.Pool

variable {ι α : Type}

/-! ### Places -/

/-- The places of a list at which a test holds are as many as the elements that pass it. -/
theorem length_filter_places (test : Slot α → Bool) (slots : List (Slot α)) :
    ((List.range slots.length).filter fun i => (slots[i]?).any test).length
      = (slots.filter test).length := by
  induction slots with
  | nil => rfl
  | cons s slots ih =>
      rw [List.length_cons, List.range_succ_eq_map, List.filter_cons, List.filter_cons,
        List.filter_map, List.getElem?_cons_zero, Option.any_some]
      have hrest : ((List.range slots.length).filter
          ((fun i => ((s :: slots)[i]?).any test) ∘ Nat.succ)).length
          = (slots.filter test).length := ih
      split
      · rw [List.length_cons, List.length_cons, List.length_map, hrest]
      · rw [List.length_map, hrest]

/-- The queue names each vacant place once. -/
theorem WellFormed.vacant_perm {p : Pool α} (h : p.WellFormed) :
    p.vacant.Perm
      ((List.range p.slots.length).filter fun i => (p.slots[i]?).any fun s => !s.isLive) := by
  refine (List.perm_ext_iff_of_nodup h.queuedOnce (List.nodup_range.filter _)).2 fun i => ?_
  rw [h.queued i, List.mem_filter, List.mem_range, Option.any_eq_true]
  constructor
  · rintro ⟨s, hs, hdead⟩
    exact ⟨(List.getElem?_eq_some_iff.1 hs).1, s, hs, by rw [hdead]; rfl⟩
  · rintro ⟨-, s, hs, hdead⟩
    exact ⟨s, hs, by simpa using hdead⟩

theorem WellFormed.vacantCount_eq {p : Pool α} (h : p.WellFormed) :
    p.vacantCount = (p.slots.filter fun s => !s.isLive).length := by
  rw [vacantCount, h.vacant_perm.length_eq, length_filter_places]

/-- Every place is a live one or a vacant one. -/
theorem WellFormed.capacityUsed_eq {p : Pool α} (h : p.WellFormed) :
    p.capacityUsed = p.size + p.vacantCount := by
  rw [← h.length_live, h.vacantCount_eq, live, List.length_map, capacityUsed]
  exact List.length_eq_length_filter_add Slot.isLive

/-! ### The way round -/

/-- **The counter goes round.** Ids other than the empty one follow each other in a circle. -/
theorem toNat_iterate_idAfter {n : UInt32} (hn : n ≠ 0) (k : Nat) :
    (idAfter^[k] n).toNat = (n.toNat - 1 + k) % (2 ^ 32 - 1) + 1 := by
  have hpos : 0 < n.toNat := UInt32.lt_iff_toNat_lt.1 (UInt32.pos_iff_ne_zero.2 hn)
  have hlt := n.toNat_lt
  induction k with
  | zero => rw [Function.iterate_zero_apply]; omega
  | succ k ih =>
      rw [Function.iterate_succ_apply', idAfter]
      have h1 : (1 : UInt32).toNat = 1 := rfl
      have hnext := UInt32.toNat_add (idAfter^[k] n) 1
      split
      · next hzero =>
        rw [hzero, h1, UInt32.toNat_zero] at hnext
        rw [h1]
        omega
      · next hne =>
        have hsome : (idAfter^[k] n + 1).toNat ≠ 0 := fun h => hne (UInt32.toNat_inj.1 h)
        omega

theorem iterate_idAfter_ne_zero {n : UInt32} (hn : n ≠ 0) (k : Nat) : idAfter^[k] n ≠ 0 := by
  intro hzero
  have hk := toNat_iterate_idAfter hn k
  rw [hzero, UInt32.toNat_zero] at hk
  omega

/-- It takes a whole round to come to an id again. -/
theorem iterate_idAfter_inj {n : UInt32} (hn : n ≠ 0) {j k : Nat} (hj : j < 2 ^ 32 - 1)
    (hk : k < 2 ^ 32 - 1) (heq : idAfter^[j] n = idAfter^[k] n) : j = k := by
  have hnat := congrArg UInt32.toNat heq
  rw [toNat_iterate_idAfter hn, toNat_iterate_idAfter hn] at hnat
  omega

/-! ### The search for an id -/

/-- The search stops at the first id that is not live, if one lies among those it looks at. -/
theorem freshFrom_free {live : SlotId → Bool} {fuel k : Nat} {n : UInt32} (hk : k < fuel)
    (hfree : live ⟨idAfter^[k] n⟩ = false) :
    live ⟨freshFrom live fuel n⟩ = false ∧ ∃ j, freshFrom live fuel n = idAfter^[j] n := by
  induction fuel generalizing k n with
  | zero => cases hk
  | succ fuel ih =>
      rw [freshFrom]
      split
      · next hlive =>
        cases k with
        | zero =>
            rw [Function.iterate_zero_apply, hlive] at hfree
            cases hfree
        | succ k =>
            obtain ⟨hstop, j, hj⟩ := ih (Nat.lt_of_succ_lt_succ hk) hfree
            exact ⟨hstop, j + 1, hj⟩
      · next hlive => exact ⟨Bool.eq_false_iff.2 hlive, 0, rfl⟩

/-- An id is left to be issued. -/
def HasRoom (p : Pool α) : Prop := p.size + 1 < 2 ^ 32

/-- Among one id more than there are live ones, one is not live. -/
theorem exists_free {p : Pool α} (hroom : p.HasRoom) (hn : p.nextId ≠ 0) :
    ∃ k, k < p.size + 1 ∧ p.contains ⟨idAfter^[k] p.nextId⟩ = false := by
  refine Decidable.byContradiction fun hnone => ?_
  have hlive : ∀ k, k < p.size + 1 → p.contains ⟨idAfter^[k] p.nextId⟩ = true := by
    intro k hk
    cases hc : p.contains ⟨idAfter^[k] p.nextId⟩ with
    | true => rfl
    | false => exact absurd ⟨k, hk, hc⟩ hnone
  -- The ids that were looked at would be more than there are keys.
  let visited := (List.range (p.size + 1)).map fun k => (⟨idAfter^[k] p.nextId⟩ : SlotId)
  have hnodup : visited.Nodup := by
    refine List.Nodup.map_on (fun j hj k hk heq => ?_) List.nodup_range
    have hsize : p.size + 1 ≤ 2 ^ 32 - 1 := Nat.le_sub_one_of_lt hroom
    exact iterate_idAfter_inj hn (Nat.lt_of_lt_of_le (List.mem_range.1 hj) hsize)
      (Nat.lt_of_lt_of_le (List.mem_range.1 hk) hsize) (SlotId.mk.inj heq)
  have hkeys : visited ⊆ p.index.keys := by
    intro id hid
    obtain ⟨k, hk, rfl⟩ := List.mem_map.1 hid
    exact (p.index.mem_keys_iff _).2 (hlive k (List.mem_range.1 hk))
  have hle := (hnodup.subperm hkeys).length_le
  rw [List.length_map, List.length_range, Table.keys, List.length_map] at hle
  exact Nat.lt_irrefl _ hle

/-- **Fresh ids.** While an id is left, the next one is valid and not live, and the counter does not
come to stand at the empty id. -/
theorem freshId_free {p : Pool α} (hroom : p.HasRoom) (hn : p.nextId ≠ 0) :
    p.freshId.isValid = true ∧ p.index.find? p.freshId = none ∧ idAfter p.freshId.raw ≠ 0 := by
  obtain ⟨k, hk, hfree⟩ := exists_free hroom hn
  obtain ⟨hstop, j, hj⟩ := freshFrom_free hk hfree
  have hraw : p.freshId.raw = idAfter^[j] p.nextId := hj
  refine ⟨(isValid_iff _).2 ?_, ?_, ?_⟩
  · rw [hraw]
    exact UInt32.pos_iff_ne_zero.2 (iterate_idAfter_ne_zero hn j)
  · rw [Pool.contains, Table.contains, Option.isSome_eq_false_iff] at hstop
    exact Option.isNone_iff_eq_none.1 hstop
  · rw [hraw, ← Function.iterate_succ_apply' idAfter]
    exact iterate_idAfter_ne_zero hn (j + 1)

/-- Where an id is not live, one is left: the live ones, that one and the empty one are different
numbers. -/
theorem WellFormed.hasRoom_of_free {p : Pool α} (h : p.WellFormed) {id : SlotId}
    (hvalid : id.isValid = true) (hfree : p.contains id = false) : p.HasRoom := by
  have hlive : ∀ x ∈ p.index.keys, x.isValid = true ∧ p.contains x = true := by
    intro x hx
    have hcontains := (p.index.mem_keys_iff x).1 hx
    obtain ⟨i, hi⟩ := Option.isSome_iff_exists.1 hcontains
    exact ⟨(h.placed x i hi).1, hcontains⟩
  have hid : id ∉ p.index.keys := by
    intro hmem
    rw [(hlive id hmem).2] at hfree
    cases hfree
  have hempty : SlotId.empty ∉ id :: p.index.keys := by
    intro hmem
    rcases List.mem_cons.1 hmem with heq | hmem
    · rw [← heq] at hvalid
      cases hvalid
    · cases (hlive _ hmem).1
  have hnodup : (.empty :: id :: p.index.keys).Nodup :=
    List.nodup_cons.2 ⟨hempty, List.nodup_cons.2 ⟨hid, p.index.keysNodup⟩⟩
  have hbelow :
      ((.empty :: id :: p.index.keys).map fun x => x.raw.toNat) ⊆ List.range (2 ^ 32) := by
    intro n hn
    obtain ⟨x, -, rfl⟩ := List.mem_map.1 hn
    exact List.mem_range.2 x.raw.toNat_lt
  have hle := ((hnodup.map fun x y heq => ?_).subperm hbelow).length_le
  · rw [List.length_map, List.length_range, List.length_cons, List.length_cons, Table.keys,
      List.length_map] at hle
    exact hle
  · obtain ⟨m⟩ := x
    obtain ⟨n⟩ := y
    exact congrArg SlotId.mk (UInt32.toNat_inj.1 heq)

/-- Before the counter has started over, there are ids left: the counter stands at one. -/
theorem Ascending.hasRoom {p : Pool α} (hasc : p.Ascending) (h : p.WellFormed) : p.HasRoom := by
  have hfree : p.contains ⟨p.nextId⟩ = false := by
    rw [Pool.contains, Table.contains, hasc.find?_counter]
    rfl
  exact h.hasRoom_of_free ((isValid_iff _).2 hasc.positive) hfree

/-! ### One request -/

/-- What every request keeps, however often the counter has started over. -/
structure InUse (p : Pool α) : Prop where
  wellFormed : p.WellFormed
  nextId : p.nextId ≠ 0

theorem inUse_empty (ratio : Float32) (blank : α) : (empty ratio blank).InUse where
  wellFormed := wellFormed_empty ratio blank
  nextId := show (1 : UInt32) ≠ 0 by decide

namespace InUse

variable {p : Pool α}

theorem allocateWith (h : p.InUse) (hroom : p.HasRoom) (data : α) :
    (p.allocateWith data).2.InUse := by
  obtain ⟨hvalid, hfree, hnext⟩ := freshId_free hroom h.nextId
  refine ⟨h.wellFormed.allocateWith_fresh hvalid hfree data, ?_⟩
  rw [allocateWith_eq]
  exact hnext

theorem modify (h : p.InUse) (id : SlotId) (f : α → α) : (p.modify id f).InUse where
  wellFormed := h.wellFormed.modify id f
  nextId := by rw [(p.modify_rest id f).2.1]; exact h.nextId

theorem release (h : p.InUse) (id : SlotId) : (p.release id).value.2.InUse where
  wellFormed := h.wellFormed.release id
  nextId := by rw [(h.wellFormed.release_rest id).1]; exact h.nextId

theorem compact (h : p.InUse) : p.compact.value.InUse := by
  rw [h.wellFormed.compact_value.1]
  exact ⟨h.wellFormed.compacted, h.nextId⟩

end InUse

/-- All that a request can do to a pool. -/
theorem perform_cases (ps : ι → Pool α) (i : ι) (q : PoolRequest ι α) :
    (∃ data, (perform ps i q).1.id? = some (ps i).freshId ∧
      (perform ps i q).2 = ((ps i).allocateWith data).2) ∨
    (perform ps i q).2 = ps i ∨
    (∃ id f, (perform ps i q).2 = (ps i).modify id f) ∨
    (∃ id, (perform ps i q).2 = ((ps i).release id).value.2) ∨
    (perform ps i q).2 = (ps i).compact.value := by
  have hid : ∀ data, ((ps i).allocateWith data).1 = (ps i).freshId := by
    intro data
    rw [allocateWith_eq]
  have hcopy : ∀ source : Option α,
      (∃ data, ((ps i).replyTo (source.map (ps i).allocateWith)).1.id? = some (ps i).freshId ∧
        ((ps i).replyTo (source.map (ps i).allocateWith)).2 = ((ps i).allocateWith data).2) ∨
      ((ps i).replyTo (source.map (ps i).allocateWith)).2 = ps i := by
    intro source
    cases source with
    | none => exact .inr rfl
    | some data => exact .inl ⟨data, congrArg some (hid data), rfl⟩
  cases q with
  | allocate => exact .inl ⟨(ps i).blank, congrArg some (hid _), rfl⟩
  | allocateWith data => exact .inl ⟨data, congrArg some (hid data), rfl⟩
  | allocateCopy j x =>
      exact (hcopy ((ps j).find? x)).imp id .inl
  | duplicate x =>
      exact (hcopy ((ps i).find? x)).imp id .inl
  | modify x f => exact .inr (.inr (.inl ⟨x, f, rfl⟩))
  | release x => exact .inr (.inr (.inr (.inl ⟨x, rfl⟩)))
  | compact => exact .inr (.inr (.inr (.inr rfl)))

/-- **One request.** A pool that is asked for an id only while one is left stays in agreement. -/
theorem InUse.perform {ps : ι → Pool α} {i : ι} (h : (ps i).InUse) (q : PoolRequest ι α)
    (hroom : (Pool.perform ps i q).1.id? ≠ none → (ps i).HasRoom) :
    (Pool.perform ps i q).2.InUse := by
  rcases perform_cases ps i q with
    ⟨data, hid, hq⟩ | hq | ⟨id, f, hq⟩ | ⟨id, hq⟩ | hq
  · rw [hq]
    refine h.allocateWith (hroom ?_) data
    rw [hid]
    exact Option.some_ne_none _
  · rw [hq]
    exact h
  · rw [hq]
    exact h.modify id f
  · rw [hq]
    exact h.release id
  · rw [hq]
    exact h.compact

/-- A request makes for one live value more at most. -/
theorem InUse.size_perform_le {ps : ι → Pool α} {i : ι} (h : (ps i).InUse) (q : PoolRequest ι α) :
    (Pool.perform ps i q).2.size ≤ (ps i).size + 1 := by
  have herase : ∀ id, ((ps i).index.erase id).size ≤ (ps i).size := by
    intro id
    rw [Table.size_erase]
    split
    · exact Nat.sub_le _ _
    · exact Nat.le_refl _
  rcases perform_cases ps i q with
    ⟨data, -, hq⟩ | hq | ⟨id, f, hq⟩ | ⟨id, hq⟩ | hq
  · rw [hq, allocateWith_eq, size, Table.size_insert]
    split
    · exact Nat.le_succ _
    · exact Nat.le_refl _
  · rw [hq]
    exact Nat.le_succ _
  · rw [hq, size, ((ps i).modify_rest id f).1]
    exact Nat.le_succ _
  · rw [hq]
    rcases h.wellFormed.release_value id with ⟨-, hr⟩ | ⟨j, hj, hr | hr⟩
    · rw [hr]
      exact Nat.le_succ _
    · rw [hr]
      exact Nat.le_succ_of_le (herase id)
    · rw [hr, ← (h.wellFormed.vacated hj).compacted.length_live, live_compacted,
        (h.wellFormed.vacated hj).length_live]
      exact Nat.le_succ_of_le (herase id)
  · rw [hq, h.wellFormed.compact_value.1, ← h.wellFormed.compacted.length_live, live_compacted,
      h.wellFormed.length_live]
    exact Nat.le_succ _

/-! ### All requests -/

section

variable [DecidableEq ι] {ratio : ι → Float32} {blank : α} {ps : ι → Pool α}

/-- **Pools in use.** Pools start out empty and are asked one thing after the other. Any number of
ids may have been issued; only where all are live at once is there none to wait for. -/
inductive Reached (ratio : ι → Float32) (blank : α) : (ι → Pool α) → Prop
  | start : Reached ratio blank fun i => .empty (ratio i) blank
  | asked {ps : ι → Pool α} (before : Reached ratio blank ps) (i : ι) (q : PoolRequest ι α)
      (room : (perform ps i q).1.id? ≠ none → (ps i).HasRoom) :
      Reached ratio blank (Function.update ps i (perform ps i q).2)

/-- **All requests**, by induction on them: what the empty pools have and each request keeps, all
pools have. -/
theorem Reached.induct (h : Reached ratio blank ps) {motive : ι → Pool α → Prop}
    (start : ∀ i, motive i (.empty (ratio i) blank))
    (step : ∀ ps i q, Reached ratio blank ps → motive i (ps i) →
      ((perform ps i q).1.id? ≠ none → (ps i).HasRoom) → motive i (perform ps i q).2) (i : ι) :
    motive i (ps i) := by
  induction h generalizing i with
  | start => exact start i
  | asked before j q room ih =>
      by_cases hij : i = j
      · subst hij
        rw [Function.update_self]
        exact step _ _ q before (ih _) room
      · rw [Function.update_of_ne hij]
        exact ih i

/-- **The agreement lasts.** The index and the places of every pool agree at all times. -/
theorem Reached.inUse (h : Reached ratio blank ps) (i : ι) : (ps i).InUse :=
  h.induct (fun i => inUse_empty (ratio i) blank) (fun _ _ q _ hi room => hi.perform q room) i

/-- Where there are ids for all requests of a run, the run goes through. -/
theorem Reached.runAll (h : Reached ratio blank ps) (qs : List (ι × PoolRequest ι α))
    (few : ∀ i, (ps i).size + qs.length < 2 ^ 32) : Reached ratio blank (Pool.runAll ps qs).2 := by
  induction qs generalizing ps with
  | nil => exact h
  | cons x qs ih =>
      obtain ⟨i, q⟩ := x
      rw [Pool.runAll]
      simp only [List.length_cons] at few
      have hone : (ps i).HasRoom := by
        have hi := few i
        rw [HasRoom]
        omega
      refine ih (.asked h i q fun _ => hone) fun j => ?_
      have hj := few j
      by_cases hji : j = i
      · subst hji
        rw [Function.update_self]
        have hgrow := (h.inUse j).size_perform_le q
        omega
      · rw [Function.update_of_ne hji]
        omega

end

end FlowGraph.Pool
