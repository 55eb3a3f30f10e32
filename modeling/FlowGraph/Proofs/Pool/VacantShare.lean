import FlowGraph.Proofs.Float.Order
import FlowGraph.Proofs.Pool.ClosingRanks
import FlowGraph.Settings.Basic

/-!
# The share of vacant places

A pool compares its vacant places with a share of the live ones only where a value is released. That
is enough: an allocation takes a vacant place, if there is one, and makes for a live value more, so
that what was tolerable stays so, and a compaction leaves no vacant place at all. The comparison is
made in single precision, in which both sides are rounded; but rounding is monotone, and zero is
zero. So a pool of settings that were found valid never has more vacant places than it should, and
one without values has no places.

* `EngineConfig.proper_of_validate` — settings are accepted only with a proper ratio.
* `Pool.exceeds_eq_false_iff` — the comparison by words.
* `Pool.exceeds_mono`, `Pool.exceeds_none`, `Pool.eq_zero_of_exceeds` — more live values, no vacant
  place, and no live value.
* `Pool.Tolerable` — the invariant: the next release would find nothing amiss.
* `Pool.Tolerable.perform` — each request keeps it.
* `Pool.Reached.vacant_places_few` — so it is with every pool in use.
-/

namespace FlowGraph

open Binary32 (Reads share whole)

/-! ### Ratios -/

/-- A ratio that is a finite number and not negative. -/
def ProperRatio (ratio : Float32) : Prop := ∃ i, i < Binary32.top ∧ Reads ratio.toModel.unpack i

/-- What settings must have to be accepted. -/
theorem EngineConfig.validate_eq_ok_iff (c : EngineConfig) :
    c.validate = .ok () ↔
      c.runtime.maxCallDepth ≠ 0 ∧ c.pools.compactionRatio.isFinite = true ∧
        ¬ c.pools.compactionRatio < 0 := by
  simp only [validate]
  split
  · next hdepth => simp [hdepth]
  · next hdepth =>
    split
    · next hratio =>
      rw [Bool.or_eq_true, Bool.not_eq_true', decide_eq_true_iff] at hratio
      refine iff_of_false (fun h => by cases h) fun h => ?_
      rcases hratio with hinfinite | hnegative
      · rw [h.2.1] at hinfinite
        cases hinfinite
      · exact h.2.2 hnegative
    · next hratio =>
      rw [Bool.or_eq_true, not_or, Bool.not_eq_true', Bool.not_eq_false, decide_eq_true_iff]
        at hratio
      exact iff_of_true rfl ⟨hdepth, hratio⟩

/-- Settings are accepted only with a ratio that is a finite number and not negative. -/
theorem EngineConfig.proper_of_validate {c : EngineConfig} (hc : c.validate = .ok ()) :
    ProperRatio c.pools.compactionRatio := by
  obtain ⟨-, hfinite, hpos⟩ := c.validate_eq_ok_iff.1 hc
  exact Binary32.exists_reads hfinite hpos

namespace Pool

variable {ι α : Type}

/-! ### The comparison -/

section

variable {ratio : Float32} (hratio : ProperRatio ratio)
include hratio

/-- **The comparison by words.** Vacant places are tolerated up to a share of the live values. -/
theorem exceeds_eq_false_iff : ∃ i, ∀ vacant live,
    exceeds ratio vacant live = false ↔ whole vacant ≤ share i live := by
  obtain ⟨i, hi, hreads⟩ := hratio
  refine ⟨i, fun vacant live => ?_⟩
  rw [exceeds, decide_eq_false_iff_not, Binary32.mul_lt_iff hreads hi, Nat.not_lt]

/-- More live values and fewer vacant places are tolerated as well. -/
theorem exceeds_mono {vacant vacant' live live' : Nat} (hlive : live ≤ live')
    (hvacant : vacant' ≤ vacant) (h : exceeds ratio vacant live = false) :
    exceeds ratio vacant' live' = false := by
  obtain ⟨i, hwords⟩ := exceeds_eq_false_iff hratio
  rw [hwords] at h ⊢
  calc whole vacant' ≤ whole vacant := Binary32.whole_mono hvacant
    _ ≤ share i live := h
    _ ≤ share i live' := Binary32.share_mono i hlive

/-- No vacant place is never too many. -/
theorem exceeds_none (live : Nat) : exceeds ratio 0 live = false := by
  obtain ⟨i, hwords⟩ := exceeds_eq_false_iff hratio
  rw [hwords, Binary32.whole_zero]
  exact Nat.zero_le _

/-- Beside no live value, any vacant place is too many. -/
theorem eq_zero_of_exceeds {vacant : Nat} (h : exceeds ratio vacant 0 = false) : vacant = 0 := by
  obtain ⟨i, hwords⟩ := exceeds_eq_false_iff hratio
  rw [hwords, Binary32.share_zero] at h
  exact Nat.eq_zero_of_not_pos fun hpos =>
    Nat.not_lt_of_le h (Binary32.whole_pos hpos)

end

/-! ### The invariant -/

/-- The vacant places of a pool are not too many for its ratio. -/
structure Tolerable (ratio : Float32) (p : Pool α) : Prop where
  kept : p.ratio = ratio
  few : exceeds ratio p.vacantCount p.size = false

section

variable {ratio : Float32} {p : Pool α}

theorem tolerable_empty (hratio : ProperRatio ratio) (blank : α) :
    (empty ratio blank).Tolerable ratio where
  kept := rfl
  few := exceeds_none hratio 0

/-- Closing ranks leaves no vacant place. -/
theorem tolerable_compact (hratio : ProperRatio ratio) (hkept : p.ratio = ratio) :
    p.compact.value.Tolerable ratio where
  kept := hkept
  few := by
    have hnone : p.compact.value.vacantCount = 0 := rfl
    rw [hnone]
    exact exceeds_none hratio _

namespace Tolerable

theorem allocateWith (hratio : ProperRatio ratio) (h : p.Tolerable ratio) (data : α) :
    (p.allocateWith data).2.Tolerable ratio := by
  rw [allocateWith_eq]
  refine ⟨h.kept, exceeds_mono hratio ?_ ?_ h.few⟩
  · rw [size, size, Table.size_insert]
    split
    · exact Nat.le_refl _
    · exact Nat.le_succ _
  · exact (List.tail_sublist _).length_le

theorem modify (h : p.Tolerable ratio) (id : SlotId) (f : α → α) :
    (p.modify id f).Tolerable ratio := by
  cases hi : p.index.find? id with
  | none =>
      rw [modify_of_missing hi]
      exact h
  | some i =>
      rw [modify_of_indexed hi]
      exact ⟨h.kept, h.few⟩

theorem compact (hratio : ProperRatio ratio) (h : p.Tolerable ratio) :
    p.compact.value.Tolerable ratio := tolerable_compact hratio h.kept

/-- A release looks at what it has done. -/
theorem release (hratio : ProperRatio ratio) (h : p.Tolerable ratio) (id : SlotId) :
    (p.release id).value.2.Tolerable ratio := by
  cases hid : p.contains id with
  | false =>
      have hi : p.index.find? id = none :=
        Option.isNone_iff_eq_none.1 (Option.isSome_eq_false_iff.1 hid)
      have hsame : (p.release id).value.2 = p := by simp only [Pool.release, hi, Noted.value_pure]
      rw [hsame]
      exact h
  | true =>
      have hkept : (p.without id).ratio = ratio := by
        obtain ⟨i, hi⟩ := exists_place hid
        rw [without_of_indexed hi]
        exact h.kept
      rw [release_value_eq hid, h.kept]
      split
      · exact tolerable_compact hratio hkept
      · next hfew => exact ⟨hkept, Bool.eq_false_iff.2 hfew⟩

end Tolerable

end

/-- **One request.** -/
theorem Tolerable.perform {ratio : Float32} {ps : ι → Pool α} {i : ι} (hratio : ProperRatio ratio)
    (h : (ps i).Tolerable ratio) (q : PoolRequest ι α) :
    (Pool.perform ps i q).2.Tolerable ratio := by
  rcases perform_cases ps i q with ⟨data, -, hq⟩ | hq | ⟨id, f, hq⟩ | ⟨id, hq⟩ | hq
  · rw [hq]
    exact h.allocateWith hratio data
  · rw [hq]
    exact h
  · rw [hq]
    exact h.modify id f
  · rw [hq]
    exact h.release hratio id
  · rw [hq]
    exact h.compact hratio

/-! ### Pools in use -/

section

variable [DecidableEq ι] {ratio : ι → Float32} {blank : α} {ps : ι → Pool α}

/-- **All requests.** -/
theorem Reached.tolerable (h : Reached ratio blank ps) (i : ι) (hratio : ProperRatio (ratio i)) :
    (ps i).Tolerable (ratio i) :=
  h.induct (motive := fun i p => ProperRatio (ratio i) → p.Tolerable (ratio i))
    (fun _ hratio => tolerable_empty hratio blank)
    (fun _ _ q _ hi _ hratio => (hi hratio).perform hratio q) i hratio

/-- **Vacant places stay few.** Whatever is asked of pools, one with a ratio of valid settings never
has more vacant places than its ratio allows; and where it has no values, it has no places either,
and none are queued. -/
theorem Reached.vacant_places_few (h : Reached ratio blank ps) {c : EngineConfig}
    (hc : c.validate = .ok ()) (i : ι) (hi : ratio i = c.pools.compactionRatio) :
    (ps i).ratio = c.pools.compactionRatio ∧
      exceeds c.pools.compactionRatio (ps i).vacantCount (ps i).size = false ∧
      ((ps i).size = 0 → (ps i).slots = [] ∧ (ps i).vacant = []) := by
  have hratio := EngineConfig.proper_of_validate hc
  rw [← hi] at hratio ⊢
  have htolerable := h.tolerable i hratio
  refine ⟨htolerable.kept, htolerable.few, fun hnone => ?_⟩
  have hfew := htolerable.few
  rw [hnone] at hfew
  have hvacant := eq_zero_of_exceeds hratio hfew
  have hplaces := (h.inUse i).wellFormed.capacityUsed_eq
  rw [hnone, hvacant] at hplaces
  exact ⟨List.length_eq_zero_iff.1 hplaces, List.length_eq_zero_iff.1 hvacant⟩

end

/-- Four values come, and go in another order. -/
def departing : List (Unit × PoolRequest Unit Nat) :=
  [((), .allocateWith 10), ((), .allocateWith 20), ((), .allocateWith 30), ((), .allocateWith 40),
    ((), .release ⟨2⟩), ((), .release ⟨4⟩), ((), .release ⟨1⟩), ((), .release ⟨3⟩)]

/-- The pool that is left, with the usual settings. -/
def deserted : Unit → Pool Nat :=
  (runAll (fun _ => .empty EngineConfig.standard.pools.compactionRatio 0) departing).2

theorem vacant_places_few_deserted :
    (Reached (fun _ => EngineConfig.standard.pools.compactionRatio) 0 deserted ∧
      EngineConfig.standard.validate = .ok () ∧ (deserted ()).size = 0) ∧
    (deserted ()).ratio = EngineConfig.standard.pools.compactionRatio ∧
      exceeds EngineConfig.standard.pools.compactionRatio (deserted ()).vacantCount
        (deserted ()).size = false ∧
      (deserted ()).slots = [] ∧ (deserted ()).vacant = [] := by
  have hreached : Reached (fun _ => EngineConfig.standard.pools.compactionRatio) 0 deserted :=
    Reached.start.runAll departing fun _ => by decide
  have hvalid : EngineConfig.standard.validate = .ok () :=
    EngineConfig.standard.validate_eq_ok_iff.2 (by decide +kernel)
  have hnone : (deserted ()).size = 0 := by decide +kernel
  obtain ⟨hkept, hfew, hempty⟩ := hreached.vacant_places_few hvalid () rfl
  exact ⟨⟨hreached, hvalid, hnone⟩, hkept, hfew, hempty hnone⟩

/-- Half as many vacant places as live values are tolerated, and no more. -/
example : exceeds 0.5 1 2 = false ∧ exceeds 0.5 2 2 = true := by decide +kernel

end Pool

end FlowGraph
