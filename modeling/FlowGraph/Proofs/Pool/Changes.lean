import FlowGraph.Proofs.Pool.Reached
import FlowGraph.Proofs.Pool.Requests

/-!
# What a request keeps

Whatever is asked of a registry, it stays in use as long as there are ids to be issued, and only the
address that the request is about notices. While no counter starts over, it stays sound, too: the
counters only move up, so an address whose numbers were once given out is never handed out again,
even if its pool was dropped and another one opened since.

* `Registry.Onward` — no counter has started over.
* `Registry.HasRoom` — an id is left in a pool.
* `Registry.InUse.change`, `Registry.Sound.change` — what every request keeps.
* `Registry.Consistent.find?_change` — every request through the view.
* `Registry.Spent`, `Registry.Sound.spent_of_address` — addresses that were given out, and new ones.
* `Registry.Consistent.release_cases`, `Registry.Consistent.find?_release` — a release by itself.
-/

namespace FlowGraph.Registry

variable [Repertoire] {r : Registry}

/-! ### Counters that do not start over -/

/-- No counter has started over on the way from one registry to another. -/
structure Onward (r r' : Registry) : Prop where
  pools : r.nextId ≤ r'.nextId
  slots : ∀ p s t, r.pools.find? p = some s → r'.pools.find? p = some t →
    s.pool.nextId ≤ t.pool.nextId

theorem Onward.refl (r : Registry) : r.Onward r where
  pools := UInt32.le_refl _
  slots p s t hs ht := by
    rw [hs] at ht
    rw [Option.some.inj ht]
    exact UInt32.le_refl _

theorem Onward.withStore {p : PoolId} {s t : Store} (hs : r.pools.find? p = some s)
    (hle : s.pool.nextId ≤ t.pool.nextId) : r.Onward (r.withStore p t) where
  pools := UInt32.le_refl _
  slots q u v hu hv := by
    rw [pools_withStore] at hv
    split at hv
    · next hq =>
      rw [hq, hs] at hu
      rw [← Option.some.inj hu, ← Option.some.inj hv]
      exact hle
    · exact (Onward.refl r).slots q u v hu hv

theorem find?_pools_retired (r : Registry) (p q : PoolId) (b : Behavior) :
    (r.retired p b).pools.find? q = if q = p then none else r.pools.find? q :=
  Table.find?_erase r.pools p q

theorem pools_of_retired {p q : PoolId} {b : Behavior} {u : Store}
    (hu : (r.retired p b).pools.find? q = some u) : q ≠ p ∧ r.pools.find? q = some u := by
  rw [find?_pools_retired] at hu
  split at hu
  · cases hu
  · next hq => exact ⟨hq, hu⟩

/-- A pool that is opened stands under a number that no other one had. -/
theorem WellFormed.onward_opened (h : r.WellFormed) (hle : r.nextId ≤ r.nextId + 1) (b : Behavior) :
    r.Onward (r.opened b) where
  pools := hle
  slots p s t hs ht := by
    rcases Table.find?_insert_eq_some ht with ⟨rfl, -⟩ | ⟨-, ht'⟩
    · rw [h.find?_nextId] at hs
      cases hs
    · exact (Onward.refl r).slots p s t hs ht'

theorem Onward.added {p : PoolId} {s : Store} (hs : r.pools.find? p = some s)
    (hasc : s.pool.Ascending) (hroom : s.pool.nextId.toNat + 1 < 2 ^ 32) (i : Instance) :
    r.Onward (r.added p s i) := by
  refine .withStore hs ?_
  rw [UInt32.le_iff_toNat_le, (hasc.allocateWith i hroom).2]
  exact Nat.le_succ _

/-- A release moves no counter. -/
theorem WellFormed.onward_release (h : r.WellFormed) {x : PackedAddress} {a : RegistryReply}
    {r' : Registry} (hc : r.Change (.release x) a r') : r.Onward r' := by
  cases hc with
  | idle hidle => exact .refl r
  | added hs given => cases given
  | vacated hs found =>
      refine .withStore hs ?_
      rw [((h.pools _ _ hs).release_rest x.slot).1]
      exact UInt32.le_refl _
  | retired hs found last =>
      exact ⟨UInt32.le_refl _, fun p s t hs ht =>
        (Onward.refl r).slots p s t hs (pools_of_retired ht).2⟩

/-- A pool that took in an instance without starting over had an id left. -/
theorem Onward.room {p : PoolId} {s : Store} {i : Instance} (h : r.Onward (r.added p s i))
    (hs : r.pools.find? p = some s) (hasc : s.pool.Ascending) :
    s.pool.nextId.toNat + 1 < 2 ^ 32 := by
  have hle := h.slots p s _ hs (Table.find?_insert_self _ _ _)
  rw [Pool.allocateWith_eq, hasc.freshId] at hle
  simp only [Pool.idAfter] at hle
  split at hle
  · next hzero =>
    -- The counter would have started over at one, from zero or one.
    have hone : s.pool.nextId.toNat ≤ 1 := UInt32.le_iff_toNat_le.1 hle
    have hnext := Counter.toNat_next (n := s.pool.nextId) (by omega)
    rw [hzero] at hnext
    exact absurd hnext (Nat.succ_ne_zero _).symm
  · exact Counter.room_of_le_next hle

/-! ### Ids that are left -/

/-- An id is left to be issued in a pool, if there is the pool. -/
def HasRoom (r : Registry) (p : PoolId) : Prop := ∀ s, r.store? p = some s → s.pool.HasRoom

/-- While no counter has started over, there are ids left. -/
theorem Sound.hasRoom (h : r.Sound) (p : PoolId) : r.HasRoom p := fun s hs =>
  (h.ascending p s hs).hasRoom (h.wellFormed.pools p s hs)

/-! ### What a request keeps -/

/-- What an address is given is of the behaviour that it is given for. -/
theorem Consistent.behavior_of_given (h : r.Consistent) {q : RegistryRequest} {b : Behavior}
    {i : Instance} (hq : r.given? q = some (b, i)) : i.behavior = b := by
  have hbehind : ∀ a, r.behind? a = some (b, i) → i.behavior = b := by
    intro a ha
    rw [h.behind?_eq, Option.map_eq_some_iff] at ha
    obtain ⟨x, -, hx⟩ := ha
    rw [Prod.mk.injEq] at hx
    rw [← hx.1, hx.2]
  cases q with
  | register id => cases hq
  | release a => cases hq
  | allocate p =>
      obtain ⟨s, -, hs⟩ := Option.map_eq_some_iff.1 hq
      rw [Prod.mk.injEq] at hs
      rw [← hs.1, ← hs.2]
      exact Instance.behavior_blank _
  | materialize p data =>
      obtain ⟨s, -, hs⟩ := Option.map_eq_some_iff.1 hq
      rw [Prod.mk.injEq] at hs
      rw [← hs.1, ← hs.2]
      exact Instance.behavior_decode _ _
  | allocateCopy source => exact hbehind source hq
  | allocateCopyInto p source =>
      rw [given?, Option.bind_eq_bind, Option.bind_eq_some_iff] at hq
      obtain ⟨x, hx, hq⟩ := hq
      rw [Option.bind_eq_bind, Option.bind_eq_some_iff] at hq
      obtain ⟨s, -, hq⟩ := hq
      split at hq
      · exact hbehind source (hx.trans hq)
      · cases hq

section

variable {q : RegistryRequest} {a : RegistryReply} {r' : Registry} {p : PoolId} {s : Store}

/-- The pools of a registry in use are in use. -/
theorem InUse.pool (h : r.InUse) (hs : r.pools.find? p = some s) : s.pool.InUse :=
  ⟨h.wellFormed.pools p s hs, h.nextId p s hs⟩

theorem InUse.opened (h : r.InUse) {b : Behavior} (hb : r.byBehavior.find? b = none)
    (hlt : r.nextId < r.nextId + 1) : (r.opened b).InUse where
  wellFormed := h.wellFormed.opened hb hlt
  stores q u hu := by
    rcases Table.find?_insert_eq_some hu with ⟨-, rfl⟩ | ⟨-, hold⟩
    · exact Store.consistent_empty b _
    · exact h.stores q u hold
  nextId q u hu := by
    rcases Table.find?_insert_eq_some hu with ⟨-, rfl⟩ | ⟨-, hold⟩
    · exact show (1 : UInt32) ≠ 0 by decide
    · exact h.nextId q u hold

/-- A store may be put in the place of one of the same behaviour. -/
theorem InUse.withStore (h : r.InUse) (hs : r.pools.find? p = some s) {t : Store}
    (ht : t.Consistent) (hnext : t.pool.nextId ≠ 0) (hb : t.behavior = s.behavior) :
    (r.withStore p t).InUse where
  wellFormed := h.wellFormed.withStore hs ht.wellFormed hb
  stores q u hu := by
    rcases Table.find?_insert_eq_some hu with ⟨-, rfl⟩ | ⟨-, hold⟩
    · exact ht
    · exact h.stores q u hold
  nextId q u hu := by
    rcases Table.find?_insert_eq_some hu with ⟨-, rfl⟩ | ⟨-, hold⟩
    · exact hnext
    · exact h.nextId q u hold

theorem InUse.retired (h : r.InUse) (hs : r.pools.find? p = some s) :
    (r.retired p s.behavior).InUse where
  wellFormed :=
    { pools := fun q u hu => h.wellFormed.pools q u (pools_of_retired hu).2
      issued := fun q u hu => h.wellFormed.issued q u (pools_of_retired hu).2
      positive := h.wellFormed.positive
      own := Inverse.erase h.wellFormed.own hs }
  stores q u hu := h.stores q u (pools_of_retired hu).2
  nextId q u hu := h.nextId q u (pools_of_retired hu).2

/-- **Every request** leaves a registry in use, if there is an id for what it asks for. -/
theorem InUse.change (h : r.InUse) (hc : r.Change q a r') (counts : r.nextId ≤ r'.nextId)
    (room : ∀ x, a.address? = some x → r.HasRoom x.pool) : r'.InUse := by
  cases hc with
  | idle hidle => exact h
  | opened hb hp => exact h.opened hp (Counter.lt_next counts)
  | @added _ p s i hs given =>
      have hroom := room _ rfl s (by rw [PackedAddress.pool_pack]; exact hs)
      obtain ⟨hvalid, hfree, -⟩ := Pool.freshId_free hroom (h.nextId p s hs)
      have hstore := (h.stores p s hs).allocateWith (h.behavior_of_given given) hvalid hfree
      exact h.withStore hs hstore ((h.pool hs).allocateWith hroom i).nextId rfl
  | @vacated a s hs found =>
      have hstore := (h.stores _ s hs).release a.slot
      exact h.withStore hs hstore ((h.pool hs).release a.slot).nextId rfl
  | retired hs found last => exact h.retired hs

/-- An instance may be changed as long as it stays of its behaviour. -/
theorem InUse.modify (h : r.InUse) (a : PackedAddress) {f : Instance → Instance}
    (hf : ∀ i, (f i).behavior = i.behavior) : (r.modify a f).InUse where
  wellFormed := h.wellFormed.modify a f
  stores q u hu := by
    obtain ⟨s, hs, rfl | rfl⟩ := pools_of_modify hu
    · exact h.stores q _ hs
    · exact (h.stores q s hs).modify a.slot hf
  nextId q u hu := by
    obtain ⟨s, hs, rfl | rfl⟩ := pools_of_modify hu
    · exact h.nextId q _ hs
    · exact ((h.pool hs).modify a.slot f).nextId

/-- Ids go on to be issued in turn, unless a counter starts over. -/
theorem Sound.ascending_change (h : r.Sound) (hc : r.Change q a r') (ho : r.Onward r') :
    ∀ p s, r'.pools.find? p = some s → s.pool.Ascending := by
  intro x u hu
  cases hc with
  | idle hidle => exact h.ascending x u hu
  | opened hb hp =>
      rcases Table.find?_insert_eq_some hu with ⟨-, rfl⟩ | ⟨-, hold⟩
      · exact Pool.ascending_empty _ _
      · exact h.ascending x u hold
  | @added _ p s i hs given =>
      have hasc := h.ascending p s hs
      rcases Table.find?_insert_eq_some hu with ⟨-, rfl⟩ | ⟨-, hold⟩
      · exact (hasc.allocateWith i (ho.room hs hasc)).1
      · exact h.ascending x u hold
  | vacated hs found =>
      rcases Table.find?_insert_eq_some hu with ⟨-, rfl⟩ | ⟨-, hold⟩
      · exact (h.ascending _ _ hs).release (h.wellFormed.pools _ _ hs) _
      · exact h.ascending x u hold
  | retired hs found last => exact h.ascending x u (pools_of_retired hu).2

/-- **Every request** leaves a sound registry, unless a counter starts over. -/
theorem Sound.change (h : r.Sound) (hc : r.Change q a r') (ho : r.Onward r') : r'.Sound where
  toInUse := h.toInUse.change hc ho.pools fun x _ => h.hasRoom x.pool
  ascending := h.ascending_change hc ho

theorem Sound.modify (h : r.Sound) (a : PackedAddress) {f : Instance → Instance}
    (hf : ∀ i, (f i).behavior = i.behavior) : (r.modify a f).Sound where
  toInUse := h.toInUse.modify a hf
  ascending q u hu := by
    obtain ⟨s, hs, rfl | rfl⟩ := pools_of_modify hu
    · exact h.ascending q _ hs
    · exact (h.ascending q s hs).modify a.slot f

end

/-! ### Requests through the view -/

theorem Consistent.find?_vacated (h : r.Consistent) {a : PackedAddress} {s : Store}
    (hs : r.pools.find? a.pool = some s) (x : PackedAddress) :
    (r.vacated a s).find? x = if x = a then none else r.find? x := by
  simp only [Registry.vacated, find?_withStore, PackedAddress.eq_iff]
  by_cases hx : x.pool = a.pool
  · rw [if_pos hx, (h.wellFormed.pools _ s hs).find?_release,
      find?_of_store (s := s) (by rw [hx, hs])]
    simp only [hx, true_and]
  · simp only [hx, if_false, false_and]

/-- A pool is dropped with its last instance only. -/
theorem Consistent.find?_retired (h : r.Consistent) {a : PackedAddress} {s : Store}
    (hs : r.pools.find? a.pool = some s)
    (last : ∀ slot, (s.pool.release a.slot).value.2.find? slot = none) (x : PackedAddress) :
    (r.retired a.pool s.behavior).find? x = if x = a then none else r.find? x := by
  by_cases hx : x.pool = a.pool
  · have hlast := last x.slot
    rw [(h.wellFormed.pools _ s hs).find?_release] at hlast
    rw [find?_of_missing (by rw [find?_pools_retired, if_pos hx]),
      find?_of_store (s := s) (by rw [hx, hs])]
    simp only [PackedAddress.eq_iff, hx, true_and]
    exact hlast.symm
  · rw [if_neg fun heq => hx (congrArg PackedAddress.pool heq)]
    unfold find? store?
    rw [find?_pools_retired, if_neg hx]

/-- **A request through the view**: what is handed out holds what it was given, what is taken back
holds nothing, and no other address notices. -/
theorem Consistent.find?_change (h : r.Consistent) {q : RegistryRequest} {a : RegistryReply}
    {r' : Registry} (hc : r.Change q a r') (x : PackedAddress) :
    r'.find? x = if a.address? = some x then (r.given? q).map Prod.snd
      else if q.gone? a = some x then none else r.find? x := by
  cases hc with
  | idle hidle => rw [hidle.address?_eq, hidle.gone?_eq]; rfl
  | opened hb hp => exact h.wellFormed.find?_opened _ x
  | @added _ p s i hs given =>
      have hnot : q.gone? (.address (some (.pack p s.pool.freshId))) = none := by cases q <;> rfl
      rw [h.wellFormed.find?_added hs, given, hnot]
      simp only [RegistryReply.address?, Option.some.injEq, Option.map_some, reduceCtorEq, if_false,
        eq_comm]
  | @vacated a s hs found =>
      rw [h.find?_vacated hs]
      simp only [RegistryReply.address?, RegistryRequest.gone?, Option.some.injEq, reduceCtorEq,
        if_false, eq_comm]
  | @retired a s hs found last =>
      rw [h.find?_retired hs last]
      simp only [RegistryReply.address?, RegistryRequest.gone?, Option.some.injEq, reduceCtorEq,
        if_false, eq_comm]

/-- An address is handed out exactly if there is something for it to hold. -/
theorem Change.isSome_address? {q : RegistryRequest} {a : RegistryReply} {r' : Registry}
    (hc : r.Change q a r') : a.address?.isSome = (r.given? q).isSome := by
  cases hc with
  | idle hidle => rw [hidle.address?_eq, hidle.given?_eq]; rfl
  | opened hb hp => rfl
  | added hs given => rw [given]; rfl
  | vacated hs found => rfl
  | retired hs found last => rfl

/-- An address is taken back only if there was an instance. -/
theorem Change.found_of_gone {q : RegistryRequest} {a : RegistryReply} {r' : Registry}
    (hc : r.Change q a r') {x : PackedAddress} (hx : q.gone? a = some x) : r.find? x ≠ none := by
  cases hc with
  | vacated hs found => exact Option.some.inj hx ▸ found
  | retired hs found last => exact Option.some.inj hx ▸ found
  | idle hidle =>
      rw [hidle.gone?_eq] at hx
      cases hx
  | opened hb hp => cases hx
  | added hs given => cases q <;> cases hx

/-! ### Numbers that were given out -/

/-- An address whose numbers the counters have passed. -/
structure Spent (r : Registry) (a : PackedAddress) : Prop where
  pool : a.pool.raw < r.nextId
  slot : ∀ s, r.pools.find? a.pool = some s → a.slot.raw < s.pool.nextId

/-- No counter turns back, and a pool that is dropped does not come back under its number. -/
theorem Spent.change {x : PackedAddress} (hx : r.Spent x) {q : RegistryRequest} {a : RegistryReply}
    {r' : Registry} (hc : r.Change q a r') (ho : r.Onward r') : r'.Spent x := by
  refine ⟨UInt32.lt_of_lt_of_le hx.pool ho.pools, fun t ht => ?_⟩
  have hold : ∀ s, r.pools.find? x.pool = some s → x.slot.raw < t.pool.nextId := fun s hs =>
    UInt32.lt_of_lt_of_le (hx.slot s hs) (ho.slots x.pool s t hs ht)
  cases hc with
  | idle hidle => exact hold t ht
  | opened hb hp =>
      rcases Table.find?_insert_eq_some ht with ⟨hnew, -⟩ | ⟨-, hs⟩
      · have hlt := hx.pool
        rw [hnew] at hlt
        exact absurd hlt (UInt32.lt_irrefl _)
      · exact hold t hs
  | added hs given =>
      rcases Table.find?_insert_eq_some ht with ⟨hp, -⟩ | ⟨-, ht'⟩
      · exact hold _ (hp ▸ hs)
      · exact hold t ht'
  | vacated hs found =>
      rcases Table.find?_insert_eq_some ht with ⟨hp, -⟩ | ⟨-, ht'⟩
      · exact hold _ (hp ▸ hs)
      · exact hold t ht'
  | retired hs found last => exact hold t (pools_of_retired ht).2

/-- What is handed out is the address of an instance that came in. -/
theorem Change.added_of_address {q : RegistryRequest} {a : RegistryReply} {r' : Registry}
    (hc : r.Change q a r') {x : PackedAddress} (hx : a.address? = some x) :
    ∃ p s i, r.pools.find? p = some s ∧ x = .pack p s.pool.freshId ∧ r' = r.added p s i := by
  cases hc with
  | idle hidle =>
      rw [hidle.address?_eq] at hx
      cases hx
  | opened hb hp => cases hx
  | @added _ p s i hs given => exact ⟨p, s, i, hs, (Option.some.inj hx).symm, rfl⟩
  | vacated hs found => cases hx
  | retired hs found last => cases hx

/-- **Fresh addresses.** What is handed out was not live, and is valid. -/
theorem InUse.fresh_of_address (h : r.InUse) {q : RegistryRequest} {a : RegistryReply}
    {r' : Registry} (hc : r.Change q a r') {x : PackedAddress} (hx : a.address? = some x)
    (room : r.HasRoom x.pool) : x.isValid = true ∧ r.find? x = none := by
  obtain ⟨p, s, i, hs, rfl, -⟩ := hc.added_of_address hx
  rw [PackedAddress.pool_pack] at room
  obtain ⟨hvalid, hfree, -⟩ := Pool.freshId_free (room s hs) (h.nextId p s hs)
  refine ⟨PackedAddress.isValid_pack (h.wellFormed.issued p s hs).1 hvalid, ?_⟩
  rw [find?_of_store (s := s) (by rw [PackedAddress.pool_pack, hs]), PackedAddress.slot_pack]
  exact ((h.wellFormed.pools p s hs).find?_eq_none_iff _).2 hfree

/-- **Addresses for life.** What is handed out was never given out before, and is now. -/
theorem Sound.spent_of_address (h : r.Sound) {q : RegistryRequest} {a : RegistryReply}
    {r' : Registry} (hc : r.Change q a r') (ho : r.Onward r') {x : PackedAddress}
    (hx : a.address? = some x) : ¬ r.Spent x ∧ r'.Spent x := by
  obtain ⟨p, s, i, hs, rfl, rfl⟩ := hc.added_of_address hx
  have hasc := h.ascending p s hs
  refine ⟨fun hspent => ?_, ?_, fun t ht => ?_⟩
  · have hlt := hspent.slot s (by rw [PackedAddress.pool_pack, hs])
    rw [PackedAddress.slot_pack, hasc.freshId] at hlt
    exact UInt32.lt_irrefl _ hlt
  · rw [PackedAddress.pool_pack]
    exact (h.wellFormed.issued p s hs).2
  · rw [PackedAddress.pool_pack, Registry.added, pools_withStore, if_pos rfl] at ht
    rw [PackedAddress.slot_pack, ← Option.some.inj ht, hasc.freshId, UInt32.lt_iff_toNat_lt,
      (hasc.allocateWith i (ho.room hs hasc)).2]
    exact Nat.lt_succ_self _

/-- Counters below a bound that fits their words take one request without starting over. -/
theorem Sound.onward_change (h : r.Sound) {k : Nat} (hw : r.Within k k) (hk : k + 1 < 2 ^ 32)
    {q : RegistryRequest} {a : RegistryReply} {r' : Registry} (hc : r.Change q a r') :
    r.Onward r' ∧ r'.Within (k + 1) (k + 1) := by
  have hsame : r.Within (k + 1) (k + 1) := hw.mono (Nat.le_succ k) (Nat.le_succ k)
  cases hc with
  | idle hidle => exact ⟨.refl r, hsame⟩
  | @opened _ b hb hp =>
      have hpools := hw.pools
      have hnext := Counter.toNat_next (n := r.nextId) (by omega)
      refine ⟨h.wellFormed.onward_opened ?_ b,
        (hw.mono (Nat.le_refl k) (Nat.le_succ k)).opened (Nat.le_add_left 1 k) hnext b⟩
      rw [UInt32.le_iff_toNat_le, hnext]
      exact Nat.le_succ _
  | @added _ p s i hs given =>
      obtain ⟨hasc, hslots⟩ := hw.slots p s hs
      exact ⟨.added hs hasc (by omega) i, (hw.mono (Nat.le_succ k) (Nat.le_refl k)).added hs hk i⟩
  | @vacated x s hs found =>
      have hnext : (s.pool.release x.slot).value.2.nextId = s.pool.nextId :=
        ((h.wellFormed.pools _ s hs).release_rest x.slot).1
      refine ⟨h.wellFormed.onward_release (.vacated hs found),
        hsame.withStore _ ((h.ascending _ s hs).release (h.wellFormed.pools _ s hs) x.slot) ?_⟩
      rw [hnext]
      exact (hsame.slots _ s hs).2
  | retired hs found last =>
      exact ⟨h.wellFormed.onward_release (.retired hs found last),
        hsame.pools, fun q u hu => hsame.slots q u (pools_of_retired hu).2⟩

/-! ### Requests one by one -/

/-- Opening a pool is harmless while there are numbers for pools. -/
theorem Sound.register (h : r.Sound) (id : BehaviorId) (hle : r.nextId ≤ r.nextId + 1) :
    (r.register id).value.2.Sound := by
  have hc := change_register r id
  simp only [perform, reply] at hc
  generalize (r.register id).value = x at hc ⊢
  obtain ⟨pool, r'⟩ := x
  cases hc with
  | idle hidle => exact h
  | opened hb hp => exact h.change (.opened hb hp) (h.wellFormed.onward_opened hle _)

/-- So is taking in an instance while there are numbers for slots. -/
theorem Sound.materialize (h : r.Sound) (p : PoolId) (data : Json)
    (hroom : ∀ s, r.pools.find? p = some s → s.pool.nextId.toNat + 1 < 2 ^ 32) :
    (r.materialize p data).value.2.Sound := by
  cases hs : r.store? p with
  | none =>
      rw [Registry.materialize, hs]
      exact h
  | some s =>
      have hgiven : r.given? (.materialize p data)
          = some (s.behavior, (Instance.decode s.behavior data).value) := by
        rw [given?, hs]
        rfl
      rw [materialize_value hs]
      exact h.change (.added hs hgiven) (.added hs (h.ascending p s hs) (hroom s hs) _)

theorem Sound.release (h : r.Sound) (a : PackedAddress) : (r.release a).value.2.Sound := by
  have hc := h.change_release a
  exact h.change hc (h.wellFormed.onward_release hc)

/-- All that a release can do. -/
theorem Consistent.release_cases (h : r.Consistent) (a : PackedAddress) :
    (r.find? a = none ∧ (r.release a).value = (false, r)) ∨
    (r.find? a ≠ none ∧ ∃ s, r.pools.find? a.pool = some s ∧
      ((r.release a).value = (true, r.vacated a s) ∨
        (r.release a).value = (true, r.retired a.pool s.behavior) ∧
          ∀ slot, (s.pool.release a.slot).value.2.find? slot = none)) := by
  have hc := h.change_release a
  simp only [perform, reply] at hc
  generalize (r.release a).value = x at hc ⊢
  obtain ⟨found, r'⟩ := x
  cases hc with
  | idle hidle =>
      cases hidle with
      | missed absent => exact .inl ⟨absent, rfl⟩
  | vacated hs found => exact .inr ⟨found, _, hs, .inl rfl⟩
  | retired hs found last => exact .inr ⟨found, _, hs, .inr ⟨rfl, last⟩⟩

/-- A release succeeds exactly if there is an instance. -/
theorem Consistent.release_fst (h : r.Consistent) (a : PackedAddress) :
    (r.release a).value.1 = (r.find? a).isSome := by
  rcases h.release_cases a with ⟨hnone, hr⟩ | ⟨hfound, s, -, hr | ⟨hr, -⟩⟩
  · rw [hr, hnone]
    rfl
  all_goals
    rw [hr]
    exact (Option.isSome_iff_ne_none.2 hfound).symm

/-- **A release through the view.** The address is vacant, and no other address notices. -/
theorem Consistent.find?_release (h : r.Consistent) (a x : PackedAddress) :
    (r.release a).value.2.find? x = if x = a then none else r.find? x := by
  rcases h.release_cases a with ⟨hnone, hr⟩ | ⟨-, s, hs, hr | ⟨hr, hlast⟩⟩
  · rw [hr]
    split
    · next hx => rw [hx, hnone]
    · rfl
  · rw [hr]
    exact h.find?_vacated hs x
  · rw [hr]
    exact h.find?_retired hs hlast x

end FlowGraph.Registry
