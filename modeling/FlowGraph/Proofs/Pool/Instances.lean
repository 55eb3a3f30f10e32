import FlowGraph.Pool.Registry
import FlowGraph.Proofs.Pool.WellFormed

/-!
# Registries as maps from addresses to instances

A registry is a table of pools, and each pool a table of instances. Seen from outside it is one map
from addresses to instances: a new instance gets an address at which there was none, and no
operation on one address is noticed at another.

* `Registry.Inverse` — the index of behaviours undoes the table of pools.
* `Registry.WellFormed` — every store is well formed and registered under its behaviour.
* `Registry.Within` — how many ids of each kind can have been given out.
* `Registry.Extends` — a registry with one more instance.
* `Registry.opened`, `Registry.added` — a registry with one more pool or one more instance.
* `Registry.register_known`, `Registry.materialize_known` — how an instance comes in.
* `Registry.WellFormed.find?_modify` — a change of one instance through the view.
-/

namespace FlowGraph

theorem PoolId.isValid_iff (p : PoolId) : p.isValid = true ↔ p.raw ≠ 0 := by
  rw [isValid, bne_iff_ne, ne_eq, empty, mk.injEq]

theorem PackedAddress.isValid_pack {p : PoolId} {s : SlotId} (hp : p.isValid = true)
    (hs : s.isValid = true) : (pack p s).isValid = true := by
  rw [isValid, pool_pack, slot_pack, hp, hs]
  rfl

namespace Registry

variable [Repertoire]

/-! ### Pools and their behaviours -/

/-- The index of behaviours is the inverse of the table of pools. -/
def Inverse (pools : Table PoolId Store) (index : Table Behavior PoolId) : Prop :=
  ∀ b p, index.find? b = some p ↔ ∃ s, pools.find? p = some s ∧ s.behavior = b

section

variable {pools : Table PoolId Store} {index : Table Behavior PoolId} {p : PoolId} {s : Store}

theorem inverse_empty : Inverse .empty .empty := by
  intro b p
  constructor
  · intro h
    cases h
  · rintro ⟨s, hs, -⟩
    cases hs

/-- A store may be put in the place of one of the same behaviour. -/
theorem Inverse.put (h : Inverse pools index) (hs : pools.find? p = some s) {t : Store}
    (hb : t.behavior = s.behavior) : Inverse (pools.insert p t) index := by
  intro b q
  rw [h b q, Table.find?_insert]
  by_cases hq : q = p
  · rw [if_pos hq, hq, hs]
    simp only [Option.some.injEq, exists_eq_left', hb]
  · rw [if_neg hq]

/-- A pool for one more behaviour. -/
theorem Inverse.insert (h : Inverse pools index) (hp : pools.find? p = none)
    (hb : index.find? s.behavior = none) :
    Inverse (pools.insert p s) (index.insert s.behavior p) := by
  intro c q
  rw [Table.find?_insert, Table.find?_insert]
  by_cases hc : c = s.behavior <;> by_cases hq : q = p
  · simp [hc, hq]
  · rw [if_pos hc, if_neg hq, hc, ← h s.behavior q, hb]
    simp [Ne.symm hq]
  · rw [if_neg hc, if_pos hq, h c q, hq, hp]
    simp [Ne.symm hc]
  · rw [if_neg hc, if_neg hq]
    exact h c q

/-- Only one pool was registered under the behaviour of a pool that is dropped. -/
theorem Inverse.erase (h : Inverse pools index) (hs : pools.find? p = some s) :
    Inverse (pools.erase p) (index.erase s.behavior) := by
  intro b q
  have hsp := (h s.behavior p).2 ⟨s, hs, rfl⟩
  rw [Table.find?_erase, Table.find?_erase]
  by_cases hb : b = s.behavior
  · rw [if_pos hb]
    refine ⟨nofun, ?_⟩
    rintro ⟨u, hu, hub⟩
    split at hu
    · cases hu
    · next hq =>
      have huq := (h b q).2 ⟨u, hu, hub⟩
      rw [hb, hsp] at huq
      exact absurd (Option.some.inj huq).symm hq
  · rw [if_neg hb, h b q]
    by_cases hq : q = p
    · rw [if_pos hq, hq, hs]
      simp [Ne.symm hb]
    · rw [if_neg hq]

end

/-! ### The invariant -/

/-- Every store is well formed, known under an issued id, and the one of its behaviour. -/
structure WellFormed (r : Registry) : Prop where
  pools : ∀ p s, r.pools.find? p = some s → s.pool.WellFormed
  issued : ∀ p s, r.pools.find? p = some s → p.isValid = true ∧ p.raw < r.nextId
  positive : 0 < r.nextId
  own : ∀ b p, r.byBehavior.find? b = some p ↔ ∃ s, r.pools.find? p = some s ∧ s.behavior = b

/-- The counter of pools has got no further than one number, those of slots no further than another,
and none has started over. -/
structure Within (r : Registry) (pools slots : Nat) : Prop where
  pools : r.nextId.toNat ≤ pools
  slots : ∀ p s, r.pools.find? p = some s → s.pool.Ascending ∧ s.pool.nextId.toNat ≤ slots

/-- A registry with one more instance, at an address of its own. -/
structure Extends (r r' : Registry) (a : PackedAddress) (i : Instance) : Prop where
  valid : a.isValid = true
  fresh : r.find? a = none
  find?_eq : ∀ x, r'.find? x = if x = a then some i else r.find? x
  wellFormed : r'.WellFormed
  catalog : r'.catalog = r.catalog

theorem wellFormed_empty (catalog : Catalog) (config : PoolConfig) :
    (empty catalog config).WellFormed where
  pools _ _ h := by cases h
  issued _ _ h := by cases h
  positive := show (0 : UInt32) < 1 by decide
  own := inverse_empty

theorem within_empty (catalog : Catalog) (config : PoolConfig) :
    (empty catalog config).Within 1 1 where
  pools := Nat.le_refl 1
  slots _ _ h := by cases h

theorem Within.mono {r : Registry} {pools slots pools' slots' : Nat} (hw : r.Within pools slots)
    (hpools : pools ≤ pools') (hslots : slots ≤ slots') : r.Within pools' slots' where
  pools := Nat.le_trans hw.pools hpools
  slots p s hs := ⟨(hw.slots p s hs).1, Nat.le_trans (hw.slots p s hs).2 hslots⟩

theorem find?_empty (catalog : Catalog) (config : PoolConfig) (a : PackedAddress) :
    (empty catalog config).find? a = none := rfl

/-! ### Stores in their places -/

theorem find?_of_store {r : Registry} {a : PackedAddress} {s : Store}
    (h : r.pools.find? a.pool = some s) : r.find? a = s.pool.find? a.slot := by
  rw [find?, store?, h]
  rfl

theorem pools_withStore (r : Registry) (p q : PoolId) (t : Store) :
    (r.withStore p t).pools.find? q = if q = p then some t else r.pools.find? q :=
  Table.find?_insert r.pools p q t

theorem find?_withStore (r : Registry) (p : PoolId) (t : Store) (a : PackedAddress) :
    (r.withStore p t).find? a = if a.pool = p then t.pool.find? a.slot else r.find? a := by
  rw [find?, store?, pools_withStore]
  split
  · rfl
  · rfl

/-- A store may be put in the place of one of the same behaviour. -/
theorem WellFormed.withStore {r : Registry} (h : r.WellFormed) {p : PoolId} {s t : Store}
    (hs : r.pools.find? p = some s) (ht : t.pool.WellFormed) (hb : t.behavior = s.behavior) :
    (r.withStore p t).WellFormed := by
  refine { pools := fun q u hu => ?_, issued := fun q u hu => ?_, positive := h.positive
           own := Inverse.put h.own hs hb }
  · rcases Table.find?_insert_eq_some hu with ⟨-, rfl⟩ | ⟨-, hold⟩
    · exact ht
    · exact h.pools q u hold
  · rcases Table.find?_insert_eq_some hu with ⟨rfl, -⟩ | ⟨-, hold⟩
    · exact h.issued q s hs
    · exact h.issued q u hold

theorem Within.withStore {r : Registry} {pools slots : Nat} (hw : r.Within pools slots) (p : PoolId)
    {t : Store} (hasc : t.pool.Ascending) (hle : t.pool.nextId.toNat ≤ slots) :
    (r.withStore p t).Within pools slots := by
  refine ⟨hw.pools, fun q u hu => ?_⟩
  rcases Table.find?_insert_eq_some hu with ⟨-, rfl⟩ | ⟨-, hold⟩
  · exact ⟨hasc, hle⟩
  · exact hw.slots q u hold

/-! ### New pools -/

/-- The registry with an empty pool for one more behaviour. -/
def opened (r : Registry) (b : Behavior) : Registry :=
  { r with
    pools := r.pools.insert ⟨r.nextId⟩ (.empty b r.config.compactionRatio)
    byBehavior := r.byBehavior.insert b ⟨r.nextId⟩
    nextId := r.nextId + 1 }

theorem register_unknown {r : Registry} {id : BehaviorId} (hb : r.catalog.find? id = none) :
    r.register id = pure (none, r) := by
  simp only [register, hb]

theorem register_present {r : Registry} {id : BehaviorId} {b : Behavior} {p : PoolId}
    (hb : r.catalog.find? id = some b) (hp : r.byBehavior.find? b = some p) :
    r.register id = pure (some p, r) := by
  simp only [register, hb, hp]

theorem register_new {r : Registry} {id : BehaviorId} {b : Behavior}
    (hb : r.catalog.find? id = some b) (hp : r.byBehavior.find? b = none) :
    (r.register id).value = (some ⟨r.nextId⟩, r.opened b) := by
  simp only [register, hb, hp, opened]

theorem WellFormed.find?_nextId {r : Registry} (h : r.WellFormed) :
    r.pools.find? ⟨r.nextId⟩ = none := by
  cases hs : r.pools.find? ⟨r.nextId⟩ with
  | none => rfl
  | some s => exact absurd (h.issued _ s hs).2 (UInt32.lt_irrefl _)

/-- The next number to be issued is a valid one. -/
theorem WellFormed.isValid_nextId {r : Registry} (h : r.WellFormed) :
    (⟨r.nextId⟩ : PoolId).isValid = true :=
  (PoolId.isValid_iff _).2 (UInt32.pos_iff_ne_zero.1 h.positive)

theorem WellFormed.opened {r : Registry} (h : r.WellFormed) {b : Behavior}
    (hb : r.byBehavior.find? b = none) (hlt : r.nextId < r.nextId + 1) :
    (r.opened b).WellFormed := by
  refine { pools := fun q u hu => ?_, issued := fun q u hu => ?_
           positive := UInt32.lt_trans h.positive hlt
           own := Inverse.insert (s := .empty b r.config.compactionRatio) h.own h.find?_nextId hb }
  · rcases Table.find?_insert_eq_some hu with ⟨-, rfl⟩ | ⟨-, hold⟩
    · exact Pool.wellFormed_empty _ _
    · exact h.pools q u hold
  · rcases Table.find?_insert_eq_some hu with ⟨rfl, -⟩ | ⟨-, hold⟩
    · exact ⟨h.isValid_nextId, hlt⟩
    · exact ⟨(h.issued q u hold).1, UInt32.lt_trans (h.issued q u hold).2 hlt⟩

theorem Within.opened {r : Registry} {pools slots : Nat} (hw : r.Within pools slots)
    (hslots : 1 ≤ slots) (hnext : (r.nextId + 1).toNat = r.nextId.toNat + 1) (b : Behavior) :
    (r.opened b).Within (pools + 1) slots := by
  refine ⟨?_, fun q u hu => ?_⟩
  · show (r.nextId + 1).toNat ≤ pools + 1
    rw [hnext]
    exact Nat.succ_le_succ hw.pools
  · rcases Table.find?_insert_eq_some hu with ⟨-, rfl⟩ | ⟨-, hold⟩
    · exact ⟨Pool.ascending_empty _ _, hslots⟩
    · exact hw.slots q u hold

/-- An empty pool has no instances to show. -/
theorem WellFormed.find?_opened {r : Registry} (h : r.WellFormed) (b : Behavior)
    (a : PackedAddress) : (r.opened b).find? a = r.find? a := by
  unfold find? store?
  simp only [Registry.opened, Table.find?_insert]
  by_cases hq : a.pool = ⟨r.nextId⟩
  · rw [if_pos hq, hq, h.find?_nextId]
    rfl
  · rw [if_neg hq]

/-- **Registering** a known behaviour answers a pool of that behaviour; no instance notices. -/
theorem register_known {r : Registry} (h : r.WellFormed) {id : BehaviorId} {b : Behavior}
    (hb : r.catalog.find? id = some b) {pools slots : Nat} (hw : r.Within pools slots)
    (hslots : 1 ≤ slots) (hroom : pools + 1 < 2 ^ 32) :
    ∃ p r' s, (r.register id).value = (some p, r') ∧ r'.pools.find? p = some s ∧ s.behavior = b ∧
      r'.WellFormed ∧ r'.Within (pools + 1) slots ∧ r'.catalog = r.catalog ∧
      ∀ a, r'.find? a = r.find? a := by
  cases hp : r.byBehavior.find? b with
  | some p =>
      obtain ⟨s, hs, hsb⟩ := (h.own b p).1 hp
      exact ⟨p, r, s, congrArg Noted.value (register_present hb hp), hs, hsb, h,
        hw.mono (Nat.le_succ _) (Nat.le_refl _), rfl, fun _ => rfl⟩
  | none =>
      have hle := hw.pools
      have hnext : (r.nextId + 1).toNat = r.nextId.toNat + 1 := Counter.toNat_next (by omega)
      have hlt : r.nextId < r.nextId + 1 := by
        rw [UInt32.lt_iff_toNat_lt, hnext]
        exact Nat.lt_succ_self _
      exact ⟨⟨r.nextId⟩, r.opened b, .empty b r.config.compactionRatio, register_new hb hp,
        Table.find?_insert_self _ _ _, rfl, h.opened hp hlt, hw.opened hslots hnext b, rfl,
        h.find?_opened b⟩

/-! ### New instances -/

/-- The registry after the store of a pool took in one more instance. -/
def added (r : Registry) (p : PoolId) (s : Store) (i : Instance) : Registry :=
  r.withStore p ⟨s.behavior, (s.pool.allocateWith i).2⟩

/-- What comes in is at its address, and no other address notices. -/
theorem WellFormed.find?_added {r : Registry} (h : r.WellFormed) {p : PoolId} {s : Store}
    (hs : r.pools.find? p = some s) (i : Instance) (x : PackedAddress) :
    (r.added p s i).find? x = if x = .pack p s.pool.freshId then some i else r.find? x := by
  rw [Registry.added, find?_withStore]
  simp only [PackedAddress.eq_pack_iff]
  by_cases hx : x.pool = p
  · rw [if_pos hx, (h.pools p s hs).find?_allocateWith, find?_of_store (s := s) (by rw [hx, hs])]
    simp only [hx, true_and]
  · simp only [hx, if_false, false_and]

/-- An instance comes in at a fresh address, and no other address notices. -/
theorem WellFormed.extends_added {r : Registry} (h : r.WellFormed) {p : PoolId} {s : Store}
    (hs : r.pools.find? p = some s) (hasc : s.pool.Ascending) (i : Instance) :
    r.Extends (r.added p s i) (.pack p s.pool.freshId) i := by
  have hpool := h.pools p s hs
  have hvalid : s.pool.freshId.isValid = true := by
    rw [hasc.freshId, Pool.isValid_iff]
    exact hasc.positive
  refine
    { valid := PackedAddress.isValid_pack (h.issued p s hs).1 hvalid, fresh := ?_
      find?_eq := h.find?_added hs i
      wellFormed := h.withStore hs (hpool.allocateWith hasc i) rfl, catalog := rfl }
  rw [find?_of_store (s := s) (by rw [PackedAddress.pool_pack, hs]), PackedAddress.slot_pack]
  exact hpool.find?_freshId hasc

theorem Within.added {r : Registry} {pools slots : Nat} (hw : r.Within pools slots) {p : PoolId}
    {s : Store} (hs : r.pools.find? p = some s) (hroom : slots + 1 < 2 ^ 32) (i : Instance) :
    (r.added p s i).Within pools (slots + 1) := by
  obtain ⟨hasc, hnext⟩ := hw.slots p s hs
  obtain ⟨hgrown, hcount⟩ := hasc.allocateWith i (by omega)
  exact (hw.mono (Nat.le_refl _) (Nat.le_succ _)).withStore p hgrown (by rw [hcount]; omega)

theorem materialize_value {r : Registry} {p : PoolId} {s : Store} (hs : r.pools.find? p = some s)
    (data : Json) : (r.materialize p data).value
      = (some (.pack p s.pool.freshId), r.added p s (Instance.decode s.behavior data).value) := by
  rw [materialize, store?, hs]
  simp only [Noted.value_bind, Noted.value_pure, Store.materialize, Store.allocateWith,
    Pool.allocateWith_eq, added]

/-- **Materializing** in a pool that exists adds the decoded instance at a fresh address. -/
theorem materialize_known {r : Registry} (h : r.WellFormed) {p : PoolId} {s : Store}
    (hs : r.pools.find? p = some s) {pools slots : Nat} (hw : r.Within pools slots)
    (hroom : slots + 1 < 2 ^ 32) (data : Json) :
    ∃ a r', (r.materialize p data).value = (some a, r') ∧
      r.Extends r' a (Instance.decode s.behavior data).value ∧ r'.Within pools (slots + 1) := by
  exact ⟨.pack p s.pool.freshId, r.added p s (Instance.decode s.behavior data).value,
    materialize_value hs data, h.extends_added hs (hw.slots p s hs).1 _, hw.added hs hroom _⟩

/-! ### Changed instances -/

theorem pools_modify (r : Registry) (a : PackedAddress) (f : Instance → Instance) (q : PoolId) :
    (r.modify a f).pools.find? q
      = if q = a.pool then (r.pools.find? q).map fun s => s.modify a.slot f
        else r.pools.find? q := Table.find?_adjust _ _ _ _

/-- Every store is what it was, or one of its instances was changed. -/
theorem pools_of_modify {r : Registry} {a : PackedAddress} {f : Instance → Instance} {q : PoolId}
    {u : Store} (hu : (r.modify a f).pools.find? q = some u) :
    ∃ s, r.pools.find? q = some s ∧ (u = s ∨ u = s.modify a.slot f) := by
  rw [pools_modify] at hu
  split at hu
  · obtain ⟨s, hs, rfl⟩ := Option.map_eq_some_iff.1 hu
    exact ⟨s, hs, .inr rfl⟩
  · exact ⟨u, hu, .inl rfl⟩

/-- A change of an instance neither adds one nor takes one away. -/
theorem isSome_find?_modify (r : Registry) (a x : PackedAddress) (f : Instance → Instance) :
    ((r.modify a f).find? x).isSome = (r.find? x).isSome := by
  unfold find? store?
  rw [pools_modify]
  split
  · cases r.pools.find? x.pool with
    | none => rfl
    | some s => exact s.pool.isSome_find?_modify a.slot x.slot f
  · rfl

theorem WellFormed.modify {r : Registry} (h : r.WellFormed) (a : PackedAddress)
    (f : Instance → Instance) : (r.modify a f).WellFormed := by
  refine { pools := fun q u hu => ?_, issued := fun q u hu => ?_, positive := h.positive
           own := fun b q => ?_ }
  · obtain ⟨s, hs, rfl | rfl⟩ := pools_of_modify hu
    · exact h.pools q _ hs
    · exact (h.pools q s hs).modify a.slot f
  · obtain ⟨s, hs, -⟩ := pools_of_modify hu
    exact h.issued q s hs
  · refine (h.own b q).trans ?_
    rw [pools_modify]
    split
    · cases r.pools.find? q with
      | none => simp
      | some s => simp [Store.modify]
    · rfl

/-- A change of one instance leaves every other as it was. -/
theorem WellFormed.find?_modify {r : Registry} (h : r.WellFormed) (a x : PackedAddress)
    (f : Instance → Instance) :
    (r.modify a f).find? x = if x = a then (r.find? x).map f else r.find? x := by
  unfold find? store?
  rw [pools_modify]
  by_cases hpool : x.pool = a.pool
  · rw [if_pos hpool]
    have heq : x = a ↔ x.slot = a.slot := by
      rw [PackedAddress.eq_iff, hpool]
      exact and_iff_right rfl
    cases hs : r.pools.find? x.pool with
    | none => simp
    | some s =>
        have hmodify := (h.pools x.pool s hs).find?_modify a.slot x.slot f
        simp only [Option.map_some, Option.bind_eq_bind, Option.bind_some, heq]
        exact hmodify
  · rw [if_neg hpool, if_neg fun heq => hpool (congrArg PackedAddress.pool heq)]

end Registry

end FlowGraph
