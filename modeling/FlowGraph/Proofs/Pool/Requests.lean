import FlowGraph.Proofs.Pool.Instances
import FlowGraph.Proofs.Pool.Release

/-!
# What can be asked of a registry

A registry takes six kinds of requests. Some leave it as it is, and the others open a pool, add an
instance, release one or drop a pool with its last one. This is told apart once, here; whatever
holds of a registry through all of its life is then a matter of those five cases.

* `RegistryRequest`, `RegistryReply`, `Registry.perform` — the requests and what is replied.
* `Registry.behind?`, `Registry.given?` — what lies at an address, and what a new one is to hold.
* `Registry.Consistent` — the stores hold instances of their own behaviour.
* `Registry.InUse`, `Registry.Sound` — and their counters can go on, or have not even started over.
* `Registry.Change`, `Registry.Consistent.changes` — all that a request can do.
-/

namespace FlowGraph

/-! ### Requests -/

/-- What can be asked of a registry, with arguments valid or not. -/
inductive RegistryRequest
  | register (id : BehaviorId)
  | allocate (pool : PoolId)
  | materialize (pool : PoolId) (data : Json)
  | allocateCopy (source : PackedAddress)
  | allocateCopyInto (pool : PoolId) (source : PackedAddress)
  | release (a : PackedAddress)

/-- What is replied. -/
inductive RegistryReply
  | pool (p : Option PoolId)
  | address (a : Option PackedAddress)
  | flag (b : Bool)

/-- Whether a request asks for an address. -/
def RegistryRequest.asksAddress : RegistryRequest → Bool
  | .register _ | .release _ => false
  | _ => true

/-- The address that a reply hands out. -/
def RegistryReply.address? : RegistryReply → Option PackedAddress
  | .address a => a
  | _ => none

/-- The address that is taken back if a request gets a reply. -/
def RegistryRequest.gone? : RegistryRequest → RegistryReply → Option PackedAddress
  | .release a, .flag true => some a
  | _, _ => none

theorem Registry.eq_release_of_gone {q : RegistryRequest} {a : RegistryReply} {x : PackedAddress}
    (hx : q.gone? a = some x) : q = .release x := by
  unfold RegistryRequest.gone? at hx
  split at hx
  · rw [Option.some.inj hx]
  · cases hx

variable [Repertoire]

namespace Registry

/-- A reply and the registry afterwards, without the notices. -/
def reply {β : Type} (f : β → RegistryReply) (x : Noted (β × Registry)) :
    RegistryReply × Registry :=
  (f x.value.1, x.value.2)

/-- The reply to a request, and the registry afterwards. -/
def perform (r : Registry) : RegistryRequest → RegistryReply × Registry
  | .register id => reply .pool (r.register id)
  | .allocate pool => reply .address (r.allocate pool)
  | .materialize pool data => reply .address (r.materialize pool data)
  | .allocateCopy source => reply .address (r.allocateCopy source)
  | .allocateCopyInto pool source => reply .address (r.allocateCopyInto pool source)
  | .release a => reply .flag (r.release a)

/-- The behaviour and the data at an address that resolves. -/
def behind? (r : Registry) (a : PackedAddress) : Option (Behavior × Instance) := do
  let (s, slot) ← r.resolve a
  let i ← s.find? slot
  return (s.behavior, i)

/-- What the address that a request asks for is to hold, if the request can be met. -/
def given? (r : Registry) : RegistryRequest → Option (Behavior × Instance)
  | .allocate pool => (r.store? pool).map fun s => (s.behavior, .blank s.behavior)
  | .materialize pool data =>
    (r.store? pool).map fun s => (s.behavior, (Instance.decode s.behavior data).value)
  | .allocateCopy source => r.behind? source
  | .allocateCopyInto pool source => do
    let (b, i) ← r.behind? source
    let s ← r.store? pool
    if b = s.behavior then some (b, i) else none
  | .register _ | .release _ => none

end Registry

/-! ### The invariant -/

/-- A store in agreement, whose instances are of its behaviour. -/
structure Store.Consistent (s : Store) : Prop where
  wellFormed : s.pool.WellFormed
  blank : s.pool.blank = .blank s.behavior
  held : ∀ slot i, s.pool.find? slot = some i → i.behavior = s.behavior

namespace Store

theorem allocateWith_eq (s : Store) (i : Instance) :
    s.allocateWith i = (s.pool.freshId, ⟨s.behavior, (s.pool.allocateWith i).2⟩) := by
  rw [allocateWith, Pool.allocateWith_eq]

theorem consistent_empty (b : Behavior) (ratio : Float32) : (empty b ratio).Consistent where
  wellFormed := Pool.wellFormed_empty _ _
  blank := rfl
  held _ _ h := by cases h

theorem Consistent.allocateWith {s : Store} (h : s.Consistent) {i : Instance}
    (hi : i.behavior = s.behavior) (hvalid : s.pool.freshId.isValid = true)
    (hfree : s.pool.index.find? s.pool.freshId = none) :
    (⟨s.behavior, (s.pool.allocateWith i).2⟩ : Store).Consistent where
  wellFormed := h.wellFormed.allocateWith_fresh hvalid hfree i
  blank := by
    rw [Pool.allocateWith_eq]
    exact h.blank
  held slot x hx := by
    rw [h.wellFormed.find?_allocateWith] at hx
    split at hx
    · rw [← Option.some.inj hx]
      exact hi
    · exact h.held slot x hx

theorem Consistent.release {s : Store} (h : s.Consistent) (slot : SlotId) :
    (⟨s.behavior, (s.pool.release slot).value.2⟩ : Store).Consistent where
  wellFormed := h.wellFormed.release slot
  blank := (h.wellFormed.release_rest slot).2.trans h.blank
  held x i hx := by
    rw [h.wellFormed.find?_release] at hx
    split at hx
    · cases hx
    · exact h.held x i hx

/-- An instance may be changed as long as it stays of its behaviour. -/
theorem Consistent.modify {s : Store} (h : s.Consistent) (slot : SlotId) {f : Instance → Instance}
    (hf : ∀ i, (f i).behavior = i.behavior) : (s.modify slot f).Consistent where
  wellFormed := h.wellFormed.modify slot f
  blank := (s.pool.modify_rest slot f).2.2.trans h.blank
  held x i hx := by
    have hfind : (s.pool.modify slot f).find? x = some i := hx
    rw [h.wellFormed.find?_modify] at hfind
    split at hfind
    · obtain ⟨j, hj, rfl⟩ := Option.map_eq_some_iff.1 hfind
      exact (hf j).trans (h.held x j hj)
    · exact h.held x i hfind

end Store

namespace Registry

/-- A well-formed registry of consistent stores. -/
structure Consistent (r : Registry) : Prop where
  wellFormed : r.WellFormed
  stores : ∀ p s, r.pools.find? p = some s → s.Consistent

/-- A consistent registry in which no counter of slots stands at the empty id. They may have started
over. -/
structure InUse (r : Registry) : Prop extends r.Consistent where
  nextId : ∀ p s, r.pools.find? p = some s → s.pool.nextId ≠ 0

/-- A registry in use whose counters of slots have not started over yet. -/
structure Sound (r : Registry) : Prop extends r.InUse where
  ascending : ∀ p s, r.pools.find? p = some s → s.pool.Ascending

theorem sound_empty (catalog : Catalog) (config : PoolConfig) : (empty catalog config).Sound where
  wellFormed := wellFormed_empty catalog config
  stores _ _ h := by cases h
  nextId _ _ h := by cases h
  ascending _ _ h := by cases h

section

variable {r : Registry}

theorem resolve_of_store {a : PackedAddress} {s : Store} (hs : r.pools.find? a.pool = some s) :
    r.resolve a = if s.contains a.slot then some (s, a.slot) else none := by
  rw [resolve, store?, hs]
  rfl

theorem resolve_of_missing {a : PackedAddress} (hs : r.pools.find? a.pool = none) :
    r.resolve a = none := by
  rw [resolve, store?, hs]
  rfl

theorem find?_of_missing {a : PackedAddress} (hs : r.pools.find? a.pool = none) :
    r.find? a = none := by
  rw [find?, store?, hs]
  rfl

theorem contains_eq (r : Registry) (a : PackedAddress) : r.contains a = (r.resolve a).isSome := by
  unfold contains resolve
  cases r.store? a.pool with
  | none => rfl
  | some s => cases hc : s.contains a.slot <;> simp [hc]

/-- An address resolves exactly if there is an instance. -/
theorem WellFormed.isSome_resolve (h : r.WellFormed) (a : PackedAddress) :
    (r.resolve a).isSome = (r.find? a).isSome := by
  cases hs : r.pools.find? a.pool with
  | none => rw [resolve_of_missing hs, find?_of_missing hs]; rfl
  | some s =>
      rw [resolve_of_store hs, find?_of_store hs, Store.contains, (h.pools _ s hs).contains_eq]
      cases s.pool.find? a.slot <;> rfl

/-- What lies behind an address is its instance, and the behaviour that this is of. -/
theorem Consistent.behind?_eq (h : r.Consistent) (a : PackedAddress) :
    r.behind? a = (r.find? a).map fun i => (i.behavior, i) := by
  unfold behind?
  cases hs : r.pools.find? a.pool with
  | none => rw [resolve_of_missing hs, find?_of_missing hs]; rfl
  | some s =>
      have hstore := h.stores _ s hs
      rw [resolve_of_store hs, find?_of_store hs, Store.contains, hstore.wellFormed.contains_eq]
      cases hi : s.pool.find? a.slot with
      | none => rfl
      | some i =>
          have hfind : s.find? a.slot = some i := hi
          simp [hfind, hstore.held _ i hi]

end

/-! ### What a request can do -/

/-- The registry after an instance was released in its store. -/
def vacated (r : Registry) (a : PackedAddress) (s : Store) : Registry :=
  r.withStore a.pool ⟨s.behavior, (s.pool.release a.slot).value.2⟩

/-- The registry without a pool. -/
def retired (r : Registry) (p : PoolId) (b : Behavior) : Registry :=
  { r with pools := r.pools.erase p, byBehavior := r.byBehavior.erase b }

/-- The requests that leave a registry as it is, with their replies. -/
inductive Idle (r : Registry) : RegistryRequest → RegistryReply → Prop
  | unknown {id : BehaviorId} (hb : r.catalog.find? id = none) : Idle r (.register id) (.pool none)
  | known {id : BehaviorId} {b : Behavior} {p : PoolId} (hb : r.catalog.find? id = some b)
      (hp : r.byBehavior.find? b = some p) : Idle r (.register id) (.pool (some p))
  | refused {q : RegistryRequest} (asks : q.asksAddress = true) (given : r.given? q = none) :
      Idle r q (.address none)
  | missed {a : PackedAddress} (absent : r.find? a = none) : Idle r (.release a) (.flag false)

section

variable {r : Registry} {q : RegistryRequest} {a : RegistryReply}

theorem Idle.address?_eq (h : r.Idle q a) : a.address? = none := by
  cases h <;> rfl

theorem Idle.given?_eq (h : r.Idle q a) : r.given? q = none := by
  cases h with
  | unknown hb => rfl
  | known hb hp => rfl
  | refused asks given => exact given
  | missed absent => rfl

theorem Idle.gone?_eq (h : r.Idle q a) : q.gone? a = none := by
  cases h with
  | unknown hb => rfl
  | known hb hp => rfl
  | refused asks given => cases q <;> rfl
  | missed absent => rfl

end

/-- All that a request can do, with its reply. -/
inductive Change (r : Registry) : RegistryRequest → RegistryReply → Registry → Prop
  | idle {q : RegistryRequest} {a : RegistryReply} (idle : r.Idle q a) : Change r q a r
  | opened {id : BehaviorId} {b : Behavior} (hb : r.catalog.find? id = some b)
      (hp : r.byBehavior.find? b = none) :
      Change r (.register id) (.pool (some ⟨r.nextId⟩)) (r.opened b)
  | added {q : RegistryRequest} {p : PoolId} {s : Store} {i : Instance}
      (hs : r.pools.find? p = some s) (given : r.given? q = some (s.behavior, i)) :
      Change r q (.address (some (.pack p s.pool.freshId))) (r.added p s i)
  | vacated {a : PackedAddress} {s : Store} (hs : r.pools.find? a.pool = some s)
      (found : r.find? a ≠ none) : Change r (.release a) (.flag true) (r.vacated a s)
  | retired {a : PackedAddress} {s : Store} (hs : r.pools.find? a.pool = some s)
      (found : r.find? a ≠ none)
      (last : ∀ slot, (s.pool.release a.slot).value.2.find? slot = none) :
      Change r (.release a) (.flag true) (r.retired a.pool s.behavior)

section

variable {r : Registry}

theorem change_register (r : Registry) (id : BehaviorId) :
    r.Change (.register id) (r.perform (.register id)).1 (r.perform (.register id)).2 := by
  rw [perform, reply]
  cases hb : r.catalog.find? id with
  | none =>
      rw [register_unknown hb]
      exact .idle (.unknown hb)
  | some b =>
      cases hp : r.byBehavior.find? b with
      | none =>
          rw [register_new hb hp]
          exact .opened hb hp
      | some p =>
          rw [register_present hb hp]
          exact .idle (.known hb hp)

theorem Consistent.change_allocate (h : r.Consistent) (p : PoolId) :
    r.Change (.allocate p) (r.perform (.allocate p)).1 (r.perform (.allocate p)).2 := by
  simp only [perform, reply, allocate]
  cases hs : r.store? p with
  | none => exact .idle (.refused rfl (by rw [given?, hs]; rfl))
  | some s =>
      simp only [Store.allocate, Store.allocateWith_eq]
      exact .added hs (by rw [given?, hs, (h.stores p s hs).blank]; rfl)

theorem change_materialize (r : Registry) (p : PoolId) (data : Json) :
    r.Change (.materialize p data) (r.perform (.materialize p data)).1
      (r.perform (.materialize p data)).2 := by
  simp only [perform, reply, materialize]
  cases hs : r.store? p with
  | none => exact .idle (.refused rfl (by rw [given?, hs]; rfl))
  | some s =>
      simp only [Store.materialize, Store.allocateWith_eq, Noted.value_bind, Noted.value_pure]
      exact .added hs (by rw [given?, hs]; rfl)

/-- A copy is made if the source is there and of the behaviour of the pool. -/
theorem Consistent.change_copyInto (h : r.Consistent) {q : RegistryRequest} {p : PoolId}
    {source : PackedAddress} (asks : q.asksAddress = true)
    (hq : r.given? q = r.given? (.allocateCopyInto p source)) :
    r.Change q (.address (r.allocateCopyInto p source).value.1)
      (r.allocateCopyInto p source).value.2 := by
  have hbehind := h.behind?_eq source
  rw [given?] at hq
  unfold allocateCopyInto
  cases hi : r.find? source with
  | none =>
      rw [hi] at hbehind
      exact .idle (.refused asks (by rw [hq, hbehind]; rfl))
  | some i =>
      rw [hi] at hbehind
      cases hs : r.store? p with
      | none => exact .idle (.refused asks (by rw [hq, hbehind, hs]; rfl))
      | some s =>
          rw [hbehind, hs] at hq
          simp only [Option.map_some, Option.bind_eq_bind, Option.bind_some] at hq
          simp only [Store.allocateCopy]
          by_cases hb : i.behavior = s.behavior
          · rw [if_pos hb] at hq ⊢
            rw [hb] at hq
            rw [Store.allocateWith_eq]
            exact .added hs hq
          · rw [if_neg hb] at hq ⊢
            exact .idle (.refused asks hq)

/-- The pool of an instance is of the instance's behaviour. -/
theorem Consistent.given?_copyInto_own (h : r.Consistent) (source : PackedAddress) :
    r.given? (.allocateCopyInto source.pool source) = r.given? (.allocateCopy source) := by
  simp only [given?, h.behind?_eq]
  cases hs : r.pools.find? source.pool with
  | none => rw [find?_of_missing hs]; rfl
  | some s =>
      have hstore : r.store? source.pool = some s := hs
      rw [find?_of_store hs, hstore]
      cases hi : s.pool.find? source.slot with
      | none => rfl
      | some i => simp [(h.stores _ s hs).held _ i hi]

theorem Consistent.change_release (h : r.Consistent) (a : PackedAddress) :
    r.Change (.release a) (r.perform (.release a)).1 (r.perform (.release a)).2 := by
  simp only [perform, reply, release]
  cases hs : r.store? a.pool with
  | none => exact .idle (.missed (find?_of_missing hs))
  | some s =>
      have hpool := h.wellFormed.pools a.pool s hs
      have hflag := hpool.release_fst a.slot
      rw [hpool.contains_eq, ← find?_of_store (r := r) hs] at hflag
      simp only [Store.release, Noted.value_bind, Noted.value_pure]
      rw [hflag]
      cases hi : r.find? a with
      | none => exact .idle (.missed hi)
      | some i =>
          have hfound : r.find? a ≠ none := by rw [hi]; exact Option.some_ne_none i
          simp only [Option.isSome_some, Bool.not_true, Bool.false_eq_true, if_false]
          split
          · next hempty =>
            refine .retired hs hfound fun slot => ?_
            have hsize := eq_of_beq (Bool.and_eq_true_iff.1 hempty).2
            have hno : (s.pool.release a.slot).value.2.contains slot = false := by
              rw [Bool.eq_false_iff]
              intro hc
              exact Nat.ne_of_gt (Table.size_pos_of_contains _ slot hc) hsize
            rw [(hpool.release a.slot).contains_eq] at hno
            exact Option.not_isSome_iff_eq_none.1 (by rw [hno]; exact Bool.false_ne_true)
          · exact .vacated hs hfound

/-- **All that a request can do**, one case for each kind. -/
theorem Consistent.changes (h : r.Consistent) (q : RegistryRequest) :
    r.Change q (r.perform q).1 (r.perform q).2 := by
  cases q with
  | register id => exact change_register r id
  | allocate p => exact h.change_allocate p
  | materialize p data => exact change_materialize r p data
  | allocateCopy source => exact h.change_copyInto rfl (h.given?_copyInto_own source).symm
  | allocateCopyInto p source => exact h.change_copyInto rfl rfl
  | release a => exact h.change_release a

end

end Registry

end FlowGraph
