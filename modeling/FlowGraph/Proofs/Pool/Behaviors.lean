import FlowGraph.Proofs.Pool.Addresses

/-!
# One pool for each behaviour

A registry keeps its pools in one table and an index of their behaviours in another. Both change
only when a pool is opened or dropped, and then together: whatever is asked, each is the inverse of
the other. The numbers of slots do not matter here, so runs may go on when they are used again.

* `Registry.Served` — runs that go on as long as there are numbers for pools.
* `Registry.Handles`, `Registry.handles` — all that a request can do to the pools.
* `Registry.Houses` — the invariant that ties the pools to the run; `Houses.step` keeps it.
* `Registry.Served.one_pool_each` — one pool for each behaviour, always.
-/

namespace FlowGraph

/-! ### Runs -/

/-- The pool that a reply names. -/
def RegistryReply.pool? : RegistryReply → Option PoolId
  | .pool p => p
  | _ => none

/-- A table that is not empty binds some key. -/
theorem Table.exists_contains {κ ν : Type} [DecidableEq κ] {t : Table κ ν} (h : t.size ≠ 0) :
    ∃ k, t.contains k = true := by
  obtain ⟨⟨k, v⟩, hmem⟩ := List.exists_mem_of_length_pos (Nat.pos_of_ne_zero h)
  exact ⟨k, by rw [contains, (t.mem_bindings_iff k v).1 hmem, Option.isSome_some]⟩

namespace Registry

/-- The pools that were answered to requests for the pool of a behaviour. -/
def named (history : History) : List PoolId := history.filterMap fun x => x.2.pool?

theorem mem_named_cons {q : RegistryRequest} {a : RegistryReply} {history : History} {p : PoolId} :
    p ∈ named ((q, a) :: history) ↔ a.pool? = some p ∨ p ∈ named history := by
  unfold named
  rw [List.filterMap_cons]
  cases a.pool? <;> simp [eq_comm]

section

variable [Repertoire]

/-- Runs of requests put to a registry that starts out empty. A request that makes the counter of
pools start over is an arithmetic overflow, and the run ends there; the counters of slots may start
over. -/
inductive Served (catalog : Catalog) (config : PoolConfig) : History → Registry → Prop
  | start : Served catalog config [] (.empty catalog config)
  | step {history : History} {r : Registry} (before : Served catalog config history r)
      (q : RegistryRequest) (counts : r.nextId ≤ (r.perform q).2.nextId) :
      Served catalog config ((q, (r.perform q).1) :: history) (r.perform q).2

theorem Ran.served {catalog : Catalog} {config : PoolConfig} {history : History} {r : Registry}
    (h : Ran catalog config history r) : Served catalog config history r := by
  induction h with
  | start => exact .start
  | step before q counts ih => exact ih.step q counts.pools

/-! ### What a request does to the pools -/

/-- All that a request can do to the pools, with its reply. -/
inductive Handles (r : Registry) : RegistryRequest → RegistryReply → Registry → Prop
  | unknown {id : BehaviorId} (hb : r.catalog.find? id = none) :
      Handles r (.register id) (.pool none) r
  | known {id : BehaviorId} {b : Behavior} {p : PoolId} (hb : r.catalog.find? id = some b)
      (hp : r.byBehavior.find? b = some p) : Handles r (.register id) (.pool (some p)) r
  | opened {id : BehaviorId} {b : Behavior} (hb : r.catalog.find? id = some b)
      (hp : r.byBehavior.find? b = none) :
      Handles r (.register id) (.pool (some ⟨r.nextId⟩)) (r.opened b)
  | refused (q : RegistryRequest) : Handles r q (.address none) r
  | taken {q : RegistryRequest} {p : PoolId} {s t : Store} {slot : SlotId}
      (hs : r.pools.find? p = some s) (same : t.behavior = s.behavior)
      (live : t.contains slot = true) :
      Handles r q (.address (some (.pack p slot))) (r.withStore p t)
  | missed (a : PackedAddress) : Handles r (.release a) (.flag false) r
  | left {a : PackedAddress} {s t : Store} (hs : r.pools.find? a.pool = some s)
      (same : t.behavior = s.behavior)
      (more : r.config.retireEmptyPools = true → t.isEmpty = false) :
      Handles r (.release a) (.flag true) (r.withStore a.pool t)
  | dropped {a : PackedAddress} {s : Store} (hs : r.pools.find? a.pool = some s)
      (retires : r.config.retireEmptyPools = true) :
      Handles r (.release a) (.flag true) (r.retired a.pool s.behavior)

/-- A store that takes in an instance stays of its behaviour and has the instance. -/
theorem Store.contains_allocateWith (s : Store) (i : Instance) :
    (s.allocateWith i).2.behavior = s.behavior ∧
      (s.allocateWith i).2.contains (s.allocateWith i).1 = true := by
  rw [Store.allocateWith_eq]
  refine ⟨rfl, ?_⟩
  rw [Store.contains, Pool.contains, Pool.allocateWith_eq, Table.contains, Table.find?_insert_self,
    Option.isSome_some]

section

variable {r : Registry}

/-- An instance that comes in is taken by the store of its pool. -/
theorem handles_allocateWith {q : RegistryRequest} {p : PoolId} {s : Store}
    (hs : r.pools.find? p = some s) (i : Instance) :
    r.Handles q (.address (some (.pack p (s.allocateWith i).1)))
      (r.withStore p (s.allocateWith i).2) :=
  .taken hs (Store.contains_allocateWith s i).1 (Store.contains_allocateWith s i).2

theorem handles_copyInto (q : RegistryRequest) (p : PoolId) (source : PackedAddress) :
    r.Handles q (.address (r.allocateCopyInto p source).value.1)
      (r.allocateCopyInto p source).value.2 := by
  unfold allocateCopyInto
  cases r.find? source with
  | none => exact .refused q
  | some i =>
      cases hs : r.store? p with
      | none => exact .refused q
      | some s =>
          simp only [Store.allocateCopy]
          by_cases hb : i.behavior = s.behavior
          · rw [if_pos hb]
            exact handles_allocateWith hs i
          · rw [if_neg hb]
            exact .refused q

theorem handles_release (a : PackedAddress) :
    r.Handles (.release a) (r.perform (.release a)).1 (r.perform (.release a)).2 := by
  simp only [perform, reply, release]
  cases hs : r.store? a.pool with
  | none => exact .missed a
  | some s =>
      simp only [Store.release, Noted.value_bind, Noted.value_pure]
      cases (s.pool.release a.slot).value.1 with
      | false => exact .missed a
      | true =>
          simp only [Bool.not_true, Bool.false_eq_true, if_false]
          split
          · next hempty => exact .dropped hs (Bool.and_eq_true_iff.1 hempty).1
          · next hmore =>
            refine .left hs rfl fun hretires => ?_
            rw [hretires, Bool.true_and] at hmore
            exact Bool.eq_false_iff.2 hmore

/-- **All that a request can do to the pools**, whatever its arguments. -/
theorem handles (r : Registry) (q : RegistryRequest) :
    r.Handles q (r.perform q).1 (r.perform q).2 := by
  cases q with
  | register id =>
      rw [perform, reply]
      cases hb : r.catalog.find? id with
      | none =>
          rw [register_unknown hb]
          exact .unknown hb
      | some b =>
          cases hp : r.byBehavior.find? b with
          | none =>
              rw [register_new hb hp]
              exact .opened hb hp
          | some p =>
              rw [register_present hb hp]
              exact .known hb hp
  | allocate p =>
      simp only [perform, reply, allocate]
      cases hs : r.store? p with
      | none => exact .refused _
      | some s => exact handles_allocateWith hs _
  | materialize p data =>
      simp only [perform, reply, materialize]
      cases hs : r.store? p with
      | none => exact .refused _
      | some s =>
          simp only [Store.materialize, Noted.value_bind, Noted.value_pure]
          exact handles_allocateWith hs _
  | allocateCopy source => exact handles_copyInto _ source.pool source
  | allocateCopyInto p source => exact handles_copyInto _ p source
  | release a => exact handles_release a

end

/-! ### The invariant -/

/-- What ties the pools to the run. -/
structure Houses (r : Registry) (catalog : Catalog) (config : PoolConfig) (history : History) :
    Prop where
  sameCatalog : r.catalog = catalog
  sameConfig : r.config = config
  known : ∀ p s, r.pools.find? p = some s → catalog.find? s.behavior.id = some s.behavior
  inverse : Inverse r.pools r.byBehavior
  named : ∀ p s, r.pools.find? p = some s → p ∈ named history
  passed : ∀ p ∈ Registry.named history, p.raw < r.nextId
  addressed : ∀ x ∈ returned history, x.pool ∈ Registry.named history
  peopled : config.retireEmptyPools = true → ∀ x ∈ returned history, ∀ s,
    r.pools.find? x.pool = some s → s.isEmpty = false
  kept : config.retireEmptyPools = false → ∀ p ∈ Registry.named history, r.pools.find? p ≠ none

theorem houses_empty (catalog : Catalog) (config : PoolConfig) :
    (empty catalog config).Houses catalog config [] where
  sameCatalog := rfl
  sameConfig := rfl
  known _ _ h := by cases h
  inverse := inverse_empty
  named _ _ h := by cases h
  passed _ h := by cases h
  addressed _ h := by cases h
  peopled _ _ h := by cases h
  kept _ _ h := by cases h

namespace Houses

variable {r r' : Registry} {catalog : Catalog} {config : PoolConfig} {history : History}
  {q : RegistryRequest} {a : RegistryReply} {p : PoolId} {s : Store}

/-- A pool that is not opened yet has a number of its own. -/
theorem find?_nextId (h : r.Houses catalog config history) : r.pools.find? ⟨r.nextId⟩ = none := by
  cases hs : r.pools.find? ⟨r.nextId⟩ with
  | none => rfl
  | some s => exact absurd (h.passed _ (h.named _ s hs)) (UInt32.lt_irrefl _)

/-- A request that changes nothing and names no new pool. -/
theorem quiet (h : r.Houses catalog config history)
    (hpool : ∀ p, a.pool? = some p → p ∈ Registry.named history) (haddress : a.address? = none) :
    r.Houses catalog config ((q, a) :: history) := by
  have hnamed : ∀ p, p ∈ Registry.named ((q, a) :: history) ↔ p ∈ Registry.named history :=
    fun p => mem_named_cons.trans ⟨fun hp => hp.elim (hpool p) id, .inr⟩
  have hreturned : returned ((q, a) :: history) = returned history := by
    rw [returned_cons, haddress, Option.toList_none, List.nil_append]
  exact
    { sameCatalog := h.sameCatalog
      sameConfig := h.sameConfig
      known := h.known
      inverse := h.inverse
      named := fun p s hs => (hnamed p).2 (h.named p s hs)
      passed := fun p hp => h.passed p ((hnamed p).1 hp)
      addressed := fun x hx => (hnamed x.pool).2 (h.addressed x (hreturned ▸ hx))
      peopled := fun hretires x hx => h.peopled hretires x (hreturned ▸ hx)
      kept := fun hstays p hp => h.kept hstays p ((hnamed p).1 hp) }

/-- A pool is opened under the next number, for a behaviour that has none. -/
theorem opened (h : r.Houses catalog config history) {id : BehaviorId} {b : Behavior}
    (hb : r.catalog.find? id = some b) (hp : r.byBehavior.find? b = none)
    (counts : r.nextId ≤ r.nextId + 1) :
    (r.opened b).Houses catalog config ((q, .pool (some ⟨r.nextId⟩)) :: history) where
  sameCatalog := h.sameCatalog
  sameConfig := h.sameConfig
  known p s hs := by
    rcases Table.find?_insert_eq_some hs with ⟨-, rfl⟩ | ⟨-, hold⟩
    · rw [← h.sameCatalog, Store.empty, Catalog.id_of_find? hb]
      exact hb
    · exact h.known p s hold
  inverse := Inverse.insert (s := .empty b r.config.compactionRatio) h.inverse h.find?_nextId hp
  named p s hs := by
    rw [mem_named_cons]
    rcases Table.find?_insert_eq_some hs with ⟨rfl, -⟩ | ⟨-, hold⟩
    · exact .inl rfl
    · exact .inr (h.named p s hold)
  passed p hp := by
    have hlt := Counter.lt_next counts
    rcases mem_named_cons.1 hp with hnew | hold
    · rw [← Option.some.inj hnew]
      exact hlt
    · exact UInt32.lt_trans (h.passed p hold) hlt
  addressed x hx := mem_named_cons.2 (.inr (h.addressed x hx))
  peopled hretires x hx s hs := by
    rcases Table.find?_insert_eq_some hs with ⟨hnew, -⟩ | ⟨-, hold⟩
    · -- The number of the new pool is that of no earlier address.
      have hlt := h.passed x.pool (h.addressed x hx)
      rw [hnew] at hlt
      exact absurd hlt (UInt32.lt_irrefl _)
    · exact h.peopled hretires x hx s hold
  kept hstays p hp := by
    simp only [Registry.opened, Table.find?_insert]
    split
    · exact Option.some_ne_none _
    · next hne =>
      rcases mem_named_cons.1 hp with hnew | hold
      · exact absurd (Option.some.inj hnew).symm hne
      · exact h.kept hstays p hold

/-- A store is put back that is still of its behaviour and, if pools are dropped, not empty. -/
theorem put (h : r.Houses catalog config history) (hs : r.pools.find? p = some s) {t : Store}
    (same : t.behavior = s.behavior) (hpool : a.pool? = none)
    (haddress : ∀ x, a.address? = some x → x.pool = p)
    (more : config.retireEmptyPools = true → t.isEmpty = false) :
    (r.withStore p t).Houses catalog config ((q, a) :: history) := by
  have hnamed : ∀ p, p ∈ Registry.named ((q, a) :: history) ↔ p ∈ Registry.named history := by
    intro p
    rw [mem_named_cons, hpool]
    simp
  exact
    { sameCatalog := h.sameCatalog
      sameConfig := h.sameConfig
      known := fun p' s' hs' => by
        rcases Table.find?_insert_eq_some hs' with ⟨-, rfl⟩ | ⟨-, hold⟩
        · rw [same]
          exact h.known p s hs
        · exact h.known p' s' hold
      inverse := h.inverse.put hs same
      named := fun p' s' hs' => by
        rw [hnamed]
        rcases Table.find?_insert_eq_some hs' with ⟨rfl, -⟩ | ⟨-, hold⟩
        · exact h.named p' s hs
        · exact h.named p' s' hold
      passed := fun p' hp' => h.passed p' ((hnamed p').1 hp')
      addressed := fun x hx => by
        rw [hnamed]
        rcases mem_returned_cons.1 hx with hnew | hold
        · rw [haddress x hnew]
          exact h.named p s hs
        · exact h.addressed x hold
      peopled := fun hretires x hx s' hs' => by
        rcases Table.find?_insert_eq_some hs' with ⟨-, rfl⟩ | ⟨hne, hold⟩
        · exact more hretires
        · rcases mem_returned_cons.1 hx with hnew | hold'
          · exact absurd (haddress x hnew) hne
          · exact h.peopled hretires x hold' s' hold
      kept := fun hstays p' hp' => by
        rw [pools_withStore]
        split
        · exact Option.some_ne_none _
        · exact h.kept hstays p' ((hnamed p').1 hp') }

/-- A pool is dropped, which happens only where empty pools are. -/
theorem dropped (h : r.Houses catalog config history) {x : PackedAddress}
    (hs : r.pools.find? p = some s) (retires : r.config.retireEmptyPools = true) :
    (r.retired p s.behavior).Houses catalog config ((.release x, .flag true) :: history) where
  sameCatalog := h.sameCatalog
  sameConfig := h.sameConfig
  known p' s' hs' := h.known p' s' (pools_of_retired hs').2
  inverse := h.inverse.erase hs
  named p' s' hs' := h.named p' s' (pools_of_retired hs').2
  passed := h.passed
  addressed := h.addressed
  peopled hretires y hy s' hs' := h.peopled hretires y hy s' (pools_of_retired hs').2
  kept hstays := by
    rw [h.sameConfig, hstays] at retires
    cases retires

/-- **One request** keeps what ties the pools to the run. -/
theorem step (h : r.Houses catalog config history) (hc : r.Handles q a r')
    (counts : r.nextId ≤ r'.nextId) : r'.Houses catalog config ((q, a) :: history) := by
  cases hc with
  | unknown hb => exact h.quiet (fun p hp => by cases hp) rfl
  | @known id b p hb hp =>
      obtain ⟨s, hs, -⟩ := (h.inverse b p).1 hp
      refine h.quiet (fun p' hp' => ?_) rfl
      rw [← Option.some.inj hp']
      exact h.named p s hs
  | opened hb hp => exact h.opened hb hp counts
  | refused => exact h.quiet (fun p hp => by cases hp) rfl
  | missed => exact h.quiet (fun p hp => by cases hp) rfl
  | @taken _ p s t slot hs same live =>
      refine h.put hs same rfl (fun x hx => ?_) fun _ => ?_
      · rw [← Option.some.inj hx, PackedAddress.pool_pack]
      · have hsize : 0 < t.size := Table.size_pos_of_contains _ slot live
        exact beq_false_of_ne (Nat.ne_of_gt hsize)
  | left hs same more =>
      refine h.put hs same rfl (fun x hx => by cases hx) fun hretires => more ?_
      rw [h.sameConfig]
      exact hretires
  | dropped hs retires => exact h.dropped hs retires

end Houses

/-- **All requests**, by induction on the run. -/
theorem Served.houses {catalog : Catalog} {config : PoolConfig} {history : History} {r : Registry}
    (h : Served catalog config history r) : r.Houses catalog config history := by
  induction h with
  | start => exact houses_empty catalog config
  | step before q counts ih => exact ih.step (handles _ q) counts

/-! ### One pool for each -/

/-- What a registry owes to its pools and their behaviours after a run. -/
structure OnePoolEach (r : Registry) (catalog : Catalog) (config : PoolConfig)
    (history : History) : Prop where
  /-- The pool of a behaviour is the one that holds it, so there is no other. -/
  index : ∀ id p, r.poolFor id = some p ↔ ∃ s, r.store? p = some s ∧ s.behavior.id = id
  present : ∀ id p, r.poolFor id = some p → r.register id = pure (some p, r)
  /-- A pool is opened under a higher number than all before, and is the behaviour's from then
  on. -/
  opens : ∀ id, r.poolFor id = none → (catalog.find? id).isSome →
    ∃ p r', (r.register id).value = (some p, r') ∧ (∀ p' ∈ named history, p'.raw < p.raw) ∧
      r'.poolFor id = some p
  unknown : ∀ id, catalog.find? id = none → r.register id = pure (none, r)
  /-- Every pool was opened at the request for one. -/
  named : ∀ p, (r.store? p).isSome → p ∈ named history
  /-- Where empty pools are dropped, one that ever held an instance holds one still. -/
  retires : config.retireEmptyPools = true → ∀ x ∈ returned history, (r.store? x.pool).isSome →
    ∃ slot, r.contains (.pack x.pool slot) = true
  /-- Where they are not, every pool stays. -/
  stays : config.retireEmptyPools = false → ∀ p ∈ Registry.named history, (r.store? p).isSome

namespace Houses

variable {r : Registry} {catalog : Catalog} {config : PoolConfig} {history : History}

theorem poolFor_iff (h : r.Houses catalog config history) (id : BehaviorId) (p : PoolId) :
    r.poolFor id = some p ↔ ∃ s, r.store? p = some s ∧ s.behavior.id = id := by
  rw [poolFor, Option.bind_eq_bind, Option.bind_eq_some_iff]
  constructor
  · rintro ⟨b, hb, hp⟩
    obtain ⟨s, hs, rfl⟩ := (h.inverse b p).1 hp
    exact ⟨s, hs, Catalog.id_of_find? hb⟩
  · rintro ⟨s, hs, rfl⟩
    refine ⟨s.behavior, ?_, (h.inverse s.behavior p).2 ⟨s, hs, rfl⟩⟩
    rw [h.sameCatalog]
    exact h.known p s hs

theorem opens (h : r.Houses catalog config history) {id : BehaviorId} (hnone : r.poolFor id = none)
    (hknown : (catalog.find? id).isSome) :
    ∃ p r', (r.register id).value = (some p, r') ∧
      (∀ p' ∈ Registry.named history, p'.raw < p.raw) ∧ r'.poolFor id = some p := by
  obtain ⟨b, hb⟩ := Option.isSome_iff_exists.1 hknown
  rw [← h.sameCatalog] at hb
  have hp : r.byBehavior.find? b = none := by
    rw [poolFor, hb] at hnone
    exact hnone
  refine ⟨⟨r.nextId⟩, r.opened b, register_new hb hp, h.passed, ?_⟩
  rw [poolFor, Option.bind_eq_bind, Option.bind_eq_some_iff]
  exact ⟨b, hb, Table.find?_insert_self _ _ _⟩

theorem peopled_contains (h : r.Houses catalog config history)
    (hretires : config.retireEmptyPools = true) {x : PackedAddress} (hx : x ∈ returned history)
    (hstore : (r.store? x.pool).isSome) : ∃ slot, r.contains (.pack x.pool slot) = true := by
  obtain ⟨s, hs⟩ := Option.isSome_iff_exists.1 hstore
  have hsize : s.pool.index.size ≠ 0 := ne_of_beq_false (h.peopled hretires x hx s hs)
  obtain ⟨slot, hslot⟩ := Table.exists_contains hsize
  refine ⟨slot, ?_⟩
  rw [contains, PackedAddress.pool_pack, PackedAddress.slot_pack, hs]
  exact hslot

end Houses

/-- **One pool for each behaviour, always.** After every run of requests, whatever the catalog and
the settings of its pools, the index of behaviours and the table of pools are each other's inverse;
pools are opened under higher and higher numbers; and no pool is dropped but an empty one, where
empty pools are dropped. -/
theorem Served.one_pool_each {catalog : Catalog} {config : PoolConfig} {history : History}
    {r : Registry} (h : Served catalog config history r) :
    r.OnePoolEach catalog config history where
  index := h.houses.poolFor_iff
  present id p hp := by
    rw [poolFor, Option.bind_eq_bind, Option.bind_eq_some_iff] at hp
    obtain ⟨b, hb, hp⟩ := hp
    exact register_present hb hp
  opens _ hnone hknown := h.houses.opens hnone hknown
  unknown id hid := register_unknown (h.houses.sameCatalog.symm ▸ hid)
  named p hp := by
    obtain ⟨s, hs⟩ := Option.isSome_iff_exists.1 hp
    exact h.houses.named p s hs
  retires hretires _ hx hstore := h.houses.peopled_contains hretires hx hstore
  stays hstays p hp := Option.isSome_iff_ne_none.2 (h.houses.kept hstays p hp)

end

/-- Two behaviours take turns: one pool is emptied while the other is in use, and its behaviour is
asked for again. -/
def turns : List RegistryRequest :=
  [.allocate ⟨3⟩, .register Behavior.constantInt.id, .release (.pack ⟨1⟩ ⟨1⟩),
    .allocateCopyInto ⟨1⟩ (.pack ⟨2⟩ ⟨1⟩), .allocate ⟨2⟩, .register Behavior.constantText.id,
    .register ⟨"Missing"⟩, .register Behavior.constantInt.id, .allocate ⟨1⟩,
    .register Behavior.constantInt.id]

/-- With empty pools dropped, so that the behaviour gets a pool of another number. -/
theorem Served.one_pool_each_turns :
    Served .full ⟨2, true⟩ (recorded .full ⟨2, true⟩ turns).1 (recorded .full ⟨2, true⟩ turns).2 ∧
      (recorded .full ⟨2, true⟩ turns).2.OnePoolEach .full ⟨2, true⟩
        (recorded .full ⟨2, true⟩ turns).1 := by
  have hserved := (ran_recorded .full ⟨2, true⟩ turns (by decide)).1.served
  exact ⟨hserved, hserved.one_pool_each⟩

end Registry

end FlowGraph
