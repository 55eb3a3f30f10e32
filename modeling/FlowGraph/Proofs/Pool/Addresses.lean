import FlowGraph.Proofs.Pool.Changes
import FlowGraph.Stock.Repertoire

/-!
# Addresses for life

An address that a registry hands out stands for one instance, from then on until it is taken back,
and for nothing ever after. Pools may be compacted on the way; they may be dropped and opened
again under another number; what lies behind a live address is not touched by any of this.

* `Registry.Ran` — runs of requests, with what was asked and replied.
* `Registry.returned`, `Registry.released` — the addresses handed out and taken back in a run.
* `Registry.Remembers` — the invariant that ties a registry to its run; `Remembers.step` keeps it.
* `Registry.ran_recorded` — no counter starts over in a run of ordinary length.
* `Registry.Ran.acts_as_map` — what a registry says is what a map with this history would say.
-/

namespace FlowGraph.Registry

/-! ### Runs -/

/-- What was asked of a registry and what it replied, the last request first. -/
abbrev History := List (RegistryRequest × RegistryReply)

/-- The addresses that were handed out. -/
def returned (history : History) : List PackedAddress := history.filterMap fun x => x.2.address?

/-- The addresses that were taken back. -/
def released (history : History) : List PackedAddress := history.filterMap fun x => x.1.gone? x.2

theorem returned_cons (q : RegistryRequest) (a : RegistryReply) (history : History) :
    returned ((q, a) :: history) = a.address?.toList ++ returned history := by
  unfold returned
  rw [List.filterMap_cons]
  cases a.address? <;> rfl

theorem released_cons (q : RegistryRequest) (a : RegistryReply) (history : History) :
    released ((q, a) :: history) = (q.gone? a).toList ++ released history := by
  unfold released
  rw [List.filterMap_cons]
  cases q.gone? a <;> rfl

theorem mem_returned_cons {q : RegistryRequest} {a : RegistryReply} {history : History}
    {x : PackedAddress} :
    x ∈ returned ((q, a) :: history) ↔ a.address? = some x ∨ x ∈ returned history := by
  rw [returned_cons, List.mem_append, Option.mem_toList]

theorem mem_released_cons {q : RegistryRequest} {a : RegistryReply} {history : History}
    {x : PackedAddress} :
    x ∈ released ((q, a) :: history) ↔ q.gone? a = some x ∨ x ∈ released history := by
  rw [released_cons, List.mem_append, Option.mem_toList]

section

variable [Repertoire]

/-- Runs of requests put to a registry that starts out empty. A request that makes a counter start
over is an arithmetic overflow, and the run ends there. -/
inductive Ran (catalog : Catalog) (config : PoolConfig) : History → Registry → Prop
  | start : Ran catalog config [] (.empty catalog config)
  | step {history : History} {r : Registry} (before : Ran catalog config history r)
      (q : RegistryRequest) (counts : r.Onward (r.perform q).2) :
      Ran catalog config ((q, (r.perform q).1) :: history) (r.perform q).2

/-! ### The invariant -/

/-- What ties a registry to its run. -/
structure Remembers (r : Registry) (history : History) : Prop where
  sound : r.Sound
  spent : ∀ x ∈ returned history, r.Spent x
  valid : ∀ x ∈ returned history, x.isValid = true
  distinct : (returned history).Nodup
  owned : ∀ x ∈ released history, x ∈ returned history
  live : ∀ x, r.find? x ≠ none ↔ x ∈ returned history ∧ x ∉ released history

theorem remembers_empty (catalog : Catalog) (config : PoolConfig) :
    (empty catalog config).Remembers [] where
  sound := sound_empty catalog config
  spent _ h := by cases h
  valid _ h := by cases h
  distinct := List.nodup_nil
  owned _ h := by cases h
  live x := by
    rw [find?_empty]
    exact ⟨fun h => absurd rfl h, fun h => by cases h.1⟩

section

variable {r r' : Registry} {history : History} {q : RegistryRequest} {a : RegistryReply}

/-- What is handed out was not handed out before. -/
theorem Remembers.fresh (h : r.Remembers history) (hc : r.Change q a r') (ho : r.Onward r')
    {x : PackedAddress} (hx : a.address? = some x) : x ∉ returned history := fun hmem =>
  (h.sound.spent_of_address hc ho hx).1 (h.spent x hmem)

/-- What a request does not hand out or take back is as live as before; what it hands out is live,
and what it takes back is not. -/
theorem Remembers.live_step (h : r.Remembers history) (hc : r.Change q a r') (ho : r.Onward r')
    (x : PackedAddress) :
    r'.find? x ≠ none ↔ x ∈ returned ((q, a) :: history) ∧ x ∉ released ((q, a) :: history) := by
  rw [h.sound.find?_change hc, mem_returned_cons, mem_released_cons]
  by_cases hnew : a.address? = some x
  · have hgiven : (r.given? q).map Prod.snd ≠ none := by
      have hsome := hc.isSome_address?
      rw [hnew] at hsome
      cases hg : r.given? q with
      | none => rw [hg] at hsome; cases hsome
      | some y => exact Option.some_ne_none _
    have hfresh := h.fresh hc ho hnew
    have hgone : q.gone? a ≠ some x := by
      intro hgone
      exact hfresh ((h.live x).1 (hc.found_of_gone hgone)).1
    have hrel : x ∉ released history := fun hrel => hfresh (h.owned x hrel)
    simp [hnew, hgiven, hgone, hrel]
  · by_cases hgone : q.gone? a = some x
    · simp [hnew, hgone]
    · simp [hnew, hgone, h.live x]

/-- **One step.** -/
theorem Remembers.step (h : r.Remembers history) (hc : r.Change q a r') (ho : r.Onward r') :
    r'.Remembers ((q, a) :: history) where
  sound := h.sound.change hc ho
  spent x hx := by
    rcases mem_returned_cons.1 hx with hnew | hold
    · exact (h.sound.spent_of_address hc ho hnew).2
    · exact (h.spent x hold).change hc ho
  valid x hx := by
    rcases mem_returned_cons.1 hx with hnew | hold
    · exact (h.sound.fresh_of_address hc hnew (h.sound.hasRoom x.pool)).1
    · exact h.valid x hold
  distinct := by
    rw [returned_cons]
    cases hx : a.address? with
    | none => exact h.distinct
    | some x => exact List.nodup_cons.2 ⟨h.fresh hc ho hx, h.distinct⟩
  owned x hx := by
    rcases mem_released_cons.1 hx with hgone | hold
    · exact mem_returned_cons.2 (.inr ((h.live x).1 (hc.found_of_gone hgone)).1)
    · exact mem_returned_cons.2 (.inr (h.owned x hold))
  live := h.live_step hc ho

end

/-- **All steps**, by induction on the run. -/
theorem Ran.remembers {catalog : Catalog} {config : PoolConfig} {history : History} {r : Registry}
    (h : Ran catalog config history r) : r.Remembers history := by
  induction h with
  | start => exact remembers_empty catalog config
  | step before q counts ih => exact ih.step (ih.sound.changes q) counts

/-- What a new registry replies to requests, the last request first, and the registry afterwards. -/
def recorded (catalog : Catalog) (config : PoolConfig) : List RegistryRequest → History × Registry
  | [] => ([], .empty catalog config)
  | q :: qs =>
    let x := recorded catalog config qs
    ((q, (x.2.perform q).1) :: x.1, (x.2.perform q).2)

/-- **Runs of any ordinary length.** No counter starts over within fewer than `2 ^ 32 - 1` requests,
whatever they are. -/
theorem ran_recorded (catalog : Catalog) (config : PoolConfig) (qs : List RegistryRequest)
    (hlen : qs.length + 1 < 2 ^ 32) :
    Ran catalog config (recorded catalog config qs).1 (recorded catalog config qs).2 ∧
      (recorded catalog config qs).2.Within (qs.length + 1) (qs.length + 1) := by
  induction qs with
  | nil => exact ⟨.start, within_empty catalog config⟩
  | cons q qs ih =>
      rw [List.length_cons] at hlen
      obtain ⟨hran, hwithin⟩ := ih (by omega)
      have hsound := hran.remembers.sound
      obtain ⟨honward, hnext⟩ :=
        hsound.onward_change hwithin (by omega) (hsound.changes q)
      exact ⟨hran.step q honward, hnext⟩

/-! ### How many instances there are -/

/-- The live addresses, pool by pool. -/
def addresses (r : Registry) : List PackedAddress :=
  r.pools.bindings.flatMap fun b => b.2.pool.ids.map (PackedAddress.pack b.1)

section

variable {r : Registry}

theorem WellFormed.mem_addresses_iff (h : r.WellFormed) (x : PackedAddress) :
    x ∈ r.addresses ↔ r.find? x ≠ none := by
  simp only [addresses, List.mem_flatMap, List.mem_map, ← Option.isSome_iff_ne_none]
  constructor
  · rintro ⟨⟨p, s⟩, hmem, id, hid, rfl⟩
    have hs := (r.pools.mem_bindings_iff p s).1 hmem
    rw [find?_of_store (s := s) (by rw [PackedAddress.pool_pack, hs]), PackedAddress.slot_pack]
    exact ((h.pools p s hs).mem_ids_iff id).1 hid
  · intro hx
    cases hs : r.pools.find? x.pool with
    | none =>
        rw [find?_of_missing hs] at hx
        cases hx
    | some s =>
        rw [find?_of_store hs] at hx
        exact ⟨(x.pool, s), (r.pools.mem_bindings_iff _ _).2 hs, x.slot,
          ((h.pools _ s hs).mem_ids_iff _).2 hx, PackedAddress.pack_pool_slot x⟩

theorem WellFormed.nodup_addresses (h : r.WellFormed) : r.addresses.Nodup := by
  refine List.pairwise_flatMap.2 ⟨fun b hb => ?_, ?_⟩
  · have hids := (h.pools b.1 b.2 ((r.pools.mem_bindings_iff _ _).1 hb)).nodup_ids
    refine List.Pairwise.map (PackedAddress.pack b.1) (fun x y hne heq => hne ?_) hids
    exact ((PackedAddress.eq_pack_iff _ _ _).1 heq).2 ▸ (PackedAddress.slot_pack b.1 x).symm
  · -- Addresses in different pools differ already in their upper halves.
    refine List.Pairwise.imp (fun {b c} hne x hx y hy heq => hne ?_)
      (List.pairwise_map.1 r.pools.keysNodup)
    obtain ⟨m, -, rfl⟩ := List.mem_map.1 hx
    obtain ⟨n, -, rfl⟩ := List.mem_map.1 hy
    have hpool := ((PackedAddress.eq_pack_iff _ _ _).1 heq).1
    rwa [PackedAddress.pool_pack] at hpool

theorem WellFormed.length_addresses (h : r.WellFormed) : r.addresses.length = r.instanceCount := by
  unfold addresses instanceCount Table.values
  rw [List.length_flatMap, List.map_map]
  refine congrArg List.sum (List.map_congr_left fun b hb => ?_)
  have hpool := h.pools b.1 b.2 ((r.pools.mem_bindings_iff _ _).1 hb)
  rw [List.length_map, Pool.ids_eq, List.length_map, hpool.length_live]
  rfl

/-- What is counted are the addresses that were handed out and not taken back. -/
theorem Remembers.instanceCount_eq {history : History} (h : r.Remembers history) :
    r.instanceCount = ((returned history).filter fun x => x ∉ released history).length := by
  have hperm : r.addresses.Perm ((returned history).filter fun x => x ∉ released history) := by
    refine (List.perm_ext_iff_of_nodup h.sound.wellFormed.nodup_addresses
      (h.distinct.sublist List.filter_sublist)).2 fun x => ?_
    rw [h.sound.wellFormed.mem_addresses_iff, h.live, List.mem_filter, decide_eq_true_iff]
  rw [← h.sound.wellFormed.length_addresses, hperm.length_eq]

end

/-! ### The map -/

/-- What is due to a request that is put to a registry after a run. -/
structure Answers (r : Registry) (history : History) (q : RegistryRequest) : Prop where
  /-- A known behaviour has a pool from then on, and this is what is replied. -/
  registers : ∀ id, q = .register id →
    match r.catalog.find? id with
    | none => (r.perform q).1 = .pool none
    | some b => ∃ p s, (r.perform q).1 = .pool (some p) ∧ (r.perform q).2.store? p = some s ∧
        s.behavior = b
  /-- An address is handed out exactly if there is something for it to hold. -/
  allocates : (r.perform q).1.address?.isSome = (r.given? q).isSome
  /-- It is valid, was not handed out before, and holds what it was given. -/
  fresh : ∀ x, (r.perform q).1.address? = some x →
    x.isValid = true ∧ x ∉ returned history ∧ (r.perform q).2.behind? x = r.given? q
  /-- A release tells whether the address was live. -/
  releases : ∀ x, q = .release x → (r.perform q).1 = .flag (r.resolve x).isSome
  /-- Behind every other live address are the behaviour and the data that were there before. -/
  steady : ∀ x, (r.resolve x).isSome → q ≠ .release x →
    (r.perform q).2.behind? x = r.behind? x

/-- A registry behaves as the map from addresses to instances that its history amounts to. -/
structure ActsAsMap (r : Registry) (history : History) : Prop where
  valid : ∀ x ∈ returned history, x.isValid = true
  distinct : (returned history).Nodup
  /-- An address resolves if it was handed out and not yet taken back, and never again after. -/
  resolves : ∀ x, (r.resolve x).isSome ↔ x ∈ returned history ∧ x ∉ released history
  contains : ∀ x, r.contains x = (r.resolve x).isSome
  count : r.instanceCount = ((returned history).filter fun x => x ∉ released history).length
  /-- So it is answered, whatever is asked next. -/
  answers : ∀ q, r.Onward (r.perform q).2 → r.Answers history q

section

variable {r r' : Registry} {history : History} {q : RegistryRequest} {a : RegistryReply}

theorem Remembers.resolves (h : r.Remembers history) (x : PackedAddress) :
    (r.resolve x).isSome ↔ x ∈ returned history ∧ x ∉ released history := by
  rw [h.sound.wellFormed.isSome_resolve, Option.isSome_iff_ne_none, h.live]

/-- What is handed out holds what it was given. -/
theorem Remembers.behind?_new (h : r.Remembers history) (hc : r.Change q a r') (ho : r.Onward r')
    {x : PackedAddress} (hx : a.address? = some x) : r'.behind? x = r.given? q := by
  rw [(h.sound.change hc ho).behind?_eq, h.sound.find?_change hc, if_pos hx]
  cases hg : r.given? q with
  | none => rfl
  | some y =>
      have hb := h.sound.behavior_of_given (b := y.1) (i := y.2) hg
      simp only [Option.map_some, hb]

theorem Remembers.behind?_other (h : r.Remembers history) (hc : r.Change q a r')
    (ho : r.Onward r') {x : PackedAddress} (hlive : (r.resolve x).isSome) (hq : q ≠ .release x) :
    r'.behind? x = r.behind? x := by
  have hold : a.address? ≠ some x := fun hx => h.fresh hc ho hx ((h.resolves x).1 hlive).1
  have hkept : q.gone? a ≠ some x := fun hx => hq (eq_release_of_gone hx)
  rw [(h.sound.change hc ho).behind?_eq, h.sound.behind?_eq,
    h.sound.find?_change hc, if_neg hold, if_neg hkept]

theorem Remembers.pool_eq (h : r.Remembers history) {id : BehaviorId}
    (hc : r.Change (.register id) a r') :
    match r.catalog.find? id with
    | none => a = .pool none
    | some b => ∃ p s, a = .pool (some p) ∧ r'.store? p = some s ∧ s.behavior = b := by
  cases hc with
  | idle hidle =>
      cases hidle with
      | unknown hb => rw [hb]
      | @known _ b p hb hp =>
          obtain ⟨s, hs, hsb⟩ := (h.sound.wellFormed.own b p).1 hp
          rw [hb]
          exact ⟨p, s, rfl, hs, hsb⟩
      | refused asks given => cases asks
  | @opened _ b hb hp =>
      rw [hb]
      exact ⟨⟨r.nextId⟩, .empty b r.config.compactionRatio, rfl, Table.find?_insert_self _ _ _, rfl⟩
  | added hs given => cases given

theorem Remembers.flag_eq (h : r.Remembers history) {x : PackedAddress}
    (hc : r.Change (.release x) a r') : a = .flag (r.resolve x).isSome := by
  rw [h.sound.wellFormed.isSome_resolve]
  cases hc with
  | idle hidle =>
      cases hidle with
      | refused asks given => cases asks
      | missed absent => rw [absent]; rfl
  | added hs given => cases given
  | vacated hs found => rw [Option.isSome_iff_ne_none.2 found]
  | retired hs found last => rw [Option.isSome_iff_ne_none.2 found]

theorem Remembers.answers (h : r.Remembers history) (q : RegistryRequest)
    (ho : r.Onward (r.perform q).2) : r.Answers history q where
  registers id hq := by
    subst hq
    exact h.pool_eq (h.sound.changes (.register id))
  allocates := (h.sound.changes q).isSome_address?
  fresh x hx :=
    ⟨(h.sound.fresh_of_address (h.sound.changes q) hx (h.sound.hasRoom x.pool)).1,
      h.fresh (h.sound.changes q) ho hx,
      h.behind?_new (h.sound.changes q) ho hx⟩
  releases x hq := by
    subst hq
    exact h.flag_eq (h.sound.changes (.release x))
  steady x hlive hq := h.behind?_other (h.sound.changes q) ho hlive hq

end

/-- **Addresses identify one instance for life.** After every run of requests, whatever the catalog
and the settings of its pools, a registry behaves as a map from addresses to instances: it resolves
what it handed out and has not taken back, what it hands out next was never handed out before, and
no request touches what lies behind another live address. -/
theorem Ran.acts_as_map {catalog : Catalog} {config : PoolConfig} {history : History}
    {r : Registry} (h : Ran catalog config history r) : r.ActsAsMap history where
  valid := h.remembers.valid
  distinct := h.remembers.distinct
  resolves := h.remembers.resolves
  contains := r.contains_eq
  count := h.remembers.instanceCount_eq
  answers := h.remembers.answers

end

/-- A pool is opened, emptied and opened again under another number; copies are made in it, and what
was released is asked for again. -/
def tenancy : List RegistryRequest :=
  [.release (.pack ⟨1⟩ ⟨1⟩), .allocateCopyInto ⟨2⟩ (.pack ⟨2⟩ ⟨1⟩), .allocateCopy (.pack ⟨2⟩ ⟨1⟩),
    .allocateCopy (.pack ⟨1⟩ ⟨1⟩), .materialize ⟨2⟩ (.int 7), .allocate ⟨1⟩,
    .register Behavior.constantInt.id, .release (.pack ⟨1⟩ ⟨1⟩), .allocate ⟨1⟩,
    .register Behavior.constantInt.id]

/-- With empty pools dropped, and a ratio that is no number. -/
theorem Ran.acts_as_map_tenancy :
    Ran .full ⟨0 / 0, true⟩ (recorded .full ⟨0 / 0, true⟩ tenancy).1
        (recorded .full ⟨0 / 0, true⟩ tenancy).2 ∧
      (recorded .full ⟨0 / 0, true⟩ tenancy).2.ActsAsMap
        (recorded .full ⟨0 / 0, true⟩ tenancy).1 := by
  have hran := (ran_recorded .full ⟨0 / 0, true⟩ tenancy (by decide)).1
  exact ⟨hran, hran.acts_as_map⟩

end FlowGraph.Registry
