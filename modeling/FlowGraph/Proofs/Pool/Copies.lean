import FlowGraph.Proofs.Pool.Addresses
import FlowGraph.Proofs.Pool.Reached

/-!
# Copies

A copy is made of an instance that is live, in the pool of that instance and nowhere else: there is
one pool for each behaviour, so any other is of another behaviour and turns the copy away. What is
turned away leaves nothing behind. The copy is an instance of its own. It starts out with all that
its source holds at that moment, counts included, and from then on each of the two is what is made
of it alone.

Instances change while a graph runs, so what happens to a registry here are requests and changes.
The counters of slots may start over.

* `Registry.Event`, `Registry.Leads` — what happens to a registry, and where it leads.
* `Registry.Leads.inUse` — all that happens leaves a registry in use.
* `Registry.Leads.find?_eq` — an instance stays as it is until it is changed or released itself.
* `Registry.Leads.remembers` — in a run of ordinary length, no address is handed out twice.
* `Registry.Consistent.copy_cases` — all that a request for a copy can do.
* `Registry.Leads.copies_within_pool` — so it is after all that can have happened.
-/

namespace FlowGraph.Registry

section

variable [Repertoire] {r r' : Registry}

/-! ### Events -/

/-- What can happen to a registry: it replies to a request, or one of its instances changes. -/
inductive Event
  | asked (q : RegistryRequest) (a : RegistryReply)
  | changed (a : PackedAddress)

/-- The request and the reply of an event. -/
def Event.request? : Event → Option (RegistryRequest × RegistryReply)
  | .asked q a => some (q, a)
  | .changed _ => none

/-- Whether an event is about the instance at an address, which it changes or releases. -/
def Event.Touches (x : PackedAddress) : Event → Prop
  | .asked q _ => q = .release x
  | .changed a => a = x

/-- The requests among the events. -/
def requests (es : List Event) : History := es.filterMap Event.request?

/-- What happens to a registry, the last event first, and the registry afterwards. A request that
makes the counter of pools start over is an arithmetic overflow, and one for an id of a pool all of
whose ids are live finds none for ever: the run ends there. An instance keeps its behaviour. -/
inductive Leads (r : Registry) : List Event → Registry → Prop
  | start : Leads r [] r
  | asked {es : List Event} {r' : Registry} (before : Leads r es r') (q : RegistryRequest)
      (counts : r'.nextId ≤ (r'.perform q).2.nextId)
      (room : ∀ x, (r'.perform q).1.address? = some x → r'.HasRoom x.pool) :
      Leads r (.asked q (r'.perform q).1 :: es) (r'.perform q).2
  | changed {es : List Event} {r' : Registry} (before : Leads r es r') (a : PackedAddress)
      (f : Instance → Instance) (same : ∀ i, (f i).behavior = i.behavior) :
      Leads r (.changed a :: es) (r'.modify a f)

/-! ### Runs -/

section

variable {es : List Event}

/-- **All that happens**, by induction on the events. -/
theorem Leads.inUse (h : r.Leads es r') (hr : r.InUse) : r'.InUse := by
  induction h with
  | start => exact hr
  | asked before q counts room ih => exact ih.change (ih.changes q) counts room
  | changed before a f same ih => exact ih.modify a same

/-- **An instance of its own.** Whatever happens to a registry, what is at a live address stays
there as it is, as long as it is not itself changed or released. -/
theorem Leads.find?_eq (h : r.Leads es r') (hr : r.InUse) {x : PackedAddress}
    (hx : r.find? x ≠ none) (hes : ∀ e ∈ es, ¬ e.Touches x) : r'.find? x = r.find? x := by
  induction h with
  | start => rfl
  | @asked es r' before q counts room ih =>
      have hsame := ih fun e he => hes e (List.mem_cons_of_mem _ he)
      have hin := before.inUse hr
      have hc := hin.changes q
      have hold : (r'.perform q).1.address? ≠ some x := by
        intro hnew
        have hfresh := (hin.fresh_of_address hc hnew (room x hnew)).2
        rw [hsame] at hfresh
        exact hx hfresh
      have hkept : q.gone? (r'.perform q).1 ≠ some x := fun hgone =>
        hes _ List.mem_cons_self (eq_release_of_gone hgone)
      rw [hin.find?_change hc, if_neg hold, if_neg hkept, hsame]
  | changed before a f same ih =>
      have hsame := ih fun e he => hes e (List.mem_cons_of_mem _ he)
      have hne : x ≠ a := fun heq => hes _ List.mem_cons_self heq.symm
      rw [(before.inUse hr).wellFormed.find?_modify, if_neg hne, hsame]

end

/-! ### Addresses that were handed out -/

section

variable {history : History} {es : List Event}

/-- A change of an instance is no event in the life of an address. -/
theorem Remembers.modify (h : r.Remembers history) (a : PackedAddress) {f : Instance → Instance}
    (hf : ∀ i, (f i).behavior = i.behavior) : (r.modify a f).Remembers history where
  sound := h.sound.modify a hf
  spent x hx := by
    refine ⟨(h.spent x hx).pool, fun t ht => ?_⟩
    obtain ⟨s, hs, rfl | rfl⟩ := pools_of_modify ht
    · exact (h.spent x hx).slot _ hs
    · rw [Store.modify, (s.pool.modify_rest a.slot f).2.1]
      exact (h.spent x hx).slot s hs
  valid := h.valid
  distinct := h.distinct
  owned := h.owned
  live x := by
    rw [← h.live x, h.sound.wellFormed.find?_modify]
    split
    · rw [ne_eq, Option.map_eq_none_iff]
    · rfl

theorem Within.modify {pools slots : Nat} (hw : r.Within pools slots) (a : PackedAddress)
    (f : Instance → Instance) : (r.modify a f).Within pools slots where
  pools := hw.pools
  slots q u hu := by
    obtain ⟨s, hs, rfl | rfl⟩ := pools_of_modify hu
    · exact hw.slots q _ hs
    · obtain ⟨hasc, hle⟩ := hw.slots q s hs
      refine ⟨hasc.modify a.slot f, ?_⟩
      rw [Store.modify, (s.pool.modify_rest a.slot f).2.1]
      exact hle

/-- **Runs of any ordinary length.** Before `2 ^ 32 - 1` events have happened, no counter has
started over, and the registry remembers what it handed out. -/
theorem Leads.remembers {catalog : Catalog} {config : PoolConfig}
    (h : (empty catalog config).Leads es r) (few : es.length + 1 < 2 ^ 32) :
    r.Remembers (requests es) ∧ r.Within (es.length + 1) (es.length + 1) := by
  induction h with
  | start => exact ⟨remembers_empty catalog config, within_empty catalog config⟩
  | asked before q counts room ih =>
      rw [List.length_cons] at few
      obtain ⟨hremembers, hwithin⟩ := ih (by omega)
      have hc := hremembers.sound.changes q
      obtain ⟨honward, hnext⟩ := hremembers.sound.onward_change hwithin (by omega) hc
      exact ⟨hremembers.step hc honward, hnext⟩
  | changed before a f same ih =>
      rw [List.length_cons] at few
      obtain ⟨hremembers, hwithin⟩ := ih (by omega)
      refine ⟨hremembers.modify a same, ?_⟩
      exact (hwithin.modify a f).mono (Nat.le_succ _) (Nat.le_succ _)

/-- In such a run, whatever is asked next is replied to. -/
theorem Leads.asked_early {catalog : Catalog} {config : PoolConfig}
    (h : (empty catalog config).Leads es r) (few : es.length + 2 < 2 ^ 32) (q : RegistryRequest) :
    (empty catalog config).Leads (.asked q (r.perform q).1 :: es) (r.perform q).2 := by
  obtain ⟨hremembers, hwithin⟩ := h.remembers (Nat.lt_of_succ_lt few)
  have hc := hremembers.sound.changes q
  refine h.asked q (hremembers.sound.onward_change hwithin few hc).1.pools fun x _ s hs => ?_
  exact (hwithin.slots _ s hs).1.hasRoom (hremembers.sound.wellFormed.pools _ s hs)

end

/-! ### Copies -/

section

variable {p : PoolId} {source x : PackedAddress} {es : List Event}

/-- **All that a request for a copy can do.** An instance is copied into its own pool. Of one that
is not there, or into any other pool, no copy is made, and the registry is the one it was. -/
theorem Consistent.copy_cases (h : r.Consistent) (p : PoolId) (source : PackedAddress) :
    (p = source.pool ∧ ∃ s i, r.pools.find? p = some s ∧ r.find? source = some i ∧
      (r.allocateCopyInto p source).value = (some (.pack p s.pool.freshId), r.added p s i)) ∨
    (¬ (p = source.pool ∧ r.find? source ≠ none) ∧
      (r.allocateCopyInto p source).value = (none, r)) := by
  unfold allocateCopyInto
  cases hi : r.find? source with
  | none => exact .inr ⟨fun hboth => hboth.2 rfl, rfl⟩
  | some i =>
      cases ht : r.pools.find? source.pool with
      | none =>
          rw [find?_of_missing ht] at hi
          cases hi
      | some t =>
          have hheld : t.pool.find? source.slot = some i := by rw [← find?_of_store ht, hi]
          have hown : i.behavior = t.behavior := (h.stores _ t ht).held _ i hheld
          cases hs : r.store? p with
          | none =>
              refine .inr ⟨fun hboth => ?_, rfl⟩
              rw [hboth.1, store?, ht] at hs
              cases hs
          | some s =>
              simp only [Store.allocateCopy]
              by_cases hb : i.behavior = s.behavior
              · -- There is one pool for each behaviour.
                have hp : p = source.pool := by
                  have hindex := (h.wellFormed.own s.behavior p).2 ⟨s, hs, rfl⟩
                  have hsource := (h.wellFormed.own t.behavior source.pool).2 ⟨t, ht, rfl⟩
                  rw [← hb, hown, hsource] at hindex
                  exact (Option.some.inj hindex).symm
                rw [if_pos hb, Store.allocateWith_eq]
                exact .inl ⟨hp, s, i, hs, rfl, rfl⟩
              · rw [if_neg hb]
                refine .inr ⟨fun hboth => hb ?_, rfl⟩
                rw [hboth.1, store?, ht] at hs
                rw [hown, Option.some.inj hs]

/-- What a copy of an instance is, when it was made after certain events. -/
structure Copied (r r' : Registry) (es : List Event) (source x : PackedAddress) : Prop where
  /-- It has an address of its own in the pool of its source. -/
  pool : x.pool = source.pool
  valid : x.isValid = true
  fresh : r.find? x = none
  /-- Unless a counter may have started over, the address was never handed out before. -/
  unseen : es.length + 2 < 2 ^ 32 → x ∉ returned (requests es)
  /-- It holds what its source holds, and no other address notices. -/
  find?_eq : ∀ y, r'.find? y = if y = x then r.find? source else r.find? y
  /-- Whatever happens later, each of the two stays as it is until it is itself changed or
  released. -/
  apart : ∀ later r'', r'.Leads later r'' → ∀ y, y = x ∨ y = source →
    (∀ e ∈ later, ¬ e.Touches y) → r''.find? y = r.find? source

/-- What is due to a request for a copy after certain events. -/
structure Copies (r : Registry) (es : List Event) (p : PoolId) (source : PackedAddress) : Prop where
  /-- Into a pool, exactly the live instances of that pool are copied. -/
  succeeds : (r.allocateCopyInto p source).value.1.isSome ↔
    (r.find? source).isSome ∧ p = source.pool
  /-- Without naming a pool, exactly the live instances are. -/
  succeedsOwn : (r.allocateCopy source).value.1.isSome ↔ (r.find? source).isSome
  own : r.allocateCopy source = r.allocateCopyInto source.pool source
  /-- A copy that is made, is one; for this an id must be left. -/
  copied : ∀ x, (r.allocateCopyInto p source).value.1 = some x → r.HasRoom p →
    r.Copied (r.allocateCopyInto p source).value.2 es source x
  /-- One that is not leaves no trace. -/
  traceless : (r.allocateCopyInto p source).value.1 = none →
    (r.allocateCopyInto p source).value.2 = r

theorem Consistent.copy_succeeds (h : r.Consistent) (p : PoolId) (source : PackedAddress) :
    (r.allocateCopyInto p source).value.1.isSome ↔ (r.find? source).isSome ∧ p = source.pool := by
  rcases h.copy_cases p source with ⟨hp, s, i, -, hi, hr⟩ | ⟨hnot, hr⟩
  · rw [hr, hi]
    exact iff_of_true rfl ⟨rfl, hp⟩
  · rw [hr]
    refine iff_of_false Bool.false_ne_true fun hboth => hnot ⟨hboth.2, ?_⟩
    exact Option.isSome_iff_ne_none.1 hboth.1

/-- A copy that was made, is one. -/
theorem Leads.copied {catalog : Catalog} {config : PoolConfig} {s : Store} {i : Instance}
    (h : (empty catalog config).Leads es r) (hs : r.pools.find? source.pool = some s)
    (hi : r.find? source = some i) (hroom : r.HasRoom source.pool)
    (hr : (r.allocateCopyInto source.pool source).value
      = (some (.pack source.pool s.pool.freshId), r.added source.pool s i)) :
    r.Copied (r.added source.pool s i) es source (.pack source.pool s.pool.freshId) := by
  have hin := h.inUse (sound_empty catalog config).toInUse
  have hc := hin.changes (.allocateCopyInto source.pool source)
  simp only [perform, reply, hr] at hc
  have hpool : (PackedAddress.pack source.pool s.pool.freshId).pool = source.pool :=
    PackedAddress.pool_pack _ _
  obtain ⟨hvalid, hfresh⟩ := hin.fresh_of_address hc rfl (hpool.symm ▸ hroom)
  have hfind : ∀ y, (r.added source.pool s i).find? y
      = if y = .pack source.pool s.pool.freshId then r.find? source else r.find? y := by
    intro y
    rw [hin.wellFormed.find?_added hs, hi]
  refine
    { pool := hpool, valid := hvalid, fresh := hfresh, unseen := fun few => ?_, find?_eq := hfind
      apart := fun later r'' hlater y hy hthen => ?_ }
  · obtain ⟨hremembers, hwithin⟩ := h.remembers (Nat.lt_of_succ_lt few)
    exact hremembers.fresh hc (hremembers.sound.onward_change hwithin few hc).1 rfl
  · -- The address of the copy is not that of its source, where there was an instance before.
    have hne : source ≠ .pack source.pool s.pool.freshId := by
      intro heq
      rw [← heq, hi] at hfresh
      cases hfresh
    have hnow : (r.added source.pool s i).find? y = r.find? source := by
      rcases hy with rfl | rfl
      · rw [hfind, if_pos rfl]
      · rw [hfind, if_neg hne]
    have hin' := hin.change hc (UInt32.le_refl _) fun x hx => by
      rw [← Option.some.inj hx, hpool]
      exact hroom
    rw [hlater.find?_eq hin' (by rw [hnow, hi]; exact Option.some_ne_none i) hthen, hnow]

/-- **One pool for each copy.** After all that can have happened to a registry, an instance is
copied if it is live and the pool is its own. The copy has a fresh address and holds all that its
source holds at the moment; later changes or a release of either do not touch the other. Where no
copy is made, no pool, instance, counter or index changes. -/
theorem Leads.copies_within_pool {catalog : Catalog} {config : PoolConfig}
    (h : (empty catalog config).Leads es r) (p : PoolId) (source : PackedAddress) :
    r.Copies es p source := by
  have hin := h.inUse (sound_empty catalog config).toInUse
  refine
    { succeeds := hin.copy_succeeds p source
      succeedsOwn := (hin.copy_succeeds source.pool source).trans (and_iff_left rfl)
      own := rfl
      copied := fun x hx hroom => ?_
      traceless := fun hnone => ?_ }
  · rcases hin.copy_cases p source with ⟨rfl, s, i, hs, hi, hr⟩ | ⟨-, hr⟩
    · rw [hr] at hx ⊢
      obtain rfl := Option.some.inj hx
      exact h.copied hs hi hroom hr
    · rw [hr] at hx
      cases hx
  · rcases hin.copy_cases p source with ⟨-, s, i, -, -, hr⟩ | ⟨-, hr⟩
    · rw [hr] at hnone
      cases hnone
    · rw [hr]

end

end

/-- A counter is taken in and counts to five; a pool for another behaviour is opened. -/
def tally : Registry :=
  (((((empty .full ⟨1, true⟩).perform (.register Behavior.counter.id)).2.perform
    (.allocate ⟨1⟩)).2.modify (.pack ⟨1⟩ ⟨1⟩) (.withCount 5)).perform
    (.register Behavior.constantInt.id)).2

theorem Leads.copies_within_pool_tally :
    ∃ es, (empty .full ⟨1, true⟩).Leads es tally ∧ tally.find? (.pack ⟨1⟩ ⟨1⟩) ≠ none ∧
      tally.Copies es ⟨1⟩ (.pack ⟨1⟩ ⟨1⟩) ∧ tally.Copies es ⟨2⟩ (.pack ⟨1⟩ ⟨1⟩) := by
  have hleads := ((((Leads.start (r := empty .full ⟨1, true⟩)).asked_early (by decide)
    (.register Behavior.counter.id)).asked_early (by decide) (.allocate ⟨1⟩)).changed
    (.pack ⟨1⟩ ⟨1⟩) (.withCount 5) (Instance.behavior_withCount 5)).asked_early (by decide)
    (.register Behavior.constantInt.id)
  exact ⟨_, hleads, by decide +kernel, hleads.copies_within_pool _ _, hleads.copies_within_pool _ _⟩

/-- A copy of the counter has counted to five as well, and the other pool turns it away. -/
example :
    (((tally.allocateCopy (.pack ⟨1⟩ ⟨1⟩)).value.2.find? (.pack ⟨1⟩ ⟨2⟩)).bind Instance.count?,
      (tally.allocateCopyInto ⟨2⟩ (.pack ⟨1⟩ ⟨1⟩)).value.1) = (some 5, none) := by decide +kernel

end FlowGraph.Registry
