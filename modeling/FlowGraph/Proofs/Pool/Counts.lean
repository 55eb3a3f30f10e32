import FlowGraph.Pool.Registry
import FlowGraph.Proofs.Pool.WellFormed

/-!
# Registries but for counts

Two registries are the same but for the counts of their counters if they become one and the same
once every count is set to nothing. That takes in all that a registry is: its pools with their
slots, live or vacant, in their order, the places that are queued for reuse, and the numbers that
are given out next.

* `Registry.uncounted` — a registry with every count set to nothing.
* `Registry.uncounted_modify` — setting a count makes no difference to that.
* `Registry.SameButCounts`, `Registry.sameButCounts_of_uncounted` — what two such registries share.
-/

namespace FlowGraph

/-! ### Changing all values -/

/-- The table with every value changed. -/
def Table.mapValues {κ ν μ : Type} (t : Table κ ν) (f : ν → μ) : Table κ μ where
  bindings := t.bindings.map fun b => (b.1, f b.2)
  keysNodup := by
    rw [List.map_map]
    exact t.keysNodup

theorem Table.find?_mapValues {κ ν μ : Type} [DecidableEq κ] (t : Table κ ν) (f : ν → μ) (k : κ) :
    (t.mapValues f).find? k = (t.find? k).map f := lookup_map f k t.bindings

/-- A change of one value that is lost when all are changed. -/
theorem Table.mapValues_adjust {κ ν μ : Type} [DecidableEq κ] (t : Table κ ν) (k : κ) {h : ν → ν}
    {f : ν → μ} (hf : ∀ v, f (h v) = f v) : (t.adjust k h).mapValues f = t.mapValues f := by
  have hbindings : ((t.adjust k h).mapValues f).bindings = (t.mapValues f).bindings := by
    simp only [mapValues, adjust, List.map_map]
    refine List.map_congr_left fun b _ => ?_
    rw [Function.comp_apply]
    split
    · rw [hf]
    · rfl
  cases hl : (t.adjust k h).mapValues f
  cases hr : t.mapValues f
  rw [hl, hr] at hbindings
  cases hbindings
  rfl

namespace Pool

variable {α : Type}

/-- The pool with every value changed, those of vacant places included. -/
def mapValues (p : Pool α) (f : α → α) : Pool α :=
  { p with slots := p.slots.map fun s => { s with data := f s.data } }

theorem find?_mapValues (p : Pool α) (f : α → α) (id : SlotId) :
    (p.mapValues f).find? id = (p.find? id).map f := by
  unfold find? mapValues
  cases p.index.find? id with
  | none => rfl
  | some i =>
    simp only [Option.bind_eq_bind, Option.bind_some, List.getElem?_map, Option.map_map]
    rfl

theorem ids_mapValues (p : Pool α) (f : α → α) : (p.mapValues f).ids = p.ids := by
  rw [ids, mapValues, List.map_map]
  rfl

theorem mapValues_modify (p : Pool α) (id : SlotId) {h f : α → α} (hf : ∀ x, f (h x) = f x) :
    (p.modify id h).mapValues f = p.mapValues f := by
  cases hi : p.index.find? id with
  | none => rw [modify_of_missing hi]
  | some i =>
    have hslots : (p.slots.modify i fun s => { s with data := h s.data }).map
        (fun s => { s with data := f s.data })
          = p.slots.map fun s => { s with data := f s.data } := by
      refine List.ext_getElem? fun j => ?_
      rw [List.getElem?_map, List.getElem?_map, getElem?_modify_map, Option.map_map]
      refine congrArg (fun g => Option.map g p.slots[j]?) (funext fun s => ?_)
      rw [Function.comp_apply]
      split
      · rw [hf]
      · rfl
    rw [modify_of_indexed hi, mapValues, mapValues, hslots]

end Pool

variable [Repertoire]

/-! ### Counts set to nothing -/

/-- The store with every count set to nothing. -/
def Store.uncounted (s : Store) : Store :=
  { s with pool := s.pool.mapValues (Instance.withCount 0) }

theorem Store.uncounted_modify (s : Store) (slot : SlotId) (n : Int64) :
    (s.modify slot (Instance.withCount n)).uncounted = s.uncounted := by
  rw [uncounted, uncounted, modify,
    Pool.mapValues_modify s.pool slot (Instance.withCount_withCount n 0)]

namespace Registry

/-- The registry with every count set to nothing. -/
def uncounted (r : Registry) : Registry := { r with pools := r.pools.mapValues Store.uncounted }

/-- Setting a count makes no difference. -/
theorem uncounted_modify (r : Registry) (a : PackedAddress) (n : Int64) :
    (r.modify a (Instance.withCount n)).uncounted = r.uncounted := by
  rw [uncounted, uncounted, modify,
    Table.mapValues_adjust r.pools a.pool fun s => s.uncounted_modify a.slot n]

theorem store?_uncounted (r : Registry) (p : PoolId) :
    r.uncounted.store? p = (r.store? p).map Store.uncounted :=
  Table.find?_mapValues r.pools Store.uncounted p

theorem find?_uncounted (r : Registry) (a : PackedAddress) :
    r.uncounted.find? a = (r.find? a).map (Instance.withCount 0) := by
  rw [find?, find?, store?_uncounted]
  cases r.store? a.pool with
  | none => rfl
  | some s => exact s.pool.find?_mapValues (Instance.withCount 0) a.slot

/-- Registries that are the same but for the counts of counters. -/
structure SameButCounts (r r' : Registry) : Prop where
  /-- Everything else is the same, down to vacant places and the numbers given out next. -/
  uncounted : r'.uncounted = r.uncounted
  /-- At every address there is the same instance with another count, if it has one. -/
  instances : ∀ a, ∃ n, r'.find? a = (r.find? a).map (Instance.withCount n)
  snapshots : ∀ a, r'.snapshot a = r.snapshot a
  /-- The live ids of every pool, in the order of their slots. -/
  ids : ∀ p, (r'.store? p).map (fun s => s.pool.ids) = (r.store? p).map fun s => s.pool.ids

theorem ids_uncounted (r : Registry) (p : PoolId) :
    (r.uncounted.store? p).map (fun s => s.pool.ids) = (r.store? p).map fun s => s.pool.ids := by
  rw [store?_uncounted, Option.map_map]
  exact congrArg (Option.map · (r.store? p))
    (funext fun s => s.pool.ids_mapValues (Instance.withCount 0))

/-- A count is not part of a snapshot. -/
theorem snapshot_uncounted (r : Registry) (a : PackedAddress) :
    r.uncounted.snapshot a = r.snapshot a := by
  rw [snapshot, snapshot, find?_uncounted, Option.map_map]
  exact congrArg (Option.map · (r.find? a)) (funext fun i => Instance.encode_withCount 0 i)

/-- Instances that are the same without their counts are the same with another count. -/
theorem exists_count {x y : Option Instance}
    (h : y.map (Instance.withCount 0) = x.map (Instance.withCount 0)) :
    ∃ n, y = x.map (Instance.withCount n) := by
  cases y with
  | none => exact ⟨0, h⟩
  | some j =>
    obtain ⟨i, rfl, hi⟩ := Option.map_eq_some_iff.1 h.symm
    obtain ⟨n, hn⟩ := j.exists_withCount
    refine ⟨n, congrArg some ?_⟩
    calc j = (j.withCount 0).withCount n := by rw [Instance.withCount_withCount, hn]
      _ = (i.withCount 0).withCount n := by rw [hi]
      _ = i.withCount n := Instance.withCount_withCount 0 n i

theorem sameButCounts_of_uncounted {r r' : Registry} (h : r'.uncounted = r.uncounted) :
    r.SameButCounts r' where
  uncounted := h
  instances a := exists_count (by rw [← find?_uncounted, ← find?_uncounted, h])
  snapshots a := by rw [← snapshot_uncounted, h, snapshot_uncounted]
  ids p := by rw [← ids_uncounted, h, ids_uncounted]

end Registry

end FlowGraph
