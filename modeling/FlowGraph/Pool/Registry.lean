import FlowGraph.Pool.Store

/-!
# The registry of running instances

A registry holds every instance of a running graph, one store for each behaviour in use. Stores come
into being when their behaviour is first asked for, and an instance is known by the packed address
of its store and its slot.

* `PoolConfig` — how stores deal with vacated places and with being empty.
* `Registry.register` — the pool of a behaviour, created at need.
* `Registry.materialize`, `Registry.allocateCopyInto`, `Registry.release` — instances come and go.
* `Registry.find?` — the view: the instance at an address.
-/

namespace FlowGraph

/-- How pools deal with vacated places and with being empty. -/
structure PoolConfig where
  /-- Compact a pool once its vacant places exceed this share of its live ones. -/
  compactionRatio : Float32
  /-- Drop a pool when its last instance is released. -/
  retireEmptyPools : Bool

/-- Half as many vacant places as live ones are tolerated, and empty pools are kept. -/
def PoolConfig.standard : PoolConfig := ⟨Pool.defaultRatio, false⟩

instance : Inhabited PoolConfig := ⟨.standard⟩

variable [Repertoire]

/-- Every instance of a running graph. -/
structure Registry where
  catalog : Catalog
  pools : Table PoolId Store
  byBehavior : Table Behavior PoolId
  nextId : UInt32
  config : PoolConfig
  deriving Inhabited

namespace Registry

/-- The registry without pools. -/
def empty (catalog : Catalog) (config : PoolConfig) : Registry :=
  ⟨catalog, .empty, .empty, 1, config⟩

/-! ### Queries -/

/-- The store of a pool. -/
def store? (r : Registry) (pool : PoolId) : Option Store := r.pools.find? pool

/-- The instance at an address. -/
def find? (r : Registry) (a : PackedAddress) : Option Instance := do
  (← r.store? a.pool).find? a.slot

/-- Whether there is an instance at an address. -/
def contains (r : Registry) (a : PackedAddress) : Bool :=
  match r.store? a.pool with
  | some s => s.contains a.slot
  | none => false

/-- The store and slot of an address at which there is an instance. -/
def resolve (r : Registry) (a : PackedAddress) : Option (Store × SlotId) := do
  let s ← r.store? a.pool
  if s.contains a.slot then some (s, a.slot) else none

/-- The instance at an address as JSON. -/
def snapshot (r : Registry) (a : PackedAddress) : Option Json := (r.find? a).map Instance.encode

/-- The pool of a behaviour, if it has one. -/
def poolFor (r : Registry) (id : BehaviorId) : Option PoolId := do
  r.byBehavior.find? (← r.catalog.find? id)

/-- The number of pools. -/
def poolCount (r : Registry) : Nat := r.pools.size

/-- The number of instances in all pools. -/
def instanceCount (r : Registry) : Nat := (r.pools.values.map Store.size).sum

/-! ### Pools -/

/-- The pool of a behaviour, created at need; nothing for names that the catalog does not know. -/
def register (r : Registry) (id : BehaviorId) : Noted (Option PoolId × Registry) :=
  match r.catalog.find? id with
  | none => pure (none, r)
  | some b =>
    match r.byBehavior.find? b with
    | some pool => pure (some pool, r)
    | none =>
      let pool : PoolId := ⟨r.nextId⟩
      ⟨(some pool, { r with
          pools := r.pools.insert pool (.empty b r.config.compactionRatio)
          byBehavior := r.byBehavior.insert b pool
          nextId := r.nextId + 1 }),
        [.poolCreated pool id]⟩

/-- Put a changed store in its place. -/
def withStore (r : Registry) (pool : PoolId) (s : Store) : Registry :=
  { r with pools := r.pools.insert pool s }

/-! ### Instances -/

/-- Add a blank instance to a pool. -/
def allocate (r : Registry) (pool : PoolId) : Noted (Option PackedAddress × Registry) :=
  match r.store? pool with
  | none => ⟨(none, r), [.poolMissing pool]⟩
  | some s =>
    let (slot, s) := s.allocate
    pure (some (.pack pool slot), r.withStore pool s)

/-- Add an instance decoded from an author's data to a pool. -/
def materialize (r : Registry) (pool : PoolId) (data : Json) :
    Noted (Option PackedAddress × Registry) :=
  match r.store? pool with
  | none => ⟨(none, r), [.poolMissing pool]⟩
  | some s => do
    let (slot, s) ← s.materialize data
    return (some (.pack pool slot), r.withStore pool s)

/-- Add a copy of an instance to a pool, which must be of the instance's behaviour. -/
def allocateCopyInto (r : Registry) (pool : PoolId) (source : PackedAddress) :
    Noted (Option PackedAddress × Registry) :=
  match r.find? source with
  | none => ⟨(none, r), [.copySourceMissing source]⟩
  | some i =>
    match r.store? pool with
    | none => ⟨(none, r), [.poolMissing pool]⟩
    | some s =>
      match s.allocateCopy i with
      | none => ⟨(none, r), [.copyRefused source pool s.behavior.id]⟩
      | some (slot, s) => pure (some (.pack pool slot), r.withStore pool s)

/-- Add a copy of an instance to its own pool. -/
def allocateCopy (r : Registry) (source : PackedAddress) :
    Noted (Option PackedAddress × Registry) :=
  r.allocateCopyInto source.pool source

/-- Give up the instance at an address; answers whether there was one. A pool left empty is dropped
if the configuration says so. -/
def release (r : Registry) (a : PackedAddress) : Noted (Bool × Registry) :=
  match r.store? a.pool with
  | none => pure (false, r)
  | some s => do
    let (found, s) ← s.release a.slot
    if !found then return (false, r)
    else if r.config.retireEmptyPools && s.isEmpty then
      Noted.note (.poolRetired a.pool s.behavior.id)
      return (true, { r with
        pools := r.pools.erase a.pool
        byBehavior := r.byBehavior.erase s.behavior })
    else return (true, r.withStore a.pool s)

/-- Change the instance at an address, if there is one. -/
def modify (r : Registry) (a : PackedAddress) (f : Instance → Instance) : Registry :=
  { r with pools := r.pools.adjust a.pool fun s => s.modify a.slot f }

end Registry

end FlowGraph
