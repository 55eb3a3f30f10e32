import FlowGraph.Behavior.Catalog
import FlowGraph.Pool.Basic

/-!
# Stores of node instances

A store is the pool of one behaviour's instances.

* `Store.empty`, `Store.materialize` — a store, and an instance decoded from an author's data.
* `Store.allocateCopy` — takes in an instance of the store's own behaviour only.
* `Store.snapshot` — an instance as JSON.
* `Catalog.store` — the store of a named behaviour.
-/

namespace FlowGraph

variable [Repertoire]

/-- The instances of one behaviour. -/
structure Store where
  behavior : Behavior
  pool : Pool Instance

namespace Store

/-- The store without instances. -/
def empty (b : Behavior) (ratio : Float32) : Store := ⟨b, .empty ratio (Instance.blank b)⟩

/-- The instance in a slot. -/
def find? (s : Store) (slot : SlotId) : Option Instance := s.pool.find? slot

/-- Whether a slot holds an instance. -/
def contains (s : Store) (slot : SlotId) : Bool := s.pool.contains slot

/-- The number of instances. -/
def size (s : Store) : Nat := s.pool.size

/-- Whether there are no instances. -/
def isEmpty (s : Store) : Bool := s.size == 0

/-- Take in an instance. -/
def allocateWith (s : Store) (i : Instance) : SlotId × Store :=
  let (slot, pool) := s.pool.allocateWith i
  (slot, { s with pool })

/-- Take in a blank instance. -/
def allocate (s : Store) : SlotId × Store := s.allocateWith s.pool.blank

/-- Take in an instance decoded from an author's data. -/
def materialize (s : Store) (data : Json) : Noted (SlotId × Store) := do
  let i ← Instance.decode s.behavior data
  return s.allocateWith i

/-- Take in a copy of an instance, if it is of the store's behaviour. -/
def allocateCopy (s : Store) (i : Instance) : Option (SlotId × Store) :=
  if i.behavior = s.behavior then some (s.allocateWith i) else none

/-- Give up an instance; answers whether there was one. -/
def release (s : Store) (slot : SlotId) : Noted (Bool × Store) := do
  let (found, pool) ← s.pool.release slot
  return (found, { s with pool })

/-- Change an instance. -/
def modify (s : Store) (slot : SlotId) (f : Instance → Instance) : Store :=
  { s with pool := s.pool.modify slot f }

/-- An instance as JSON. -/
def snapshot (s : Store) (slot : SlotId) : Option Json := (s.find? slot).map Instance.encode

end Store

/-- An empty store for a named behaviour, if the catalog knows it. -/
def Catalog.store (c : Catalog) (id : BehaviorId) (ratio : Float32) : Option Store :=
  (c.find? id).map fun b => Store.empty b ratio

end FlowGraph
