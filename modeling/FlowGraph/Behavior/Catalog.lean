import FlowGraph.Behavior.Repertoire

/-!
# Catalogs

A catalog says which behaviours a program knows. Names outside it may still appear in graphs; such
nodes have no ports and no instances.

* `Catalog.register` — add a behaviour; adding it again only gives a notice.
* `Catalog.find?` — the known behaviour of a name.
* `Catalog.portsFor` — the ports of a node, from its behaviour's name and its data.
-/

namespace FlowGraph

variable [Repertoire]

/-- The behaviours that a program knows, in the order in which they were registered. -/
structure Catalog where
  behaviors : List Behavior
  deriving DecidableEq, Inhabited

namespace Catalog

/-- The catalog that knows nothing. -/
def empty : Catalog := ⟨[]⟩

/-- Add a behaviour. -/
def register (c : Catalog) (b : Behavior) : Noted Catalog :=
  if b ∈ c.behaviors then ⟨c, [.behaviorRegisteredAgain b.id]⟩ else pure ⟨c.behaviors ++ [b]⟩

/-- The known behaviour of a name. -/
def find? (c : Catalog) (id : BehaviorId) : Option Behavior := c.behaviors.find? (·.id = id)

/-- Whether a name is known. -/
def contains (c : Catalog) (id : BehaviorId) : Bool := (c.find? id).isSome

/-- The ports of a node of a named behaviour with the given data; nothing for unknown names. -/
def portsFor (c : Catalog) (id : BehaviorId) (data : Json) : Noted (Option (List Port)) :=
  match c.find? id with
  | none => pure none
  | some b => do
    let i ← Instance.decode b data
    return some i.ports

/-- The known names, in alphabetical order. -/
def sortedNames (c : Catalog) : List String :=
  (c.behaviors.map (·.id.name)).mergeSort fun a b => decide (a ≤ b)

/-- The number of known behaviours. -/
def size (c : Catalog) : Nat := c.behaviors.length

/-- A found behaviour has the name it was looked for by. -/
theorem id_of_find? {c : Catalog} {id : BehaviorId} {b : Behavior} (h : c.find? id = some b) :
    b.id = id := by
  simpa using List.find?_some h

end Catalog

end FlowGraph
