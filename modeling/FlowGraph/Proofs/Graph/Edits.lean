import FlowGraph.Graph.Edit
import FlowGraph.Proofs.Counter
import FlowGraph.Proofs.Lists

/-!
# Edits and the graphs they lead to

An editor reaches a graph by a run of edits from an empty one. Ids are 32-bit numbers that are given
out in turn, and a run goes only as far as the numbers do: taking an id past the last one is an
overflow, at which an editor stops, so an edit that would make a counter start over leads nowhere.

* `Edit`, `Graph.edit` — what an editor can ask of a graph, with arguments valid or not.
* `Graph.Counted`, `Graph.Reachable` — runs of edits, and the graphs that they lead to.
* `Graph.addNode_value`, `Graph.connect_cases` and others — what each edit comes to.
-/

namespace FlowGraph

/-- What an editor can ask of a graph. -/
inductive Edit
  | addNode (behavior : BehaviorId) (position : Position) (data : Json)
  | removeNode (node : NodeId)
  | setPosition (node : NodeId) (position : Position)
  | setData (node : NodeId) (data : Json)
  | invalidate (node : NodeId)
  | connect (a b : PortRef)
  | tryConnect (a b : PortRef)
  | disconnect (connection : ConnectionId)

variable [Repertoire]

namespace Graph

/-- The graph after an edit; an edit that cannot be made leaves it as it was. -/
def edit (g : Graph) : Edit → Graph
  | .addNode behavior position data => (g.addNode behavior position data).value.2
  | .removeNode n => (g.removeNode n).value.2
  | .setPosition n position => (g.setPosition n position).2
  | .setData n data => (g.setData n data).value.2
  | .invalidate n => (g.invalidate n).value.2
  | .connect a b => (g.connect a b).value.2
  | .tryConnect a b => (g.tryConnect a b).value.2
  | .disconnect c => (g.disconnect c).2

/-- An edit that makes no counter of ids start over. The one that would is an arithmetic overflow,
and the run ends there. -/
def Counts (g : Graph) (e : Edit) : Prop :=
  g.nextNodeId ≤ (g.edit e).nextNodeId ∧ g.nextConnectionId ≤ (g.edit e).nextConnectionId

/-- A run of edits none of which makes a counter start over. -/
def Counted (g : Graph) : List Edit → Prop
  | [] => True
  | e :: es => g.Counts e ∧ (g.edit e).Counted es

/-- The graphs that runs of edits lead to, whatever their arguments. -/
inductive Reachable : Graph → Prop
  | empty (catalog : Catalog) : Reachable (empty catalog)
  | edit {g : Graph} (h : g.Reachable) (e : Edit) (counts : g.Counts e) : (g.edit e).Reachable

/-! ### Connections removed -/

theorem connection?_eq_none_iff (g : Graph) (c : ConnectionId) :
    g.connection? c = none ↔ ∀ x ∈ g.connections, x.id ≠ c := by
  simp only [connection?, List.find?_eq_none, decide_eq_true_eq, ne_eq]

theorem disconnect_missing {g : Graph} {c : ConnectionId} (h : g.connection? c = none) :
    g.disconnect c = (false, g) := by
  simp only [disconnect, h]

theorem disconnect_value {g : Graph} {c : ConnectionId} {x : Connection}
    (h : g.connection? c = some x) :
    g.disconnect c = (true, { g with connections := g.connections.eraseP (·.id = c) }) := by
  simp only [disconnect, h]

/-- A connection that is not there cannot be erased either. -/
theorem disconnect_eq (g : Graph) (c : ConnectionId) :
    (g.disconnect c).2 = { g with connections := g.connections.eraseP (·.id = c) } := by
  cases hx : g.connection? c with
  | none =>
      have hnot : ∀ x ∈ g.connections, ¬ decide (x.id = c) = true := fun x hxm => by
        simpa using (g.connection?_eq_none_iff c).1 hx x hxm
      rw [disconnect_missing hx, List.eraseP_of_forall_not hnot]
  | some x => rw [disconnect_value hx]

theorem disconnectAll_eq (g : Graph) (ids : List ConnectionId) :
    g.disconnectAll ids
      = { g with connections := ids.foldl (fun cs i => cs.eraseP (·.id = i)) g.connections } := by
  induction ids generalizing g with
  | nil => rfl
  | cons i ids ih =>
      show (g.disconnect i).2.disconnectAll ids = _
      rw [ih, disconnect_eq, List.foldl_cons]

/-- **One by one or all at once.** To remove the connections of some sort one after the other, each
by its id, is to keep those of no such sort. -/
theorem disconnectAll_filter {g : Graph} (h : (g.connections.map Connection.id).Nodup)
    (f : Connection → Bool) :
    g.disconnectAll ((g.connections.filter f).map Connection.id)
      = { g with connections := g.connections.filter fun c => !f c } := by
  rw [disconnectAll_eq, foldl_eraseP_filter Connection.id h]

theorem disconnectAll_sublist (g : Graph) (ids : List ConnectionId) :
    (g.disconnectAll ids).connections.Sublist g.connections := by
  rw [disconnectAll_eq]
  show (ids.foldl (fun cs i => cs.eraseP (·.id = i)) g.connections).Sublist g.connections
  generalize g.connections = cs
  induction ids generalizing cs with
  | nil => exact List.Sublist.refl cs
  | cons i ids ih => exact (ih _).trans List.eraseP_sublist

/-! ### Nodes -/

/-- The ports that a behaviour derives from data; an unknown behaviour derives none. -/
def derivedPorts (g : Graph) (behavior : BehaviorId) (data : Json) : List Port :=
  match g.catalog.find? behavior with
  | none => []
  | some b => (Instance.decode b data).value.ports

theorem derivePorts_value (g : Graph) (behavior : BehaviorId) (data : Json) :
    (g.derivePorts behavior data).value = g.derivedPorts behavior data := by
  unfold derivePorts derivedPorts Catalog.portsFor
  cases g.catalog.find? behavior <;> rfl

/-- The graph after a node was added under the next id. -/
def grown (g : Graph) (behavior : BehaviorId) (position : Position) (data : Json) : Graph :=
  { g with
    nodes := g.nodes ++
      [⟨⟨g.nextNodeId⟩, behavior, position, g.derivedPorts behavior data, data⟩]
    nextNodeId := g.nextNodeId + 1 }

theorem addNode_value (g : Graph) (behavior : BehaviorId) (position : Position) (data : Json) :
    (g.addNode behavior position data).value
      = (⟨g.nextNodeId⟩, g.grown behavior position data) := by
  simp only [addNode, Noted.value_bind, Noted.value_pure, derivePorts_value]
  rfl

/-- There is nothing to change on a node that does not exist. -/
theorem updateNode_missing {g : Graph} {n : NodeId} (h : g.node? n = none) (f : Node → Node) :
    g.updateNode n f = g := by
  have hmap : (g.nodes.map fun node => if node.id = n then f node else node) = g.nodes := by
    refine (List.map_congr_left fun node hmem => if_neg fun hid => ?_).trans g.nodes.map_id'
    have hnone := List.find?_eq_none.1 h node hmem
    exact hnone (by simpa using hid)
  rw [updateNode, hmap]

/-- One node with other ports; no connection is dropped yet. -/
def withPorts (g : Graph) (n : NodeId) (ports : List Port) : Graph :=
  g.updateNode n fun node => { node with ports }

/-- One node with other ports, and its connections that do not fit them dropped. -/
def refit (g : Graph) (n : NodeId) (ports : List Port) : Graph :=
  { g.withPorts n ports with
    connections := g.connections.filter fun c => !(g.withPorts n ports).isStale n c }

theorem invalidate_found {g : Graph} {n : NodeId} {node : Node} (h : g.node? n = some node) :
    let g' := g.withPorts n (g.derivedPorts node.behavior node.data)
    (g.invalidate n).value = (some (g'.stale n).length, g'.disconnectAll (g'.stale n)) := by
  simp only [invalidate, h, Noted.value_bind, Noted.value_pure, derivePorts_value]
  rfl

/-- Where ids are distinct, exactly the connections that do not fit are dropped. -/
theorem invalidate_value {g : Graph} {n : NodeId} {node : Node}
    (hids : (g.connections.map Connection.id).Nodup) (h : g.node? n = some node) :
    (g.invalidate n).value
      = (some (g.connections.filter ((g.withPorts n
            (g.derivedPorts node.behavior node.data)).isStale n)).length,
          g.refit n (g.derivedPorts node.behavior node.data)) := by
  have hdrop := disconnectAll_filter (g := g.withPorts n (g.derivedPorts node.behavior node.data))
    hids ((g.withPorts n (g.derivedPorts node.behavior node.data)).isStale n)
  rw [invalidate_found h, stale, List.length_map, hdrop]
  rfl

theorem invalidate_missing {g : Graph} {n : NodeId} (h : g.node? n = none) :
    (g.invalidate n).value = (none, g) := by
  simp only [invalidate, h, Noted.value_pure]

theorem removeNode_missing {g : Graph} {n : NodeId} (h : g.node? n = none) :
    (g.removeNode n).value = (false, g) := by
  simp only [removeNode, h, Noted.value_pure]

theorem removeNode_value {g : Graph} {n : NodeId} {node : Node} (h : g.node? n = some node) :
    (g.removeNode n).value
      = (true, { g with
          nodes := g.nodes.filter (·.id ≠ n)
          connections := g.connections.filter fun c => !c.touches n }) := by
  simp only [removeNode, h]

/-! ### Connections -/

/-- The graph after a link was made: an input has given up its former producer. -/
def linked (g : Graph) (source sink : PortRef) : Graph :=
  { g with
    connections := g.makeRoom sink ++ [⟨⟨g.nextConnectionId⟩, source, sink⟩]
    nextConnectionId := g.nextConnectionId + 1 }

/-- Two references in one order or the other. -/
def IsOrderOf (source sink a b : PortRef) : Prop :=
  (source = a ∧ sink = b) ∨ (source = b ∧ sink = a)

/-- **All that `connect` can do.** It refuses and changes nothing, or it links the two ports in the
one order that is valid, if they were not linked before. -/
theorem connect_cases (g : Graph) (a b : PortRef) :
    (∃ e, (g.connect a b).value = (.error e, g)) ∨
      ∃ source sink, IsOrderOf source sink a b ∧ g.accepts source sink = true ∧
        g.joined source sink = false ∧
        (g.connect a b).value = (.ok ⟨g.nextConnectionId⟩, g.linked source sink) := by
  unfold connect
  cases hp : g.portAt a with
  | error e => exact .inl ⟨e, rfl⟩
  | ok p =>
      simp only
      have horder : IsOrderOf (if p.kind.isSource then a else b)
          (if p.kind.isSource then b else a) a b := by
        unfold IsOrderOf
        split <;> simp
      generalize (if p.kind.isSource then a else b) = source at horder ⊢
      generalize (if p.kind.isSource then b else a) = sink at horder ⊢
      cases hc : g.checkLink source sink with
      | error e => exact .inl ⟨e, rfl⟩
      | ok u =>
          simp only
          cases hj : g.joined source sink with
          | true => exact .inl ⟨.duplicate, rfl⟩
          | false =>
              refine .inr ⟨source, sink, horder, ?_, hj, rfl⟩
              simp only [accepts, hc]

/-! ### How far the counters get -/

/-- Two graphs with the same counters up to one step of each. -/
structure Advances (g h : Graph) : Prop where
  nodes : Counter.Ticks g.nextNodeId h.nextNodeId
  connections : Counter.Ticks g.nextConnectionId h.nextConnectionId

theorem advances_invalidate (g : Graph) (n : NodeId) : g.Advances (g.invalidate n).value.2 := by
  cases hn : g.node? n with
  | none =>
      rw [invalidate_missing hn]
      exact ⟨.inl rfl, .inl rfl⟩
  | some node =>
      rw [invalidate_found hn, disconnectAll_eq]
      exact ⟨.inl rfl, .inl rfl⟩

theorem advances_connect (g : Graph) (a b : PortRef) : g.Advances (g.connect a b).value.2 := by
  rcases g.connect_cases a b with ⟨e, he⟩ | ⟨source, sink, -, -, -, he⟩
  · rw [he]
    exact ⟨.inl rfl, .inl rfl⟩
  · rw [he]
    exact ⟨.inl rfl, .inr rfl⟩

/-- An edit takes each counter one step on at most. -/
theorem advances_edit (g : Graph) (e : Edit) : g.Advances (g.edit e) := by
  cases e with
  | addNode behavior position data =>
      simp only [edit, addNode_value]
      exact ⟨.inr rfl, .inl rfl⟩
  | removeNode n =>
      cases hn : g.node? n with
      | none =>
          simp only [edit, removeNode_missing hn]
          exact ⟨.inl rfl, .inl rfl⟩
      | some node =>
          simp only [edit, removeNode_value hn]
          exact ⟨.inl rfl, .inl rfl⟩
  | setPosition n position =>
      simp only [edit, setPosition]
      split
      · exact ⟨.inl rfl, .inl rfl⟩
      · exact ⟨.inl rfl, .inl rfl⟩
  | setData n data =>
      have h := advances_invalidate (g.updateNode n fun node => { node with data }) n
      exact ⟨h.nodes, h.connections⟩
  | invalidate n => exact advances_invalidate g n
  | connect a b => exact advances_connect g a b
  | tryConnect a b => exact advances_connect g a b
  | disconnect c =>
      cases hx : g.connection? c with
      | none =>
          simp only [edit, disconnect_missing hx]
          exact ⟨.inl rfl, .inl rfl⟩
      | some x =>
          simp only [edit, disconnect_value hx]
          exact ⟨.inl rfl, .inl rfl⟩

/-- A run of edits goes on as long as both counters have room for it. -/
theorem counted_of_room {g : Graph} (es : List Edit) {k : Nat} (hn : g.nextNodeId.toNat ≤ k)
    (hc : g.nextConnectionId.toNat ≤ k) (hk : es.length + k < 2 ^ 32) : g.Counted es := by
  induction es generalizing g k with
  | nil => trivial
  | cons e es ih =>
      rw [List.length_cons] at hk
      have ha := g.advances_edit e
      have hnode := ha.nodes.bound hn (by omega)
      have hcon := ha.connections.bound hc (by omega)
      exact ⟨⟨hnode.1, hcon.1⟩, ih hnode.2 hcon.2 (by omega)⟩

/-- **Runs of any ordinary length.** No counter starts over within fewer than `2 ^ 32 - 2` edits,
whatever they are. -/
theorem counted_empty (catalog : Catalog) (es : List Edit) (hlen : es.length + 2 < 2 ^ 32) :
    (empty catalog).Counted es := by
  have hstart : (1 : UInt32).toNat ≤ 1 := Nat.le_refl _
  exact counted_of_room es hstart hstart (by omega)

theorem Reachable.foldl {g : Graph} (hg : g.Reachable) {es : List Edit} (h : g.Counted es) :
    (es.foldl Graph.edit g).Reachable := by
  induction es generalizing g with
  | nil => exact hg
  | cons e es ih => exact ih (hg.edit e h.1) h.2

theorem reachable_foldl (catalog : Catalog) (es : List Edit) (hlen : es.length + 2 < 2 ^ 32) :
    (es.foldl edit (empty catalog)).Reachable :=
  (Reachable.empty catalog).foldl (counted_empty catalog es hlen)

end Graph

end FlowGraph
