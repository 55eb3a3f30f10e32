import FlowGraph.Proofs.Graph.Identities
import FlowGraph.Proofs.Graph.Joining
import Mathlib.Data.List.Basic

/-!
# New data at a node

Ports follow data. New data may leave a node with fewer ports than it had, with more, or with ports
of other kinds and types, and connections may then lead to where nothing takes them. Exactly these
go, and an editor is told how many. It could take them away itself, one after the other by their
ids, and would come to the same graph, since no two connections share an id. In a graph that edits
lead to every node has the ports that its data say, so there is nothing to be gained by asking for
them anew.

* `Graph.invalidate_settled`, `Graph.WellFormed.setData_settled` — data that give a node the ports
  it has change nothing else.
* `Graph.misfits`, `Graph.setData_value` — what other data come to.
* `Graph.Refitted`, `Graph.Reachable.setData_drops_misfits` — the connections that stay, and those
  that go.
-/

namespace FlowGraph.Graph

section

variable [Repertoire]

/-! ### Data that keep the ports -/

/-- Where every connection is valid, none is stale. -/
theorem Sound.isStale_eq {g : Graph} (h : g.Sound) (n : NodeId) {c : Connection}
    (hc : c ∈ g.connections) : g.isStale n c = false := by
  rw [isStale, h.valid c hc, Bool.not_true, Bool.and_false]

/-- To give a node the ports that it has changes nothing. -/
theorem Ordered.withPorts_self {g : Graph} (h : g.Ordered) {n : NodeId} {node : Node}
    (hn : g.node? n = some node) : g.withPorts n node.ports = g := by
  have hmap : (g.nodes.map fun m => if m.id = n then { m with ports := node.ports } else m)
      = g.nodes := by
    refine (List.map_congr_left fun m hm => ?_).trans g.nodes.map_id'
    by_cases hid : m.id = n
    · have hfound := h.node?_of_mem hm
      rw [hid, hn] at hfound
      rw [if_pos hid, Option.some.inj hfound]
    · exact if_neg hid
  rw [withPorts, Graph.updateNode, hmap]

/-- A change of a node that keeps its ports changes no node's ports. -/
theorem ports_updateNode (g : Graph) (n : NodeId) (f : Node → Node)
    (hid : ∀ node, (f node).id = node.id) (hports : ∀ node, (f node).ports = node.ports)
    (m : NodeId) : (g.updateNode n f).ports m = g.ports m := by
  unfold ports
  rw [node?_updateNode g n m f hid]
  by_cases hm : m = n
  · rw [if_pos hm]
    cases g.node? m with
    | none => rfl
    | some node => exact hports node
  · rw [if_neg hm]

/-- **Nothing to do.** If a node has the ports that its data say, deriving them anew drops no
connection and leaves the graph as it is. -/
theorem invalidate_settled {g : Graph} (hord : g.Ordered) (hsound : g.Sound) {n : NodeId}
    {node : Node} (hn : g.node? n = some node)
    (hports : g.derivedPorts node.behavior node.data = node.ports) :
    (g.invalidate n).value = (some 0, g) := by
  have hstale : g.connections.filter (g.isStale n) = [] :=
    List.filter_eq_nil_iff.2 fun c hc => by rw [hsound.isStale_eq n hc]; exact Bool.false_ne_true
  have hkept : (g.connections.filter fun c => !g.isStale n c) = g.connections :=
    List.filter_eq_self.2 fun c hc => by rw [hsound.isStale_eq n hc]; rfl
  rw [invalidate_value hord.connectionIds_nodup hn, hports, refit, hord.withPorts_self hn, hstale,
    hkept]
  rfl

/-- **New data, old ports.** Data that a node's behaviour derives the node's ports from take the
place of the old data, and that is all. -/
theorem WellFormed.setData_settled {g : Graph} (h : g.WellFormed) {node : Node}
    (hn : node ∈ g.nodes) {data : Json} (hports : g.derivedPorts node.behavior data = node.ports) :
    (g.setData node.id data).value
      = (some 0, g.updateNode node.id fun m => { m with data }) := by
  have hnode := node?_updateNode g node.id node.id (fun m => { m with data }) fun _ => rfl
  rw [if_pos rfl, h.node?_of_mem hn, Option.map_some] at hnode
  have hport := port?_updateNode g node.id (fun m => { m with data }) (fun _ => rfl) fun _ => rfl
  have hsound : (g.updateNode node.id fun m => { m with data }).Sound :=
    h.toSound.of_sublist_same (List.Sublist.refl _) fun c _ => ⟨hport c.source, hport c.sink⟩
  have hord := h.toOrdered.updateNode node.id (fun m => { m with data }) fun _ => rfl
  exact invalidate_settled hord hsound hnode hports

/-! ### Data that change the ports -/

/-- Whether a connection fits can be read off the graph. -/
instance (g : Graph) (c : Connection) : Decidable (g.Fits c) :=
  decidable_of_iff _ (g.fits_iff_accepts c).symm

/-- The connections of a node that do not fit a graph with other ports. -/
def misfits (g h : Graph) (n : NodeId) : List Connection :=
  g.connections.filter fun c => c.touches n ∧ ¬ h.Fits c

/-- One node with other data; its ports are not derived from them yet. -/
def withData (g : Graph) (n : NodeId) (data : Json) : Graph :=
  g.updateNode n fun m => { m with data }

theorem node?_withData {g : Graph} {n : NodeId} {node : Node} (hn : g.node? n = some node)
    (data : Json) : (g.withData n data).node? n = some { node with data } := by
  rw [withData, node?_updateNode g n n (fun m => { m with data }) fun _ => rfl, if_pos rfl, hn]
  rfl

/-- A connection is stale under the ports that a node is about to get if it does not fit the graph
in which the node has got them. -/
theorem isStale_withPorts (g : Graph) (n : NodeId) (ports : List Port) (c : Connection) :
    (g.withPorts n ports).isStale n c = decide (c.touches n ∧ ¬ (g.refit n ports).Fits c) := by
  have hsame : (g.refit n ports).accepts c.source c.sink
      = (g.withPorts n ports).accepts c.source c.sink := accepts_congr rfl rfl
  rw [isStale, Bool.eq_iff_iff, decide_eq_true_iff, fits_iff_accepts, hsame, Bool.and_eq_true,
    Bool.not_eq_true', Bool.not_eq_true]

/-- **What new data come to.** The ports are derived from them, the connections that do not fit the
graph that this makes are counted, and the others are kept. -/
theorem setData_value {g : Graph} (hids : (g.connections.map Connection.id).Nodup) {n : NodeId}
    {node : Node} (hn : g.node? n = some node) (data : Json) :
    let h := (g.withData n data).refit n (g.derivedPorts node.behavior data)
    (g.setData n data).value = (some (g.misfits h n).length, h) ∧
      h.connections = g.connections.filter fun c => !decide (c.touches n ∧ ¬ h.Fits c) := by
  intro h
  have hvalue := invalidate_value (g := g.withData n data) hids (node?_withData hn data)
  have hports : (g.withData n data).derivedPorts node.behavior data
      = g.derivedPorts node.behavior data := rfl
  rw [hports] at hvalue
  have hstale : ((g.withData n data).withPorts n (g.derivedPorts node.behavior data)).isStale n
      = fun c => decide (c.touches n ∧ ¬ h.Fits c) := funext fun c => isStale_withPorts _ _ _ c
  constructor
  · rw [hstale] at hvalue
    exact hvalue
  · show g.connections.filter (fun c => !_) = _
    rw [hstale]

/-- The graph `h` is `g` with new data at one node: the node has the ports that these say, other
nodes are as they were, and of the node's connections those have stayed that fit. -/
structure Refitted (g : Graph) (n : NodeId) (node : Node) (data : Json) (h : Graph) : Prop where
  stored : h.node? n = some { node with data := data, ports := g.derivedPorts node.behavior data }
  others : ∀ m, m ≠ n → h.node? m = g.node? m
  ids : h.nodes.map Node.id = g.nodes.map Node.id
  kept : h.connections = g.connections.filter fun c => ¬ c.touches n ∨ h.Fits c
  catalog : h.catalog = g.catalog
  counters : h.nextNodeId = g.nextNodeId ∧ h.nextConnectionId = g.nextConnectionId

theorem node?_refit_withData {g : Graph} {n : NodeId} {node : Node} (hn : g.node? n = some node)
    (data : Json) (ports : List Port) (m : NodeId) :
    ((g.withData n data).refit n ports).node? m
      = if m = n then some { node with data := data, ports := ports } else g.node? m := by
  have hports := node?_updateNode (g.withData n data) n m (fun x => { x with ports := ports })
    fun _ => rfl
  have hdata := node?_updateNode g n m (fun x => { x with data := data }) fun _ => rfl
  show ((g.withData n data).withPorts n ports).node? m = _
  rw [withPorts, hports, withData, hdata]
  by_cases hm : m = n
  · rw [if_pos hm, if_pos hm, if_pos hm, hm, hn]
    rfl
  · rw [if_neg hm, if_neg hm, if_neg hm]

theorem refitted_setData {g : Graph} (hids : (g.connections.map Connection.id).Nodup) {n : NodeId}
    {node : Node} (hn : g.node? n = some node) (data : Json) :
    g.Refitted n node data (g.setData n data).value.2 := by
  obtain ⟨hvalue, hkept⟩ := setData_value hids hn data
  have hnode := node?_refit_withData hn data (g.derivedPorts node.behavior data)
  have hports := (g.withData n data).nodeIds_updateNode n
    (fun m => { m with ports := g.derivedPorts node.behavior data }) fun _ => rfl
  have hdata := g.nodeIds_updateNode n (fun m => { m with data := data }) fun _ => rfl
  rw [hvalue]
  refine
    { stored := (hnode n).trans (if_pos rfl)
      others := fun m hm => (hnode m).trans (if_neg hm)
      ids := hports.trans hdata, kept := hkept.trans (List.filter_congr fun c _ => ?_)
      catalog := rfl, counters := ⟨rfl, rfl⟩ }
  rw [Bool.eq_iff_iff, Bool.not_eq_true', decide_eq_false_iff_not, decide_eq_true_iff, not_and,
    not_not, imp_iff_not_or]

/-- **New data drop the connections that no longer fit, and no others.** Take any graph that edits
lead to, one of its nodes, and any JSON as the new data of the node. The data are stored, the ports
are those derived from them, and no other node changes. Of the connections those are kept, with
their ids and in their order, that do not touch the node or fit the new ports. The answer is the
number of those that went, by which the list has become shorter; and to remove exactly these from
the graph, one after the other by their ids, leads to the same graph. In particular a node that is
asked to derive its ports anew has the right ones, and loses nothing. -/
theorem Reachable.setData_drops_misfits {g : Graph} (hg : g.Reachable) {n : NodeId} {node : Node}
    (hn : g.node? n = some node) (data : Json) :
    let h := (g.setData n data).value.2
    g.Refitted n node data h ∧
      (g.setData n data).value.1 = some (g.misfits h n).length ∧
      h.connections.length + (g.misfits h n).length = g.connections.length ∧
      ({ g with nodes := h.nodes } : Graph).disconnectAll ((g.misfits h n).map Connection.id) = h ∧
      (g.invalidate n).value = (some 0, g) := by
  intro h
  have hwell := hg.wellFormed
  have hids := hwell.toOrdered.connectionIds_nodup
  obtain ⟨hvalue, hkept⟩ := setData_value hids hn data
  have hh : h = (g.withData n data).refit n (g.derivedPorts node.behavior data) :=
    congrArg Prod.snd hvalue
  rw [← hh] at hvalue hkept
  have hcount : h.connections.length + (g.misfits h n).length = g.connections.length := by
    rw [hkept, misfits, Nat.add_comm]
    exact (List.length_eq_length_filter_add _).symm
  have hremoved := disconnectAll_filter (g := { g with nodes := h.nodes })
    hids fun c => decide (c.touches n ∧ ¬ h.Fits c)
  refine ⟨refitted_setData hids hn data, congrArg Prod.fst hvalue, hcount, ?_, ?_⟩
  · rw [misfits, hremoved, ← hkept, hh]
    rfl
  · exact invalidate_settled hwell.toOrdered hwell.toSound hn
      (hwell.derived node (node?_eq_some hn).1).symm

end

/-- A sequence of three exits, entered from a start; all of its exits are connected, the last to the
node that the first leads to. -/
def forked : Graph :=
  [ .addNode Behavior.startEvent.id .origin .null
  , .addNode Behavior.sequence.id .origin (.object [("arity", .int 3)])
  , .addNode Behavior.printText.id .origin .null
  , .addNode Behavior.printText.id .origin .null
  , .connect ⟨⟨1⟩, ⟨0⟩⟩ ⟨⟨2⟩, ⟨0⟩⟩
  , .connect ⟨⟨2⟩, ⟨1⟩⟩ ⟨⟨3⟩, ⟨0⟩⟩
  , .connect ⟨⟨2⟩, ⟨2⟩⟩ ⟨⟨4⟩, ⟨0⟩⟩
  , .connect ⟨⟨2⟩, ⟨3⟩⟩ ⟨⟨3⟩, ⟨0⟩⟩ ].foldl edit (.empty .builtin)

/-- Cut down to one exit, the sequence loses the connections of the other two. -/
theorem Reachable.setData_drops_misfits_forked :
    let data := Json.object [("arity", .int 1)]
    let h := (forked.setData ⟨2⟩ data).value.2
    forked.Reachable ∧ (forked.setData ⟨2⟩ data).value.1 = some 2 ∧
      h.connections = [⟨⟨1⟩, ⟨⟨1⟩, ⟨0⟩⟩, ⟨⟨2⟩, ⟨0⟩⟩⟩, ⟨⟨2⟩, ⟨⟨2⟩, ⟨1⟩⟩, ⟨⟨3⟩, ⟨0⟩⟩⟩] ∧
      ({ forked with nodes := h.nodes } : Graph).disconnectAll [⟨3⟩, ⟨4⟩] = h ∧
      (forked.invalidate ⟨2⟩).value = (some 0, forked) := by
  intro data h
  have hreachable : forked.Reachable := reachable_foldl .builtin _ (by decide)
  have hsome : (forked.node? ⟨2⟩).isSome = true := by decide +kernel
  obtain ⟨node, hnode⟩ := Option.isSome_iff_exists.1 hsome
  obtain ⟨-, hanswer, -, hremoved, hsettled⟩ :=
    Reachable.setData_drops_misfits hreachable hnode data
  have hids : (forked.misfits h ⟨2⟩).map Connection.id = [⟨3⟩, ⟨4⟩] := by decide +kernel
  have hlength : (forked.misfits h ⟨2⟩).length = 2 := by
    rw [← List.length_map Connection.id, hids]
    rfl
  rw [hlength] at hanswer
  rw [hids] at hremoved
  exact ⟨hreachable, hanswer, by decide +kernel, hremoved, hsettled⟩

end FlowGraph.Graph
