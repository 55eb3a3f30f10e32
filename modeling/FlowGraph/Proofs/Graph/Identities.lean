import FlowGraph.Proofs.Graph.Refusals
import FlowGraph.Proofs.Graph.WellFormed
import FlowGraph.Proofs.Lists

/-!
# Ids for life

An editor may keep an id for as long as it likes. In time the id may miss, but it never names
something newer. A node goes when it is removed. A connection goes when it is removed itself, when
an input takes another producer, when new ports of a node leave it behind, or when one of its nodes
is removed; in whichever way it went, its id is not given out again.

* `Revision`, `Graph.revisions` — a run of edits, each with the graph that it was put to.
* `Revision.nodeIds_after`, `Revision.connections_cases` — what one edit does to ids.
* `Graph.Remembers` — the invariant that ties a graph to its run; `Remembers.step` keeps it.
* `Graph.ids_never_alias` — fresh ids, nodes in the order they were added, and ids that miss for
  good.
-/

namespace FlowGraph

section

variable [Repertoire]

/-! ### Runs of edits -/

/-- An edit in a run, with the graph that it was put to. -/
structure Revision where
  before : Graph
  edit : Edit

namespace Revision

def after (r : Revision) : Graph := r.before.edit r.edit

def reply (r : Revision) : EditReply := r.before.reply r.edit

/-- The id that was given to a new node. -/
def added? (r : Revision) : Option NodeId :=
  match r.reply with
  | .added n => some n
  | _ => none

/-- The id of the node that was removed, if there was one to remove. -/
def removed? (r : Revision) : Option NodeId :=
  match r.edit, r.reply with
  | .removeNode n, .flag true => some n
  | _, _ => none

/-- The id that was given to a new connection. An editor that only tries to connect is not told the
id, but it is given out all the same. -/
def connected? (r : Revision) : Option ConnectionId :=
  match r.edit with
  | .connect a b | .tryConnect a b => (r.before.connect a b).value.1.toOption
  | _ => none

/-- Whether a connection was there before the edit and is not there after it. -/
def Drops (r : Revision) (c : ConnectionId) : Prop :=
  r.before.connection? c ≠ none ∧ r.after.connection? c = none

end Revision

namespace Graph

/-- A run of edits, each with the graph that it is put to. -/
def revisions (g : Graph) : List Edit → List Revision
  | [] => []
  | e :: es => ⟨g, e⟩ :: (g.edit e).revisions es

/-- The ids of the nodes that were added in a run, in this order. -/
def added (history : List Revision) : List NodeId := history.filterMap Revision.added?

/-- The ids of the nodes that were removed in a run. -/
def removed (history : List Revision) : List NodeId := history.filterMap Revision.removed?

/-- The ids of the connections that were made in a run, in this order. -/
def connected (history : List Revision) : List ConnectionId := history.filterMap Revision.connected?

/-- What an editor may rely on when it keeps ids: those given out later are larger, and those that
have come to miss miss for good. -/
structure NeverAliases (g : Graph) (history : List Revision) : Prop where
  nodes_ascend : (added history).Pairwise fun m n => m.raw < n.raw
  connections_ascend : (connected history).Pairwise fun c d => c.raw < d.raw
  /-- The nodes are those that were added and not removed, in the order they were added. -/
  survivors : g.nodes.map Node.id = (added history).filter fun n => n ∉ removed history
  removed_missing : ∀ n ∈ removed history, g.node? n = none
  dropped_missing : ∀ r ∈ history, ∀ c, r.Drops c → g.connection? c = none

theorem node?_eq_none_iff (g : Graph) (n : NodeId) :
    g.node? n = none ↔ n ∉ g.nodes.map Node.id := by
  simp only [node?, List.find?_eq_none, decide_eq_true_eq, List.mem_map, not_exists, not_and]

/-! ### One edit -/

/-- A change of a node that keeps its id keeps the ids of all. -/
theorem nodeIds_updateNode (g : Graph) (n : NodeId) (f : Node → Node)
    (hid : ∀ node, (f node).id = node.id) :
    (g.updateNode n f).nodes.map Node.id = g.nodes.map Node.id := by
  rw [updateNode, List.map_map]
  refine List.map_congr_left fun node _ => ?_
  show (if node.id = n then f node else node).id = node.id
  split
  · exact hid node
  · rfl

theorem nodeIds_invalidate (g : Graph) (n : NodeId) :
    (g.invalidate n).value.2.nodes.map Node.id = g.nodes.map Node.id := by
  cases hn : g.node? n with
  | none => rw [invalidate_missing hn]
  | some node =>
      rw [invalidate_found hn, disconnectAll_eq]
      exact g.nodeIds_updateNode n _ fun _ => rfl

theorem connections_invalidate (g : Graph) (n : NodeId) :
    (g.invalidate n).value.2.connections.Sublist g.connections := by
  cases hn : g.node? n with
  | none =>
      have hsame : (g.invalidate n).value.2.connections = g.connections := by
        rw [invalidate_missing hn]
      exact hsame ▸ List.Sublist.refl _
  | some node =>
      rw [invalidate_found hn]
      exact disconnectAll_sublist _ _

end Graph

namespace Revision

open FlowGraph.Graph

/-- **What an edit does to the ids of nodes**: the one that was removed is left out, and a new one
comes last. -/
theorem nodeIds_after (r : Revision) :
    r.after.nodes.map Node.id
      = ((r.before.nodes.map Node.id).filter fun n => r.removed? ≠ some n) ++ r.added?.toList := by
  obtain ⟨g, e⟩ := r
  have hall : ∀ ids : List NodeId, ids.filter (fun n => (none : Option NodeId) ≠ some n) = ids :=
    fun ids => List.filter_eq_self.2 fun n _ => by simp
  -- All edits but two keep the list as it is.
  have hkept : ∀ {ids : List NodeId}, ids = g.nodes.map Node.id →
      ids = ((g.nodes.map Node.id).filter fun n => (none : Option NodeId) ≠ some n) ++ [] := by
    intro ids hids
    rw [hids, List.append_nil, hall]
  have hconnect : ∀ a b, (g.connect a b).value.2.nodes.map Node.id = g.nodes.map Node.id := by
    intro a b
    rcases g.connect_cases a b with ⟨e, he⟩ | ⟨source, sink, -, -, -, he⟩ <;> rw [he]
    rfl
  cases e with
  | addNode behavior position data =>
      show (g.addNode behavior position data).value.2.nodes.map Node.id = _
      rw [addNode_value, grown, List.map_append]
      exact congrArg (· ++ [(⟨g.nextNodeId⟩ : NodeId)]) (hall _).symm
  | removeNode n =>
      cases hn : g.node? n with
      | none =>
          simp only [after, Graph.edit, removed?, added?, reply, Graph.reply, removeNode_missing hn]
          exact hkept rfl
      | some node =>
          simp only [after, Graph.edit, removed?, added?, reply, Graph.reply, removeNode_value hn]
          rw [Option.toList_none, List.append_nil, List.filter_map]
          congr 1
          refine List.filter_congr fun m _ => ?_
          simp [eq_comm]
  | setPosition n position =>
      refine hkept ?_
      show (g.setPosition n position).2.nodes.map Node.id = _
      unfold setPosition
      split
      · rfl
      · exact g.nodeIds_updateNode n _ fun _ => rfl
  | setData n data =>
      exact hkept (((g.updateNode n _).nodeIds_invalidate n).trans
        (g.nodeIds_updateNode n _ fun _ => rfl))
  | invalidate n => exact hkept (g.nodeIds_invalidate n)
  | connect a b => exact hkept (hconnect a b)
  | tryConnect a b => exact hkept (hconnect a b)
  | disconnect c =>
      refine hkept ?_
      show (g.disconnect c).2.nodes.map Node.id = _
      unfold disconnect
      split <;> rfl

/-- A new node gets the number of the counter, which moves on. -/
theorem added?_eq_some {r : Revision} {n : NodeId} (h : r.added? = some n) :
    n = ⟨r.before.nextNodeId⟩ ∧ r.after.nextNodeId = r.before.nextNodeId + 1 := by
  obtain ⟨g, e⟩ := r
  cases e with
  | addNode behavior position data =>
      simp only [added?, reply, Graph.reply, addNode_value, Option.some.injEq] at h
      refine ⟨h.symm, ?_⟩
      simp only [after, Graph.edit, addNode_value]
      rfl
  | _ => cases h

/-- Only a node that was there is removed. -/
theorem mem_of_removed? {r : Revision} {n : NodeId} (h : r.removed? = some n) :
    n ∈ r.before.nodes.map Node.id := by
  obtain ⟨g, e⟩ := r
  cases e with
  | removeNode m =>
      cases hm : g.node? m with
      | none =>
          simp only [removed?, reply, Graph.reply, removeNode_missing hm] at h
          cases h
      | some node =>
          simp only [removed?, reply, Graph.reply, removeNode_value hm, Option.some.injEq] at h
          obtain ⟨hmem, hid⟩ := node?_eq_some hm
          exact List.mem_map.2 ⟨node, hmem, hid.trans h⟩
  | _ => cases h

/-- **What an edit does to connections**: it drops some, or it makes one, which gets the number of
the counter and stands behind those that stay. -/
theorem connections_cases (r : Revision) :
    (r.connected? = none ∧ r.after.connections.Sublist r.before.connections) ∨
      ∃ kept x, kept.Sublist r.before.connections ∧ r.after.connections = kept ++ [x] ∧
        r.connected? = some x.id ∧ x.id = ⟨r.before.nextConnectionId⟩ ∧
        r.after.nextConnectionId = r.before.nextConnectionId + 1 := by
  obtain ⟨g, e⟩ := r
  have hconnect : ∀ a b,
      ((g.connect a b).value.1.toOption = none ∧
          (g.connect a b).value.2.connections.Sublist g.connections) ∨
        ∃ kept x, kept.Sublist g.connections ∧
          (g.connect a b).value.2.connections = kept ++ [x] ∧
          (g.connect a b).value.1.toOption = some x.id ∧ x.id = ⟨g.nextConnectionId⟩ ∧
          (g.connect a b).value.2.nextConnectionId = g.nextConnectionId + 1 := by
    intro a b
    rcases g.connect_cases a b with ⟨e, he⟩ | ⟨source, sink, -, -, -, he⟩
    · rw [he]
      exact .inl ⟨rfl, List.Sublist.refl _⟩
    · rw [he]
      exact .inr ⟨g.makeRoom sink, ⟨⟨g.nextConnectionId⟩, source, sink⟩, g.makeRoom_sublist sink,
        rfl, rfl, rfl, rfl⟩
  cases e with
  | addNode behavior position data =>
      refine .inl ⟨rfl, ?_⟩
      simp only [after, Graph.edit, addNode_value]
      exact List.Sublist.refl _
  | removeNode n =>
      refine .inl ⟨rfl, ?_⟩
      cases hn : g.node? n with
      | none =>
          simp only [after, Graph.edit, removeNode_missing hn]
          exact List.Sublist.refl _
      | some node =>
          simp only [after, Graph.edit, removeNode_value hn]
          exact List.filter_sublist
  | setPosition n position =>
      refine .inl ⟨rfl, ?_⟩
      show (g.setPosition n position).2.connections.Sublist _
      unfold setPosition
      split <;> exact List.Sublist.refl _
  | setData n data => exact .inl ⟨rfl, (g.updateNode n _).connections_invalidate n⟩
  | invalidate n => exact .inl ⟨rfl, g.connections_invalidate n⟩
  | connect a b => exact hconnect a b
  | tryConnect a b => exact hconnect a b
  | disconnect c =>
      refine .inl ⟨rfl, ?_⟩
      show (g.disconnect c).2.connections.Sublist _
      unfold disconnect
      split
      · exact List.Sublist.refl _
      · exact List.eraseP_sublist

end Revision

namespace Revision

variable {r : Revision}

/-- A new node has a number that the counter has only now passed. -/
theorem added?_below (counts : r.before.Counts r.edit) {n : NodeId} (h : r.added? = some n) :
    n.raw = r.before.nextNodeId ∧ n.raw < r.after.nextNodeId := by
  obtain ⟨rfl, hnext⟩ := added?_eq_some h
  have hle : r.before.nextNodeId ≤ r.after.nextNodeId := counts.1
  rw [hnext] at hle ⊢
  exact ⟨rfl, Counter.lt_next hle⟩

/-- So has a new connection. -/
theorem connected?_below (counts : r.before.Counts r.edit) {c : ConnectionId}
    (h : r.connected? = some c) :
    c.raw = r.before.nextConnectionId ∧ c.raw < r.after.nextConnectionId := by
  have hle : r.before.nextConnectionId ≤ r.after.nextConnectionId := counts.2
  rcases r.connections_cases with ⟨hnone, -⟩ | ⟨kept, x, -, -, hx, hid, hnext⟩
  · rw [hnone] at h
    cases h
  · rw [hx, Option.some.injEq, hid] at h
    rw [hnext] at hle ⊢
    rw [← h]
    exact ⟨rfl, Counter.lt_next hle⟩

/-- An id that the counter has passed does not come back. -/
theorem missing_after {c : ConnectionId} (hc : r.before.connection? c = none)
    (hlt : c.raw < r.before.nextConnectionId) : r.after.connection? c = none := by
  rw [Graph.connection?_eq_none_iff] at hc ⊢
  rcases r.connections_cases with ⟨-, hsub⟩ | ⟨kept, x, hsub, hafter, -, hid, -⟩
  · exact fun y hy => hc y (hsub.subset hy)
  · intro y hy
    rw [hafter, List.mem_append, List.mem_singleton] at hy
    rcases hy with hy | rfl
    · exact hc y (hsub.subset hy)
    · rintro rfl
      rw [hid] at hlt
      exact UInt32.lt_irrefl _ hlt

end Revision

/-! ### All edits -/

namespace Graph

/-- What ties a graph to its run: whatever was named in it was named by a number that the counters
have passed. -/
structure Remembers (g : Graph) (history : List Revision) : Prop where
  reachable : g.Reachable
  added_below : ∀ n ∈ added history, n.raw < g.nextNodeId
  removed_added : ∀ n ∈ removed history, n ∈ added history
  survivors : g.nodes.map Node.id = (added history).filter fun n => n ∉ removed history
  nodes_ascend : (added history).Pairwise fun m n => m.raw < n.raw
  connected_below : ∀ c ∈ connected history, c.raw < g.nextConnectionId
  seen_below : ∀ r ∈ history, ∀ c, r.before.connection? c ≠ none → c.raw < g.nextConnectionId
  dropped_missing : ∀ r ∈ history, ∀ c, r.Drops c → g.connection? c = none
  connections_ascend : (connected history).Pairwise fun c d => c.raw < d.raw

theorem remembers_empty (catalog : Catalog) : (empty catalog).Remembers [] where
  reachable := .empty catalog
  added_below _ h := by cases h
  removed_added _ h := by cases h
  survivors := rfl
  nodes_ascend := List.Pairwise.nil
  connected_below _ h := by cases h
  seen_below _ h := by cases h
  dropped_missing _ h := by cases h
  connections_ascend := List.Pairwise.nil

section

variable {g : Graph} {history : List Revision}

/-- A node that is there was added. -/
theorem Remembers.added_of_mem (h : g.Remembers history) {n : NodeId}
    (hn : n ∈ g.nodes.map Node.id) : n ∈ added history := by
  rw [h.survivors] at hn
  exact (List.mem_filter.1 hn).1

/-- A new node is none of those that were ever removed. -/
theorem Remembers.survivors_after (h : g.Remembers history) (e : Edit) (counts : g.Counts e) :
    (g.edit e).nodes.map Node.id
      = (added (history ++ [⟨g, e⟩])).filter fun n => n ∉ removed (history ++ [⟨g, e⟩]) := by
  have hafter := Revision.nodeIds_after ⟨g, e⟩
  rw [show (⟨g, e⟩ : Revision).after = g.edit e from rfl] at hafter
  rw [hafter, added, removed, filterMap_concat, filterMap_concat, List.filter_append]
  congr 1
  · rw [h.survivors, List.filter_filter]
    refine List.filter_congr fun n _ => ?_
    simp only [removed, ne_eq, List.mem_append, Option.mem_toList, not_or, Bool.decide_and]
    exact Bool.and_comm _ _
  · refine (List.filter_eq_self.2 fun n hn => ?_).symm
    rw [Option.mem_toList] at hn
    -- The new number is the counter's, and all that were used before lie below it.
    have hnew : n ∉ added history := by
      intro hold
      have hlt := h.added_below n hold
      rw [(Revision.added?_below counts hn).1] at hlt
      exact UInt32.lt_irrefl _ hlt
    rw [decide_eq_true_eq, List.mem_append, Option.mem_toList]
    rintro (hold | hgone)
    · exact hnew (h.removed_added n hold)
    · exact hnew (h.added_of_mem (Revision.mem_of_removed? hgone))

/-- **One edit.** -/
theorem Remembers.step (h : g.Remembers history) (e : Edit) (counts : g.Counts e) :
    (g.edit e).Remembers (history ++ [⟨g, e⟩]) := by
  have hordered := h.reachable.wellFormed.toOrdered
  have hnode : ∀ n ∈ added history, n.raw < (g.edit e).nextNodeId := fun n hn =>
    UInt32.lt_of_lt_of_le (h.added_below n hn) counts.1
  have hconnection : ∀ c : ConnectionId, c.raw < g.nextConnectionId →
      c.raw < (g.edit e).nextConnectionId := fun c hc => UInt32.lt_of_lt_of_le hc counts.2
  have hpresent : ∀ c, g.connection? c ≠ none → c.raw < g.nextConnectionId := by
    intro c hc
    obtain ⟨x, hx⟩ := Option.ne_none_iff_exists'.1 hc
    have hid : x.id = c := by simpa using List.find?_some hx
    rw [← hid]
    exact hordered.connections_below x (List.mem_of_find?_eq_some hx)
  refine
    { reachable := h.reachable.edit e counts
      added_below := fun n hn => ?_
      removed_added := fun n hn => ?_
      survivors := h.survivors_after e counts
      nodes_ascend := ?_
      connected_below := fun c hc => ?_
      seen_below := fun r hr c hc => ?_
      dropped_missing := fun r hr c hc => ?_
      connections_ascend := ?_ }
  · rw [added, filterMap_concat, List.mem_append, Option.mem_toList] at hn
    rcases hn with hold | hnew
    · exact hnode n hold
    · exact (Revision.added?_below counts hnew).2
  · rw [added, filterMap_concat]
    rw [removed, filterMap_concat, List.mem_append, Option.mem_toList] at hn
    rcases hn with hold | hnew
    · exact List.mem_append_left _ (h.removed_added n hold)
    · exact List.mem_append_left _ (h.added_of_mem (Revision.mem_of_removed? hnew))
  · rw [added, filterMap_concat]
    refine List.pairwise_append.2 ⟨h.nodes_ascend, ?_, fun m hm n hn => ?_⟩
    · cases (Revision.added? ⟨g, e⟩) <;> simp
    · rw [(Revision.added?_below counts (Option.mem_toList.1 hn)).1]
      exact h.added_below m hm
  · rw [connected, filterMap_concat, List.mem_append, Option.mem_toList] at hc
    rcases hc with hold | hnew
    · exact hconnection c (h.connected_below c hold)
    · exact (Revision.connected?_below counts hnew).2
  · rcases List.mem_append.1 hr with hold | hnew
    · exact hconnection c (h.seen_below r hold c hc)
    · rw [List.mem_singleton.1 hnew] at hc
      exact hconnection c (hpresent c hc)
  · rcases List.mem_append.1 hr with hold | hnew
    · exact Revision.missing_after (r := ⟨g, e⟩) (h.dropped_missing r hold c hc)
        (h.seen_below r hold c hc.1)
    · rw [List.mem_singleton.1 hnew] at hc
      exact hc.2
  · rw [connected, filterMap_concat]
    refine List.pairwise_append.2 ⟨h.connections_ascend, ?_, fun c hc d hd => ?_⟩
    · cases (Revision.connected? ⟨g, e⟩) <;> simp
    · rw [(Revision.connected?_below counts (Option.mem_toList.1 hd)).1]
      exact h.connected_below c hc

/-- **All edits**, by induction on those that are still to come. -/
theorem Remembers.foldl (h : g.Remembers history) {es : List Edit} (counted : g.Counted es) :
    (es.foldl edit g).Remembers (history ++ g.revisions es) := by
  induction es generalizing g history with
  | nil =>
      rw [revisions, List.append_nil]
      exact h
  | cons e es ih =>
      have hrest := ih (h.step e counted.1) counted.2
      rw [List.append_assoc] at hrest
      exact hrest

end

/-- **Ids never alias.** In every run of edits in which no counter starts over, ids that are given
out later are larger, refusals and removals in between or not; the nodes are those that were added
and not removed, in this order; and an id that has come to miss does so in every later graph. -/
theorem ids_never_alias (catalog : Catalog) {es : List Edit}
    (counted : (empty catalog).Counted es) :
    (es.foldl edit (empty catalog)).NeverAliases ((empty catalog).revisions es) := by
  have h := (remembers_empty catalog).foldl counted
  rw [List.nil_append] at h
  refine
    { nodes_ascend := h.nodes_ascend
      connections_ascend := h.connections_ascend
      survivors := h.survivors
      removed_missing := fun n hn => ?_
      dropped_missing := h.dropped_missing }
  rw [node?_eq_none_iff, h.survivors, List.mem_filter, decide_eq_true_eq]
  exact fun hin => hin.2 hn

end Graph

end

namespace Graph

/-- Five connections are made, and one each is left behind by new ports, replaced, removed, and
taken along by its node. Some edits in between are refused. -/
def turnover : List Edit :=
  [ .addNode Behavior.sequence.id .origin .null
  , .addNode Behavior.shape.id .origin .null
  , .addNode Behavior.constantInt.id .origin .null
  , .addNode Behavior.constantInt.id .origin .null
  , .addNode Behavior.addInt.id .origin .null
  , .connect ⟨⟨1⟩, ⟨1⟩⟩ ⟨⟨2⟩, ⟨0⟩⟩
  , .setData ⟨2⟩ (.object [("mode", .int 1)])
  , .connect ⟨⟨2⟩, ⟨0⟩⟩ ⟨⟨3⟩, ⟨0⟩⟩
  , .tryConnect ⟨⟨4⟩, ⟨0⟩⟩ ⟨⟨2⟩, ⟨0⟩⟩
  , .connect ⟨⟨3⟩, ⟨0⟩⟩ ⟨⟨5⟩, ⟨0⟩⟩
  , .connect ⟨⟨5⟩, ⟨0⟩⟩ ⟨⟨3⟩, ⟨0⟩⟩
  , .disconnect ⟨4⟩
  , .connect ⟨⟨3⟩, ⟨0⟩⟩ ⟨⟨5⟩, ⟨1⟩⟩
  , .removeNode ⟨3⟩
  , .removeNode ⟨3⟩
  , .disconnect ⟨4⟩
  , .addNode Behavior.constantText.id .origin .null ]

theorem ids_never_alias_turnover :
    (empty .full).Counted turnover ∧
      connected ((empty .full).revisions turnover) = [⟨1⟩, ⟨2⟩, ⟨3⟩, ⟨4⟩, ⟨5⟩] ∧
      (turnover.foldl edit (empty .full)).nodes.map Node.id = [⟨1⟩, ⟨2⟩, ⟨4⟩, ⟨5⟩, ⟨6⟩] ∧
      (turnover.foldl edit (empty .full)).connections.map Connection.id = [⟨3⟩] ∧
      (turnover.foldl edit (empty .full)).NeverAliases ((empty .full).revisions turnover) := by
  have hcounted := counted_empty .full turnover (by decide)
  exact ⟨hcounted, by decide +kernel, by decide +kernel, by decide +kernel,
    ids_never_alias .full hcounted⟩

end Graph

end FlowGraph
