import FlowGraph.Proofs.Engine.Population
import FlowGraph.Proofs.Graph.Connections

/-!
# Who is told, and in which order

The steps of an engine's life are told to its nodes one after the other. A program keeps its nodes
in the order of their ids, which is the order of all steps but the last; tearing down goes the other
way round. Addresses of released nodes are still among them and are passed over. What a node does
when it is told may run the hooks of any other node, but those are told of nothing by that, nor is
anybody told earlier or later.

* `Turn.deliveries` — the nodes that are told of events in a turn.
* `Engine.present` — the nodes that are there, in the order of the program.
* `Engine.schedule` — whom a step of a life has to tell of what.
* `Engine.deliveries_eq` — a step that succeeds keeps to it.
* `Graph.Compiles.mem_present_iff` — who is there after a run.
* `Graph.Reachable.broadcasts_in_order` — engines of compiled graphs.
-/

namespace FlowGraph

/-! ### Deliveries -/

/-- The node and the event that it is told of, if that is what the mark says. -/
def Mark.delivery? : Mark → Option (PackedAddress × LifecycleEvent)
  | .told a event => some (a, event)
  | .entered _ => none

/-- The node and the event that it is told of, if that is what happened. -/
def Happening.delivery? : Happening → Option (PackedAddress × LifecycleEvent)
  | .hook a (.lifecycle event) => some (a, event)
  | .hook .. | .message .. | .entered _ | .notice _ => none

theorem Happening.delivery?_eq (x : Happening) : x.delivery? = x.mark?.bind Mark.delivery? := by
  cases x with
  | hook a hook => cases hook <;> rfl
  | message a text => rfl
  | entered s => rfl
  | notice n => rfl

section

variable [Repertoire]

/-- The nodes that are told of events in a turn, in order, with the events. They are those that the
journal gains, at whatever nesting. -/
def Turn.deliveries (t : Turn) : List (PackedAddress × LifecycleEvent) :=
  (t.after.journal.drop t.before.journal.length).filterMap Happening.delivery?

/-- In a turn, nodes are told of what is due. -/
theorem Turn.deliveries_due (t : Turn) :
    t.deliveries = (t.before.due t.operation).filterMap Mark.delivery? := by
  obtain ⟨news, hnews, hmarks⟩ := t.before.tells_operate t.operation
  have hgain : t.after.journal = t.before.journal ++ news := hnews
  rw [Turn.deliveries, hgain, List.drop_left, ← hmarks, List.filterMap_filterMap,
    ← funext Happening.delivery?_eq]

namespace Engine

variable {e : Engine}

/-! ### Schedules -/

/-- The nodes that are there, each with its address, in the order of the program. -/
def present (e : Engine) : Placement := e.placement.filter fun x => e.world.isLive x.2

theorem present_after (P : Program) (limit : Nat) (ops : List Operation) :
    ((ofProgram P limit).after ops).present
      = P.placement.filter fun x => ((ofProgram P limit).after ops).world.isLive x.2 := by
  rw [present, placement_after]

/-- Every node that is there is told of an event, in the order of the program. -/
def toEach (e : Engine) (event : LifecycleEvent) : List (PackedAddress × LifecycleEvent) :=
  e.present.addresses.map fun a => (a, event)

/-- Whom an operation has to tell of what, if it succeeds. Who is there is settled beforehand. -/
def schedule (e : Engine) : Operation → List (PackedAddress × LifecycleEvent)
  | .bringUp => e.toEach .setUp
  | .enable => e.toEach .enable
  | .disable => e.toEach .disable
  | .start => e.toEach .start
  | .tearDown =>
    (if e.state = .enabled then e.toEach .disable else []) ++ (e.toEach .tearDown).reverse
  | .call .. | .read .. | .release _ => []

/-- What a broadcast tells. -/
theorem delivery?_told (e : Engine) (event : LifecycleEvent) (order : List PackedAddress) :
    (e.told event order).filterMap Mark.delivery?
      = (order.filter e.world.isLive).map fun a => (a, event) := by
  rw [told, List.filterMap_map]
  exact congrFun List.filterMap_eq_map _

/-- A broadcast to all nodes tells those that are there. -/
theorem delivery?_toEach (horder : e.order = e.placement.addresses) (event : LifecycleEvent) :
    (e.told event e.order).filterMap Mark.delivery? = e.toEach event := by
  rw [delivery?_told, horder, Placement.addresses, List.filter_map]
  rfl

/-- One in reverse order tells them in reverse order. -/
theorem delivery?_toEachBack (horder : e.order = e.placement.addresses) (event : LifecycleEvent) :
    (e.told event e.order.reverse).filterMap Mark.delivery? = (e.toEach event).reverse := by
  rw [delivery?_told, List.filter_reverse, List.map_reverse, ← delivery?_told,
    delivery?_toEach horder]

/-- What succeeds is allowed in the state that the engine is in. -/
theorem mem_of_guarded {allowed : List EngineState} {action : String} {go : Engine → Engine}
    (h : (e.guarded allowed action go).1 = .ok ()) : e.state ∈ allowed := by
  refine Decidable.byContradiction fun hstate => ?_
  rw [e.guarded_refused allowed action go hstate] at h
  cases h

/-- **A step that succeeds** tells whom it has to tell, and nobody else. -/
theorem deliveries_eq (horder : e.order = e.placement.addresses) {op : Operation}
    (h : (e.operate op).1 = .moved (.ok ())) : (⟨e, op⟩ : Turn).deliveries = e.schedule op := by
  have hmarks : ∀ (event : LifecycleEvent) (s : EngineState),
      (e.told event e.order ++ [Mark.entered s]).filterMap Mark.delivery? = e.toEach event := by
    intro event s
    rw [List.filterMap_append, delivery?_toEach horder]
    exact List.append_nil _
  rw [Turn.deliveries_due]
  simp only
  cases op with
  | bringUp | enable | disable =>
      have hstate := mem_of_guarded (Reply.moved.inj h)
      rw [due, if_pos (by simpa using hstate), hmarks]
      rfl
  | start =>
      have hstart : e.start.1 = .ok () := Reply.moved.inj h
      unfold start at hstart
      split at hstart
      · cases hstart
      · next hnew =>
        have hrunning : e.isRunning = true := (mem_running_iff e.state).1 (mem_of_guarded hstart)
        rw [due, if_pos ⟨by simpa using hnew, hrunning⟩, delivery?_toEach horder]
        rfl
  | tearDown =>
      have hrunning : e.isRunning = true :=
        (mem_running_iff e.state).1 (mem_of_guarded (Reply.moved.inj h))
      have hback : (e.told .tearDown e.order.reverse ++ [Mark.entered .deInitialized]).filterMap
          Mark.delivery? = (e.toEach .tearDown).reverse := by
        rw [List.filterMap_append, delivery?_toEachBack horder]
        exact List.append_nil _
      have hfront : (if e.state = .enabled then e.told .disable e.order ++ [.entered .disabled]
          else []).filterMap Mark.delivery?
            = if e.state = .enabled then e.toEach .disable else [] := by
        split
        · exact hmarks .disable .disabled
        · rfl
      rw [due, if_pos hrunning, List.filterMap_append, hfront, hback]
      rfl
  | call a port => cases h
  | read a port type default => cases h
  | release a => cases h

end Engine

/-! ### Engines of compiled graphs -/

namespace Graph.Compiles

variable {g : Graph} {config : PoolConfig} {P : Program}

/-- Whoever was placed is there, unless it was released. -/
theorem isLive_after_iff (hP : g.Compiles config P) (h : g.WellFormed) (limit : Nat)
    (ops : List Operation) (a : PackedAddress) :
    ((Engine.ofProgram P limit).after ops).world.isLive a = true ↔
      a ∈ P.placement.addresses ∧ Operation.release a ∉ ops := by
  rw [(hP.sound h limit).isLive_after, hP.isLive_iff h, hP.order, hP.placement]

/-- Nodes that are there have the addresses that they were given. -/
theorem mem_present_iff (hP : g.Compiles config P) (h : g.WellFormed) (limit : Nat)
    (ops : List Operation) (n : NodeId) (a : PackedAddress) :
    (n, a) ∈ ((Engine.ofProgram P limit).after ops).present ↔
      P.addressOf? n = some a ∧ Operation.release a ∉ ops := by
  have hmem : (n, a) ∈ P.placement ↔ P.addressOf? n = some a :=
    ⟨(hP.proper h).find?_of_mem, Placement.mem_of_find?⟩
  rw [Engine.present_after, List.mem_filter, hmem, hP.isLive_after_iff h]
  exact ⟨fun hboth => ⟨hboth.1, hboth.2.2⟩, fun hboth =>
    ⟨hboth.1, Placement.mem_addresses_of_find? hboth.1, hboth.2⟩⟩

/-- Whoever is there is a node of the program. -/
theorem mem_addresses_present_iff (hP : g.Compiles config P) (h : g.WellFormed) (limit : Nat)
    (ops : List Operation) (a : PackedAddress) :
    a ∈ ((Engine.ofProgram P limit).after ops).present.addresses ↔
      ((Engine.ofProgram P limit).after ops).world.isLive a = true := by
  rw [Engine.present_after, Placement.addresses, List.mem_map]
  constructor
  · rintro ⟨x, hx, rfl⟩
    exact (List.mem_filter.1 hx).2
  · intro ha
    obtain ⟨x, hx, rfl⟩ := List.mem_map.1 ((hP.isLive_after_iff h limit ops a).1 ha).1
    exact ⟨x, List.mem_filter.2 ⟨hx, ha⟩, rfl⟩

end Graph.Compiles

/-- **Broadcasts are in order.** Take the engine of a compiled graph at any point of a run,
whichever nodes have been released by then. Those that are there are told of set-up, enabling,
disabling and start in the order of their ids, and of tearing down in exactly the reverse order,
after they have been told of disabling if the engine was enabled; each of them once, and nobody
else, whatever hooks are run meanwhile. -/
theorem Graph.Reachable.broadcasts_in_order {g : Graph} (hg : g.Reachable) (config : PoolConfig)
    (limit : Nat) (ops : List Operation) :
    let P := (g.compile config).value
    let e := (Engine.ofProgram P limit).after ops
    e.present.Pairwise (fun x y => x.1.raw < y.1.raw) ∧ e.present.addresses.Nodup ∧
      (∀ n a, (n, a) ∈ e.present ↔ P.addressOf? n = some a ∧ Operation.release a ∉ ops) ∧
      (∀ a, a ∈ e.present.addresses ↔ e.world.isLive a = true) ∧
      ∀ op, (e.operate op).1 = .moved (.ok ()) → (⟨e, op⟩ : Turn).deliveries = e.schedule op := by
  intro P e
  have h := hg.wellFormed
  have hP := h.compiles config
  have horder : e.order = e.placement.addresses := by
    rw [Engine.order, Engine.links_after, Engine.placement_after]
    exact hP.order.trans (congrArg Placement.addresses hP.placement.symm)
  refine ⟨?_, ?_, hP.mem_present_iff h limit ops, hP.mem_addresses_present_iff h limit ops,
    fun op hop => Engine.deliveries_eq horder hop⟩
  · rw [Engine.present_after, hP.placement]
    exact (h.toOrdered.placed_ascending config).filter _
  · rw [Engine.present_after, Placement.addresses]
    exact (hP.proper h).addresses.sublist (List.filter_sublist.map Prod.snd)

end

/-- The sample, torn down while it is enabled, after its counter was released. -/
theorem Graph.Reachable.broadcasts_in_order_sample :
    let counter := PackedAddress.pack ⟨3⟩ ⟨1⟩
    let e := (Engine.ofProgram (Sample.graph.value.compile .standard).value defaultDepth).after
      [.bringUp, .enable, .release counter]
    let told := (⟨e, .tearDown⟩ : Turn).deliveries
    Sample.graph.value.Reachable ∧ told = e.schedule .tearDown ∧ told.length = 18 ∧
      told.head? = some (.pack ⟨1⟩ ⟨1⟩, .disable) ∧
      told.getLast? = some (.pack ⟨1⟩ ⟨1⟩, .tearDown) ∧ counter ∉ told.map Prod.fst := by
  intro counter e told
  obtain ⟨-, -, -, -, htold⟩ := Graph.Reachable.broadcasts_in_order Sample.graph_reachable .standard
    defaultDepth [.bringUp, .enable, .release counter]
  have hstate : e.state = .enabled ∧ (e.schedule .tearDown).length = 18 ∧
      (e.schedule .tearDown).head? = some (.pack ⟨1⟩ ⟨1⟩, .disable) ∧
      (e.schedule .tearDown).getLast? = some (.pack ⟨1⟩ ⟨1⟩, .tearDown) ∧
      counter ∉ (e.schedule .tearDown).map Prod.fst := by
    decide +kernel
  have hsuccess : (e.operate .tearDown).1 = .moved (.ok ()) := by
    have hrunning : e.state ∈ Engine.running := by
      rw [hstate.1]
      decide
    show Reply.moved e.tearDown.1 = _
    rw [Engine.tearDown, Engine.guarded, if_pos hrunning]
  have hall := htold .tearDown hsuccess
  obtain ⟨-, hlength, hhead, hlast, hgone⟩ := hstate
  rw [← hall] at hlength hhead hlast hgone
  exact ⟨Sample.graph_reachable, hall, hlength, hhead, hlast, hgone⟩

end FlowGraph
