import FlowGraph.Proofs.Engine.Pairs
import FlowGraph.Proofs.Engine.Trace

/-!
# What holds at every moment

A hook begins and, a few steps on, the node asks for something, speaks or is done. In between a
property of the world may be broken, and nobody is the wiser as long as it is restored in time. Once
the node asks, anything may go on before it gets an answer: the property has to hold by then, and
that is all that the node can count on when it goes on itself. A property that every hook restores
in this way holds at every moment of every operation, however hooks nest and whichever node is
called again while it waits.

* `Action.Upholds` — a tree of actions that restores a property in time, step by step.
* `World.Upheld` — properties that every hook restores.
* `Trace.Throughout`, `Server.Upholds` — they hold all the time a request is answered.
* `World.Upheld.serve` — so it is for every request, by induction on the nesting allowed.
* `World.Upheld.operate`, `World.Upheld.after` — and for every operation, and every run.
-/

namespace FlowGraph

variable [Repertoire]

/-! ### Hooks that restore a property -/

namespace Action

variable {α : Type} {P : World → Prop} {self : PackedAddress}

/-- A property holds whenever a node that runs these actions asks, speaks or is done. When it asks
it knows nothing of the world in which it gets an answer, except for the property. -/
def Upholds (P : World → Prop) (self : PackedAddress) : Action α → World → Prop
  | .done _, w => P w
  | .ask _ next, w => P w ∧ ∀ x v, P v → (next x).Upholds P self v
  | .say m next, w => P w ∧ next.Upholds P self (World.stage.say self m w)
  | .setCount n next, w => next.Upholds P self (World.stage.setCount self n w)

/-- What neither messages nor counts of a node can break is upheld by whatever it does. -/
theorem upholds_of_kept (say : ∀ m w, P w → P (World.stage.say self m w))
    (setCount : ∀ n w, P w → P (World.stage.setCount self n w)) (t : Action α) {w : World}
    (hw : P w) : t.Upholds P self w := by
  induction t generalizing w with
  | done x => exact hw
  | ask r next ih => exact ⟨hw, fun x v hv => ih x hv⟩
  | say m next ih => exact ⟨hw, ih (say m w hw)⟩
  | setCount n next ih => exact ih (setCount n w hw)

end Action

/-- A property of worlds that every hook of a node restores after it began, and that nothing else
which happens can break. -/
structure World.Upheld (P : World → Prop) : Prop where
  record : ∀ {w} {x : Happening}, x.hook? = none → P w → P (w.record x)
  event : ∀ {w a i} (event : LifecycleEvent), w.pools.find? a = some i → P w →
    (i.onEvent event).Upholds P a (w.record (.hook a (.lifecycle event)))
  control : ∀ {w a i} (port : PortIndex), w.pools.find? a = some i → P w →
    (i.onControl port).Upholds P a (w.record (.hook a (.control port)))
  produce : ∀ {w a i} (port : PortIndex) (type : DataType), w.pools.find? a = some i → P w →
    (i.produce a port (OutputSlot.empty : OutputSlot type)).Upholds P a
      (w.record (.hook a (.produce port)))
  offer : ∀ {w} (a : PackedAddress) (port : PortIndex), P w → P (w.record (.hook a (.offer port)))

/-! ### All the time -/

/-- A property holds at every moment of what goes on, and in the world that it leads to. -/
def Trace.Throughout (P : World → Prop) (t : Trace) (w : World) : Prop :=
  (∀ v ∈ t.moments, P v) ∧ P w

namespace Trace.Throughout

variable {P : World → Prop} {t u : Trace} {v w : World}

theorem done (hw : P w) : Trace.done.Throughout P w := ⟨nofun, hw⟩

theorem moment (hv : P v) (h : t.Throughout P w) : (Trace.moment v t).Throughout P w :=
  ⟨List.forall_mem_cons.2 ⟨hv, h.1⟩, h.2⟩

theorem append (ht : t.Throughout P v) (hu : u.Throughout P w) :
    (t.append u).Throughout P w := by
  refine ⟨?_, hu.2⟩
  rw [moments_append, List.forall_mem_append]
  exact ⟨ht.1, hu.1⟩

theorem hook (a : PackedAddress) (h : Hook) (ht : t.Throughout P v) (hu : u.Throughout P w) :
    (Trace.hook a h t u).Throughout P w :=
  ⟨List.forall_mem_append.2 ⟨ht.1, hu.1⟩, hu.2⟩

/-- A hook and nothing after it. -/
theorem hook_done (a : PackedAddress) (h : Hook) (ht : t.Throughout P w) :
    (Trace.hook a h t .done).Throughout P w :=
  ht.hook a h (.done ht.2)

end Trace.Throughout

/-- A server during all of whose answers a property holds. -/
def Server.Upholds (server : Server) (tracer : Tracer) (P : World → Prop) : Prop :=
  ∀ a r {w}, P w → (tracer a r w).Throughout P (server a r w).2

namespace World.Upheld

variable {P : World → Prop} {server : Server} {tracer : Tracer} {w : World}

theorem run {α : Type} (h : server.Upholds tracer P) (self : PackedAddress) (t : Action α)
    (ht : t.Upholds P self w) :
    (t.trace server tracer self w).Throughout P (server.run self t w).2 := by
  induction t generalizing w with
  | done x => exact .moment ht (.done ht)
  | ask r next ih =>
      have hasked := h self r ht.1
      exact hasked.append (ih _ (ht.2 _ _ hasked.2))
  | say m next ih => exact .moment ht.1 (ih ht.2)
  | setCount n next ih => exact ih ht

theorem deliver (hP : Upheld P) (h : server.Upholds tracer P) (a : PackedAddress)
    (port : PortIndex) (target : LinkEntry) (hw : P w) :
    (server.traceDeliver tracer w target).Throughout P (server.deliver a port w target) := by
  unfold Server.traceDeliver Server.deliver
  split
  · exact .done hw
  · cases hi : w.pools.find? target.address with
    | none => exact .done (hP.record rfl hw)
    | some i => exact .hook_done _ _ (run h _ _ (hP.control target.port hi hw))

theorem offered (hP : Upheld P) (a : PackedAddress) (port : PortIndex) (producer : LinkEntry)
    (type : DataType) (default : type.Carrier) (hw : P w) :
    P (w.offered a port producer type default).2 := by
  have hhook := hP.offer producer.address producer.port hw
  unfold World.offered
  simp only
  split
  · exact hhook
  · split
    · exact hhook
    · exact hP.record rfl hhook

theorem fetch (hP : Upheld P) (h : server.Upholds tracer P) (a : PackedAddress)
    (port : PortIndex) (producer : LinkEntry) (type : DataType) (default : type.Carrier)
    (hw : P w) :
    (server.traceFetch tracer producer type w).Throughout P
      (server.fetch a port producer type default w).2 := by
  unfold Server.traceFetch Server.fetch
  split
  · exact .done hw
  · cases hi : w.pools.find? producer.address with
    | none => exact .done (hP.record rfl hw)
    | some i =>
        have hrun := run h producer.address _ (hP.produce producer.port type hi hw)
        simp only
        generalize server.run producer.address _
          (w.record (.hook producer.address (.produce producer.port))) = out at hrun ⊢
        obtain ⟨⟨claimed, slot⟩, v⟩ := out
        have hoffer := hP.offer producer.address producer.port hrun.2
        have hasked := hrun.hook producer.address (.produce producer.port)
          (Trace.Throughout.hook_done producer.address (.offer producer.port)
            (.moment hoffer (.done (hP.offered a port producer type default hrun.2))))
        cases claimed with
        | false => exact hasked
        | true =>
            obtain ⟨content⟩ := slot
            cases content with
            | none => exact hasked
            | some x => exact hrun.hook_done _ _

theorem sequence {α : Type} {step : World → α → World} {part : World → α → Trace}
    (hstep : ∀ {w} x, P w → (part w x).Throughout P (step w x)) (xs : List α) (hw : P w) :
    (Trace.sequence step part xs w).Throughout P (xs.foldl step w) := by
  induction xs generalizing w with
  | nil => exact .moment hw (.done hw)
  | cons x xs ih => exact .moment hw ((hstep x hw).append (ih (hstep x hw).2))

/-- **Requests.** What every hook restores holds all the time a request is answered. -/
theorem serve (hP : Upheld P) (links : LinkTable) (limit allowed : Nat) :
    (FlowGraph.serve links limit allowed).Upholds (traceOf links limit allowed) P := by
  induction allowed with
  | zero =>
      intro a r w hw
      have hnoted : P (w.note (.depthReached limit a r.port)) := hP.record rfl hw
      rw [serve_zero]
      exact .moment hw (.moment hnoted (.done hnoted))
  | succ allowed ih =>
      intro a r w hw
      cases r with
      | call port => exact sequence (hP.deliver ih a port) (links.links a port) hw
      | read port type default =>
          rw [traceOf, FlowGraph.serve]
          cases (links.links a port).head? with
          | none => exact .moment hw (.moment hw (.done hw))
          | some producer =>
              have hfetched := hP.fetch ih a port producer type default hw
              exact .moment hw (hfetched.append (.moment hfetched.2 (.done hfetched.2)))

theorem notify (hP : Upheld P) (h : server.Upholds tracer P) (event : LifecycleEvent)
    (a : PackedAddress) (hw : P w) :
    (server.traceNotify tracer event w a).Throughout P (World.notify server event w a) := by
  unfold Server.traceNotify World.notify
  cases hi : w.pools.find? a with
  | none => exact .done (hP.record rfl hw)
  | some i => exact .hook_done _ _ (run h _ _ (hP.event event hi hw))

theorem noteAll (hP : Upheld P) (ns : List Notice) (hw : P w) : P (w.noteAll ns) := by
  unfold World.noteAll
  induction ns generalizing w with
  | nil => exact hw
  | cons n ns ih => exact ih (hP.record rfl hw)

/-! ### Operations -/

variable {e : Engine}

theorem ofEngine (hP : Upheld P) (e : Engine) : e.server.Upholds e.tracer P :=
  hP.serve e.links e.limit e.limit

theorem broadcast (hP : Upheld P) (event : LifecycleEvent) (order : List PackedAddress)
    (h : P e.world) :
    (e.traceBroadcast event order).Throughout P (e.broadcast event order).world :=
  sequence (hP.notify (hP.ofEngine e) event) order h

/-- A broadcast and the state that it leads to. -/
theorem move (hP : Upheld P) (event : LifecycleEvent) (order : List PackedAddress)
    (s : EngineState) (h : P e.world) :
    (e.traceBroadcast event order).Throughout P ((e.broadcast event order).enter s).world := by
  have htold := hP.broadcast event order h
  exact ⟨htold.1, hP.record rfl (hP.record rfl htold.2)⟩

/-- What is refused changes nothing. -/
theorem guarded {allowed : List EngineState} {action : String} {go : Engine → Engine} {t : Trace}
    (h : P e.world) (hgo : t.Throughout P (go e).world) :
    (if e.state ∈ allowed then t else .done).Throughout P
      (e.guarded allowed action go).2.world := by
  unfold Engine.guarded
  split
  · exact hgo
  · exact .done h

theorem start (hP : Upheld P) (h : P e.world) : (e.trace .start).Throughout P e.start.2.world := by
  have hstarted : P (({ e with started := true } : Engine).record (.notice .engineStarted)).world :=
    hP.record rfl h
  rw [Engine.trace, Engine.start]
  split
  · exact .done h
  · exact guarded h (hP.broadcast .start e.order hstarted)

theorem tearDown (hP : Upheld P) (h : P e.world) :
    (e.trace .tearDown).Throughout P e.tearDown.2.world := by
  have hfirst : (if e.state = .enabled then e.traceBroadcast .disable e.order
      else .done).Throughout P (if e.state = .enabled then e.disable.2 else e).world := by
    split
    · next hs =>
      unfold Engine.disable Engine.guarded
      rw [if_pos (by simp [hs])]
      exact hP.move .disable e.order .disabled h
    · exact .done h
  exact guarded h (hfirst.append (hP.move .tearDown _ .deInitialized hfirst.2))

theorem call (hP : Upheld P) (a : PackedAddress) (port : PortIndex) (h : P e.world) :
    (e.trace (.call a port)).Throughout P (e.call a port).world := by
  rw [Engine.trace, Engine.call]
  split
  · exact hP.ofEngine e a (.call port) h
  · exact .done (hP.record rfl h)

theorem read (hP : Upheld P) (a : PackedAddress) (port : PortIndex) (type : DataType)
    (default : type.Carrier) (h : P e.world) :
    (e.trace (.read a port type default)).Throughout P
      (e.read a port type default).2.world := by
  rw [Engine.trace, Engine.read]
  split
  · exact hP.ofEngine e a (.read port type default) h
  · exact .done (hP.record rfl h)

theorem release (hP : Upheld P) (a : PackedAddress) (h : P e.world)
    (hrelease : ∀ w, P w → P (w.without a)) :
    (e.trace (.release a)).Throughout P (e.release a).2.world := by
  rw [Engine.trace, Engine.release]
  split
  · exact .done h
  · have htold : (if e.isRunning then e.server.traceNotify e.tracer .tearDown e.world a
        else .done).Throughout P
          (if e.isRunning then World.notify e.server .tearDown e.world a else e.world) := by
      split
      · exact hP.notify (hP.ofEngine e) .tearDown a h
      · exact .done h
    exact ⟨htold.1, hP.noteAll _ (hrelease _ htold.2)⟩

/-- **One operation.** What every hook restores holds all the time it is carried out, if releases
keep it. -/
theorem operate (hP : Upheld P) (op : Operation) (h : P e.world)
    (hrelease : ∀ a, op = .release a → ∀ w, P w → P (w.without a)) :
    (e.trace op).Throughout P (e.operate op).2.world := by
  cases op with
  | bringUp => exact guarded h (hP.move .setUp e.order .initialized h)
  | enable => exact guarded h (hP.move .enable e.order .enabled h)
  | disable => exact guarded h (hP.move .disable e.order .disabled h)
  | start => exact hP.start h
  | tearDown => exact hP.tearDown h
  | call a port => exact hP.call a port h
  | read a port type default => exact hP.read a port type default h
  | release a => exact hP.release a h (hrelease a rfl)

/-- Hence it holds at all its moments. -/
theorem moments (hP : Upheld P) (op : Operation) (h : P e.world)
    (hrelease : ∀ a, op = .release a → ∀ w, P w → P (w.without a)) :
    ∀ w ∈ e.moments op, P w := by
  have hall := hP.operate op h hrelease
  rw [Engine.moments, List.forall_mem_cons, List.forall_mem_append, List.forall_mem_singleton]
  exact ⟨h, hall.1, hall.2⟩

/-- **A run.** It holds whenever an operation is over. -/
theorem after (hP : Upheld P) (ops : List Operation) (h : P e.world)
    (hrelease : ∀ a, Operation.release a ∈ ops → ∀ w, P w → P (w.without a)) :
    P (e.after ops).world := by
  induction ops generalizing e with
  | nil => exact h
  | cons op ops ih =>
      have hfirst : P (e.operate op).2.world := by
        refine (hP.operate op h fun a ha => hrelease a ?_).2
        rw [ha]
        exact List.mem_cons_self
      exact ih hfirst fun a ha => hrelease a (List.mem_cons_of_mem _ ha)

end World.Upheld

end FlowGraph
