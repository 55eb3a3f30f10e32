import FlowGraph.Proofs.Engine.Lockstep
import FlowGraph.Proofs.Engine.Operations

/-!
# Two engines side by side

Take two engines that run one program, under one limit and from one state, whose worlds differ in
something that dispatch does not look at. Ask the same of both: they give the same reply, and their
worlds still differ in nothing else. So what goes in lockstep through small steps does so through
whole operations, a release apart, which does more to a world than dispatch can. What holds of one
world through an operation is the case of an engine beside itself.

* `Engine.Beside` — engines that differ in their worlds only.
* `World.Lockstep.operate` — one operation asked of both.
* `World.Steady.operate`, `World.Steady.after` — properties of one world through operations.
-/

namespace FlowGraph

variable [Repertoire]

/-! ### Engines side by side -/

/-- A world after an instance was given up. -/
def World.without (w : World) (a : PackedAddress) : World :=
  { w with pools := (w.pools.release a).value.2 }

/-- An engine, and one that differs from it in its world at most, which is related. -/
def Engine.Beside (R : World → World → Prop) (e e' : Engine) : Prop :=
  ∃ w, R e.world w ∧ e' = { e with world := w }

namespace Engine.Beside

variable {R : World → World → Prop} {e e' : Engine}

theorem state (h : e.Beside R e') : e'.state = e.state := by
  obtain ⟨w, -, rfl⟩ := h
  rfl

theorem started (h : e.Beside R e') : e'.started = e.started := by
  obtain ⟨w, -, rfl⟩ := h
  rfl

theorem order (h : e.Beside R e') : e'.order = e.order := by
  obtain ⟨w, -, rfl⟩ := h
  rfl

theorem isRunning (h : e.Beside R e') : e'.isRunning = e.isRunning :=
  congrArg EngineState.isRunning h.state

theorem server (h : e.Beside R e') : e'.server = e.server := by
  obtain ⟨w, -, rfl⟩ := h
  rfl

theorem world (h : e.Beside R e') : R e.world e'.world := by
  obtain ⟨w, hw, rfl⟩ := h
  exact hw

end Engine.Beside

namespace World.Lockstep

variable {R : World → World → Prop} {e e' : Engine}

theorem server (hR : Lockstep R) (e : Engine) : e.server.InLockstep R :=
  hR.serve e.links e.limit e.limit

/-- A broadcast and the state that it leads to. -/
theorem move (hR : Lockstep R) (event : LifecycleEvent) {order order' : List PackedAddress}
    (horder : order' = order) (s : EngineState) (h : e.Beside R e') :
    ((e.broadcast event order).enter s).Beside R ((e'.broadcast event order').enter s) := by
  obtain ⟨w, hw, rfl⟩ := h
  rw [horder]
  have htold := hR.broadcast (hR.server e) event order hw
  exact ⟨_, hR.record (.entered s) nofun (hR.note (.engineMoved e.state s) htold), rfl⟩

/-- Both do what is asked, or both refuse. -/
theorem guarded {allowed : List EngineState} {action : String} {go : Engine → Engine}
    (h : e.Beside R e') (hgo : (go e).Beside R (go e')) :
    (e.guarded allowed action go).1 = (e'.guarded allowed action go).1 ∧
      (e.guarded allowed action go).2.Beside R (e'.guarded allowed action go).2 := by
  unfold Engine.guarded
  rw [h.state]
  split
  · exact ⟨rfl, hgo⟩
  · exact ⟨rfl, h⟩

theorem disable (hR : Lockstep R) (h : e.Beside R e') :
    e.disable.1 = e'.disable.1 ∧ e.disable.2.Beside R e'.disable.2 :=
  guarded h (hR.move .disable h.order .disabled h)

theorem tearDown (hR : Lockstep R) (h : e.Beside R e') :
    e.tearDown.1 = e'.tearDown.1 ∧ e.tearDown.2.Beside R e'.tearDown.2 := by
  have hfirst : (if e.state = .enabled then e.disable.2 else e).Beside R
      (if e'.state = .enabled then e'.disable.2 else e') := by
    rw [h.state]
    split
    · exact (hR.disable h).2
    · exact h
  exact guarded h (hR.move .tearDown (congrArg List.reverse hfirst.order) .deInitialized hfirst)

theorem start (hR : Lockstep R) (h : e.Beside R e') :
    e.start.1 = e'.start.1 ∧ e.start.2.Beside R e'.start.2 := by
  have hgo : ((({ e with started := true }).record (.notice .engineStarted)).broadcast .start
      e.order).Beside R
        ((({ e' with started := true }).record (.notice .engineStarted)).broadcast .start
          e'.order) := by
    obtain ⟨w, hw, rfl⟩ := h
    exact ⟨_, hR.broadcast (hR.server e) .start e.order (hR.note .engineStarted hw), rfl⟩
  unfold Engine.start
  rw [h.started]
  split
  · exact ⟨by rw [h.state], h⟩
  · exact guarded h hgo

theorem answer (hR : Lockstep R) (a : PackedAddress) (r : Request) (h : e.Beside R e') :
    (e.answer a r).1 = (e'.answer a r).1 ∧ (e.answer a r).2.Beside R (e'.answer a r).2 := by
  obtain ⟨w, hw, rfl⟩ := h
  obtain ⟨hanswer, hstate⟩ := (hR.server e).answer a r hw
  exact ⟨hanswer, _, hstate, rfl⟩

theorem notice (hR : Lockstep R) (n : Notice) (h : e.Beside R e') :
    (e.record (.notice n)).Beside R (e'.record (.notice n)) := by
  obtain ⟨w, hw, rfl⟩ := h
  exact ⟨_, hR.note n hw, rfl⟩

theorem call (hR : Lockstep R) (a : PackedAddress) (port : PortIndex) (h : e.Beside R e') :
    (e.call a port).Beside R (e'.call a port) := by
  unfold Engine.call
  rw [h.isRunning, h.state]
  split
  · exact (hR.answer a (.call port) h).2
  · exact hR.notice _ h

theorem read (hR : Lockstep R) (a : PackedAddress) (port : PortIndex) (type : DataType)
    (default : type.Carrier) (h : e.Beside R e') :
    (e.read a port type default).1 = (e'.read a port type default).1 ∧
      (e.read a port type default).2.Beside R (e'.read a port type default).2 := by
  unfold Engine.read
  rw [h.isRunning, h.state]
  split
  · exact hR.answer a (.read port type default) h
  · exact ⟨rfl, hR.notice _ h⟩

theorem release (hR : Lockstep R) (a : PackedAddress) (h : e.Beside R e')
    (hrelease : ∀ w w', R w w' → R (w.without a) (w'.without a)) :
    (e.release a).1 = (e'.release a).1 ∧ (e.release a).2.Beside R (e'.release a).2 := by
  have hthere : e'.pools.contains a = e.pools.contains a := by
    rw [Engine.pools, Engine.pools, hR.pools h.world]
  have htold : R (if e.isRunning then World.notify e.server .tearDown e.world a else e.world)
      (if e'.isRunning then World.notify e'.server .tearDown e'.world a else e'.world) := by
    rw [h.isRunning, h.server]
    split
    · exact hR.notify (hR.server e) .tearDown a h.world
    · exact h.world
  unfold Engine.release
  rw [hthere]
  split
  · exact ⟨rfl, h⟩
  · generalize (if e.isRunning then World.notify e.server .tearDown e.world a else e.world) = w
      at htold ⊢
    generalize (if e'.isRunning then World.notify e'.server .tearDown e'.world a else e'.world)
      = w' at htold ⊢
    have hgone := hR.noteAll (w.pools.release a).notices (hrelease w w' htold)
    simp only [World.without, hR.pools htold] at hgone ⊢
    obtain ⟨v, -, rfl⟩ := h
    exact ⟨trivial, _, hgone, rfl⟩

/-- **One operation** gets the same reply from both, and leaves them side by side, if a release
does. -/
theorem operate (hR : Lockstep R) (op : Operation) (h : e.Beside R e')
    (hrelease : ∀ a, op = .release a → ∀ w w', R w w' → R (w.without a) (w'.without a)) :
    (e.operate op).1 = (e'.operate op).1 ∧ (e.operate op).2.Beside R (e'.operate op).2 := by
  have hmoved : ∀ {x y : Except TransitionError Unit × Engine},
      x.1 = y.1 ∧ x.2.Beside R y.2 → Reply.moved x.1 = .moved y.1 ∧ x.2.Beside R y.2 :=
    fun hxy => ⟨congrArg Reply.moved hxy.1, hxy.2⟩
  cases op with
  | bringUp => exact hmoved (guarded h (hR.move .setUp h.order .initialized h))
  | enable => exact hmoved (guarded h (hR.move .enable h.order .enabled h))
  | disable => exact hmoved (hR.disable h)
  | start => exact hmoved (hR.start h)
  | tearDown => exact hmoved (hR.tearDown h)
  | call a port => exact ⟨rfl, hR.call a port h⟩
  | read a port type default =>
      obtain ⟨hanswer, hstate⟩ := hR.read a port type default h
      exact ⟨congrArg (fun x => Reply.answered ⟨type, x⟩) hanswer, hstate⟩
  | release a =>
      obtain ⟨hfound, hstate⟩ := hR.release a h (hrelease a rfl)
      exact ⟨congrArg Reply.released hfound, hstate⟩

end World.Lockstep

/-! ### Properties of worlds -/

namespace World.Steady

variable {P : World → Prop} {e : Engine}

/-- **One operation** keeps what every small step keeps, if its release does. -/
theorem operate (hP : Steady P) (op : Operation) (h : P e.world)
    (hrelease : ∀ a, op = .release a → ∀ w, P w → P (w.without a)) :
    P (e.operate op).2.world := by
  have hself : e.Beside (fun w w' => w' = w ∧ P w) e := ⟨e.world, ⟨rfl, h⟩, rfl⟩
  obtain ⟨w, hw, -⟩ := (hP.lockstep.operate op hself fun a ha w w' hw =>
    ⟨congrArg (World.without · a) hw.1, hrelease a ha w hw.2⟩).2
  exact hw.2

/-- **All operations** of a run keep it, if each release does. -/
theorem after (hP : Steady P) (ops : List Operation) (h : P e.world)
    (hrelease : ∀ a, Operation.release a ∈ ops → ∀ w, P w → P (w.without a)) :
    P (e.after ops).world := by
  induction ops generalizing e with
  | nil => exact h
  | cons op ops ih =>
      have hfirst : P (e.operate op).2.world := by
        refine hP.operate op h fun a ha => hrelease a ?_
        rw [ha]
        exact List.mem_cons_self
      exact ih hfirst fun a ha => hrelease a (List.mem_cons_of_mem _ ha)

end World.Steady

end FlowGraph
