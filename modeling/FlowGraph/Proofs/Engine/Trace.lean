import FlowGraph.Proofs.Engine.Operations

/-!
# What goes on inside an operation

An operation is over in one step for whoever asks for it, but much may go on before it is: hooks are
run that call and read, and so run others. A trace lays this open as a forest. Its trees are the
hooks that were run directly, each with what went on inside it, and between them stand the moments
at which somebody asks, speaks or is done. A hook that sets its count does so before it does
anything else, and so between two moments.

* `Trace`, `Trace.moments`, `Trace.roots`, `Trace.hooks` — forests, and what can be read off them.
* `traceOf`, `Engine.trace` — the traces of requests and of operations.
* `Engine.moments` — the moments of an operation, from its beginning to its end.
* `Server.Runs`, `runs_serve` — the journal gains the hooks of which the trace of a request tells,
  by induction on the nesting allowed.
* `Engine.hooks_operate` — so it does in an operation.
-/

namespace FlowGraph

variable [Repertoire]

/-! ### Forests of hooks -/

/-- What goes on, first things first: the world as it is at a moment, or a hook of a node with what
goes on inside it. -/
inductive Trace
  | done
  | moment (w : World) (rest : Trace)
  | hook (node : PackedAddress) (hook : Hook) (inside rest : Trace)

namespace Trace

/-- One after the other. -/
def append : Trace → Trace → Trace
  | done, t => t
  | moment w rest, t => moment w (rest.append t)
  | hook a h inside rest, t => hook a h inside (rest.append t)

/-- The worlds as they are at the moments, those inside hooks included. -/
def moments : Trace → List World
  | done => []
  | moment w rest => w :: rest.moments
  | hook _ _ inside rest => inside.moments ++ rest.moments

/-- The hooks that are run directly and not inside others. -/
def roots : Trace → List (PackedAddress × Hook)
  | done => []
  | moment _ rest => rest.roots
  | hook a h _ rest => (a, h) :: rest.roots

/-- All hooks that are run, in the order in which they begin. -/
def hooks : Trace → List (PackedAddress × Hook)
  | done => []
  | moment _ rest => rest.hooks
  | hook a h inside rest => (a, h) :: (inside.hooks ++ rest.hooks)

@[simp] theorem moments_append (t u : Trace) : (t.append u).moments = t.moments ++ u.moments := by
  induction t with
  | done => rfl
  | moment w rest ih => simp only [append, moments, ih, List.cons_append]
  | hook a h inside rest _ ih => simp only [append, moments, ih, List.append_assoc]

@[simp] theorem roots_append (t u : Trace) : (t.append u).roots = t.roots ++ u.roots := by
  induction t with
  | done => rfl
  | moment w rest ih => exact ih
  | hook a h inside rest _ ih => simp only [append, roots, ih, List.cons_append]

@[simp] theorem hooks_append (t u : Trace) : (t.append u).hooks = t.hooks ++ u.hooks := by
  induction t with
  | done => rfl
  | moment w rest ih => exact ih
  | hook a h inside rest _ ih => simp only [append, hooks, ih, List.cons_append, List.append_assoc]

/-- The trace of steps that are taken one after the other, with a moment before each and a last
one. -/
def sequence {α : Type} (step : World → α → World) (part : World → α → Trace) :
    List α → World → Trace
  | [], w => moment w done
  | x :: xs, w => moment w ((part w x).append (sequence step part xs (step w x)))

end Trace

/-! ### Traces of requests -/

/-- What goes on while requests of nodes are answered. -/
abbrev Tracer := PackedAddress → Request → World → Trace

/-- What goes on while actions of a node are run: there is a moment whenever the node asks, speaks
or is done. -/
def Action.trace {α : Type} (server : Server) (tracer : Tracer) (self : PackedAddress) :
    Action α → World → Trace
  | .done _, w => .moment w .done
  | .ask r next, w =>
    (tracer self r w).append
      ((next (server self r w).1).trace server tracer self (server self r w).2)
  | .say m next, w => .moment w (next.trace server tracer self (World.stage.say self m w))
  | .setCount n next, w => next.trace server tracer self (World.stage.setCount self n w)

namespace Server

/-- What goes on at one of the ends that a call is passed on to. -/
def traceDeliver (server : Server) (tracer : Tracer) (w : World) (target : LinkEntry) : Trace :=
  if target.kind ≠ .enter then .done
  else
    match w.pools.find? target.address with
    | none => .done
    | some i =>
      .hook target.address (.control target.port)
        ((i.onControl target.port).trace server tracer target.address
          (w.record (.hook target.address (.control target.port)))) .done

/-- What goes on while a producer is asked for a value. -/
def traceFetch (server : Server) (tracer : Tracer) (producer : LinkEntry) (type : DataType)
    (w : World) : Trace :=
  if producer.kind ≠ .output then .done
  else
    match w.pools.find? producer.address with
    | none => .done
    | some i =>
      let slot : OutputSlot type := .empty
      let ask := i.produce producer.address producer.port slot
      let begun := w.record (.hook producer.address (.produce producer.port))
      let ((claimed, slot), w) := server.run producer.address ask begun
      .hook producer.address (.produce producer.port)
        (ask.trace server tracer producer.address begun)
        (match claimed, slot.content with
        | true, some _ => .done
        | _, _ =>
          .hook producer.address (.offer producer.port)
            (.moment (w.record (.hook producer.address (.offer producer.port))) .done) .done)

/-- What goes on while a node is told of an event. -/
def traceNotify (server : Server) (tracer : Tracer) (event : LifecycleEvent) (w : World)
    (a : PackedAddress) : Trace :=
  match w.pools.find? a with
  | none => .done
  | some i =>
    .hook a (.lifecycle event)
      ((i.onEvent event).trace server tracer a (w.record (.hook a (.lifecycle event)))) .done

end Server

/-- What goes on while a request is answered, from the world in which it is made to the world that
it leaves behind. -/
def traceOf (links : LinkTable) (limit : Nat) : Nat → Tracer
  | 0, a, r, w => .moment w (.moment (w.note (.depthReached limit a r.port)) .done)
  | allowed + 1, a, .call port, w =>
    .sequence ((serve links limit allowed).deliver a port)
      ((serve links limit allowed).traceDeliver (traceOf links limit allowed))
      (links.links a port) w
  | allowed + 1, a, .read port type default, w =>
    let inside : Trace :=
      match (links.links a port).head? with
      | none => .done
      | some producer =>
        (serve links limit allowed).traceFetch (traceOf links limit allowed) producer type w
    .moment w
      (inside.append (.moment (serve links limit (allowed + 1) a (.read port type default) w).2
        .done))

/-! ### Traces of operations -/

namespace Engine

/-- What goes on while a request to an engine is answered. -/
def tracer (e : Engine) : Tracer := traceOf e.links e.limit e.limit

/-- What goes on while nodes are told of an event. -/
def traceBroadcast (e : Engine) (event : LifecycleEvent) (order : List PackedAddress) : Trace :=
  .sequence (World.notify e.server event) (e.server.traceNotify e.tracer event) order e.world

/-- What goes on in an operation; nothing, if it is refused. -/
def trace (e : Engine) : Operation → Trace
  | .bringUp => if e.state ∈ [.uninitialized] then e.traceBroadcast .setUp e.order else .done
  | .enable =>
    if e.state ∈ [.initialized, .disabled] then e.traceBroadcast .enable e.order else .done
  | .disable => if e.state ∈ [.enabled] then e.traceBroadcast .disable e.order else .done
  | .start =>
    if e.started then .done
    else if e.state ∈ running then
      (({ e with started := true }).record (.notice .engineStarted)).traceBroadcast .start e.order
    else .done
  | .tearDown =>
    if e.state ∈ running then
      let ready := if e.state = .enabled then e.disable.2 else e
      (if e.state = .enabled then e.traceBroadcast .disable e.order else .done).append
        (ready.traceBroadcast .tearDown ready.order.reverse)
    else .done
  | .call a port => if e.isRunning then e.tracer a (.call port) e.world else .done
  | .read a port type default =>
    if e.isRunning then e.tracer a (.read port type default) e.world else .done
  | .release a =>
    if !e.pools.contains a then .done
    else if e.isRunning then e.server.traceNotify e.tracer .tearDown e.world a
    else .done

/-- The moments of an operation, from the one before it to the one after it. -/
def moments (e : Engine) (op : Operation) : List World :=
  e.world :: ((e.trace op).moments ++ [(e.operate op).2.world])

end Engine

/-! ### The journal tells the same -/

/-- The hook that was begun, if that is what happened. -/
def Happening.hook? : Happening → Option (PackedAddress × Hook)
  | .hook a h => some (a, h)
  | .message .. | .entered _ | .notice _ => none

/-- The hooks that were run so far, last first. -/
def World.hooks (w : World) : List (PackedAddress × Hook) := w.journal.filterMap Happening.hook?

theorem World.hooks_record (w : World) (x : Happening) :
    (w.record x).hooks = x.hook?.toList ++ w.hooks := by
  rw [hooks, journal_record, List.filterMap_cons]
  cases x.hook? <;> rfl

@[simp] theorem World.hooks_note (w : World) (n : Notice) : (w.note n).hooks = w.hooks :=
  w.hooks_record (.notice n)

/-- A server that runs the hooks of which a tracer tells. -/
def Server.Runs (server : Server) (tracer : Tracer) : Prop :=
  ∀ a r w, (server a r w).2.hooks = (tracer a r w).hooks.reverse ++ w.hooks

namespace Server.Runs

variable {server : Server} {tracer : Tracer}

theorem run {α : Type} (h : server.Runs tracer) (self : PackedAddress) (t : Action α) (w : World) :
    (server.run self t w).2.hooks = (t.trace server tracer self w).hooks.reverse ++ w.hooks := by
  induction t generalizing w with
  | done x => rfl
  | ask r next ih =>
      refine (ih (server self r w).1 (server self r w).2).trans ?_
      rw [h self r w, Action.trace, Trace.hooks_append, List.reverse_append, List.append_assoc]
  | say m next ih => exact ih (World.stage.say self m w)
  | setCount n next ih => exact ih (World.stage.setCount self n w)

/-- A hook with what goes on inside it. -/
theorem runHook {α : Type} (h : server.Runs tracer) (a : PackedAddress) (hook : Hook)
    (t : Action α) (w : World) :
    (server.run a t (w.record (.hook a hook))).2.hooks
      = ((a, hook) :: (t.trace server tracer a (w.record (.hook a hook))).hooks).reverse
        ++ w.hooks := by
  rw [h.run, World.hooks_record, List.reverse_cons, List.append_assoc]
  rfl

theorem deliver (h : server.Runs tracer) (a : PackedAddress) (port : PortIndex) (w : World)
    (target : LinkEntry) :
    (server.deliver a port w target).hooks
      = (server.traceDeliver tracer w target).hooks.reverse ++ w.hooks := by
  unfold Server.deliver Server.traceDeliver
  split
  · rfl
  · cases w.pools.find? target.address with
    | none => exact w.hooks_note _
    | some i =>
        simp only [Trace.hooks, List.append_nil]
        exact h.runHook _ _ _ _

theorem fetch (h : server.Runs tracer) (a : PackedAddress) (port : PortIndex)
    (producer : LinkEntry) (type : DataType) (default : type.Carrier) (w : World) :
    (server.fetch a port producer type default w).2.hooks
      = (server.traceFetch tracer producer type w).hooks.reverse ++ w.hooks := by
  unfold Server.fetch Server.traceFetch
  split
  · rfl
  · cases w.pools.find? producer.address with
    | none => exact w.hooks_note _
    | some i =>
        have hrun := h.runHook producer.address (.produce producer.port)
          (i.produce producer.address producer.port (OutputSlot.empty : OutputSlot type)) w
        simp only
        generalize server.run producer.address _
          (w.record (.hook producer.address (.produce producer.port))) = out at hrun ⊢
        obtain ⟨⟨claimed, slot⟩, v⟩ := out
        have hoffered : (v.offered a port producer type default).2.hooks
            = (producer.address, Hook.offer producer.port) :: v.hooks := by
          unfold World.offered
          simp only
          split
          · rfl
          · split <;> rfl
        have hasked : (v.offered a port producer type default).2.hooks
            = (Trace.hook producer.address (.produce producer.port) ((i.produce producer.address
                producer.port (OutputSlot.empty : OutputSlot type)).trace server tracer
                  producer.address (w.record (.hook producer.address (.produce producer.port))))
                (.hook producer.address (.offer producer.port)
                  (.moment (v.record (.hook producer.address (.offer producer.port))) .done)
                  .done)).hooks.reverse ++ w.hooks := by
          rw [hoffered, hrun]
          simp [Trace.hooks]
        cases claimed with
        | false => exact hasked
        | true =>
            obtain ⟨content⟩ := slot
            cases content with
            | none => exact hasked
            | some x => simpa only [Trace.hooks, List.append_nil] using hrun

theorem sequence {α : Type} {step : World → α → World} {part : World → α → Trace}
    (hstep : ∀ w x, (step w x).hooks = (part w x).hooks.reverse ++ w.hooks) (xs : List α)
    (w : World) :
    (xs.foldl step w).hooks = (Trace.sequence step part xs w).hooks.reverse ++ w.hooks := by
  induction xs generalizing w with
  | nil => rfl
  | cons x xs ih =>
      rw [List.foldl_cons, ih, hstep, Trace.sequence, Trace.hooks, Trace.hooks_append,
        List.reverse_append, List.append_assoc]

theorem notify (h : server.Runs tracer) (event : LifecycleEvent) (w : World) (a : PackedAddress) :
    (World.notify server event w a).hooks
      = (server.traceNotify tracer event w a).hooks.reverse ++ w.hooks := by
  unfold World.notify Server.traceNotify
  cases w.pools.find? a with
  | none => exact w.hooks_note _
  | some i =>
      simp only [Trace.hooks, List.append_nil]
      exact h.runHook _ _ _ _

end Server.Runs

/-- **Requests.** The hooks that the journal gains are those of the trace. -/
theorem runs_serve (links : LinkTable) (limit allowed : Nat) :
    (serve links limit allowed).Runs (traceOf links limit allowed) := by
  induction allowed with
  | zero =>
      intro a r w
      rw [serve_zero]
      exact w.hooks_note _
  | succ allowed ih =>
      intro a r w
      cases r with
      | call port => exact Server.Runs.sequence (ih.deliver a port) (links.links a port) w
      | read port type default =>
          rw [serve, traceOf]
          cases (links.links a port).head? with
          | none => rfl
          | some producer =>
              simpa only [Trace.hooks, Trace.hooks_append, List.append_nil]
                using ih.fetch a port producer type default w

namespace Engine

theorem runs_server (e : Engine) : e.server.Runs e.tracer := runs_serve e.links e.limit e.limit

theorem hooks_broadcast (e : Engine) (event : LifecycleEvent) (order : List PackedAddress) :
    (e.broadcast event order).world.hooks
      = (e.traceBroadcast event order).hooks.reverse ++ e.world.hooks :=
  Server.Runs.sequence (fun w a => e.runs_server.notify event w a) order e.world

theorem hooks_noteAll (w : World) (ns : List Notice) : (w.noteAll ns).hooks = w.hooks := by
  unfold World.noteAll
  induction ns generalizing w with
  | nil => rfl
  | cons n ns ih => exact (ih (w.note n)).trans (w.hooks_note n)

/-- **Operations.** The hooks that the journal gains are those of the trace. -/
theorem hooks_operate (e : Engine) (op : Operation) :
    (e.operate op).2.world.hooks = (e.trace op).hooks.reverse ++ e.world.hooks := by
  have hguarded : ∀ {allowed : List EngineState} {action : String} {go : Engine → Engine}
      {t : Trace}, (go e).world.hooks = t.hooks.reverse ++ e.world.hooks →
      (e.guarded allowed action go).2.world.hooks
        = (if e.state ∈ allowed then t else .done).hooks.reverse ++ e.world.hooks := by
    intro allowed action go t hgo
    unfold guarded
    split
    · exact hgo
    · rfl
  cases op with
  | bringUp => exact hguarded (e.hooks_broadcast .setUp e.order)
  | enable => exact hguarded (e.hooks_broadcast .enable e.order)
  | disable => exact hguarded (e.hooks_broadcast .disable e.order)
  | start =>
      show e.start.2.world.hooks = _
      unfold start trace
      split
      · rfl
      · exact hguarded (hooks_broadcast
          (({ e with started := true }).record (.notice .engineStarted)) .start e.order)
  | tearDown =>
      refine hguarded ?_
      simp only
      have hfirst : (if e.state = .enabled then e.disable.2 else e).world.hooks
          = (if e.state = .enabled then e.traceBroadcast .disable e.order
              else .done).hooks.reverse ++ e.world.hooks := by
        split
        · next hs =>
          unfold disable guarded
          rw [if_pos (by simp [hs])]
          exact e.hooks_broadcast .disable e.order
        · rfl
      refine (hooks_broadcast (if e.state = .enabled then e.disable.2 else e) .tearDown _).trans ?_
      rw [hfirst, Trace.hooks_append, List.reverse_append, List.append_assoc]
  | call a port =>
      show (e.call a port).world.hooks = _
      unfold call trace
      split
      · exact e.runs_server a (.call port) e.world
      · rfl
  | read a port type default =>
      show (e.read a port type default).2.world.hooks = _
      unfold read trace
      split
      · exact e.runs_server a (.read port type default) e.world
      · rfl
  | release a =>
      show (e.release a).2.world.hooks = _
      rw [release, trace]
      split
      · rfl
      · refine (hooks_noteAll _ _).trans ?_
        show World.hooks (if e.isRunning then World.notify e.server .tearDown e.world a
          else e.world) = _
        split
        · exact e.runs_server.notify .tearDown e.world a
        · rfl

end Engine

end FlowGraph
