import FlowGraph.Engine.Basic
import FlowGraph.Proofs.Engine.Dispatch

/-!
# Operations of an engine

Everything that a host can ask of an engine, in any order: the steps of its life, calls and reads at
any address, and the release of nodes. What such an operation tells nodes and host can be foretold
from the state of the engine and from the nodes that are there.

* `Operation`, `Reply`, `Engine.operate` — one operation.
* `Turn`, `Engine.turns`, `Engine.after` — several, one after the other.
* `Engine.akin_after` — no operation changes the program that is run, nor the limit.
* `Engine.due` — the events and states that an operation has to tell of.
* `Engine.tells_operate`, `Engine.tells_after` — these and no others are told of.
-/

namespace FlowGraph

theorem Engine.mem_running_iff (s : EngineState) : s ∈ Engine.running ↔ s.isRunning = true := by
  cases s <;> decide

/-! ### One operation -/

/-- What a host can ask of an engine. -/
inductive Operation
  | bringUp
  | enable
  | disable
  | start
  | tearDown
  | call (a : PackedAddress) (port : PortIndex)
  | read (a : PackedAddress) (port : PortIndex) (type : DataType) (default : type.Carrier)
  | release (a : PackedAddress)

/-- What the host gets for it. -/
inductive Reply
  /-- The engine moved on, or refused to. -/
  | moved (result : Except TransitionError Unit)
  | called
  | answered (value : Value)
  /-- Whether there was an instance to release. -/
  | released (found : Bool)

variable [Repertoire]

/-- Carry out an operation. -/
def Engine.operate (e : Engine) : Operation → Reply × Engine
  | .bringUp => (.moved e.bringUp.1, e.bringUp.2)
  | .enable => (.moved e.enable.1, e.enable.2)
  | .disable => (.moved e.disable.1, e.disable.2)
  | .start => (.moved e.start.1, e.start.2)
  | .tearDown => (.moved e.tearDown.1, e.tearDown.2)
  | .call a port => (.called, e.call a port)
  | .read a port type default =>
    (.answered ⟨type, (e.read a port type default).1⟩, (e.read a port type default).2)
  | .release a => (.released (e.release a).1, (e.release a).2)

/-! ### Several operations -/

/-- An engine that is asked for something. -/
structure Turn where
  before : Engine
  operation : Operation

namespace Turn

def reply (t : Turn) : Reply := (t.before.operate t.operation).1

def after (t : Turn) : Engine := (t.before.operate t.operation).2

end Turn

namespace Engine

/-- The turns of an engine that is asked for one thing after the other. -/
def turns (e : Engine) : List Operation → List Turn
  | [] => []
  | op :: ops => ⟨e, op⟩ :: (e.operate op).2.turns ops

/-- The engine after all that was asked of it. -/
def after (e : Engine) : List Operation → Engine
  | [] => e
  | op :: ops => (e.operate op).2.after ops

/-! ### What an operation tells -/

/-- The marks that a broadcast leaves. -/
def told (e : Engine) (event : LifecycleEvent) (order : List PackedAddress) : List Mark :=
  (order.filter e.world.isLive).map fun a => .told a event

/-- What an operation has to tell of: an event for the nodes that are there and, once they have all
been told, the state that is entered. In the wrong state there is nothing to tell. -/
def due (e : Engine) : Operation → List Mark
  | .bringUp =>
    if e.state = .uninitialized then e.told .setUp e.order ++ [.entered .initialized] else []
  | .enable =>
    if e.state = .initialized ∨ e.state = .disabled then
      e.told .enable e.order ++ [.entered .enabled]
    else []
  | .disable =>
    if e.state = .enabled then e.told .disable e.order ++ [.entered .disabled] else []
  | .start => if e.started = false ∧ e.isRunning then e.told .start e.order else []
  | .tearDown =>
    if e.isRunning then
      (if e.state = .enabled then e.told .disable e.order ++ [.entered .disabled] else [])
        ++ (e.told .tearDown e.order.reverse ++ [.entered .deInitialized])
    else []
  | .call .. | .read .. => []
  | .release a => if e.pools.contains a ∧ e.isRunning then e.told .tearDown [a] else []

/-- What holds of an engine and is kept by what is done to it holds afterwards, whether that was
done or refused. -/
theorem guarded_keeps {e : Engine} {P : Engine → Prop} {allowed : List EngineState}
    {action : String} {go : Engine → Engine} (he : P e) (hgo : P (go e)) :
    P (e.guarded allowed action go).2 := by
  unfold guarded
  split
  · exact hgo
  · exact he

/-! #### What no operation changes -/

/-- What two engines have in common that run one program under one limit. -/
structure Akin (e e' : Engine) : Prop where
  links : e'.links = e.links
  placement : e'.placement = e.placement
  limit : e'.limit = e.limit

theorem Akin.refl (e : Engine) : e.Akin e := ⟨rfl, rfl, rfl⟩

theorem Akin.trans {d e f : Engine} (h : d.Akin e) (h' : e.Akin f) : d.Akin f :=
  ⟨h'.links.trans h.links, h'.placement.trans h.placement, h'.limit.trans h.limit⟩

theorem Akin.order {e e' : Engine} (h : e.Akin e') : e'.order = e.order :=
  congrArg LinkTable.nodes h.links

theorem akin_move (e : Engine) (event : LifecycleEvent) (order : List PackedAddress)
    (s : EngineState) : e.Akin ((e.broadcast event order).enter s) := ⟨rfl, rfl, rfl⟩

theorem akin_disable (e : Engine) : e.Akin e.disable.2 :=
  guarded_keeps (P := e.Akin) (.refl e) (e.akin_move .disable e.order .disabled)

/-- An operation changes what has happened and how far the engine is, but not the program. -/
theorem akin_operate (e : Engine) (op : Operation) : e.Akin (e.operate op).2 := by
  cases op with
  | bringUp => exact guarded_keeps (P := e.Akin) (.refl e) (e.akin_move _ _ _)
  | enable => exact guarded_keeps (P := e.Akin) (.refl e) (e.akin_move _ _ _)
  | disable => exact e.akin_disable
  | start =>
      show e.Akin e.start.2
      unfold start
      split
      · exact .refl e
      · exact guarded_keeps (P := e.Akin) (.refl e) ⟨rfl, rfl, rfl⟩
  | tearDown =>
      refine guarded_keeps (P := e.Akin) (.refl e) ?_
      have hfirst : e.Akin (if e.state = .enabled then e.disable.2 else e) := by
        split
        · exact e.akin_disable
        · exact .refl e
      exact hfirst.trans (akin_move _ _ _ _)
  | call a port =>
      show e.Akin (e.call a port)
      unfold call
      split <;> exact ⟨rfl, rfl, rfl⟩
  | read a port type default =>
      show e.Akin (e.read a port type default).2
      unfold read
      split <;> exact ⟨rfl, rfl, rfl⟩
  | release a =>
      show e.Akin (e.release a).2
      unfold release
      split <;> exact ⟨rfl, rfl, rfl⟩

theorem after_append (e : Engine) (ops more : List Operation) :
    e.after (ops ++ more) = (e.after ops).after more := by
  induction ops generalizing e with
  | nil => rfl
  | cons op ops ih => exact ih (e.operate op).2

theorem akin_after (e : Engine) (ops : List Operation) : e.Akin (e.after ops) := by
  induction ops generalizing e with
  | nil => exact .refl e
  | cons op ops ih => exact (e.akin_operate op).trans (ih (e.operate op).2)

/-- At any point of a run the links are those of the program. -/
theorem links_after (p : Program) (limit : Nat) (ops : List Operation) :
    ((ofProgram p limit).after ops).links = p.links :=
  (akin_after (ofProgram p limit) ops).links

theorem limit_after (p : Program) (limit : Nat) (ops : List Operation) :
    ((ofProgram p limit).after ops).limit = limit :=
  (akin_after (ofProgram p limit) ops).limit

theorem placement_after (p : Program) (limit : Nat) (ops : List Operation) :
    ((ofProgram p limit).after ops).placement = p.placement :=
  (akin_after (ofProgram p limit) ops).placement

/-! #### Parts of operations -/

/-- From one engine to a later one, these marks are left. -/
def Tells (e e' : Engine) (marks : List Mark) : Prop :=
  ∃ news, e'.journal = e.journal ++ news ∧ news.filterMap Happening.mark? = marks

theorem Tells.refl (e : Engine) : e.Tells e [] := ⟨[], (List.append_nil _).symm, rfl⟩

theorem Tells.trans {d e f : Engine} {ms ns : List Mark} (h : d.Tells e ms) (h' : e.Tells f ns) :
    d.Tells f (ms ++ ns) := by
  obtain ⟨news, hnews, hmarks⟩ := h
  obtain ⟨news', hnews', hmarks'⟩ := h'
  refine ⟨news ++ news', ?_, ?_⟩
  · rw [hnews', hnews, List.append_assoc]
  · rw [List.filterMap_append, hmarks, hmarks']

/-- What one world tells of to another, their engines do. -/
theorem tells_of_world (e e' : Engine) {marks : List Mark} (h : e.world.Tells e'.world marks) :
    e.Tells e' marks := by
  obtain ⟨news, hnews, hmarks⟩ := h.journal
  exact ⟨news.reverse, by rw [journal, journal, hnews, List.reverse_append], hmarks⟩

theorem server_within (e : Engine) : e.server.Within fun w w' => w.Tells w' [] :=
  World.tells_serve e.links e.limit e.limit

theorem tells_broadcast (e : Engine) (event : LifecycleEvent) (order : List PackedAddress) :
    e.world.Tells (e.broadcast event order).world (e.told event order) :=
  World.tells_broadcast e.server_within event order e.world

theorem tells_enter (e : Engine) (s : EngineState) :
    e.world.Tells (e.enter s).world [.entered s] :=
  (e.world.tells_record (.notice (.engineMoved e.state s))).trans
    (World.tells_record _ (.entered s))

/-- A broadcast, and then the state that it leads to. -/
theorem tells_move (e : Engine) (event : LifecycleEvent) (order : List PackedAddress)
    (s : EngineState) :
    e.world.Tells ((e.broadcast event order).enter s).world
      (e.told event order ++ [.entered s]) :=
  (e.tells_broadcast event order).trans (tells_enter _ s)

/-- What is refused leaves no marks. -/
theorem tells_guarded {e : Engine} {allowed : List EngineState} {action : String}
    {go : Engine → Engine} {marks : List Mark} {P : Prop} [Decidable P]
    (hP : e.state ∈ allowed ↔ P) (h : e.world.Tells (go e).world marks) :
    e.world.Tells (e.guarded allowed action go).2.world (if P then marks else []) := by
  unfold guarded
  by_cases hstate : e.state ∈ allowed
  · rw [if_pos hstate, if_pos (hP.1 hstate)]
    exact h
  · rw [if_neg hstate, if_neg fun hp => hstate (hP.2 hp)]
    exact .refl _

/-! #### Steps of a life -/

theorem tells_bringUp (e : Engine) : e.world.Tells e.bringUp.2.world (e.due .bringUp) := by
  unfold bringUp due
  exact tells_guarded (by simp) (e.tells_move _ _ _)

theorem tells_enable (e : Engine) : e.world.Tells e.enable.2.world (e.due .enable) := by
  unfold enable due
  exact tells_guarded (by simp) (e.tells_move _ _ _)

theorem tells_disable (e : Engine) : e.world.Tells e.disable.2.world (e.due .disable) := by
  unfold disable due
  exact tells_guarded (by simp) (e.tells_move _ _ _)

theorem tells_start (e : Engine) : e.world.Tells e.start.2.world (e.due .start) := by
  unfold start due
  cases hs : e.started with
  | true => exact .refl _
  | false =>
      simp only [Bool.false_eq_true, if_false, true_and]
      have hrecord := e.world.tells_record (.notice .engineStarted)
      exact tells_guarded (mem_running_iff e.state) (hrecord.trans
        (tells_broadcast (({ e with started := true }).record (.notice .engineStarted)) .start
          e.order))

theorem tells_tearDown (e : Engine) : e.world.Tells e.tearDown.2.world (e.due .tearDown) := by
  have hfirst : e.world.Tells (if e.state = .enabled then e.disable.2 else e).world
      (if e.state = .enabled then e.told .disable e.order ++ [.entered .disabled] else []) := by
    split
    · next hstate =>
      have hdisable := e.tells_disable
      rwa [due, if_pos hstate] at hdisable
    · exact .refl _
  have horder : (if e.state = .enabled then e.disable.2 else e).order = e.order := by
    split
    · exact e.akin_disable.order
    · rfl
  unfold tearDown due
  refine tells_guarded (mem_running_iff e.state) (hfirst.trans ?_)
  have hrest := (if e.state = .enabled then e.disable.2 else e).tells_move .tearDown
    e.order.reverse .deInitialized
  -- The nodes that are there after the first broadcast are those that were there before it.
  rw [told, funext hfirst.live] at hrest
  simp only [horder]
  exact hrest

/-! #### Requests -/

theorem tells_call (e : Engine) (a : PackedAddress) (port : PortIndex) :
    e.world.Tells (e.call a port).world [] := by
  unfold call
  split
  · exact e.server_within a (.call port) e.world
  · exact e.world.tells_record (.notice (.callIgnored a port e.state))

theorem tells_read (e : Engine) (a : PackedAddress) (port : PortIndex) (type : DataType)
    (default : type.Carrier) : e.world.Tells (e.read a port type default).2.world [] := by
  unfold read
  split
  · exact e.server_within a (.read port type default) e.world
  · exact e.world.tells_record (.notice (.readDefaulted a port e.state))

/-- Notices leave no marks. -/
theorem tells_noteAll (w : World) (ns : List Notice) : w.Tells (w.noteAll ns) [] :=
  World.respects_tells.foldl (fun w n => w.tells_record (.notice n)) ns w

theorem tells_release (e : Engine) (a : PackedAddress) :
    e.Tells (e.release a).2 (e.due (.release a)) := by
  by_cases hthere : e.pools.contains a = true
  · have hdue : e.due (.release a) = (if e.isRunning then e.told .tearDown [a] else []) ++ [] := by
      simp only [due, hthere, true_and, List.append_nil]
    have hnotify : e.world.Tells
        (if e.isRunning then World.notify e.server .tearDown e.world a else e.world)
        (if e.isRunning then e.told .tearDown [a] else []) := by
      split
      · have h := e.world.tells_notify e.server_within .tearDown a
        rw [told, List.filter_cons, List.filter_nil]
        cases hlive : e.world.isLive a with
        | true => rwa [hlive] at h
        | false => rwa [hlive] at h
      · exact .refl _
    rw [hdue]
    unfold release
    rw [hthere]
    generalize (if e.isRunning then World.notify e.server .tearDown e.world a else e.world) = w
      at hnotify
    have hmarks := tells_of_world e { e with world := w } hnotify
    have hnotes := tells_noteAll { w with pools := (w.pools.release a).value.2 }
      (w.pools.release a).notices
    exact hmarks.trans
      (tells_of_world { e with world := { w with pools := (w.pools.release a).value.2 } } _ hnotes)
  · have hdue : e.due (.release a) = [] := if_neg fun h => hthere h.1
    have hrelease : e.release a = (false, e) := if_pos (by simpa using hthere)
    rw [hdue, hrelease]
    exact .refl e

/-- **One operation** leaves the marks that are due, and no others. -/
theorem tells_operate (e : Engine) (op : Operation) : e.Tells (e.operate op).2 (e.due op) := by
  cases op with
  | bringUp => exact tells_of_world e _ e.tells_bringUp
  | enable => exact tells_of_world e _ e.tells_enable
  | disable => exact tells_of_world e _ e.tells_disable
  | start => exact tells_of_world e _ e.tells_start
  | tearDown => exact tells_of_world e _ e.tells_tearDown
  | call a port => exact tells_of_world e _ (e.tells_call a port)
  | read a port type default => exact tells_of_world e _ (e.tells_read a port type default)
  | release a => exact e.tells_release a

/-- **All operations** leave the marks that are due, one operation after the other. -/
theorem tells_after (e : Engine) (ops : List Operation) :
    e.Tells (e.after ops) ((e.turns ops).flatMap fun t => t.before.due t.operation) := by
  induction ops generalizing e with
  | nil => exact .refl e
  | cons op ops ih => exact (e.tells_operate op).trans (ih (e.operate op).2)

end Engine

end FlowGraph
