import FlowGraph.Proofs.Engine.Operations

/-!
# The life of an engine

Whatever a host asks of an engine, and in whatever order, the engine goes through one life: it is
set up, enabled and disabled any number of times, and torn down in the end, but never while it is
enabled. It is started at most once, in between. The host hears of each state that is entered,
after the nodes have been told of it, and of nothing else; and what is asked at the wrong time
changes nothing.

* `EngineState.Leads`, `Route` — the ways from state to state.
* `Turn.entered`, `Turn.starts` — the states that an operation enters, and whether it is the start.
* `Turn.Lawful` — what one operation may do.
* `Engine.Orderly` — what a run of operations comes to.
* `Engine.orderly`, `Engine.lives_by_protocol` — every run is orderly, from the beginning on.
-/

namespace FlowGraph

/-! ### States -/

/-- Which state may follow which. Nothing follows the last one, and an engine has to be disabled
before it comes to that. -/
inductive EngineState.Leads : EngineState → EngineState → Prop
  | bringUp : Leads uninitialized initialized
  | enable : Leads initialized enabled
  | disable : Leads enabled disabled
  | enableAgain : Leads disabled enabled
  | tearDown : Leads initialized deInitialized
  | tearDownDisabled : Leads disabled deInitialized

/-- A way from one state to another, by way of the states that are entered on it. -/
inductive Route : EngineState → List EngineState → EngineState → Prop
  | stay (s : EngineState) : Route s [] s
  | move {s t u : EngineState} {entered : List EngineState} (step : s.Leads t)
      (rest : Route t entered u) : Route s (t :: entered) u

theorem Route.append {s t u : EngineState} {ss ts : List EngineState} (h : Route s ss t)
    (h' : Route t ts u) : Route s (ss ++ ts) u := by
  induction h with
  | stay s => exact h'
  | move step rest ih => exact .move step (ih h')

theorem Route.single {s t : EngineState} (h : s.Leads t) : Route s [t] t := .move h (.stay t)

/-- The state that was entered, if that is what the mark says. -/
def Mark.entered? : Mark → Option EngineState
  | .entered s => some s
  | .told .. => none

theorem Happening.entered?_eq (x : Happening) : x.entered? = x.mark?.bind Mark.entered? := by
  cases x with
  | hook a hook => cases hook <;> rfl
  | message a text => rfl
  | entered s => rfl
  | notice n => rfl

variable [Repertoire]

/-! ### One operation -/

namespace Turn

/-- The states that the operation has to enter. -/
def entered (t : Turn) : List EngineState :=
  (t.before.due t.operation).filterMap Mark.entered?

/-- Whether the operation starts the engine. -/
def starts (t : Turn) : Bool :=
  match t.operation, t.reply with
  | .start, .moved (.ok _) => true
  | _, _ => false

/-- What one operation may do. -/
structure Lawful (t : Turn) : Prop where
  /-- The journal tells of what is due and of nothing else. -/
  told : t.before.Tells t.after (t.before.due t.operation)
  route : Route t.before.state t.entered t.after.state
  started : t.after.started = (t.before.started || t.starts)
  /-- An engine is started only once and only while it runs. -/
  startable : t.starts = true → t.before.started = false ∧ t.before.isRunning = true
  /-- What is refused changes nothing, the journal included. -/
  refused : ∀ e, t.reply = .moved (.error e) → t.after = t.before
  /-- An engine that does not run ignores calls, except for a notice. -/
  call_idle : ∀ a port, t.operation = .call a port → t.before.isRunning = false →
    t.after = t.before.record (.notice (.callIgnored a port t.before.state))
  /-- It answers reads with their defaults, and no more comes of them than a notice. -/
  read_idle : ∀ a port type default, t.operation = .read a port type default →
    t.before.isRunning = false →
    t.reply = .answered ⟨type, default⟩ ∧
      t.after = t.before.record (.notice (.readDefaulted a port t.before.state))

end Turn

namespace Engine

variable (e : Engine)

theorem entered_told (event : LifecycleEvent) (order : List PackedAddress) :
    (e.told event order).filterMap Mark.entered? = [] := by
  rw [told, List.filterMap_map]
  exact List.filterMap_eq_nil_iff.2 fun _ _ => rfl

theorem entered_move (event : LifecycleEvent) (order : List PackedAddress) (s : EngineState) :
    (e.told event order ++ [Mark.entered s]).filterMap Mark.entered? = [s] := by
  rw [List.filterMap_append, entered_told]
  rfl

/-- What two engines have in common if one comes from the other without a step in its life. -/
structure Level (e e' : Engine) : Prop where
  state : e'.state = e.state
  started : e'.started = e.started

theorem level_call (a : PackedAddress) (port : PortIndex) : e.Level (e.call a port) := by
  unfold call
  split <;> exact ⟨rfl, rfl⟩

theorem level_read (a : PackedAddress) (port : PortIndex) (type : DataType)
    (default : type.Carrier) : e.Level (e.read a port type default).2 := by
  unfold read
  split <;> exact ⟨rfl, rfl⟩

theorem level_release (a : PackedAddress) : e.Level (e.release a).2 := by
  unfold release
  split <;> exact ⟨rfl, rfl⟩

/-- Tearing down leads to the last state, from an enabled engine by way of the disabled one. -/
theorem route_tearDown :
    Route e.state ((e.due .tearDown).filterMap Mark.entered?) e.tearDown.2.state := by
  by_cases hrunning : e.isRunning = true
  · have hstate : e.tearDown.2.state = .deInitialized := by
      unfold tearDown guarded
      rw [if_pos ((mem_running_iff e.state).2 hrunning)]
      rfl
    have hdue : e.due .tearDown
        = (if e.state = .enabled then e.told .disable e.order ++ [.entered .disabled] else [])
          ++ (e.told .tearDown e.order.reverse ++ [.entered .deInitialized]) := if_pos hrunning
    rw [hstate, hdue, List.filterMap_append, entered_move]
    split
    · next h =>
      rw [h, entered_move]
      exact .move .disable (.single .tearDownDisabled)
    · next h =>
      cases hs : e.state with
      | initialized => exact .single .tearDown
      | disabled => exact .single .tearDownDisabled
      | enabled => exact absurd hs h
      | uninitialized =>
          rw [isRunning, hs] at hrunning
          cases hrunning
      | deInitialized =>
          rw [isRunning, hs] at hrunning
          cases hrunning
  · have hrefused : e.tearDown.2 = e := by
      rw [tearDown, guarded_refused _ _ _ _ fun h => hrunning ((mem_running_iff e.state).1 h)]
    have hdue : e.due .tearDown = [] := if_neg hrunning
    rw [hrefused, hdue]
    exact .stay _

/-- **States.** An operation leads along the ways of a life, by way of the states that are due. -/
theorem route_operate (op : Operation) :
    Route e.state ((e.due op).filterMap Mark.entered?) (e.operate op).2.state := by
  cases op with
  | bringUp =>
      simp only [operate, bringUp, guarded, due, List.mem_singleton]
      split
      · next h =>
        rw [h, entered_move]
        exact .single .bringUp
      · exact .stay _
  | enable =>
      simp only [operate, enable, guarded, due, List.mem_cons, List.not_mem_nil, or_false]
      split
      · next h =>
        rw [entered_move]
        rcases h with h | h
        · rw [h]
          exact .single .enable
        · rw [h]
          exact .single .enableAgain
      · exact .stay _
  | disable =>
      simp only [operate, disable, guarded, due, List.mem_singleton]
      split
      · next h =>
        rw [h, entered_move]
        exact .single .disable
      · exact .stay _
  | start =>
      have hentered : (e.due .start).filterMap Mark.entered? = [] := by
        simp only [due]
        split
        · exact e.entered_told _ _
        · rfl
      rw [hentered]
      simp only [operate, start, guarded]
      split
      · exact .stay _
      · split <;> exact .stay _
  | tearDown => exact e.route_tearDown
  | call a port =>
      simp only [operate, due, List.filterMap_nil, (e.level_call a port).state]
      exact .stay _
  | read a port type default =>
      simp only [operate, due, List.filterMap_nil, (e.level_read a port type default).state]
      exact .stay _
  | release a =>
      have hentered : (e.due (.release a)).filterMap Mark.entered? = [] := by
        simp only [due]
        split
        · exact e.entered_told _ _
        · rfl
      rw [hentered]
      simp only [operate, (e.level_release a).state]
      exact .stay _

/-- What is refused is not begun. -/
theorem guarded_of_error {allowed : List EngineState} {action : String} {go : Engine → Engine}
    {err : TransitionError} (h : (e.guarded allowed action go).1 = .error err) :
    (e.guarded allowed action go).2 = e := by
  unfold guarded at h ⊢
  split at h
  · cases h
  · next hstate => rw [if_neg hstate]

theorem start_of_error {err : TransitionError} (h : e.start.1 = .error err) : e.start.2 = e := by
  unfold start at h ⊢
  split at h
  · next hs => rw [if_pos hs]
  · next hs =>
    rw [if_neg hs]
    exact e.guarded_of_error h

/-- An operation that is refused leaves the engine as it was. -/
theorem operate_of_error {op : Operation} {err : TransitionError}
    (h : (e.operate op).1 = .moved (.error err)) : (e.operate op).2 = e := by
  cases op with
  | bringUp => exact e.guarded_of_error (Reply.moved.inj h)
  | enable => exact e.guarded_of_error (Reply.moved.inj h)
  | disable => exact e.guarded_of_error (Reply.moved.inj h)
  | start => exact e.start_of_error (Reply.moved.inj h)
  | tearDown => exact e.guarded_of_error (Reply.moved.inj h)
  | call a port => cases h
  | read a port type default => cases h
  | release a => cases h

theorem started_bringUp : e.bringUp.2.started = e.started :=
  guarded_keeps (P := fun e' => e'.started = e.started) rfl rfl

theorem started_enable : e.enable.2.started = e.started :=
  guarded_keeps (P := fun e' => e'.started = e.started) rfl rfl

theorem started_disable : e.disable.2.started = e.started :=
  guarded_keeps (P := fun e' => e'.started = e.started) rfl rfl

theorem started_tearDown : e.tearDown.2.started = e.started := by
  have hfirst : (if e.state = .enabled then e.disable.2 else e).started = e.started := by
    split
    · exact e.started_disable
    · rfl
  refine guarded_keeps (P := fun e' => e'.started = e.started) rfl ?_
  simp only [enter, record, broadcast]
  exact hfirst

/-- Starting succeeds on an engine that runs and was not started yet, and makes it started. -/
theorem start_cases :
    (e.started = false ∧ e.isRunning = true ∧ e.start.1 = .ok () ∧ e.start.2.started = true) ∨
      ((∃ err, e.start.1 = .error err) ∧ e.start.2 = e) := by
  unfold start
  split
  · exact .inr ⟨⟨_, rfl⟩, rfl⟩
  · next hs =>
    unfold guarded
    split
    · next hstate => exact .inl ⟨by simpa using hs, (mem_running_iff e.state).1 hstate, rfl, rfl⟩
    · exact .inr ⟨⟨_, rfl⟩, rfl⟩

end Engine

namespace Turn

/-- Only a start that succeeds starts an engine. -/
theorem starts_iff (e : Engine) (op : Operation) :
    (Turn.mk e op).starts = true ↔ op = .start ∧ e.start.1 = .ok () := by
  cases op with
  | start =>
      have hreply : (Turn.mk e .start).reply = .moved e.start.1 := rfl
      unfold starts
      rw [hreply]
      cases e.start.1 <;> simp
  | bringUp => exact iff_of_false Bool.false_ne_true fun h => nomatch h.1
  | enable => exact iff_of_false Bool.false_ne_true fun h => nomatch h.1
  | disable => exact iff_of_false Bool.false_ne_true fun h => nomatch h.1
  | tearDown => exact iff_of_false Bool.false_ne_true fun h => nomatch h.1
  | call a port => exact iff_of_false Bool.false_ne_true fun h => nomatch h.1
  | read a port type default => exact iff_of_false Bool.false_ne_true fun h => nomatch h.1
  | release a => exact iff_of_false Bool.false_ne_true fun h => nomatch h.1

/-- Only the operation that starts the engine makes it started. -/
theorem started_after (t : Turn) : t.after.started = (t.before.started || t.starts) := by
  obtain ⟨e, op⟩ := t
  cases op with
  | start =>
      show e.start.2.started = (e.started || (Turn.mk e .start).starts)
      rcases e.start_cases with ⟨-, -, hok, hstarted⟩ | ⟨⟨err, herr⟩, hsame⟩
      · rw [hstarted, (starts_iff e .start).2 ⟨rfl, hok⟩, Bool.or_true]
      · have hnot : (Turn.mk e .start).starts = false := by
          rw [Bool.eq_false_iff, ne_eq, starts_iff, herr]
          exact fun h => nomatch h.2
        rw [hsame, hnot, Bool.or_false]
  | bringUp => exact e.started_bringUp.trans (Bool.or_false _).symm
  | enable => exact e.started_enable.trans (Bool.or_false _).symm
  | disable => exact e.started_disable.trans (Bool.or_false _).symm
  | tearDown => exact e.started_tearDown.trans (Bool.or_false _).symm
  | call a port => exact (e.level_call a port).started.trans (Bool.or_false _).symm
  | read a port type default =>
      exact (e.level_read a port type default).started.trans (Bool.or_false _).symm
  | release a => exact (e.level_release a).started.trans (Bool.or_false _).symm

theorem startable (t : Turn) (h : t.starts = true) :
    t.before.started = false ∧ t.before.isRunning = true := by
  obtain ⟨e, op⟩ := t
  obtain ⟨rfl, hok⟩ := (starts_iff e op).1 h
  rcases e.start_cases with ⟨hs, hrunning, -, -⟩ | ⟨⟨err, herr⟩, -⟩
  · exact ⟨hs, hrunning⟩
  · rw [herr] at hok
    cases hok

/-- **Step.** Every operation is lawful, whatever state the engine is in. -/
theorem lawful (t : Turn) : t.Lawful where
  told := t.before.tells_operate t.operation
  route := t.before.route_operate t.operation
  started := t.started_after
  startable := t.startable
  refused _ h := t.before.operate_of_error h
  call_idle a port hop hidle := by
    obtain ⟨e, op⟩ := t
    cases hop
    exact if_neg (by simpa using hidle)
  read_idle a port type default hop hidle := by
    obtain ⟨e, op⟩ := t
    cases hop
    have hread : e.read a port type default
        = (default, e.record (.notice (.readDefaulted a port e.state))) :=
      if_neg (by simpa using hidle)
    constructor
    · exact congrArg (fun x => Reply.answered ⟨type, x.1⟩) hread
    · exact congrArg Prod.snd hread

end Turn

/-! ### All operations of a run -/

namespace Engine

/-- What a run of operations comes to. -/
structure Orderly (e : Engine) (ops : List Operation) : Prop where
  lawful : ∀ t ∈ e.turns ops, t.Lawful
  /-- Nodes and host are told of what is due, operation by operation. -/
  told : e.Tells (e.after ops) ((e.turns ops).flatMap fun t => t.before.due t.operation)
  /-- The states lead from one to the next. -/
  route : Route e.state ((e.turns ops).flatMap Turn.entered) (e.after ops).state
  /-- An engine that has been started is not started again, and any other at most once. -/
  once : e.started.toNat + ((e.turns ops).filter Turn.starts).length
    = (e.after ops).started.toNat

/-- **Run.** From any engine on, operations in any order are orderly. -/
theorem orderly (e : Engine) (ops : List Operation) : e.Orderly ops := by
  induction ops generalizing e with
  | nil => exact ⟨fun t ht => absurd ht List.not_mem_nil, .refl e, .stay _, rfl⟩
  | cons op ops ih =>
      have hfirst := (Turn.mk e op).lawful
      have hrest := ih (e.operate op).2
      refine ⟨List.forall_mem_cons.2 ⟨hfirst, hrest.lawful⟩, e.tells_after (op :: ops),
        hfirst.route.append hrest.route, ?_⟩
      have hcount := hrest.once
      have hstarted : (e.operate op).2.started = (e.started || (Turn.mk e op).starts) :=
        hfirst.started
      rw [hstarted] at hcount
      rw [turns, after, ← hcount]
      cases hstarts : (Turn.mk e op).starts with
      | false => rw [List.filter_cons_of_neg (by simp [hstarts]), Bool.or_false]
      | true =>
          obtain ⟨hnew, -⟩ := hfirst.startable hstarts
          have hbefore : e.started = false := hnew
          rw [List.filter_cons_of_pos hstarts, List.length_cons, hbefore, Bool.false_or]
          simp only [Bool.toNat_false, Bool.toNat_true]
          omega

/-- The states that the host is told of are those among the marks. -/
theorem Tells.statesEntered {e e' : Engine} {marks : List Mark} (h : e.Tells e' marks) :
    e'.statesEntered = e.statesEntered ++ marks.filterMap Mark.entered? := by
  obtain ⟨news, hnews, rfl⟩ := h
  have hboth : news.filterMap (·.entered?)
      = (news.filterMap Happening.mark?).filterMap Mark.entered? := by
    rw [List.filterMap_filterMap, ← funext Happening.entered?_eq]
  rw [Engine.statesEntered, hnews, List.filterMap_append, hboth]
  rfl

/-- **Every engine lives by the protocol**, whatever its program and whatever is asked of it, in any
order: each operation is lawful, the states of which the host is told are exactly those entered and
lead along the ways of a life to the state that the engine is in, and it is started at most once. -/
theorem lives_by_protocol (p : Program) (limit : Nat) (ops : List Operation) :
    let e := Engine.ofProgram p limit
    e.Orderly ops ∧
      (e.after ops).statesEntered = (e.turns ops).flatMap Turn.entered ∧
      Route .uninitialized (e.after ops).statesEntered (e.after ops).state ∧
      ((e.turns ops).filter Turn.starts).length ≤ 1 := by
  intro e
  have horderly := e.orderly ops
  have hentered : (e.after ops).statesEntered = (e.turns ops).flatMap Turn.entered := by
    rw [horderly.told.statesEntered, List.filterMap_flatMap]
    rfl
  have honce := horderly.once
  have hbound := Bool.toNat_le (e.after ops).started
  refine ⟨horderly, hentered, ?_, by omega⟩
  rw [hentered]
  exact horderly.route

end Engine

end FlowGraph
