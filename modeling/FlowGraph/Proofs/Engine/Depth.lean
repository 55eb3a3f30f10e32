import FlowGraph.Demo.Sample
import FlowGraph.Proofs.Engine.Operations

/-!
# The limit on nested requests is a safety net

An engine refuses requests that nest too deeply, and notes that down. Where this does not happen,
the limit makes no difference: under a higher one the engine does the same, step by step. The proof
compares two servers, one of which allows more than the other; since the journal only grows, a run
that has skipped nothing in the end has skipped nothing on the way.

* `World.Unbroken` — no request was skipped.
* `Deepens` — a server that answers as another does, as long as that one skips nothing.
* `serve_deepens` — allowing more deepens a server, by induction on the nesting allowed.
* `Engine.operate_deeper`, `Engine.after_deeper` — one operation and all of them.
* `Engine.RunsAlike`, `Engine.runs_alike_under_higher_limit` — what this says of a program's run.
-/

namespace FlowGraph

/-! ### Skipped requests -/

/-- Whether a request was skipped because it nests too deeply. -/
def Happening.isSkip : Happening → Bool
  | .notice (.depthReached ..) => true
  | _ => false

section

variable [Repertoire]

namespace World

/-- No request was skipped so far. -/
def Unbroken (w : World) : Prop := ∀ x ∈ w.journal, x.isSkip = false

instance (w : World) : Decidable w.Unbroken := inferInstanceAs (Decidable (∀ x ∈ w.journal, _))

/-- What has happened so far stays in the journal. -/
theorem Grows.unbroken {w w' : World} (h : w.Grows w') (hw : w'.Unbroken) : w.Unbroken :=
  fun x hx => hw x (h.subset hx)

theorem Tells.grows {w w' : World} {marks : List Mark} (h : w.Tells w' marks) : w.Grows w' := by
  obtain ⟨news, hnews, -⟩ := h.journal
  exact ⟨news, hnews.symm⟩

/-- Nothing that was skipped is forgotten. -/
theorem not_unbroken_note (w : World) (limit : Nat) (a : PackedAddress) (port : PortIndex) :
    ¬ (w.note (.depthReached limit a port)).Unbroken :=
  fun h => nomatch h _ List.mem_cons_self

end World

/-! ### Servers -/

/-- A server that answers as another one does, as long as that one skips nothing. -/
def Deepens (server deeper : Server) : Prop :=
  ∀ a r w, (server a r w).2.Unbroken → deeper a r w = server a r w

namespace Deepens

open World (Grows respects_grows grows_record)

variable {server deeper : Server}

theorem run {α : Type} (h : Deepens server deeper) (hg : server.Within Grows)
    (self : PackedAddress) (t : Action α) (w : World) (hw : (server.run self t w).2.Unbroken) :
    deeper.run self t w = server.run self t w := by
  induction t generalizing w with
  | done x => rfl
  | ask r next ih =>
      have hrest : (server self r w).2.Grows
          (server.run self (next (server self r w).1) (server self r w).2).2 :=
        respects_grows.run hg self _ _
      have hanswer := h self r w (hrest.unbroken hw)
      show deeper.run self (next (deeper self r w).1) (deeper self r w).2 = _
      rw [hanswer]
      exact ih _ _ hw
  | say m next ih => exact ih _ hw
  | setCount n next ih => exact ih _ hw

theorem deliver (h : Deepens server deeper) (hg : server.Within Grows) (a : PackedAddress)
    (port : PortIndex) (w : World) (target : LinkEntry)
    (hw : (server.deliver a port w target).Unbroken) :
    deeper.deliver a port w target = server.deliver a port w target := by
  unfold Server.deliver at hw ⊢
  split
  · rfl
  · next hkind =>
    rw [if_neg hkind] at hw
    cases hi : w.pools.find? target.address with
    | none => rfl
    | some i =>
        simp only [hi] at hw
        exact congrArg Prod.snd (h.run hg _ _ _ hw)

/-- What is done for one after the other is the same if it is for each. -/
theorem foldl {α : Type} {f g : World → α → World} (hg : ∀ w x, Grows w (f w x))
    (h : ∀ w x, (f w x).Unbroken → g w x = f w x) (xs : List α) (w : World)
    (hw : (xs.foldl f w).Unbroken) : xs.foldl g w = xs.foldl f w := by
  induction xs generalizing w with
  | nil => rfl
  | cons x xs ih =>
      have hrest : (f w x).Grows ((x :: xs).foldl f w) := respects_grows.foldl hg xs (f w x)
      rw [List.foldl_cons, List.foldl_cons, h w x (hrest.unbroken hw)]
      exact ih _ hw

theorem fetch (h : Deepens server deeper) (hg : server.Within Grows) (a : PackedAddress)
    (port : PortIndex) (producer : LinkEntry) (type : DataType) (default : type.Carrier)
    (w : World) (hw : (server.fetch a port producer type default w).2.Unbroken) :
    deeper.fetch a port producer type default w = server.fetch a port producer type default w := by
  unfold Server.fetch at hw ⊢
  split
  · rfl
  · next hkind =>
    rw [if_neg hkind] at hw
    cases hi : w.pools.find? producer.address with
    | none => rfl
    | some i =>
        simp only [hi] at hw ⊢
        rw [h.run hg _ _ _ ?_]
        refine Grows.unbroken ?_ hw
        split
        · exact respects_grows.refl _
        · exact respects_grows.offered a port producer type default _

theorem notify (h : Deepens server deeper) (hg : server.Within Grows) (event : LifecycleEvent)
    (w : World) (a : PackedAddress) (hw : (World.notify server event w a).Unbroken) :
    World.notify deeper event w a = World.notify server event w a := by
  unfold World.notify at hw ⊢
  cases hi : w.pools.find? a with
  | none => rfl
  | some i =>
      simp only [hi] at hw
      exact congrArg Prod.snd (h.run hg _ _ _ hw)

end Deepens

theorem World.grows_notify {server : Server} (hg : server.Within Grows) (event : LifecycleEvent)
    (w : World) (a : PackedAddress) : w.Grows (notify server event w a) := by
  unfold notify
  split
  · exact w.grows_record _
  · exact (w.grows_record _).trans (respects_grows.run hg a _ _)

theorem Deepens.broadcast {server deeper : Server} (h : Deepens server deeper)
    (hg : server.Within World.Grows) (event : LifecycleEvent) (order : List PackedAddress)
    (w : World) (hw : (w.broadcast server event order).Unbroken) :
    w.broadcast deeper event order = w.broadcast server event order :=
  Deepens.foldl (World.grows_notify hg event) (h.notify hg event) order w hw

/-- **More nesting.** Whoever allows as much and more answers the same, as long as nothing is
skipped. -/
theorem serve_deepens (links : LinkTable) (limit limit' : Nat) {allowed allowed' : Nat}
    (hle : allowed ≤ allowed') :
    Deepens (serve links limit allowed) (serve links limit' allowed') := by
  induction allowed generalizing allowed' with
  | zero =>
      intro a r w hw
      rw [serve_zero] at hw
      exact absurd hw (w.not_unbroken_note limit a r.port)
  | succ allowed ih =>
      cases allowed' with
      | zero => cases hle
      | succ allowed' =>
          have hrest := ih (Nat.le_of_succ_le_succ hle)
          have hg := World.respects_grows.serve links limit allowed
          intro a r w hw
          cases r with
          | call port =>
              exact congrArg (Prod.mk ()) (Deepens.foldl
                (fun w target => World.respects_grows.deliver hg a port w target)
                (hrest.deliver hg a port) _ w hw)
          | read port type default =>
              simp only [serve] at hw ⊢
              split
              · rfl
              · next producer hhead =>
                simp only [hhead] at hw
                exact hrest.fetch hg a port producer type default w hw

/-! ### Engines -/

namespace Engine

/-- The same engine under another limit. -/
def withLimit (e : Engine) (limit : Nat) : Engine := { e with limit }

variable {e : Engine} {limit : Nat}

theorem deepens_server (hle : e.limit ≤ limit) : Deepens e.server (e.withLimit limit).server :=
  serve_deepens e.links e.limit limit hle

theorem grows_server (e : Engine) : e.server.Within World.Grows :=
  World.respects_grows.serve e.links e.limit e.limit

theorem broadcast_deeper (hle : e.limit ≤ limit) (event : LifecycleEvent)
    (order : List PackedAddress) (hw : (e.broadcast event order).world.Unbroken) :
    (e.withLimit limit).broadcast event order = (e.broadcast event order).withLimit limit := by
  have hsame := (deepens_server hle).broadcast e.grows_server event order e.world hw
  exact congrArg (fun w => { e with world := w, limit := limit }) hsame

/-- A broadcast and the state that it leads to. -/
theorem move_deeper (hle : e.limit ≤ limit) (event : LifecycleEvent)
    (order : List PackedAddress) (s : EngineState)
    (hw : ((e.broadcast event order).enter s).world.Unbroken) :
    ((e.withLimit limit).broadcast event order).enter s
      = ((e.broadcast event order).enter s).withLimit limit := by
  have hbefore := (tells_enter (e.broadcast event order) s).grows.unbroken hw
  rw [broadcast_deeper hle event order hbefore]
  rfl

/-- What is refused is refused under any limit. -/
theorem guarded_deeper {allowed : List EngineState} {action : String} {go : Engine → Engine}
    (hgo : (go e).world.Unbroken → go (e.withLimit limit) = (go e).withLimit limit)
    (hw : (e.guarded allowed action go).2.world.Unbroken) :
    (e.withLimit limit).guarded allowed action go
      = ((e.guarded allowed action go).1, (e.guarded allowed action go).2.withLimit limit) := by
  unfold guarded at hw ⊢
  by_cases hstate : e.state ∈ allowed
  · rw [if_pos hstate] at hw ⊢
    exact (if_pos hstate).trans (congrArg (Prod.mk (Except.ok ())) (hgo hw))
  · rw [if_neg hstate]
    exact if_neg hstate

theorem bringUp_deeper (hle : e.limit ≤ limit) (hw : e.bringUp.2.world.Unbroken) :
    (e.withLimit limit).bringUp = (e.bringUp.1, e.bringUp.2.withLimit limit) :=
  guarded_deeper (move_deeper hle .setUp e.order .initialized) hw

theorem enable_deeper (hle : e.limit ≤ limit) (hw : e.enable.2.world.Unbroken) :
    (e.withLimit limit).enable = (e.enable.1, e.enable.2.withLimit limit) :=
  guarded_deeper (move_deeper hle .enable e.order .enabled) hw

theorem disable_deeper (hle : e.limit ≤ limit) (hw : e.disable.2.world.Unbroken) :
    (e.withLimit limit).disable = (e.disable.1, e.disable.2.withLimit limit) :=
  guarded_deeper (move_deeper hle .disable e.order .disabled) hw

theorem start_deeper (hle : e.limit ≤ limit) (hw : e.start.2.world.Unbroken) :
    (e.withLimit limit).start = (e.start.1, e.start.2.withLimit limit) := by
  unfold start at hw ⊢
  by_cases hs : e.started = true
  · rw [if_pos hs]
    exact if_pos hs
  · rw [if_neg hs] at hw ⊢
    refine (if_neg hs).trans (guarded_deeper (fun hw => ?_) hw)
    exact broadcast_deeper (e := ({ e with started := true }).record (.notice .engineStarted)) hle
      .start e.order hw

theorem tearDown_deeper (hle : e.limit ≤ limit) (hw : e.tearDown.2.world.Unbroken) :
    (e.withLimit limit).tearDown = (e.tearDown.1, e.tearDown.2.withLimit limit) := by
  refine guarded_deeper (fun hw => ?_) hw
  have hgrows := ((if e.state = .enabled then e.disable.2 else e).tells_move .tearDown
    (if e.state = .enabled then e.disable.2 else e).order.reverse .deInitialized).grows
  have hfirst : (if (e.withLimit limit).state = .enabled then (e.withLimit limit).disable.2
      else e.withLimit limit)
      = (if e.state = .enabled then e.disable.2 else e).withLimit limit := by
    have hbefore := hgrows.unbroken hw
    by_cases hstate : e.state = .enabled
    · rw [if_pos hstate] at hbefore ⊢
      exact (if_pos hstate).trans (congrArg Prod.snd (disable_deeper hle hbefore))
    · rw [if_neg hstate]
      exact if_neg hstate
  have hlimit : (if e.state = .enabled then e.disable.2 else e).limit ≤ limit := by
    split
    · rwa [e.akin_disable.limit]
    · exact hle
  simp only [hfirst]
  exact move_deeper hlimit .tearDown _ .deInitialized hw

theorem answer_deeper (hle : e.limit ≤ limit) (a : PackedAddress) (r : Request)
    (hw : (e.answer a r).2.world.Unbroken) :
    (e.withLimit limit).answer a r = ((e.answer a r).1, (e.answer a r).2.withLimit limit) := by
  have hsame := deepens_server hle a r e.world hw
  exact congrArg (fun x => (x.1, { e with world := x.2, limit := limit })) hsame

theorem call_deeper (hle : e.limit ≤ limit) (a : PackedAddress) (port : PortIndex)
    (hw : (e.call a port).world.Unbroken) :
    (e.withLimit limit).call a port = (e.call a port).withLimit limit := by
  unfold call at hw ⊢
  by_cases hrunning : e.isRunning = true
  · rw [if_pos hrunning] at hw ⊢
    exact (if_pos hrunning).trans (congrArg Prod.snd (answer_deeper hle a (.call port) hw))
  · rw [if_neg hrunning]
    exact if_neg hrunning

theorem read_deeper (hle : e.limit ≤ limit) (a : PackedAddress) (port : PortIndex)
    (type : DataType) (default : type.Carrier)
    (hw : (e.read a port type default).2.world.Unbroken) :
    (e.withLimit limit).read a port type default
      = ((e.read a port type default).1, (e.read a port type default).2.withLimit limit) := by
  unfold read at hw ⊢
  by_cases hrunning : e.isRunning = true
  · rw [if_pos hrunning] at hw ⊢
    exact (if_pos hrunning).trans (answer_deeper hle a (.read port type default) hw)
  · rw [if_neg hrunning]
    exact if_neg hrunning

theorem release_deeper (hle : e.limit ≤ limit) (a : PackedAddress)
    (hw : (e.release a).2.world.Unbroken) :
    (e.withLimit limit).release a = ((e.release a).1, (e.release a).2.withLimit limit) := by
  unfold release at hw ⊢
  by_cases hmissing : (!e.pools.contains a) = true
  · rw [if_pos hmissing]
    exact if_pos hmissing
  · rw [if_neg hmissing] at hw ⊢
    refine (if_neg hmissing).trans ?_
    have hsame : (if e.isRunning then
          World.notify (e.withLimit limit).server .tearDown e.world a else e.world)
        = if e.isRunning then World.notify e.server .tearDown e.world a else e.world := by
      by_cases hrunning : e.isRunning = true
      · simp only [if_pos hrunning] at hw ⊢
        have hnotes := (tells_noteAll
          { World.notify e.server .tearDown e.world a with
            pools := ((World.notify e.server .tearDown e.world a).pools.release a).value.2 }
          ((World.notify e.server .tearDown e.world a).pools.release a).notices).grows
        exact (deepens_server hle).notify e.grows_server .tearDown e.world a
          (fun x hx => hw x (hnotes.subset hx))
      · rw [if_neg hrunning, if_neg hrunning]
    have hwhole := congrArg (fun w : World => ((w.pools.release a).value.1,
      { e with
        world := { w with pools := (w.pools.release a).value.2 }.noteAll
          (w.pools.release a).notices
        limit := limit })) hsame
    exact hwhole

/-- **One operation** has the same result under a higher limit, if nothing is skipped under the
lower one. -/
theorem operate_deeper (hle : e.limit ≤ limit) (op : Operation)
    (hw : (e.operate op).2.world.Unbroken) :
    (e.withLimit limit).operate op
      = ((e.operate op).1, (e.operate op).2.withLimit limit) := by
  cases op with
  | bringUp => exact congrArg (Prod.map Reply.moved id) (bringUp_deeper hle hw)
  | enable => exact congrArg (Prod.map Reply.moved id) (enable_deeper hle hw)
  | disable => exact congrArg (Prod.map Reply.moved id) (disable_deeper hle hw)
  | start => exact congrArg (Prod.map Reply.moved id) (start_deeper hle hw)
  | tearDown => exact congrArg (Prod.map Reply.moved id) (tearDown_deeper hle hw)
  | call a port => exact congrArg (Prod.mk Reply.called) (call_deeper hle a port hw)
  | read a port type default =>
      exact congrArg (Prod.map (fun x => Reply.answered ⟨type, x⟩) id)
        (read_deeper hle a port type default hw)
  | release a => exact congrArg (Prod.map Reply.released id) (release_deeper hle a hw)

/-! ### Runs -/

/-- What is in the journal stays there. -/
theorem Tells.unbroken {e e' : Engine} {marks : List Mark} (h : e.Tells e' marks)
    (hw : e'.world.Unbroken) : e.world.Unbroken := by
  obtain ⟨news, hnews, -⟩ := h
  intro x hx
  refine hw x (List.mem_reverse.1 ?_)
  show x ∈ e'.journal
  rw [hnews]
  exact List.mem_append_left _ (List.mem_reverse.2 hx)

/-- **All operations** have the same results under a higher limit, if in the end nothing was skipped
under the lower one. -/
theorem after_deeper (hle : e.limit ≤ limit) (ops : List Operation)
    (hw : (e.after ops).world.Unbroken) :
    ((e.withLimit limit).turns ops).map Turn.reply = (e.turns ops).map Turn.reply ∧
      (e.withLimit limit).after ops = (e.after ops).withLimit limit := by
  induction ops generalizing e with
  | nil => exact ⟨rfl, rfl⟩
  | cons op ops ih =>
      have hfirst := operate_deeper hle op (((e.operate op).2.tells_after ops).unbroken hw)
      have hle' : (e.operate op).2.limit ≤ limit := by rwa [(e.akin_operate op).limit]
      obtain ⟨hreplies, hafter⟩ := ih hle' hw
      rw [turns, turns, after, after, List.map_cons, List.map_cons, Turn.reply, Turn.reply, hfirst,
        hreplies, hafter]
      exact ⟨rfl, rfl⟩

/-- Two engines with which everything goes the same, operation by operation, and without a skip. -/
structure RunsAlike (e e' : Engine) (ops : List Operation) : Prop where
  replies : (e'.turns ops).map Turn.reply = (e.turns ops).map Turn.reply
  /-- Hooks and notices included. -/
  journal : (e'.after ops).journal = (e.after ops).journal
  messages : (e'.after ops).messages = (e.after ops).messages
  statesEntered : (e'.after ops).statesEntered = (e.after ops).statesEntered
  state : (e'.after ops).state = (e.after ops).state
  started : (e'.after ops).started = (e.after ops).started
  /-- The instances, counts included. -/
  pools : (e'.after ops).pools = (e.after ops).pools
  unbroken : (e'.after ops).world.Unbroken

/-- **The limit is only a safety net.** If a run of a program skips nothing under a limit, then
under any higher limit every operation has the same result, the host gets the same messages in the
same order and hears of the same states, and the instances are the same in the end; nor is anything
skipped there. -/
theorem runs_alike_under_higher_limit (p : Program) {limit higher : Nat} (hle : limit ≤ higher)
    (ops : List Operation) (h : ((Engine.ofProgram p limit).after ops).world.Unbroken) :
    (Engine.ofProgram p limit).RunsAlike (Engine.ofProgram p higher) ops := by
  obtain ⟨hreplies, hafter⟩ := after_deeper (e := Engine.ofProgram p limit) hle ops h
  have hsame : (Engine.ofProgram p higher).after ops
      = ((Engine.ofProgram p limit).after ops).withLimit higher := hafter
  refine ⟨hreplies, ?_, ?_, ?_, ?_, ?_, ?_, ?_⟩
  all_goals rw [hsame]
  · rfl
  · rfl
  · rfl
  · rfl
  · rfl
  · rfl
  · exact h

end Engine

end

namespace Engine

/-- What a host may ask of the sample, some of it at the wrong time. -/
def sampleErrands : List Operation :=
  [.start, .bringUp, .enable, .start, .call (.pack ⟨2⟩ ⟨1⟩) ⟨1⟩,
    .read (.pack ⟨5⟩ ⟨1⟩) ⟨1⟩ .text "", .release (.pack ⟨2⟩ ⟨1⟩), .start, .tearDown, .enable]

/-- Five nested requests are enough for the sample, four are not. -/
theorem runs_alike_under_higher_limit_sample :
    let P := (Sample.graph.value.compile .standard).value
    ((Engine.ofProgram P 5).after sampleErrands).world.Unbroken ∧
      ¬ ((Engine.ofProgram P 4).after sampleErrands).world.Unbroken ∧
      (Engine.ofProgram P 5).RunsAlike (Engine.ofProgram P defaultDepth) sampleErrands := by
  have hunbroken : ((Engine.ofProgram (Sample.graph.value.compile .standard).value 5).after
      sampleErrands).world.Unbroken := by
    decide +kernel
  exact ⟨hunbroken, by decide +kernel,
    runs_alike_under_higher_limit _ (by decide) sampleErrands hunbroken⟩

end Engine

end FlowGraph
