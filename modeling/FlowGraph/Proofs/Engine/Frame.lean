import FlowGraph.Proofs.Engine.Interpretation
import FlowGraph.Proofs.Engine.Release
import FlowGraph.Proofs.Pool.Counts

/-!
# What operations leave alone

A read runs hooks: that of the producer, and of whoever the producer reads in turn, as deeply as the
limit allows. A call and a broadcast run the hooks of any number of nodes, which call and read on
from there. What all of this can leave behind is little. Hooks that make values do nothing but read,
hence a read leaves nothing behind at all but notes that no host hears of, and may be made at any
point of a run without a difference to the rest of it. Other hooks speak and set counts, hence
whatever is asked of an engine, short of a release, changes its instances in their counts at most.

* `Action.OnlyReads`, `Stock.Instance.onlyReads_produce` — hooks that make values only read.
* `World.Still`, `World.still_serve` — so does the answer to a read, by induction on the nesting
  allowed.
* `Engine.Undisturbed` — engines between which nothing tells a difference.
* `Step`, `Engine.Beside.steps` — a run with reads put in between, and the run without them.
* `Engine.uncounted_after` — counts apart, instances stay what they are until one is released.
* `Engine.no_hidden_effects` — what a read, and what any other operation leaves alone.
-/

namespace FlowGraph

/-! ### Hooks that only read -/

namespace Action

variable {α : Type}

/-- A tree of actions in which nothing is done but to read. -/
def OnlyReads : Action α → Prop
  | .done _ => True
  | .ask (.call _) _ => False
  | .ask (.read ..) next => ∀ x, (next x).OnlyReads
  | .say .. => False
  | .setCount .. => False

end Action

theorem Stock.Probe.onlyReads_produce (p : Stock.Probe) (self : PackedAddress) (port : PortIndex)
    {type : DataType} (slot : OutputSlot type) : (p.produce self port slot).OnlyReads := by
  unfold produce
  repeat' split
  all_goals first | exact True.intro | exact fun n => True.intro

/-- **To make a value is to read at most.** -/
theorem Stock.Instance.onlyReads_produce (i : Stock.Instance) (self : PackedAddress)
    (port : PortIndex) {type : DataType} (slot : OutputSlot type) :
    (i.produce self port slot).OnlyReads := by
  unfold produce
  cases i with
  | constantInt value | constantText value =>
    dsimp only
    split <;> exact True.intro
  | addInt | greaterThan =>
    dsimp only
    split
    · exact fun a b => True.intro
    · exact True.intro
  | intToText =>
    dsimp only
    split
    · exact fun n => True.intro
    · exact True.intro
  | probe p => exact p.onlyReads_produce self port slot
  | startEvent | sequence arity | branch | counter c | printText lead | tracer tag | shape mode =>
    exact True.intro

/-! ### Reads leave worlds as they are -/

namespace World

/-- Nothing has changed, and no host has heard of anything. -/
abbrev Still (w w' : World) : Prop := Like Happening.isHeard w w'

theorem Still.trans {u v w : World} (h : u.Still v) (h' : v.Still w) : u.Still w :=
  ⟨h'.pools.trans h.pools, h'.journal.trans h.journal⟩

theorem still_record (w : World) {x : Happening} (hx : x.isHeard = false) :
    w.Still (w.record x) where
  pools := rfl
  journal := List.filter_cons_of_neg (by simp [hx])

end World

/-- A server that leaves a world as it is when it answers a read. -/
def Server.ReadsStill (server : Server) : Prop :=
  ∀ a port type default w, World.Still w (server a (.read port type default) w).2

namespace World

section

variable {server : Server}

theorem still_run {α : Type} (h : server.ReadsStill) (self : PackedAddress) {t : Action α}
    (ht : t.OnlyReads) (w : World) : w.Still (server.run self t w).2 := by
  induction t generalizing w with
  | done x => exact .refl _ w
  | ask r next ih =>
    cases r with
    | call port => exact ht.elim
    | read port type default =>
      exact (h self port type default w).trans (ih _ (ht _) _)
  | say m next => exact ht.elim
  | setCount n next => exact ht.elim

theorem still_offered (w : World) (a : PackedAddress) (port : PortIndex) (producer : LinkEntry)
    (type : DataType) (default : type.Carrier) :
    w.Still (w.offered a port producer type default).2 := by
  have hhook := w.still_record (x := .hook producer.address (.offer producer.port)) rfl
  unfold offered
  simp only
  split
  · exact hhook
  · split
    · exact hhook
    · exact hhook.trans (still_record _ rfl)

theorem still_fetch (h : server.ReadsStill) (a : PackedAddress) (port : PortIndex)
    (producer : LinkEntry) (type : DataType) (default : type.Carrier) (w : World) :
    w.Still (server.fetch a port producer type default w).2 := by
  unfold Server.fetch
  split
  · exact .refl _ w
  · split
    · exact w.still_record rfl
    · next i hi =>
      have hhook := w.still_record (x := .hook producer.address (.produce producer.port)) rfl
      have hreads : (i.produce producer.address producer.port
          (OutputSlot.empty : OutputSlot type)).OnlyReads :=
        Stock.Instance.onlyReads_produce i _ _ _
      have hmade := hhook.trans (still_run h producer.address hreads _)
      simp only
      split
      · exact hmade
      · exact hmade.trans (still_offered _ a port producer type default)

/-- **A read leaves the world as it is**, whatever is read for it in turn. -/
theorem still_serve (links : LinkTable) (limit allowed : Nat) :
    (serve links limit allowed).ReadsStill := by
  induction allowed with
  | zero =>
    intro a port type default w
    rw [serve_zero]
    exact w.still_record rfl
  | succ allowed ih =>
    intro a port type default w
    rw [serve]
    split
    · exact .refl _ w
    · exact still_fetch ih a port _ type default w

end

end World

/-! ### Reads put in between -/

/-- What is done in a run: something that was asked for, or a read that is put in between. -/
inductive Step
  | asked (op : Operation)
  | peek (a : PackedAddress) (port : PortIndex) (type : DataType) (default : type.Carrier)

namespace Step

/-- What the engine is asked for. -/
def operation : Step → Operation
  | asked op => op
  | peek a port type default => .read a port type default

/-- What is left once the reads put in between are taken out. -/
def asked? : Step → Option Operation
  | asked op => some op
  | peek .. => none

end Step

namespace Engine

/-- The replies to what was asked for in a run with reads put in between. -/
def repliesAsked (e : Engine) : List Step → List Reply
  | [] => []
  | .asked op :: steps => (e.operate op).1 :: (e.operate op).2.repliesAsked steps
  | .peek a port type default :: steps => (e.read a port type default).2.repliesAsked steps

/-- Engines between which nothing tells a difference: neither an instance nor a host, nor the engine
itself. -/
structure Undisturbed (e e' : Engine) : Prop where
  /-- Every instance with its count, and every pool with its places. -/
  pools : e'.pools = e.pools
  state : e'.state = e.state
  started : e'.started = e.started
  heard : e'.heard = e.heard
  program : e.Akin e'

variable {e e' : Engine}

theorem Beside.undisturbed (h : e.Beside World.Still e') : e.Undisturbed e' := by
  obtain ⟨w, hw, rfl⟩ := h
  refine ⟨hw.pools, rfl, rfl, ?_, rfl, rfl, rfl⟩
  have hjournal : w.journal.filter Happening.isHeard = e.world.journal.filter Happening.isHeard :=
    hw.journal
  simp only [heard, journal, List.filter_reverse, hjournal]

/-- After a read, an engine stands where it stood. -/
theorem beside_read (e : Engine) (a : PackedAddress) (port : PortIndex) (type : DataType)
    (default : type.Carrier) : e.Beside World.Still (e.read a port type default).2 := by
  unfold read
  split
  · exact ⟨_, World.still_serve e.links e.limit e.limit a port type default e.world, rfl⟩
  · exact ⟨_, e.world.still_record rfl, rfl⟩

theorem Beside.trans_still {e'' : Engine} (h : e.Beside World.Still e')
    (h' : e'.Beside World.Still e'') : e.Beside World.Still e'' := by
  obtain ⟨w, hw, rfl⟩ := h
  obtain ⟨w', hw', rfl⟩ := h'
  exact ⟨w', hw.trans hw', rfl⟩

/-- **Step.** Engines side by side reply alike, and stay side by side. -/
theorem Beside.operate_still (h : e.Beside World.Still e') (op : Operation) :
    (e.operate op).1 = (e'.operate op).1 ∧
      (e.operate op).2.Beside World.Still (e'.operate op).2 := by
  refine (World.lockstep_like Happening.isHeard).operate op h fun a _ w w' hw => ?_
  exact ⟨by simp only [World.without, hw.pools], hw.journal⟩

/-- **Run.** Of two engines side by side, let one make reads in between: it replies like the other,
and ends side by side with it. -/
theorem Beside.steps (h : e.Beside World.Still e') (steps : List Step) :
    e'.repliesAsked steps = (e.turns (steps.filterMap Step.asked?)).map Turn.reply ∧
      (e.after (steps.filterMap Step.asked?)).Beside World.Still
        (e'.after (steps.map Step.operation)) := by
  induction steps generalizing e e' with
  | nil => exact ⟨rfl, h⟩
  | cons step steps ih =>
    cases step with
    | asked op =>
      obtain ⟨hreply, hnext⟩ := h.operate_still op
      obtain ⟨hreplies, hend⟩ := ih hnext
      refine ⟨?_, hend⟩
      rw [repliesAsked, hreplies, ← hreply]
      rfl
    | peek a port type default => exact ih (h.trans_still (e'.beside_read a port type default))

end Engine

/-! ### Nothing but counts -/

theorem World.steady_uncounted (r : Registry) : Steady fun w => w.pools.uncounted = r where
  record _ _ h := h
  setCount {w} a n h := (w.pools.uncounted_modify a n).trans h

namespace Engine

variable {e : Engine}

/-- Whatever an engine is asked for, short of a release, leaves its instances as they are but for
their counts. -/
theorem uncounted_after {ops : List Operation} (hops : ∀ a, Operation.release a ∉ ops) :
    (e.after ops).pools.uncounted = e.pools.uncounted :=
  (World.steady_uncounted e.pools.uncounted).after ops rfl fun a ha => absurd ha (hops a)

/-- **No hidden effects.** A read at any address leaves an engine as it was: its instances with
their counts, which of them are there, its state, and what its host has heard. So reads that are put
in anywhere in a run change no reply to what else is asked for, and no state that it leads to. Calls
and broadcasts, and any number of them, change nothing in the pools but counts: snapshots, live ids
with their order, and the table of links are what they were. -/
theorem no_hidden_effects (e : Engine) :
    (∀ (a : PackedAddress) (port : PortIndex) (type : DataType) (default : type.Carrier),
      e.Undisturbed (e.read a port type default).2) ∧
    (∀ steps : List Step,
      e.repliesAsked steps = (e.turns (steps.filterMap Step.asked?)).map Turn.reply ∧
        (e.after (steps.filterMap Step.asked?)).Undisturbed
          (e.after (steps.map Step.operation))) ∧
    ∀ ops : List Operation, (∀ a, Operation.release a ∉ ops) →
      e.pools.SameButCounts (e.after ops).pools ∧ (e.after ops).links = e.links := by
  refine ⟨fun a port type default => (e.beside_read a port type default).undisturbed,
    fun steps => ?_, fun ops hops => ?_⟩
  · have hself : e.Beside World.Still e := ⟨e.world, .refl _ e.world, rfl⟩
    obtain ⟨hreplies, hend⟩ := hself.steps steps
    exact ⟨hreplies, hend.undisturbed⟩
  · exact ⟨Registry.sameButCounts_of_uncounted (uncounted_after hops), (e.akin_after ops).links⟩

/-- Called by the sequence, the counter of the sample counts one more, and nothing else changes. -/
theorem no_hidden_effects_sample :
    let e := (ofProgram (Sample.graph.value.compile .standard).value defaultDepth).after
      Sample.opening
    let e' := e.after [.call (.pack ⟨2⟩ ⟨1⟩) ⟨1⟩]
    e'.pools.find? Sample.counterAddress ≠ e.pools.find? Sample.counterAddress ∧
      e.pools.SameButCounts e'.pools := by
  intro e e'
  have hchanged : e'.pools.find? Sample.counterAddress ≠ e.pools.find? Sample.counterAddress := by
    decide +kernel
  have hsame := (e.no_hidden_effects.2.2 [.call (.pack ⟨2⟩ ⟨1⟩) ⟨1⟩] fun a => by simp).1
  exact ⟨hchanged, hsame⟩

end Engine

end FlowGraph
