import FlowGraph.Proofs.Engine.Dispatch

/-!
# Dispatch looks at the instances only

What a hook does, and which hooks are run after it, hangs on the instances and on nothing that was
noted down before; and things are noted down of nodes that are there, never of others. Two runs
that start out from the same instances therefore go in lockstep, whatever their journals hold. A
property of one world that is kept as long as nodes that are there go about their work is the case
of two equal worlds.

* `Happening.node?` — the node that something which happened is about.
* `World.Lockstep` — relations between two worlds with the same instances that small steps keep.
* `Server.InLockstep`, `World.Lockstep.serve` — requests are answered alike and keep the relation,
  by induction on the nesting allowed.
* `World.Steady` — properties of one world.
* `World.Like` — worlds whose journals differ in things of one sort only.
-/

namespace FlowGraph

/-- The node that something which happened is about. -/
def Happening.node? : Happening → Option PackedAddress
  | .hook a _ | .message a _ => some a
  | .entered _ | .notice _ => none

variable [Repertoire]

namespace World

/-- A relation between two worlds with the same instances, kept by whatever is done in both: the
same is noted down, of nodes that are there, or the same count is set. -/
structure Lockstep (R : World → World → Prop) : Prop where
  pools : ∀ {w w'}, R w w' → w'.pools = w.pools
  record : ∀ {w w'} (x : Happening), (∀ a, x.node? = some a → w.isLive a = true) → R w w' →
    R (w.record x) (w'.record x)
  setCount : ∀ {w w'} (a : PackedAddress) (n : Int64), R w w' →
    R (stage.setCount a n w) (stage.setCount a n w')

end World

/-- A server that gives the same answers in related worlds and keeps them related, and under which
no node comes or goes. -/
structure Server.InLockstep (server : Server) (R : World → World → Prop) : Prop where
  answer : ∀ (a : PackedAddress) (r : Request) {w w' : World}, R w w' →
    (server a r w).1 = (server a r w').1 ∧ R (server a r w).2 (server a r w').2
  stay : server.Within fun w w' => w.Tells w' []

namespace World.Lockstep

section

variable {R : World → World → Prop} {server : Server} {w w' : World}

/-- A notice is about no node. -/
theorem note (hR : Lockstep R) (n : Notice) (hw : R w w') : R (w.note n) (w'.note n) :=
  hR.record (.notice n) nofun hw

/-- A hook of a node that is there may be noted down. -/
theorem hook (hR : Lockstep R) {a : PackedAddress} {i : Instance} (hi : w.pools.find? a = some i)
    (hook : Hook) (hw : R w w') : R (w.record (.hook a hook)) (w'.record (.hook a hook)) := by
  refine hR.record (.hook a hook) (fun b hb => ?_) hw
  obtain rfl := Option.some.inj hb
  rw [World.isLive, hi]
  rfl

/-- The actions of a node that is there. Whatever it asks for, it stays there. -/
theorem run {α : Type} (hR : Lockstep R) (h : server.InLockstep R) {self : PackedAddress}
    (hself : w.isLive self = true) (t : Action α) (hw : R w w') :
    (server.run self t w).1 = (server.run self t w').1 ∧
      R (server.run self t w).2 (server.run self t w').2 := by
  have hsay : ∀ m w w', R w w' ∧ w.isLive self = true →
      R (stage.say self m w) (stage.say self m w') ∧ (stage.say self m w).isLive self = true := by
    intro m w w' hw
    refine ⟨hR.record (.message self m) (fun b hb => ?_) hw.1, hw.2⟩
    obtain rfl := Option.some.inj hb
    exact hw.2
  have hsetCount : ∀ n w w', R w w' ∧ w.isLive self = true →
      R (stage.setCount self n w) (stage.setCount self n w') ∧
        (stage.setCount self n w).isLive self = true := by
    intro n w w' hw
    refine ⟨hR.setCount self n hw.1, ?_⟩
    rw [(respects_tells.setCount w self n).live]
    exact hw.2
  have hask : ∀ r w w', R w w' ∧ w.isLive self = true →
      (server self r w).1 = (server self r w').1 ∧
        R (server self r w).2 (server self r w').2 ∧
          (server self r w).2.isLive self = true := by
    intro r w w' hw
    obtain ⟨hanswer, hstate⟩ := h.answer self r hw.1
    refine ⟨hanswer, hstate, ?_⟩
    rw [(h.stay self r w).live]
    exact hw.2
  have hboth := Action.run_related (R := fun w w' => R w w' ∧ w.isLive self = true)
    hsay hsetCount hask t ⟨hw, hself⟩
  exact ⟨hboth.1, hboth.2.1⟩

/-- A hook of a node that is there is noted down, and its actions are run. -/
theorem runHook {α : Type} (hR : Lockstep R) (h : server.InLockstep R) {a : PackedAddress}
    {i : Instance} (hi : w.pools.find? a = some i) (hook : Hook) (t : Action α) (hw : R w w') :
    (server.run a t (w.record (.hook a hook))).1 = (server.run a t (w'.record (.hook a hook))).1 ∧
      R (server.run a t (w.record (.hook a hook))).2
        (server.run a t (w'.record (.hook a hook))).2 := by
  have hlive : (w.record (.hook a hook)).isLive a = true := by
    rw [World.isLive, World.pools_record, hi]
    rfl
  exact hR.run h hlive t (hR.hook hi hook hw)

theorem deliver (hR : Lockstep R) (h : server.InLockstep R) (a : PackedAddress) (port : PortIndex)
    (target : LinkEntry) (hw : R w w') :
    R (server.deliver a port w target) (server.deliver a port w' target) := by
  unfold Server.deliver
  split
  · exact hw
  · rw [hR.pools hw]
    cases hi : w.pools.find? target.address with
    | none => exact hR.note _ hw
    | some i => exact (hR.runHook h hi _ _ hw).2

theorem offered (hR : Lockstep R) (a : PackedAddress) (port : PortIndex) {producer : LinkEntry}
    (hlive : w.isLive producer.address = true) (type : DataType) (default : type.Carrier)
    (hw : R w w') :
    (w.offered a port producer type default).1 = (w'.offered a port producer type default).1 ∧
      R (w.offered a port producer type default).2
        (w'.offered a port producer type default).2 := by
  obtain ⟨i, hi⟩ := Option.isSome_iff_exists.1 hlive
  have hhook := hR.hook hi (.offer producer.port) hw
  unfold World.offered
  simp only [World.pools_record, hR.pools hw]
  cases (w.pools.find? producer.address).bind (·.offer? producer.port) with
  | none => exact ⟨rfl, hhook⟩
  | some v =>
      simp only
      cases v.as? type with
      | none => exact ⟨rfl, hR.note _ hhook⟩
      | some x => exact ⟨rfl, hhook⟩

theorem fetch (hR : Lockstep R) (h : server.InLockstep R) (a : PackedAddress) (port : PortIndex)
    (producer : LinkEntry) (type : DataType) (default : type.Carrier) (hw : R w w') :
    (server.fetch a port producer type default w).1
        = (server.fetch a port producer type default w').1 ∧
      R (server.fetch a port producer type default w).2
        (server.fetch a port producer type default w').2 := by
  unfold Server.fetch
  split
  · exact ⟨rfl, hw⟩
  · rw [hR.pools hw]
    cases hi : w.pools.find? producer.address with
    | none => exact ⟨rfl, hR.note _ hw⟩
    | some i =>
        have hrun := hR.runHook h hi (.produce producer.port)
          (i.produce producer.address producer.port (OutputSlot.empty : OutputSlot type)) hw
        have hlive : (server.run producer.address
            (i.produce producer.address producer.port (OutputSlot.empty : OutputSlot type))
            (w.record (.hook producer.address (.produce producer.port)))).2.isLive
              producer.address = true := by
          rw [(respects_tells.run h.stay producer.address _ _).live, World.isLive,
            World.pools_record, hi]
          rfl
        simp only
        generalize server.run producer.address (i.produce producer.address producer.port _)
          (w.record (.hook producer.address (.produce producer.port))) = out at hrun hlive ⊢
        generalize server.run producer.address (i.produce producer.address producer.port _)
          (w'.record (.hook producer.address (.produce producer.port))) = out' at hrun ⊢
        obtain ⟨⟨claimed, slot⟩, v⟩ := out
        obtain ⟨answer, v'⟩ := out'
        obtain ⟨rfl, hv⟩ := hrun
        have hoffered := hR.offered a port hlive type default hv
        cases claimed with
        | false => exact hoffered
        | true =>
            obtain ⟨content⟩ := slot
            cases content with
            | none => exact hoffered
            | some x => exact ⟨rfl, hv⟩

theorem foldl {α : Type} {f : World → α → World} (hf : ∀ {w w'} x, R w w' → R (f w x) (f w' x))
    (xs : List α) (hw : R w w') : R (xs.foldl f w) (xs.foldl f w') := by
  induction xs generalizing w w' with
  | nil => exact hw
  | cons x xs ih => exact ih (hf x hw)

/-- **Dispatch goes in lockstep.** Requests are answered alike in related worlds, which stay
related, however deeply further requests nest in them. -/
theorem serve (hR : Lockstep R) (links : LinkTable) (limit allowed : Nat) :
    (FlowGraph.serve links limit allowed).InLockstep R := by
  refine ⟨?_, tells_serve links limit allowed⟩
  induction allowed with
  | zero =>
      intro a r w w' hw
      rw [serve_zero, serve_zero]
      exact ⟨rfl, hR.note _ hw⟩
  | succ allowed ih =>
      have hserver : (FlowGraph.serve links limit allowed).InLockstep R :=
        ⟨ih, tells_serve links limit allowed⟩
      intro a r w w' hw
      cases r with
      | call port => exact ⟨rfl, foldl (hR.deliver hserver a port) (links.links a port) hw⟩
      | read port type default =>
          simp only [FlowGraph.serve]
          cases (links.links a port).head? with
          | none => exact ⟨rfl, hw⟩
          | some producer => exact hR.fetch hserver a port producer type default hw

theorem notify (hR : Lockstep R) (h : server.InLockstep R) (event : LifecycleEvent)
    (a : PackedAddress) (hw : R w w') :
    R (World.notify server event w a) (World.notify server event w' a) := by
  unfold World.notify
  rw [hR.pools hw]
  cases hi : w.pools.find? a with
  | none => exact hR.note _ hw
  | some i => exact (hR.runHook h hi _ _ hw).2

theorem broadcast (hR : Lockstep R) (h : server.InLockstep R) (event : LifecycleEvent)
    (order : List PackedAddress) (hw : R w w') :
    R (w.broadcast server event order) (w'.broadcast server event order) :=
  foldl (hR.notify h event) order hw

theorem noteAll (hR : Lockstep R) (ns : List Notice) (hw : R w w') :
    R (w.noteAll ns) (w'.noteAll ns) :=
  foldl hR.note ns hw

end

end World.Lockstep

namespace World

/-! ### Properties of one world -/

/-- A property of worlds that is kept as long as things are noted down of nodes that are there, and
counts are set. -/
structure Steady (P : World → Prop) : Prop where
  record : ∀ {w} (x : Happening), (∀ a, x.node? = some a → w.isLive a = true) → P w →
    P (w.record x)
  setCount : ∀ {w} (a : PackedAddress) (n : Int64), P w → P (stage.setCount a n w)

namespace Steady

variable {P : World → Prop} {w : World}

/-- It is a relation between a world and itself. -/
theorem lockstep (hP : Steady P) : Lockstep fun w w' => w' = w ∧ P w where
  pools h := by rw [h.1]
  record x hx h := ⟨by rw [h.1], hP.record x hx h.2⟩
  setCount a n h := ⟨by rw [h.1], hP.setCount a n h.2⟩

theorem and {Q : World → Prop} (hP : Steady P) (hQ : Steady Q) : Steady fun w => P w ∧ Q w where
  record x hx h := ⟨hP.record x hx h.1, hQ.record x hx h.2⟩
  setCount a n h := ⟨hP.setCount a n h.1, hQ.setCount a n h.2⟩

end Steady

/-! ### Worlds with different journals -/

/-- Worlds with the same instances, whose journals hold the same things of a certain sort. -/
structure Like (sort : Happening → Bool) (w w' : World) : Prop where
  pools : w'.pools = w.pools
  journal : w'.journal.filter sort = w.journal.filter sort

theorem Like.refl (sort : Happening → Bool) (w : World) : Like sort w w := ⟨rfl, rfl⟩

/-- Nothing that happened earlier makes a difference to dispatch. -/
theorem lockstep_like (sort : Happening → Bool) : Lockstep (Like sort) where
  pools h := h.pools
  record x _ h := ⟨h.pools, by simp only [journal_record, List.filter_cons, h.journal]⟩
  setCount a n h := ⟨by simp only [stage, h.pools], h.journal⟩

end World

end FlowGraph
