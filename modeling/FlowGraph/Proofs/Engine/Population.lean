import FlowGraph.Proofs.Engine.Pairs
import FlowGraph.Proofs.Program.Plan

/-!
# Who is there

An engine starts out with one instance at each address of its program. No operation adds one, and
only a release takes one away, the one that it names. A node is there, then, as long as it has not
been released, and it keeps its data except for a count. All of this follows from what holds of a
world through every small step of dispatch and through every release.

* `Engine.Sound` — instances in good order, none of them at an address outside the program.
* `Engine.Sound.release_live` — a release takes away the node that it names.
* `Engine.Sound.isLive_after` — who is there after a run.
* `Engine.Sound.find?_after` — and with what data.
* `Graph.Compiles.sound`, `Graph.Compiles.isLive_iff` — how an engine starts out.
-/

namespace FlowGraph

variable [Repertoire]

/-! ### Nodes of worlds -/

namespace World

/-- Registries stay in good order. -/
theorem steady_sound : Steady fun w => w.pools.Sound where
  record _ _ h := h
  setCount a n h := h.modify a (Instance.behavior_withCount n)

/-- Nodes stay where they are. -/
theorem steady_isLive (a : PackedAddress) (b : Bool) : Steady fun w => w.isLive a = b where
  record _ _ h := h
  setCount x _ h := (Registry.isSome_find?_modify _ x a _).trans h

/-- A world without a node that was there. -/
theorem isLive_without {w : World} (hw : w.pools.Sound) (a x : PackedAddress) :
    (w.without a).isLive x = (w.isLive x && x != a) := by
  have hfind := hw.find?_release a x
  unfold isLive without
  rw [hfind]
  by_cases hx : x = a
  · rw [if_pos hx, hx]
    simp
  · rw [if_neg hx]
    simp [hx]

theorem pools_noteAll (w : World) (ns : List Notice) : (w.noteAll ns).pools = w.pools := by
  unfold noteAll
  induction ns generalizing w with
  | nil => rfl
  | cons n ns ih => exact ih (w.note n)

end World

/-! ### Data of nodes -/

namespace World

/-- Nodes keep their data except for a count. -/
theorem steady_find? (a : PackedAddress) (i : Instance) :
    Steady fun w => w.pools.Sound ∧ ∃ n, w.pools.find? a = some (i.withCount n) where
  record _ _ h := h
  setCount x m h := by
    obtain ⟨hsound, n, hn⟩ := h
    refine ⟨hsound.modify x (Instance.behavior_withCount m), ?_⟩
    have hfind := hsound.wellFormed.find?_modify x a (Instance.withCount m)
    rw [hn] at hfind
    split at hfind
    · rw [Option.map_some, Instance.withCount_withCount] at hfind
      exact ⟨m, hfind⟩
    · exact ⟨n, hfind⟩

end World

/-! ### Engines -/

namespace Engine

/-- An engine whose instances are in good order, each of them at one of the program's addresses,
which are all different. -/
structure Sound (e : Engine) : Prop where
  pools : e.pools.Sound
  once : e.order.Nodup
  placed : ∀ a, e.world.isLive a = true → a ∈ e.order

namespace Sound

variable {e : Engine}

theorem contains_eq (h : e.Sound) (a : PackedAddress) : e.pools.contains a = e.world.isLive a := by
  rw [Registry.contains_eq, h.pools.wellFormed.isSome_resolve]
  rfl

/-- What a node does when it is told to tear down leaves every node where it is. -/
theorem notify (h : e.Sound) (event : LifecycleEvent) (a : PackedAddress) :
    (World.notify e.server event e.world a).pools.Sound ∧
      ∀ x, (World.notify e.server event e.world a).isLive x = e.world.isLive x := by
  have hsteady := World.steady_sound.lockstep
  exact ⟨(hsteady.notify (hsteady.server e) event a ⟨rfl, h.pools⟩).2,
    (e.world.tells_notify e.server_within event a).live⟩

/-- **A release** succeeds if the node is there. It goes, and no other does. -/
theorem release_live (h : e.Sound) (a : PackedAddress) :
    (e.release a).1 = e.world.isLive a ∧
      ∀ x, (e.release a).2.world.isLive x = (e.world.isLive x && x != a) := by
  by_cases hthere : e.pools.contains a = true
  · obtain ⟨w, hw, hsound, hlive⟩ : ∃ w,
        w = (if e.isRunning then World.notify e.server .tearDown e.world a else e.world) ∧
          w.pools.Sound ∧ ∀ x, w.isLive x = e.world.isLive x := by
      refine ⟨_, rfl, ?_⟩
      split
      · exact h.notify .tearDown a
      · exact ⟨h.pools, fun _ => rfl⟩
    unfold release
    rw [hthere, ← hw]
    simp only [Bool.not_true, Bool.false_eq_true, if_false]
    refine ⟨(hsound.release_fst a).trans (hlive a), fun x => ?_⟩
    rw [World.isLive, World.pools_noteAll, ← hlive x]
    exact World.isLive_without hsound a x
  · have hrelease : e.release a = (false, e) := if_pos (by simpa using hthere)
    have hgone : e.world.isLive a = false := by
      rw [← h.contains_eq]
      simpa using hthere
    rw [hrelease]
    refine ⟨hgone.symm, fun x => ?_⟩
    by_cases hx : x = a
    · rw [hx, hgone]
      rfl
    · simp [hx]

/-- **Who is there** after an operation: whoever was there before and was not released by it. -/
theorem isLive_operate (h : e.Sound) (op : Operation) (a : PackedAddress) :
    (e.operate op).2.world.isLive a = true ↔ e.world.isLive a = true ∧ op ≠ .release a := by
  by_cases hop : op = .release a
  · subst hop
    have hgone : (e.operate (.release a)).2.world.isLive a = (e.world.isLive a && a != a) :=
      (h.release_live a).2 a
    simp [hgone]
  · -- Registry and presence go together: a release leaves others alone in a sound registry only.
    have hsteady := (World.steady_sound.and (World.steady_isLive a (e.world.isLive a))).operate
      (e := e) op ⟨h.pools, rfl⟩ ?_
    · rw [hsteady.2]
      simp [hop]
    · intro b hb w hw
      refine ⟨hw.1.release b, ?_⟩
      have hne : a ≠ b := fun heq => hop (heq ▸ hb)
      rw [World.isLive_without hw.1, hw.2]
      simp [hne]

/-- **Step.** Every operation keeps an engine sound. -/
theorem operate (h : e.Sound) (op : Operation) : (e.operate op).2.Sound where
  pools := World.steady_sound.operate op h.pools fun a _ _ hw => hw.release a
  once := by
    rw [(e.akin_operate op).order]
    exact h.once
  placed a ha := by
    rw [(e.akin_operate op).order]
    exact h.placed a ((h.isLive_operate op a).1 ha).1

/-- **Run.** So do all operations of a run. -/
theorem after (h : e.Sound) (ops : List Operation) : (e.after ops).Sound := by
  induction ops generalizing e with
  | nil => exact h
  | cons op ops ih => exact ih (h.operate op)

/-- **Who is there** after a run: whoever was there before it and was not released in it. -/
theorem isLive_after (h : e.Sound) (ops : List Operation) (a : PackedAddress) :
    (e.after ops).world.isLive a = true
      ↔ e.world.isLive a = true ∧ Operation.release a ∉ ops := by
  induction ops generalizing e with
  | nil => simp [Engine.after]
  | cons op ops ih =>
      rw [Engine.after, ih (h.operate op), h.isLive_operate op a, List.mem_cons, not_or, and_assoc,
        ne_comm]

/-- **With what data.** A node that was not released in a run is what it was before it, except for
a count. -/
theorem find?_after (h : e.Sound) {a : PackedAddress} {i : Instance}
    (hi : e.pools.find? a = some i) {ops : List Operation} (ha : Operation.release a ∉ ops) :
    ∃ n, (e.after ops).pools.find? a = some (i.withCount n) := by
  obtain ⟨n, hn⟩ := i.exists_withCount
  have hstart : e.world.pools.find? a = some (i.withCount n) := by
    rw [hn]
    exact hi
  refine ((World.steady_find? a i).after ops ⟨h.pools, n, hstart⟩ fun b hb w hw => ?_).2
  obtain ⟨hsound, m, hm⟩ := hw
  have hne : a ≠ b := fun heq => ha (heq ▸ hb)
  refine ⟨hsound.release b, m, ?_⟩
  have hfind := hsound.find?_release b a
  rw [if_neg hne, hm] at hfind
  exact hfind

end Sound

end Engine

/-! ### How an engine starts out -/

namespace Graph.Compiles

variable {g : Graph} {config : PoolConfig} {P : Program}

theorem isLive_iff (hP : g.Compiles config P) (h : g.WellFormed) (limit : Nat) (a : PackedAddress) :
    (Engine.ofProgram P limit).world.isLive a = true ↔ a ∈ P.order := by
  show (P.pools.find? a).isSome = true ↔ a ∈ P.order
  rw [hP.pools, hP.order]
  exact h.toOrdered.found_iff config a

/-- **The start.** The engine of a compiled graph is sound. -/
theorem sound (hP : g.Compiles config P) (h : g.WellFormed) (limit : Nat) :
    (Engine.ofProgram P limit).Sound where
  pools := hP.sound_pools h
  once := by
    show P.order.Nodup
    rw [hP.order]
    exact (h.toOrdered.proper config).addresses
  placed a := (hP.isLive_iff h limit a).1

end Graph.Compiles

end FlowGraph
