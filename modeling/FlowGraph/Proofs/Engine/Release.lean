import FlowGraph.Proofs.Engine.Population
import FlowGraph.Proofs.Graph.Connections

/-!
# A released node is gone

Links keep naming a node after its release, and so does the order of the program; its pool may be
compacted or dropped. All of this comes to one thing: at its address there is no instance any more,
and there never will be. Whatever an engine does from then on, none of the node's hooks is run and
nothing is heard of it; and where dispatch comes upon it, it goes on with what else there is.

* `World.Silent` — nothing was noted down of a node that is not there.
* `Happening.misses`, `Engine.PassesOver` — dispatch along links to a node that is not there.
* `Engine.Gone` — what is left of a node in every continuation of a run.
* `Graph.Reachable.release_for_good` — a release succeeds exactly once for each node, for good, and
  concerns no other node.
-/

namespace FlowGraph

/-- Whether dispatch gives notice that a node is not where a link leads. -/
def Happening.misses (a : PackedAddress) : Happening → Bool
  | .notice (.callTargetMissing _ _ b) | .notice (.producerMissing _ _ b) => b = a
  | _ => false

section

variable [Repertoire]

/-! ### Nothing is heard -/

/-- A node is not there, and since the journal was as it is here, nothing was noted down of it. -/
structure World.Silent (a : PackedAddress) (past : List Happening) (w : World) : Prop where
  absent : w.isLive a = false
  journal : ∃ news, w.journal = news ++ past ∧ ∀ x ∈ news, x.node? ≠ some a

/-- Only of nodes that are there is anything noted down. -/
theorem World.steady_silent (a : PackedAddress) (past : List Happening) :
    Steady (Silent a past) where
  record := by
    intro w x hx h
    obtain ⟨news, hnews, hothers⟩ := h.journal
    refine ⟨h.absent, x :: news, by rw [journal_record, hnews, List.cons_append], ?_⟩
    intro y hy
    rcases List.mem_cons.1 hy with rfl | hy
    · intro ha
      have hthere := hx a ha
      rw [h.absent] at hthere
      cases hthere
    · exact hothers y hy
  setCount x n h := ⟨(steady_isLive a false).setCount x n h.absent, h.journal⟩

/-! ### Dispatch passes over -/

namespace World

/-- The same instances, and the same journal but for notices that a node is missing. -/
abbrev LikeWithout (a : PackedAddress) : World → World → Prop := Like fun x => !x.misses a

variable {a : PackedAddress} {w w' : World}

/-- A notice that the node is missing makes no difference. -/
theorem LikeWithout.note (h : LikeWithout a w w') {n : Notice}
    (hn : (Happening.notice n).misses a = true) : LikeWithout a (w.note n) w' where
  pools := h.pools
  journal := by
    rw [h.journal]
    exact (List.filter_cons_of_neg (by simp [hn])).symm

/-- A call to a node that is not there does nothing but give notice. -/
theorem LikeWithout.deliver (h : LikeWithout a w w') (hgone : w.isLive a = false) (server : Server)
    (b : PackedAddress) (port : PortIndex) {target : LinkEntry} (ht : target.address = a) :
    LikeWithout a (server.deliver b port w target) w' := by
  have hnone : w.pools.find? target.address = none := by rw [ht, find?_of_absent hgone]
  unfold Server.deliver
  rw [hnone]
  split
  · exact h
  · exact h.note (by simp [Happening.misses, ht])

/-- **Calls** go to the other ends of a port, one after the other, as if there were no more. -/
theorem LikeWithout.foldl_deliver {server : Server} (hs : server.InLockstep (LikeWithout a))
    (b : PackedAddress) (port : PortIndex) (targets : List LinkEntry) (h : LikeWithout a w w')
    (hgone : w.isLive a = false) :
    LikeWithout a (targets.foldl (server.deliver b port) w)
      ((targets.filter fun t => t.address ≠ a).foldl (server.deliver b port) w') := by
  induction targets generalizing w w' with
  | nil => exact h
  | cons t targets ih =>
      have hstay : (server.deliver b port w t).isLive a = false := by
        rw [(respects_tells.deliver hs.stay b port w t).live]
        exact hgone
      rw [List.foldl_cons]
      by_cases ht : t.address = a
      · rw [List.filter_cons_of_neg (by simp [ht])]
        exact ih (h.deliver hgone server b port ht) hstay
      · rw [List.filter_cons_of_pos (by simp [ht]), List.foldl_cons]
        exact ih ((lockstep_like _).deliver hs b port t h) hstay

/-- **A read** from a node that is not there takes its default and does nothing but give notice. -/
theorem LikeWithout.fetch (hgone : w.isLive a = false) (server : Server) (b : PackedAddress)
    (port : PortIndex) {producer : LinkEntry} (hp : producer.address = a) (type : DataType)
    (default : type.Carrier) :
    (server.fetch b port producer type default w).1 = default ∧
      LikeWithout a (server.fetch b port producer type default w).2 w := by
  have hnone : w.pools.find? producer.address = none := by rw [hp, find?_of_absent hgone]
  unfold Server.fetch
  rw [hnone]
  split
  · exact ⟨rfl, .refl _ w⟩
  · exact ⟨rfl, LikeWithout.note (.refl _ w) (by simp [Happening.misses, hp])⟩

end World

namespace Engine

/-- Where dispatch comes upon links to a node that is not there, at whatever nesting, it passes that
node over. -/
structure PassesOver (e : Engine) (a : PackedAddress) : Prop where
  /-- All other ends of the port are called, in order, as if they were the only ones. -/
  call : ∀ (allowed : Nat) (b : PackedAddress) (port : PortIndex) (w : World),
    w.isLive a = false →
    World.LikeWithout a (serve e.links e.limit (allowed + 1) b (.call port) w).2
      (((e.links.links b port).filter fun t => t.address ≠ a).foldl
        (Server.deliver (serve e.links e.limit allowed) b port) w)
  /-- Where it is the producer, the default is the answer. -/
  read : ∀ (allowed : Nat) (b : PackedAddress) (port : PortIndex) (type : DataType)
    (default : type.Carrier) (w : World) (producer : LinkEntry), w.isLive a = false →
    (e.links.links b port).head? = some producer → producer.address = a →
    (serve e.links e.limit (allowed + 1) b (.read port type default) w).1 = default ∧
      World.LikeWithout a (serve e.links e.limit (allowed + 1) b (.read port type default) w).2 w

theorem passesOver (e : Engine) (a : PackedAddress) : e.PassesOver a where
  call allowed b port w hgone :=
    World.LikeWithout.foldl_deliver ((World.lockstep_like _).serve e.links e.limit allowed) b port
      (e.links.links b port) (.refl _ w) hgone
  read allowed b port type default w producer hgone hhead hp := by
    simp only [serve, hhead]
    exact World.LikeWithout.fetch hgone _ b port hp type default

/-! ### For good -/

/-- What is left of a node after an engine was asked for more: nothing lies at its address, it
cannot be released again, nothing was heard of it meanwhile, and dispatch passes it over. -/
structure Gone (e : Engine) (a : PackedAddress) (later : List Operation) : Prop where
  unresolved : (e.after later).pools.resolve a = none
  missing : (e.after later).pools.contains a = false
  unseen : (e.after later).pools.snapshot a = none
  notAgain : (e.after later).release a = (false, e.after later)
  /-- None of its hooks was run, and no message to the host came from it. -/
  silent : ∃ news, (e.after later).journal = e.journal ++ news ∧ ∀ x ∈ news, x.node? ≠ some a
  passedOver : (e.after later).world.isLive a = false ∧ (e.after later).PassesOver a

variable {e : Engine}

/-- **A node that is not there** stays away, whatever is asked of the engine. -/
theorem Sound.gone (h : e.Sound) {a : PackedAddress} (ha : e.world.isLive a = false)
    (later : List Operation) : e.Gone a later := by
  have hsteady := World.steady_sound.and (World.steady_silent a e.world.journal)
  have hstart : e.world.pools.Sound ∧ e.world.Silent a e.world.journal :=
    ⟨h.pools, ha, [], rfl, fun _ hx => absurd hx List.not_mem_nil⟩
  -- The node stays away even while others are released.
  have hrelease : ∀ (b : PackedAddress) (w : World), w.pools.Sound ∧ w.Silent a e.world.journal →
      (w.without b).pools.Sound ∧ (w.without b).Silent a e.world.journal := by
    intro b w hw
    refine ⟨hw.1.release b, ?_, hw.2.journal⟩
    rw [World.isLive_without hw.1, hw.2.absent]
    rfl
  have hsilent : (e.after later).world.Silent a e.world.journal :=
    (hsteady.after later hstart fun b _ => hrelease b).2
  have hsound := h.after later
  have hfind : (e.after later).pools.find? a = none := World.find?_of_absent hsilent.absent
  have hmissing : (e.after later).pools.contains a = false := by
    rw [hsound.contains_eq, hsilent.absent]
  have hunresolved : (e.after later).pools.resolve a = none := by
    rw [← Option.isNone_iff_eq_none, ← Option.isSome_eq_false_iff,
      hsound.pools.wellFormed.isSome_resolve, hfind]
    rfl
  obtain ⟨news, hnews, hothers⟩ := hsilent.journal
  exact
    { unresolved := hunresolved
      missing := hmissing
      unseen := by rw [Registry.snapshot, hfind]; rfl
      notAgain := if_pos (by rw [hmissing]; rfl)
      silent := by
        refine ⟨news.reverse, ?_, fun x hx => hothers x (List.mem_reverse.1 hx)⟩
        rw [journal, journal, hnews, List.reverse_append]
      passedOver := ⟨hsilent.absent, (e.after later).passesOver a⟩ }

/-- A node that is not released in a run has its instance there after it, except for a count. -/
theorem Sound.behind?_after (h : e.Sound) {a : PackedAddress} {k : Behavior} {i : Instance}
    (hi : e.pools.behind? a = some (k, i)) {ops : List Operation}
    (ha : Operation.release a ∉ ops) :
    ∃ n, (e.after ops).pools.behind? a = some (k, i.withCount n) := by
  rw [h.pools.behind?_eq] at hi
  obtain ⟨j, hj, heq⟩ := Option.map_eq_some_iff.1 hi
  obtain ⟨rfl, rfl⟩ := Prod.mk.inj heq
  obtain ⟨n, hn⟩ := h.find?_after hj ha
  refine ⟨n, ?_⟩
  rw [(h.after ops).pools.behind?_eq, hn, Option.map_some, Instance.behavior_withCount]

end Engine

end

/-! ### The release itself -/

/-- When it is torn down, a node speaks at most. -/
theorem Instance.onEvent_tearDown (i : Instance) :
    i.onEvent .tearDown = .done () ∨ ∃ m, i.onEvent .tearDown = .log m := by
  cases i with
  | tracer tag => exact .inr ⟨"deinit " ++ tag, rfl⟩
  | _ => exact .inl rfl

/-- Being told to tear down, a node changes no instance. -/
theorem World.pools_notify_tearDown (server : Server) (w : World) (a : PackedAddress) :
    (World.notify server .tearDown w a).pools = w.pools := by
  unfold World.notify
  cases w.pools.find? a with
  | none => rfl
  | some i =>
      rcases i.onEvent_tearDown with h | ⟨m, h⟩
      · simp only [h]
        rfl
      · simp only [h]
        rfl

namespace Engine

variable {e : Engine}

/-- **A release** is one in the registry, since a node that is torn down changes no instance. -/
theorem Sound.pools_release (h : e.Sound) (a : PackedAddress) :
    (e.release a).2.pools = (e.pools.release a).value.2 := by
  by_cases hthere : e.pools.contains a = true
  · have hpools : (if e.isRunning then World.notify e.server .tearDown e.world a
        else e.world).pools = e.pools := by
      split
      · exact World.pools_notify_tearDown e.server e.world a
      · rfl
    unfold release
    rw [hthere]
    simp only [Bool.not_true, Bool.false_eq_true, if_false, hpools]
    exact World.pools_noteAll _ _
  · have hrelease : e.release a = (false, e) := if_pos (by simpa using hthere)
    have hgone : e.world.isLive a = false := by
      rw [← h.contains_eq]
      simpa using hthere
    rw [hrelease]
    rcases h.pools.release_cases a with ⟨-, hr⟩ | ⟨hfound, -⟩
    · rw [hr]
    · exact absurd (World.find?_of_absent hgone) hfound

/-- One address is vacated by a release, the others do not notice. -/
theorem Sound.find?_release (h : e.Sound) (a x : PackedAddress) :
    (e.release a).2.pools.find? x = if x = a then none else e.pools.find? x := by
  rw [h.pools_release a]
  exact h.pools.find?_release a x

/-- What lies behind the address of another node is not touched by a release. -/
theorem Sound.behind?_release (h : e.Sound) {a b : PackedAddress} (hb : b ≠ a) :
    (e.release a).2.pools.behind? b = e.pools.behind? b := by
  have hsound := (h.operate (.release a)).pools
  have hbehind : (e.release a).2.pools.behind? b
      = ((e.release a).2.pools.find? b).map fun i => (i.behavior, i) :=
    hsound.behind?_eq b
  rw [hbehind, h.find?_release, if_neg hb, h.pools.behind?_eq]

end Engine

/-! ### Engines of compiled graphs -/

/-- **A released node is gone, and only it is.** Take the engine of a compiled graph, whatever its
pools are told about compaction and retirement, at any point of a run. A release succeeds exactly
if the address is live, which is as long as the node is in the program and was not released before.
It leaves what lies behind every other address as it was. Once it succeeded, the node is gone in
every continuation, and every other node keeps its instance there until it is released itself. -/
theorem Graph.Reachable.release_for_good {g : Graph} (hg : g.Reachable) (config : PoolConfig)
    (limit : Nat) (ops : List Operation) (a : PackedAddress) :
    let e := (Engine.ofProgram (g.compile config).value limit).after ops
    (e.release a).1 = (e.pools.resolve a).isSome ∧
      ((e.release a).1 = true ↔ a ∈ e.order ∧ Operation.release a ∉ ops) ∧
      (∀ b, b ≠ a → (e.release a).2.pools.behind? b = e.pools.behind? b) ∧
      ((e.release a).1 = true → ∀ later,
        (e.release a).2.Gone a later ∧
          ∀ b k i, b ≠ a → e.pools.behind? b = some (k, i) → Operation.release b ∉ later →
            ∃ n, ((e.release a).2.after later).pools.behind? b = some (k, i.withCount n)) := by
  intro e
  have h := hg.wellFormed
  have hP := h.compiles config
  have hstart := hP.sound h limit
  have hsound : e.Sound := hstart.after ops
  have hlive : (e.release a).1 = e.world.isLive a := (hsound.release_live a).1
  refine ⟨?_, ?_, fun b hb => hsound.behind?_release hb, fun _ later => ⟨?_, ?_⟩⟩
  · rw [hlive, hsound.pools.wellFormed.isSome_resolve]
    rfl
  · have horder : e.order = (g.compile config).value.order :=
      congrArg LinkTable.nodes (Engine.links_after (g.compile config).value limit ops)
    rw [hlive, hstart.isLive_after, hP.isLive_iff h, horder]
  · refine (hsound.operate (.release a)).gone ?_ later
    rw [Bool.eq_false_iff, ne_eq, hsound.isLive_operate]
    exact fun hthere => hthere.2 rfl
  · intro b k i hb hi hlater
    rw [← hsound.behind?_release hb] at hi
    exact (hsound.operate (.release a)).behind?_after hi hlater

/-- The first steps of the sample. -/
def Sample.opening : List Operation := [.bringUp, .enable, .start]

/-- Where the counter of the sample lies. The sequence calls it, and what prints it reads it. -/
def Sample.counterAddress : PackedAddress := .pack ⟨3⟩ ⟨1⟩

/-- The counter of the sample can be released, and is gone then. -/
theorem Graph.Reachable.release_for_good_counter :
    let e := (Engine.ofProgram (Sample.graph.value.compile ⟨0, true⟩).value defaultDepth).after
      Sample.opening
    let a := Sample.counterAddress
    Sample.graph.value.Reachable ∧ (∃ t ∈ e.links.links (.pack ⟨2⟩ ⟨1⟩) ⟨1⟩, t.address = a) ∧
      ((e.links.links (.pack ⟨4⟩ ⟨1⟩) ⟨0⟩).head?.map fun t => t.address) = some a ∧
      (e.release a).1 = true ∧ ∀ later, (e.release a).2.Gone a later := by
  intro e a
  obtain ⟨-, hlive, -, hgone⟩ := Graph.Reachable.release_for_good Sample.graph_reachable ⟨0, true⟩
    defaultDepth Sample.opening Sample.counterAddress
  have hlinks : e.links = (Sample.graph.value.compile ⟨0, true⟩).value.links :=
    Engine.links_after _ defaultDepth Sample.opening
  -- All that is looked up in the one table is looked up at once, so that it is made once.
  have htable : Sample.counterAddress ∈ (Sample.graph.value.compile ⟨0, true⟩).value.links.nodes ∧
      (∃ t ∈ (Sample.graph.value.compile ⟨0, true⟩).value.links.links (.pack ⟨2⟩ ⟨1⟩) ⟨1⟩,
        t.address = Sample.counterAddress) ∧
      (((Sample.graph.value.compile ⟨0, true⟩).value.links.links (.pack ⟨4⟩ ⟨1⟩) ⟨0⟩).head?.map
        fun t => t.address) = some Sample.counterAddress := by
    decide +kernel
  rw [← hlinks] at htable
  obtain ⟨horder, hcalled, hread⟩ := htable
  have hin : a ∈ e.order := by
    rw [Engine.order]
    exact horder
  have hout : Operation.release a ∉ Sample.opening := by simp [Sample.opening]
  have hreleased : (e.release a).1 = true := hlive.2 ⟨hin, hout⟩
  exact ⟨Sample.graph_reachable, hcalled, hread, hreleased,
    fun later => (hgone hreleased later).1⟩

end FlowGraph
