import FlowGraph.Proofs.Engine.Moments
import FlowGraph.Proofs.Engine.Release
import FlowGraph.Proofs.Engine.TypedReads

/-!
# Counters lose no increment

A counter adds its step to its count whenever control arrives, and only then passes control on.
Whatever goes on from there may come back to the same counter, before the first arrival is done
with; the count may be read on the way, and the pool of the counter compacted between operations.
The journal knows how often control arrived. At every moment after the counter was set up, its count
is where it started and one step for each arrival, as a signed number of 64 bits, and this is what
is read.

* `World.increments`, `World.total` — how often control arrived, and the count that follows from it.
* `World.Counted` — a counter, if it is there, has this count.
* `World.upheld_counted` — every hook of every node restores it in time.
* `serve_count` — what is read from a counter is its count.
* `Graph.Compiles.counted_at` — counters have kept count at every moment of a run.
* `Graph.Reachable.counts_every_increment` — and whoever reads them at that moment is answered so.
-/

namespace FlowGraph

open Stock (Counter)

/-! ### What the journal tells of a counter -/

namespace World

/-- How often control arrived at the first port of a node since it was last set up. -/
def increments (w : World) (a : PackedAddress) : Nat :=
  (w.hooks.takeWhile fun h => h ≠ (a, .lifecycle .setUp)).count (a, .control ⟨0⟩)

/-- The count that a counter has come to, reduced to a signed number of 64 bits. -/
def total (w : World) (a : PackedAddress) (c : Counter) : Int64 :=
  .ofInt (c.start.toInt + w.increments a * c.step.toInt)

/-- A node has been told to set itself up. -/
def IsSetUp (w : World) (a : PackedAddress) : Prop := (a, Hook.lifecycle .setUp) ∈ w.hooks

instance (w : World) (a : PackedAddress) : Decidable (w.IsSetUp a) :=
  inferInstanceAs (Decidable (_ ∈ w.hooks))

variable {w w' : World} {a b : PackedAddress} {c : Counter}

theorem total_congr (h : w'.increments a = w.increments a) : w'.total a c = w.total a c := by
  rw [total, total, h]

/-- What is neither a set-up nor an arrival of control makes no difference. -/
theorem increments_record {x : Happening} (hsetUp : x.hook? ≠ some (a, .lifecycle .setUp))
    (hcontrol : x.hook? ≠ some (a, .control ⟨0⟩)) :
    (w.record x).increments a = w.increments a ∧ ((w.record x).IsSetUp a ↔ w.IsSetUp a) := by
  unfold increments IsSetUp
  rw [hooks_record]
  cases hx : x.hook? with
  | none => exact ⟨rfl, Iff.rfl⟩
  | some h =>
      rw [hx, ne_eq, Option.some_inj] at hsetUp hcontrol
      refine ⟨?_, ?_⟩
      · rw [Option.toList_some, List.singleton_append,
          List.takeWhile_cons_of_pos (by simp [hsetUp]), List.count_cons_of_ne hcontrol]
      · rw [Option.toList_some, List.singleton_append, List.mem_cons]
        exact or_iff_right fun heq => hsetUp heq.symm

/-- An arrival is one more. -/
theorem increments_control :
    (w.record (.hook a (.control ⟨0⟩))).increments a = w.increments a + 1 := by
  have hother : ((a, .control ⟨0⟩) : PackedAddress × Hook) ≠ (a, .lifecycle .setUp) := by simp
  unfold increments
  rw [hooks_record, Happening.hook?, Option.toList_some, List.singleton_append,
    List.takeWhile_cons_of_pos (by simp), List.count_cons_self]

/-- A set-up starts all over. -/
theorem increments_setUp : (w.record (.hook a (.lifecycle .setUp))).increments a = 0 := by
  unfold increments
  rw [hooks_record, Happening.hook?, Option.toList_some, List.singleton_append,
    List.takeWhile_cons_of_neg (by simp), List.count_nil]

/-- One more arrival, one more step. -/
theorem total_succ (h : w'.increments a = w.increments a + 1) :
    w'.total a c = w.total a c + c.step := by
  have hsum : c.start.toInt + (w.increments a + 1 : Nat) * c.step.toInt
      = c.start.toInt + w.increments a * c.step.toInt + c.step.toInt := by
    rw [Int.natCast_add, Int.add_mul, Int.natCast_one, Int.one_mul, Int.add_assoc]
  rw [total, h, hsum, Int64.ofInt_add, Int64.ofInt_toInt, total]

/-- Without arrivals a counter stands where it started. -/
theorem total_zero (h : w.increments a = 0) : w.total a c = c.start := by
  rw [total, h, Int.natCast_zero, Int.zero_mul, Int.add_zero, Int64.ofInt_toInt]

/-! ### Counters keep count -/

/-- At an address there lies a counter with given settings, unless it has been released; and once it
is set up, it has counted every arrival of control. -/
structure Counted (a : PackedAddress) (c : Counter) (w : World) : Prop where
  pools : w.pools.Sound
  count : ∀ i, w.pools.find? a = some i →
    ∃ n, i = .counter { c with count := n } ∧ (w.IsSetUp a → n = w.total a c)

namespace Counted

/-- Whatever happens, other than a set-up or an arrival of control, leaves counters alone. -/
theorem record (h : w.Counted a c) {x : Happening}
    (hsetUp : x.hook? ≠ some (a, .lifecycle .setUp))
    (hcontrol : x.hook? ≠ some (a, .control ⟨0⟩)) : (w.record x).Counted a c where
  pools := h.pools
  count i hi := by
    obtain ⟨n, hn, htotal⟩ := h.count i hi
    obtain ⟨hincrements, hready⟩ := increments_record (w := w) hsetUp hcontrol
    exact ⟨n, hn, fun hset => (htotal (hready.1 hset)).trans (total_congr hincrements).symm⟩

theorem find?_setCount (hw : w.pools.Sound) (a x : PackedAddress) (n : Int64) :
    (stage.setCount a n w).pools.find? x
      = if x = a then (w.pools.find? x).map (Instance.withCount n) else w.pools.find? x :=
  hw.wellFormed.find?_modify a x (Instance.withCount n)

/-- The count of another node is no concern of it. -/
theorem setCount_other (h : w.Counted a c) (hb : b ≠ a) (n : Int64) :
    (stage.setCount b n w).Counted a c where
  pools := h.pools.modify b (Instance.behavior_withCount n)
  count i hi := by
    rw [find?_setCount h.pools, if_neg (Ne.symm hb)] at hi
    exact h.count i hi

/-- The right count put in its place. -/
theorem of_setCount (hw : w.pools.Sound) {n m : Int64}
    (hi : w.pools.find? a = some (.counter { c with count := n }))
    (hm : w.IsSetUp a → m = w.total a c) : (stage.setCount a m w).Counted a c where
  pools := hw.modify a (Instance.behavior_withCount m)
  count i hfound := by
    rw [find?_setCount hw, if_pos rfl, hi, Option.map_some, Option.some_inj] at hfound
    exact ⟨m, hfound.symm, hm⟩

/-- Whatever another node does, counters keep their count. -/
theorem upholds_other {α : Type} (h : w.Counted a c) (hb : b ≠ a) (t : Action α) :
    t.Upholds (Counted a c) b w :=
  Action.upholds_of_kept (fun _ _ hw => hw.record nofun nofun)
    (fun n _ hw => hw.setCount_other hb n) t h

/-- **Control.** The count is moved on before the counter passes control on. -/
theorem control (h : w.Counted a c) {i : Instance} (hi : w.pools.find? a = some i)
    (port : PortIndex) :
    (i.onControl port).Upholds (Counted a c) a (w.record (.hook a (.control port))) := by
  obtain ⟨n, rfl, htotal⟩ := h.count i hi
  by_cases hport : port = ⟨0⟩
  · subst hport
    have hother : (Happening.hook a (.control ⟨0⟩)).hook? ≠ some (a, .lifecycle .setUp) := by
      simp [Happening.hook?]
    have hmoved : (stage.setCount a (n + c.step) (w.record (.hook a (.control ⟨0⟩)))).Counted
        a c := by
      refine of_setCount (w := w.record (.hook a (.control ⟨0⟩))) h.pools hi fun hset => ?_
      have hbefore : w.IsSetUp a := by
        rw [IsSetUp, hooks_record] at hset
        simpa [Happening.hook?, IsSetUp] using hset
      rw [htotal hbefore, total_succ increments_control]
    exact ⟨hmoved, fun _ _ hv => hv⟩
  · have hdone : Instance.onControl (.counter { c with count := n }) port = .done () := if_neg hport
    rw [hdone]
    exact h.record (by simp [Happening.hook?]) (by simp [Happening.hook?, hport])

/-- **Events.** A set-up puts the count where it starts. -/
theorem event (h : w.Counted a c) {i : Instance} (hi : w.pools.find? a = some i)
    (event : LifecycleEvent) :
    (i.onEvent event).Upholds (Counted a c) a (w.record (.hook a (.lifecycle event))) := by
  obtain ⟨n, rfl, -⟩ := h.count i hi
  by_cases hevent : event = .setUp
  · subst hevent
    have hset : (stage.setCount a c.start (w.record (.hook a (.lifecycle .setUp)))).Counted a c :=
      of_setCount (w := w.record (.hook a (.lifecycle .setUp))) h.pools hi fun _ =>
        (total_zero increments_setUp).symm
    exact hset
  · have hdone : Instance.onEvent (.counter { c with count := n }) event = .done () := by
      cases event with
      | setUp => exact absurd rfl hevent
      | tearDown | enable | disable | start => rfl
    rw [hdone]
    exact h.record (by simp [Happening.hook?, hevent]) (by simp [Happening.hook?])

end Counted

/-- **All hooks.** Every hook of every node restores the count before it can be noticed. -/
theorem upheld_counted (a : PackedAddress) (c : Counter) : Upheld (Counted a c) where
  record hx h := h.record (by simp [hx]) (by simp [hx])
  event {w b i} event hi h := by
    by_cases hb : b = a
    · subst hb
      exact h.event hi event
    · exact Counted.upholds_other (h.record (by simp [Happening.hook?, hb])
        (by simp [Happening.hook?])) hb _
  control {w b i} port hi h := by
    by_cases hb : b = a
    · subst hb
      exact h.control hi port
    · exact Counted.upholds_other (h.record (by simp [Happening.hook?])
        (by simp [Happening.hook?, hb])) hb _
  produce {w b i} port type hi h := by
    have hbegun : (w.record (.hook b (.produce port))).Counted a c :=
      h.record (by simp [Happening.hook?]) (by simp [Happening.hook?])
    by_cases hb : b = a
    · subst hb
      obtain ⟨n, rfl, -⟩ := h.count i hi
      exact hbegun
    · exact hbegun.upholds_other hb _
  offer b port h := h.record (by simp [Happening.hook?]) (by simp [Happening.hook?])

/-- A release takes the counter away, or leaves it as it is. -/
theorem Counted.without (h : w.Counted a c) (b : PackedAddress) : (w.without b).Counted a c where
  pools := h.pools.release b
  count i hi := by
    have hfind := h.pools.find?_release b a
    rw [World.without, hfind] at hi
    split at hi
    · cases hi
    · exact h.count i hi

end World

/-! ### Reading a count -/

/-- **A read** from a counter, at the type of its count, yields the count. -/
theorem serve_count {links : LinkTable} {a b : PackedAddress} {port : PortIndex}
    (hhead : (links.links b port).head? = some ⟨a, ⟨2⟩, .output⟩) {w : World} {c : Counter}
    (hi : w.pools.find? a = some (.counter c)) (limit allowed : Nat) (default : Int64) :
    (serve links limit (allowed + 1) b (.read port .int default) w).1 = c.count := by
  have hoffered : ((w.record (.hook a (.produce ⟨2⟩))).offered b port ⟨a, ⟨2⟩, .output⟩ .int
      default).1 = c.count := by
    unfold World.offered
    simp only [World.pools_record, hi, Option.bind_some]
    rfl
  rw [serve, hhead]
  unfold Server.fetch
  simp only [ne_eq, not_true_eq_false, if_false, hi]
  exact hoffered

/-! ### Counters of compiled graphs -/

namespace Graph.Compiles

variable {g : Graph} {config : PoolConfig} {P : Program} {a : PackedAddress} {c : Counter}

/-- Behind the address of a counter lies what its data says. -/
theorem counter_of_node (hP : g.Compiles config P) (h : g.WellFormed) {node : Node}
    (hnode : node ∈ g.nodes) (hcounter : g.catalog.find? node.behavior = some .counter) :
    ∃ a c, P.addressOf? node.id = some a ∧
      (Instance.decode .counter node.data).value = .counter c ∧
      P.pools.find? a = some (.counter c) := by
  obtain ⟨a, ha, hi⟩ := hP.instance_of_node h hnode hcounter
  have hbehavior := Instance.behavior_decode .counter node.data
  generalize (Instance.decode .counter node.data).value = i at hi hbehavior
  cases i with
  | counter c => exact ⟨a, c, ha, rfl, hi⟩
  | _ => cases hbehavior

/-- An input that a counter feeds is linked to the output for its count. -/
theorem head?_of_count (hP : g.Compiles config P) (h : g.WellFormed) {n : NodeId}
    (ha : P.addressOf? n = some a) (hi : P.pools.find? a = some (.counter c)) {k : Connection}
    (hk : k ∈ g.connections) (hsource : k.source = ⟨n, ⟨2⟩⟩) :
    ∃ b, P.addressOf? k.sink.node = some b ∧
      (P.links.links b k.sink.port).head? = some ⟨a, ⟨2⟩, .output⟩ := by
  obtain ⟨s, t, hs, ht, hfeeds⟩ := h.toSound.ends hk
  obtain ⟨b, -, hb, -, -, -⟩ := hP.instance_of_port h ht
  have hfed : t.kind = .input := by
    obtain ⟨x, j, hx, hj, hport, -⟩ := hP.instance_of_port h hs
    rw [hsource] at hx hport
    obtain rfl := Option.some.inj (hx.symm.trans ha)
    obtain rfl := Option.some.inj (hj.symm.trans hi)
    rw [hfeeds.counterpart, ← Option.some.inj hport]
    rfl
  have hproducer : P.addressOf? k.source.node = some a := by
    rw [hsource]
    exact ha
  have hhead := hP.head?_links h hk ht hfed hb hproducer
  rw [hsource] at hhead
  exact ⟨b, hb, hhead⟩

/-- **Moments of a run.** At each of them a counter, unless it has been released, has kept count. -/
theorem counted_at (hP : g.Compiles config P) (h : g.WellFormed)
    (hi : P.pools.find? a = some (.counter c)) (limit : Nat) (ops : List Operation)
    (op : Operation) {w : World} (hw : w ∈ ((Engine.ofProgram P limit).after ops).moments op) :
    w.Counted a c := by
  have hstart : (Engine.ofProgram P limit).world.Counted a c := by
    refine ⟨hP.sound_pools h, fun i hfound => ⟨c.count, ?_, fun hset => ?_⟩⟩
    · exact Option.some.inj (hfound.symm.trans hi)
    · exact absurd hset List.not_mem_nil
  have hupheld := World.upheld_counted a c
  have hafter := hupheld.after ops hstart fun b _ v hv => hv.without b
  exact hupheld.moments op hafter (fun b _ v hv => hv.without b) w hw

end Graph.Compiles

/-- **Counters lose no increment.** Take the engine of a compiled graph, under any limit on nesting
and at any point of a run, and a node that is a counter. At every moment of every operation, once
the counter has been set up and as long as it has not been released, its count is where it started
and one step for each time that control has arrived since, even if that was in the middle of its own
hook; and whoever then reads an input that the counter feeds is answered with it. The release of any
other node leaves it alone. -/
theorem Graph.Reachable.counts_every_increment {g : Graph} (hg : g.Reachable) (config : PoolConfig)
    (limit : Nat) {node : Node} (hnode : node ∈ g.nodes)
    (hcounter : g.catalog.find? node.behavior = some .counter) :
    let P := (g.compile config).value
    ∃ a c, P.addressOf? node.id = some a ∧
      (Instance.decode .counter node.data).value = .counter c ∧
      ∀ ops, let e := (Engine.ofProgram P limit).after ops
        (∀ op, ∀ w ∈ e.moments op, w.IsSetUp a → w.isLive a = true →
          w.pools.find? a = some (.counter { c with count := w.total a c }) ∧
            ∀ k ∈ g.connections, k.source = ⟨node.id, ⟨2⟩⟩ →
              ∃ b, P.addressOf? k.sink.node = some b ∧ ∀ allowed default,
                (serve P.links limit (allowed + 1) b (.read k.sink.port .int default) w).1
                  = w.total a c) ∧
          ∀ b, b ≠ a → (e.release b).2.pools.find? a = e.pools.find? a := by
  intro P
  have h := hg.wellFormed
  have hP := h.compiles config
  obtain ⟨a, c, ha, hc, hi⟩ := hP.counter_of_node h hnode hcounter
  refine ⟨a, c, ha, hc, fun ops => ⟨fun op w hw hset hlive => ?_, fun b hb => ?_⟩⟩
  · obtain ⟨i, hfound⟩ := Option.isSome_iff_exists.1 hlive
    obtain ⟨n, rfl, htotal⟩ := (hP.counted_at h hi limit ops op hw).count i hfound
    obtain rfl := htotal hset
    refine ⟨hfound, fun k hk hsource => ?_⟩
    obtain ⟨b, hb, hhead⟩ := hP.head?_of_count h ha hi hk hsource
    exact ⟨b, hb, fun allowed default => serve_count hhead hfound limit allowed default⟩
  · rw [((hP.sound h limit).after ops).find?_release, if_neg (Ne.symm hb)]

/-- A counter passes control on to a sequence, which passes it back. -/
def Sample.whirlEdits : List Edit :=
  [ .addNode Behavior.startEvent.id .origin .null
  , .addNode Behavior.counter.id .origin (.object [("step", .int 3)])
  , .addNode Behavior.sequence.id .origin (.object [("arity", .int 1)])
  , .addNode Behavior.intToText.id .origin .null
  , .connect ⟨⟨1⟩, ⟨0⟩⟩ ⟨⟨2⟩, ⟨0⟩⟩
  , .connect ⟨⟨2⟩, ⟨1⟩⟩ ⟨⟨3⟩, ⟨0⟩⟩
  , .connect ⟨⟨3⟩, ⟨1⟩⟩ ⟨⟨2⟩, ⟨0⟩⟩
  , .connect ⟨⟨2⟩, ⟨2⟩⟩ ⟨⟨4⟩, ⟨0⟩⟩ ]

/-- The graph that these edits lead to. -/
def Sample.whirl : Graph := whirlEdits.foldl Graph.edit (.empty .builtin)

/-- At some moment in the middle of the start event control has come round to the counter twice: it
stands at two steps then, and this is what is read. -/
theorem Graph.Reachable.counts_every_increment_whirl :
    let P := (Sample.whirl.compile .standard).value
    let e := (Engine.ofProgram P 7).after [.bringUp]
    Sample.whirl.Reachable ∧ ∃ w ∈ e.moments .start, w.increments (.pack ⟨2⟩ ⟨1⟩) = 2 ∧
      w.pools.find? (.pack ⟨2⟩ ⟨1⟩) = some (.counter ⟨0, 3, 6⟩) ∧
      ∀ allowed default,
        (serve P.links 7 (allowed + 1) (.pack ⟨4⟩ ⟨1⟩) (.read ⟨0⟩ .int default) w).1
          = (6 : Int64) := by
  intro P e
  have hwhirl : Sample.whirl.Reachable :=
    Graph.reachable_foldl .builtin Sample.whirlEdits (by decide)
  obtain ⟨node, hnode, hcounter, hid, hdata⟩ : ∃ node ∈ Sample.whirl.nodes,
      Sample.whirl.catalog.find? node.behavior = some .counter ∧ node.id = ⟨2⟩ ∧
        (Instance.decode .counter node.data).value = .counter ⟨0, 3, 0⟩ := by
    decide +kernel
  obtain ⟨a, c, ha, hc, hcounts⟩ :=
    Graph.Reachable.counts_every_increment hwhirl .standard 7 hnode hcounter
  rw [hid] at ha
  obtain rfl := Stock.Instance.counter.inj (hc.symm.trans hdata)
  have haddresses : P.addressOf? ⟨2⟩ = some (.pack ⟨2⟩ ⟨1⟩) ∧
      P.addressOf? ⟨4⟩ = some (.pack ⟨4⟩ ⟨1⟩) := by
    decide +kernel
  obtain rfl := Option.some.inj (haddresses.1.symm.trans ha)
  obtain ⟨w, hw, htwice, hset, hlive⟩ : ∃ w ∈ e.moments .start,
      w.increments (.pack ⟨2⟩ ⟨1⟩) = 2 ∧ w.IsSetUp (.pack ⟨2⟩ ⟨1⟩) ∧
        w.isLive (.pack ⟨2⟩ ⟨1⟩) = true := by
    decide +kernel
  obtain ⟨hfound, hread⟩ := (hcounts [.bringUp]).1 .start w hw hset hlive
  have htotal : w.total (.pack ⟨2⟩ ⟨1⟩) ⟨0, 3, 0⟩ = 6 := by
    rw [World.total, htwice]
    decide
  rw [htotal] at hfound hread
  obtain ⟨b, hb, hread⟩ := hread ⟨⟨4⟩, ⟨⟨2⟩, ⟨2⟩⟩, ⟨⟨4⟩, ⟨0⟩⟩⟩ (by decide +kernel) (by rw [hid])
  obtain rfl := Option.some.inj (haddresses.2.symm.trans hb)
  exact ⟨hwhirl, w, hw, htwice, hfound, hread⟩

end FlowGraph
