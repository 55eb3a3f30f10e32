import FlowGraph.Proofs.Engine.Interpretation
import FlowGraph.Proofs.Engine.Population
import FlowGraph.Proofs.Graph.Flow

/-!
# Interpretation from any point of a run

An engine that has been under way for a while is not the engine that it was: nodes have been
released, counters have counted, and much has been said. None of this parts it from its graph. Let
an interpreter take over at such a point, with the instances that are still there, and do for it
what the engine is then asked to do. The replies are the same, and what hosts hear of the engine is
what they had heard before, followed by what is heard of the interpreter.

* `World.Onto`, `World.Lockstep.commands` — what happened earlier makes no difference.
* `Interpreter.ofEngine` — the interpreter that takes over from an engine.
* `Graph.Compiles.run_from` — it does what the engine does.
* `Graph.Compiles.read_from`, `call_from`, `start_from` — the same for one command.
* `Graph.Compiles.find?_ofEngine` — the instances that it finds.
-/

namespace FlowGraph

variable [Repertoire]

/-! ### Leaving the past aside -/

/-- The same instances, and a journal that goes on from a past. -/
structure World.Onto (past : List Happening) (w w' : World) : Prop where
  pools : w'.pools = w.pools
  journal : w'.journal = w.journal ++ past

theorem World.lockstep_onto (past : List Happening) : Lockstep (Onto past) where
  pools h := h.pools
  record x _ h := ⟨h.pools, by simp only [journal_record, h.journal, List.cons_append]⟩
  setCount a n h := ⟨by simp only [stage, h.pools], h.journal⟩

namespace World.Lockstep

variable {R : World → World → Prop} {e e' : Engine}

/-- **One command** has the same outcome in both engines, and leaves them side by side. -/
theorem perform (hR : Lockstep R) (c : Command) (h : e.Beside R e') :
    (e.perform c).1 = (e'.perform c).1 ∧ (e.perform c).2.Beside R (e'.perform c).2 := by
  have haddress : ∀ n, e'.addressOf? n = e.addressOf? n := by
    obtain ⟨w, -, rfl⟩ := h
    exact fun n => rfl
  have hmoved : ∀ (op : Operation) {x y : Except TransitionError Unit},
      (∀ a, op ≠ .release a) → (e.operate op).1 = .moved x → (e'.operate op).1 = .moved y →
        Outcome.moved x = .moved y ∧ (e.operate op).2.Beside R (e'.operate op).2 := by
    intro op x y hop hx hy
    obtain ⟨hreply, hnext⟩ := hR.operate op h fun a ha => absurd ha (hop a)
    rw [hx, hy] at hreply
    exact ⟨congrArg Outcome.moved (Reply.moved.inj hreply), hnext⟩
  cases c with
  | bringUp => exact hmoved .bringUp nofun rfl rfl
  | enable => exact hmoved .enable nofun rfl rfl
  | disable => exact hmoved .disable nofun rfl rfl
  | start => exact hmoved .start nofun rfl rfl
  | tearDown => exact hmoved .tearDown nofun rfl rfl
  | call n port =>
      simp only [Engine.perform, haddress]
      cases e.addressOf? n with
      | none => exact ⟨rfl, h⟩
      | some a => exact ⟨rfl, hR.call a port h⟩
  | read n port type default =>
      simp only [Engine.perform, haddress]
      cases e.addressOf? n with
      | none => exact ⟨rfl, h⟩
      | some a =>
          obtain ⟨hanswer, hnext⟩ := hR.read a port type default h
          exact ⟨congrArg (fun x => Outcome.answered ⟨type, x⟩) hanswer, hnext⟩

/-- **All commands** of a run do. -/
theorem commands (hR : Lockstep R) (cs : List Command) (h : e.Beside R e') :
    (e.run cs).1 = (e'.run cs).1 ∧ (e.run cs).2.Beside R (e'.run cs).2 := by
  induction cs generalizing e e' with
  | nil => exact ⟨rfl, h⟩
  | cons c cs ih =>
      obtain ⟨hfirst, hnext⟩ := hR.perform c h
      obtain ⟨hrest, hlast⟩ := ih hnext
      exact ⟨by simp only [Engine.run, hfirst, hrest], hlast⟩

end World.Lockstep

namespace Engine

/-- An engine that has forgotten what has happened is otherwise as it was. -/
theorem beside_clearJournal (e : Engine) :
    e.clearJournal.Beside (World.Onto e.world.journal) e :=
  ⟨e.world, ⟨rfl, rfl⟩, rfl⟩

/-- What is heard goes on from what had been heard. -/
theorem Beside.heard_onto {d e e' : Engine} (h : d.Beside (World.Onto e.world.journal) e') :
    e'.heard = e.heard ++ d.heard := by
  have hjournal := h.world.journal
  simp only [heard, journal, hjournal, List.reverse_append, List.filter_append]

end Engine

/-! ### Taking over -/

/-- The interpreter of a graph that takes over from an engine: it has the instances that are still
there, and nothing has been heard of it yet. -/
def Interpreter.ofEngine (g : Graph) (e : Engine) : Interpreter where
  graph := g
  address := e.placement.address
  limit := e.limit
  state := e.state
  started := e.started
  scene :=
    ⟨(e.placement.filterMap fun x => (e.pools.find? x.2).map (x.1, ·)).foldr
      (fun i t => t.insert i.1 i.2) .empty, []⟩

theorem Interpreter.find?_ofEngine (g : Graph) {e : Engine} (h : e.placement.Proper) (n : NodeId) :
    (ofEngine g e).scene.instances.find? n = (e.addressOf? n).bind e.pools.find? :=
  (Table.find?_foldr_insert n _).trans (Table.lookup_filterMap h.nodes e.pools.find? n)

namespace Graph.Compiles

variable {g : Graph} {config : PoolConfig} {P : Program} {limit : Nat} {ops : List Operation}

/-- **Taking over.** At any point of a run, an engine without its past and the interpreter that
takes over from it are at corresponding points of their lives. -/
theorem parallel_ofEngine (hP : g.Compiles config P) (h : g.WellFormed) (limit : Nat)
    (ops : List Operation) :
    Parallel g P ((Engine.ofProgram P limit).after ops).clearJournal
      (Interpreter.ofEngine g ((Engine.ofProgram P limit).after ops)) := by
  have hakin := Engine.akin_after (Engine.ofProgram P limit) ops
  have hsound := (hP.sound h limit).after ops
  generalize (Engine.ofProgram P limit).after ops = e at hakin hsound
  have hplacement : e.placement = P.placement := hakin.placement
  have hproper : e.placement.Proper := hplacement ▸ hP.proper h
  have hfind := Interpreter.find?_ofEngine g hproper
  refine
    { links := hakin.links, placement := hplacement, graph := rfl
      address := congrArg Placement.address hplacement
      limit := rfl, state := rfl, started := rfl, scene := ?_ }
  refine ⟨hsound.pools.wellFormed, fun n a hn => ?_, fun n hn => ?_, rfl⟩
  · rw [hfind, Engine.addressOf?, hplacement, hn]
    rfl
  · rw [hfind, Engine.addressOf?, hplacement, hn]
    rfl

/-- **From any point on, running is interpreting.** Outcomes are those of the interpreter that takes
over, and what hosts hear of it is added to what they had heard. -/
theorem run_from (hP : g.Compiles config P) (h : g.WellFormed) (limit : Nat)
    (ops : List Operation) (cs : List Command) :
    let e := (Engine.ofProgram P limit).after ops
    let i := Interpreter.ofEngine g e
    (e.run cs).1 = (i.run cs).1 ∧
      (e.run cs).2.heard
        = e.heard ++ (i.run cs).2.heard.map (Utterance.happening P.placement.address) := by
  intro e i
  obtain ⟨houtcomes, hpar⟩ := hP.run_agrees h (hP.parallel_ofEngine h limit ops) cs
  obtain ⟨hsame, hbeside⟩ := (World.lockstep_onto e.world.journal).commands cs e.beside_clearJournal
  exact ⟨hsame.symm.trans houtcomes, hbeside.heard_onto.trans (by rw [hpar.heard])⟩

/-! #### One command -/

theorem server_ofEngine (P : Program) (limit : Nat) (ops : List Operation) :
    (Interpreter.ofEngine g ((Engine.ofProgram P limit).after ops)).server
      = interpret g P.placement.address limit :=
  congrArg₂ (fun p l => interpret g (Placement.address p) l) (Engine.placement_after P limit ops)
    (Engine.limit_after P limit ops)

/-- A node that was placed is known to the engine and to the interpreter. -/
theorem known_from (hP : g.Compiles config P) (h : g.WellFormed) (limit : Nat)
    (ops : List Operation) {n : NodeId} {a : PackedAddress} (hn : P.addressOf? n = some a) :
    let e := (Engine.ofProgram P limit).after ops
    e.addressOf? n = some a ∧ n ∈ (Interpreter.ofEngine g e).order := by
  constructor
  · rw [Engine.addressOf?, Engine.placement_after]
    exact hn
  · exact (hP.mem_order_iff h (hP.parallel_ofEngine h limit ops) n).2 ⟨a, hn⟩

/-- **A read** by a running engine. -/
theorem read_from (hP : g.Compiles config P) (h : g.WellFormed) (limit : Nat)
    {ops : List Operation} (hrunning : ((Engine.ofProgram P limit).after ops).isRunning = true)
    {n : NodeId} {a : PackedAddress} (hn : P.addressOf? n = some a) (port : PortIndex)
    (type : DataType) (default : type.Carrier) :
    let e := (Engine.ofProgram P limit).after ops
    (e.read a port type default).1 = (interpret g P.placement.address limit n
      (.read port type default) (Interpreter.ofEngine g e).scene).1 := by
  intro e
  have hrun := (hP.run_from h limit ops [.read n port type default]).1
  obtain ⟨haddress, hmem⟩ := hP.known_from h limit ops hn
  simp only [Engine.run, Engine.perform, haddress, Interpreter.run, Interpreter.perform,
    if_pos hmem, List.cons.injEq, and_true, Outcome.answered.injEq, Value.mk.injEq, true_and,
    heq_eq_eq] at hrun
  have hrunning' : (Interpreter.ofEngine g e).state.isRunning = true := hrunning
  rw [hrun, Interpreter.read, if_pos hrunning', Interpreter.answer, server_ofEngine]

/-- **A call** by a running engine. -/
theorem call_from (hP : g.Compiles config P) (h : g.WellFormed) (limit : Nat)
    {ops : List Operation} (hrunning : ((Engine.ofProgram P limit).after ops).isRunning = true)
    {n : NodeId} {a : PackedAddress} (hn : P.addressOf? n = some a) (port : PortIndex) :
    let e := (Engine.ofProgram P limit).after ops
    (e.call a port).heard = e.heard ++ ((interpret g P.placement.address limit n (.call port)
      (Interpreter.ofEngine g e).scene).2.heard.reverse.map
        (Utterance.happening P.placement.address)) := by
  intro e
  have hrun := (hP.run_from h limit ops [.call n port]).2
  obtain ⟨haddress, hmem⟩ := hP.known_from h limit ops hn
  simp only [Engine.run, Engine.perform, haddress, Interpreter.run, Interpreter.perform,
    if_pos hmem] at hrun
  have hrunning' : (Interpreter.ofEngine g e).state.isRunning = true := hrunning
  rw [hrun, Interpreter.call, if_pos hrunning', Interpreter.answer, server_ofEngine]
  rfl

/-- **The start** of an engine. -/
theorem start_from (hP : g.Compiles config P) (h : g.WellFormed) (limit : Nat)
    {ops : List Operation} (hrunning : ((Engine.ofProgram P limit).after ops).isRunning = true)
    (hfresh : ((Engine.ofProgram P limit).after ops).started = false) :
    let e := (Engine.ofProgram P limit).after ops
    let i := Interpreter.ofEngine g e
    e.start.1 = .ok () ∧ e.start.2.heard = e.heard ++
      ((i.order.foldl (Interpreter.notify (interpret g P.placement.address limit) .start)
        i.scene).heard.reverse.map (Utterance.happening P.placement.address)) := by
  intro e i
  obtain ⟨houtcomes, hheard⟩ := hP.run_from h limit ops [.start]
  have hstate : i.state ∈ Engine.running := (Engine.mem_running_iff _).2 hrunning
  have hstarted : i.started = false := hfresh
  have hstart : i.start = (.ok (),
      ({ i with started := true } : Interpreter).broadcast .start i.order) := by
    rw [Interpreter.start, hstarted, if_neg (by decide), Interpreter.guarded, if_pos hstate]
  simp only [Engine.run, Engine.perform, Interpreter.run, Interpreter.perform] at houtcomes hheard
  change [Outcome.moved e.start.1] = [Outcome.moved i.start.1] at houtcomes
  change e.start.2.heard = e.heard ++ i.start.2.heard.map _ at hheard
  rw [hstart] at houtcomes hheard
  refine ⟨Outcome.moved.inj (List.cons.inj houtcomes).1, ?_⟩
  rw [hheard, ← server_ofEngine]
  rfl

end Graph.Compiles

/-! ### What is found at a takeover -/

namespace Graph.Compiles

variable {g : Graph} {config : PoolConfig} {P : Program}

/-- What is a node of known behaviour has an address. -/
theorem addressOf?_of_instance (hP : g.Compiles config P) (h : g.WellFormed) {n : NodeId}
    {i : Instance} (hi : g.instance? n = some i) :
    P.addressOf? n = some (P.placement.address n) := by
  obtain ⟨node, hmem, rfl, hb, -⟩ := instance?_eq_some hi
  obtain ⟨a, ha, -⟩ := hP.instance_of_node h hmem hb
  rw [ha, Placement.address_of_find? ha]

/-- At any point of a run, a node that was not released is what its data say, but for a count. -/
theorem find?_ofEngine (hP : g.Compiles config P) (h : g.WellFormed) (limit : Nat)
    {ops : List Operation} {n : NodeId} {i : Instance} (hi : g.instance? n = some i)
    (hstays : ∀ a, P.addressOf? n = some a → Operation.release a ∉ ops) :
    ∃ count, (Interpreter.ofEngine g ((Engine.ofProgram P limit).after ops)).scene.instances.find? n
      = some (i.withCount count) := by
  obtain ⟨node, hmem, rfl, hb, hdata⟩ := instance?_eq_some hi
  obtain ⟨a, ha, hstart⟩ := hP.instance_of_node h hmem hb
  obtain ⟨count, hcount⟩ := (hP.sound h limit).find?_after hstart (hstays a ha)
  have hplacement := Engine.placement_after P limit ops
  refine ⟨count, ?_⟩
  rw [Interpreter.find?_ofEngine g (hplacement ▸ hP.proper h), Engine.addressOf?, hplacement,
    ← hdata]
  exact (congrArg (Option.bind · _) ha).trans hcount

/-- Counts are found as they are. -/
theorem count?_ofEngine (hP : g.Compiles config P) (h : g.WellFormed) (limit : Nat)
    (ops : List Operation) (n : NodeId) :
    ((Engine.ofProgram P limit).after ops).count? n
      = (Interpreter.ofEngine g ((Engine.ofProgram P limit).after ops)).count? n := by
  have hplacement := Engine.placement_after P limit ops
  rw [Engine.count?, Interpreter.count?,
    Interpreter.find?_ofEngine g (hplacement ▸ hP.proper h)]

end Graph.Compiles

end FlowGraph
