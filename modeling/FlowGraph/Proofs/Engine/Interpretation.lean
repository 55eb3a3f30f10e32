import FlowGraph.Proofs.Engine.Mirror

/-!
# Running a compiled graph is interpreting the graph

Whatever a host does to an engine, step by step, it sees what it would see if the graph were
interpreted as it stands: the same answers, the same messages from the same nodes, the same states,
and the same counts.

* `Command`, `Engine.run`, `Interpreter.run` — what a host does, in nodes and ports of the graph.
* `Parallel` — an engine and an interpreter at corresponding points of their lives.
* `Graph.Compiles.perform_agrees` — the step; `Graph.Compiles.run_agrees` — the run.
* `Graph.Reachable.runs_as_interpreted` — what this says of every reachable graph.
-/

namespace FlowGraph

/-! ### Commands -/

/-- What a host does to a running graph, nodes being named as the graph names them. -/
inductive Command
  | bringUp
  | enable
  | disable
  | start
  | tearDown
  | call (node : NodeId) (port : PortIndex)
  | read (node : NodeId) (port : PortIndex) (type : DataType) (default : type.Carrier)

/-- What a host gets for it. -/
inductive Outcome
  /-- The engine moved on, or refused to. -/
  | moved (result : Except TransitionError Unit)
  | called
  | answered (value : Value)
  /-- The node is none of the program. -/
  | noSuchNode

section

variable [Repertoire]

namespace Engine

/-- Carry out a command. -/
def perform (e : Engine) : Command → Outcome × Engine
  | .bringUp => (.moved e.bringUp.1, e.bringUp.2)
  | .enable => (.moved e.enable.1, e.enable.2)
  | .disable => (.moved e.disable.1, e.disable.2)
  | .start => (.moved e.start.1, e.start.2)
  | .tearDown => (.moved e.tearDown.1, e.tearDown.2)
  | .call n port =>
    match e.addressOf? n with
    | none => (.noSuchNode, e)
    | some a => (.called, e.call a port)
  | .read n port type default =>
    match e.addressOf? n with
    | none => (.noSuchNode, e)
    | some a => (.answered ⟨type, (e.read a port type default).1⟩, (e.read a port type default).2)

/-- Carry out commands, one after the other. -/
def run (e : Engine) : List Command → List Outcome × Engine
  | [] => ([], e)
  | c :: cs => ((e.perform c).1 :: ((e.perform c).2.run cs).1, ((e.perform c).2.run cs).2)

/-- What hosts have heard so far, first things first. -/
def heard (e : Engine) : List Happening := e.journal.filter Happening.isHeard

/-- The count of a counter. -/
def count? (e : Engine) (n : NodeId) : Option Int64 :=
  ((e.addressOf? n).bind e.pools.find?).bind Instance.count?

end Engine

namespace Interpreter

/-- Carry out a command. -/
def perform (i : Interpreter) : Command → Outcome × Interpreter
  | .bringUp => (.moved i.bringUp.1, i.bringUp.2)
  | .enable => (.moved i.enable.1, i.enable.2)
  | .disable => (.moved i.disable.1, i.disable.2)
  | .start => (.moved i.start.1, i.start.2)
  | .tearDown => (.moved i.tearDown.1, i.tearDown.2)
  | .call n port => if n ∈ i.order then (.called, i.call n port) else (.noSuchNode, i)
  | .read n port type default =>
    if n ∈ i.order then
      (.answered ⟨type, (i.read n port type default).1⟩, (i.read n port type default).2)
    else (.noSuchNode, i)

/-- Carry out commands, one after the other. -/
def run (i : Interpreter) : List Command → List Outcome × Interpreter
  | [] => ([], i)
  | c :: cs => ((i.perform c).1 :: ((i.perform c).2.run cs).1, ((i.perform c).2.run cs).2)

end Interpreter

/-! ### Parallel lives -/

/-- An engine and an interpreter at corresponding points of their lives. -/
structure Parallel (g : Graph) (P : Program) (e : Engine) (i : Interpreter) : Prop where
  links : e.links = P.links
  placement : e.placement = P.placement
  graph : i.graph = g
  address : i.address = P.placement.address
  limit : e.limit = i.limit
  state : e.state = i.state
  started : e.started = i.started
  scene : Mirrors P.placement e.world i.scene

namespace Parallel

variable {g : Graph} {P : Program} {e : Engine} {i : Interpreter}

theorem record (h : Parallel g P e i) {x : Happening} (hx : x.isHeard = false) :
    Parallel g P (e.record x) i := { h with scene := h.scene.record hx }

theorem enter (h : Parallel g P e i) (state : EngineState) :
    Parallel g P (e.enter state) (i.enter state) where
  links := h.links
  placement := h.placement
  graph := h.graph
  address := h.address
  limit := h.limit
  state := rfl
  started := h.started
  scene := (h.scene.note _).hear (u := .entered state) rfl rfl

/-- What is refused in one is refused in the other, and what is done is done in both. -/
theorem guarded (h : Parallel g P e i) (allowed : List EngineState) (action : String)
    {go : Engine → Engine} {go' : Interpreter → Interpreter} (hgo : Parallel g P (go e) (go' i)) :
    (e.guarded allowed action go).1 = (i.guarded allowed action go').1 ∧
      Parallel g P (e.guarded allowed action go).2 (i.guarded allowed action go').2 := by
  rw [Engine.guarded, Interpreter.guarded, h.state]
  split
  · exact ⟨rfl, hgo⟩
  · exact ⟨rfl, h⟩

end Parallel

namespace Graph.Compiles

variable {g : Graph} {config : PoolConfig} {P : Program} {e : Engine} {i : Interpreter}

theorem server_agrees (hP : g.Compiles config P) (h : g.WellFormed) (hpar : Parallel g P e i) :
    Agrees P.placement e.server i.server := by
  rw [Engine.server, Interpreter.server, hpar.links, hpar.graph, hpar.address, hpar.limit]
  exact hP.serve_agrees h i.limit i.limit

/-- The nodes that the interpreter knows are those that were placed, in the same order. -/
theorem order_eq (hP : g.Compiles config P) (h : g.WellFormed) (hpar : Parallel g P e i) :
    i.order = P.placement.map Prod.fst ∧ e.order = P.placement.addresses := by
  constructor
  · have hnodes := (h.toOrdered.places config).nodes_eq
    rw [Interpreter.order, hpar.graph, hP.placement, hnodes]
    rfl
  · rw [Engine.order, hpar.links, hP.placement]
    exact hP.order

/-- The interpreter knows the nodes that have an address. -/
theorem mem_order_iff (hP : g.Compiles config P) (h : g.WellFormed) (hpar : Parallel g P e i)
    (n : NodeId) : n ∈ i.order ↔ ∃ a, P.addressOf? n = some a := by
  rw [(hP.order_eq h hpar).1]
  constructor
  · intro hn
    exact Option.ne_none_iff_exists'.1 (mt Table.lookup_eq_none_iff.1 (not_not_intro hn))
  · rintro ⟨a, hn⟩
    exact List.mem_map.2 ⟨(n, a), Placement.mem_of_find? hn, rfl⟩

/-- An event reaches corresponding nodes in the same order. -/
theorem broadcast_agrees (hP : g.Compiles config P) (h : g.WellFormed) (hpar : Parallel g P e i)
    (event : LifecycleEvent) :
    Parallel g P (e.broadcast event e.order) (i.broadcast event i.order) ∧
      Parallel g P (e.broadcast event e.order.reverse) (i.broadcast event i.order.reverse) := by
  have hproper := hP.proper h
  have hserver := hP.server_agrees h hpar
  obtain ⟨hi, he⟩ := hP.order_eq h hpar
  have hfind : ∀ x ∈ P.placement, P.placement.find? x.1 = some x.2 :=
    fun x hx => hproper.find?_of_mem hx
  rw [hi, he]
  constructor
  · exact { hpar with scene := hserver.broadcast hproper event hfind hpar.scene }
  · have hback := hserver.broadcast hproper event (l := P.placement.reverse)
      (fun x hx => hfind x (List.mem_reverse.1 hx)) hpar.scene
    rw [Placement.addresses, List.map_reverse, List.map_reverse] at hback
    exact { hpar with scene := hback }

/-! #### Steps of a life -/

theorem bringUp_agrees (hP : g.Compiles config P) (h : g.WellFormed) (hpar : Parallel g P e i) :
    e.bringUp.1 = i.bringUp.1 ∧ Parallel g P e.bringUp.2 i.bringUp.2 :=
  hpar.guarded _ _ ((hP.broadcast_agrees h hpar .setUp).1.enter .initialized)

theorem enable_agrees (hP : g.Compiles config P) (h : g.WellFormed) (hpar : Parallel g P e i) :
    e.enable.1 = i.enable.1 ∧ Parallel g P e.enable.2 i.enable.2 :=
  hpar.guarded _ _ ((hP.broadcast_agrees h hpar .enable).1.enter .enabled)

theorem disable_agrees (hP : g.Compiles config P) (h : g.WellFormed) (hpar : Parallel g P e i) :
    e.disable.1 = i.disable.1 ∧ Parallel g P e.disable.2 i.disable.2 :=
  hpar.guarded _ _ ((hP.broadcast_agrees h hpar .disable).1.enter .disabled)

theorem start_agrees (hP : g.Compiles config P) (h : g.WellFormed) (hpar : Parallel g P e i) :
    e.start.1 = i.start.1 ∧ Parallel g P e.start.2 i.start.2 := by
  rw [Engine.start, Interpreter.start, hpar.started, hpar.state]
  split
  · exact ⟨rfl, hpar⟩
  · refine hpar.guarded _ _ ?_
    have hstarted : Parallel g P { e with started := true } { i with started := true } :=
      { hpar with started := rfl }
    exact (hP.broadcast_agrees h (hstarted.record (x := .notice .engineStarted) rfl) .start).1

theorem tearDown_agrees (hP : g.Compiles config P) (h : g.WellFormed) (hpar : Parallel g P e i) :
    e.tearDown.1 = i.tearDown.1 ∧ Parallel g P e.tearDown.2 i.tearDown.2 := by
  refine hpar.guarded _ _ ?_
  have hdisabled : Parallel g P (if e.state = .enabled then e.disable.2 else e)
      (if i.state = .enabled then i.disable.2 else i) := by
    rw [hpar.state]
    split
    · exact (hP.disable_agrees h hpar).2
    · exact hpar
  exact (hP.broadcast_agrees h hdisabled .tearDown).2.enter .deInitialized

/-! #### Requests from outside -/

theorem answer_agrees (hP : g.Compiles config P) (h : g.WellFormed) (hpar : Parallel g P e i)
    {n : NodeId} {a : PackedAddress} (hn : P.addressOf? n = some a) (r : Request) :
    (e.answer a r).1 = (i.answer n r).1 ∧ Parallel g P (e.answer a r).2 (i.answer n r).2 := by
  obtain ⟨hanswer, hscene⟩ := hP.server_agrees h hpar n a r e.world i.scene hn hpar.scene
  exact ⟨hanswer, { hpar with scene := hscene }⟩

theorem call_parallel (hP : g.Compiles config P) (h : g.WellFormed) (hpar : Parallel g P e i)
    {n : NodeId} {a : PackedAddress} (hn : P.addressOf? n = some a) (port : PortIndex) :
    Parallel g P (e.call a port) (i.call n port) := by
  rw [Engine.call, Interpreter.call, Engine.isRunning, hpar.state]
  split
  · exact (hP.answer_agrees h hpar hn (.call port)).2
  · exact hpar.record rfl

theorem read_parallel (hP : g.Compiles config P) (h : g.WellFormed) (hpar : Parallel g P e i)
    {n : NodeId} {a : PackedAddress} (hn : P.addressOf? n = some a) (port : PortIndex)
    (type : DataType) (default : type.Carrier) :
    (e.read a port type default).1 = (i.read n port type default).1 ∧
      Parallel g P (e.read a port type default).2 (i.read n port type default).2 := by
  rw [Engine.read, Interpreter.read, Engine.isRunning, hpar.state]
  split
  · exact hP.answer_agrees h hpar hn (.read port type default)
  · exact ⟨rfl, hpar.record rfl⟩

/-! #### Runs -/

/-- **Step.** Every command has the same outcome in both, and leaves them parallel. -/
theorem perform_agrees (hP : g.Compiles config P) (h : g.WellFormed) (hpar : Parallel g P e i)
    (c : Command) :
    (e.perform c).1 = (i.perform c).1 ∧ Parallel g P (e.perform c).2 (i.perform c).2 := by
  have hmissing : ∀ {n}, P.addressOf? n = none → n ∉ i.order := by
    intro n hn hmem
    obtain ⟨a, ha⟩ := (hP.mem_order_iff h hpar n).1 hmem
    rw [hn] at ha
    cases ha
  have hmember : ∀ {n a}, P.addressOf? n = some a → n ∈ i.order :=
    fun hn => (hP.mem_order_iff h hpar _).2 ⟨_, hn⟩
  have haddress : ∀ n, e.addressOf? n = P.addressOf? n := by
    intro n
    rw [Engine.addressOf?, hpar.placement, Program.addressOf?]
  cases c with
  | bringUp =>
      obtain ⟨hresult, hnext⟩ := hP.bringUp_agrees h hpar
      exact ⟨congrArg Outcome.moved hresult, hnext⟩
  | enable =>
      obtain ⟨hresult, hnext⟩ := hP.enable_agrees h hpar
      exact ⟨congrArg Outcome.moved hresult, hnext⟩
  | disable =>
      obtain ⟨hresult, hnext⟩ := hP.disable_agrees h hpar
      exact ⟨congrArg Outcome.moved hresult, hnext⟩
  | start =>
      obtain ⟨hresult, hnext⟩ := hP.start_agrees h hpar
      exact ⟨congrArg Outcome.moved hresult, hnext⟩
  | tearDown =>
      obtain ⟨hresult, hnext⟩ := hP.tearDown_agrees h hpar
      exact ⟨congrArg Outcome.moved hresult, hnext⟩
  | call n port =>
      simp only [Engine.perform, Interpreter.perform, haddress]
      cases hn : P.addressOf? n with
      | none =>
          rw [if_neg (hmissing hn)]
          exact ⟨rfl, hpar⟩
      | some a =>
          rw [if_pos (hmember hn)]
          exact ⟨rfl, hP.call_parallel h hpar hn port⟩
  | read n port type default =>
      simp only [Engine.perform, Interpreter.perform, haddress]
      cases hn : P.addressOf? n with
      | none =>
          rw [if_neg (hmissing hn)]
          exact ⟨rfl, hpar⟩
      | some a =>
          obtain ⟨hvalue, hnext⟩ := hP.read_parallel h hpar hn port type default
          rw [if_pos (hmember hn)]
          exact ⟨congrArg (fun x => Outcome.answered ⟨type, x⟩) hvalue, hnext⟩

/-- **Run.** So do all commands of a run. -/
theorem run_agrees (hP : g.Compiles config P) (h : g.WellFormed) (hpar : Parallel g P e i)
    (cs : List Command) :
    (e.run cs).1 = (i.run cs).1 ∧ Parallel g P (e.run cs).2 (i.run cs).2 := by
  induction cs generalizing e i with
  | nil => exact ⟨rfl, hpar⟩
  | cons c cs ih =>
      obtain ⟨hfirst, hnext⟩ := hP.perform_agrees h hpar c
      obtain ⟨hrest, hlast⟩ := ih hnext
      simp only [Engine.run, Interpreter.run]
      rw [hfirst, hrest]
      exact ⟨rfl, hlast⟩

/-- Before its life begins, an engine holds the decoded data of the graph's nodes. -/
theorem parallel_start (hP : g.Compiles config P) (h : g.WellFormed) (limit : Nat) :
    Parallel g P (Engine.ofProgram P limit)
      (Interpreter.ofGraph g P.placement.address limit) where
  links := rfl
  placement := rfl
  graph := rfl
  address := rfl
  limit := rfl
  state := rfl
  started := rfl
  scene := by
    have hplaces := h.toOrdered.places config
    have hinstances : ∀ n, (Interpreter.ofGraph g P.placement.address limit).scene.instances.find? n
        = Table.lookup n (decoded g.catalog g.nodes) := fun n => Table.find?_foldr_insert n _
    refine ⟨?_, fun n a hn => ?_, fun n hn => ?_, rfl⟩
    · show P.pools.WellFormed
      rw [hP.pools]
      exact hplaces.wellFormed
    · have hfound := hplaces.find?_map n
      rw [← hP.placement, hn] at hfound
      rw [hinstances]
      show P.pools.find? a = _
      rw [hP.pools]
      cases hl : Table.lookup n (decoded g.catalog g.nodes) with
      | none =>
          rw [show (Registry.empty g.catalog config).catalog = g.catalog from rfl, hl] at hfound
          cases hfound
      | some x =>
          rw [show (Registry.empty g.catalog config).catalog = g.catalog from rfl, hl] at hfound
          exact Option.some.inj hfound
    · have hfound := hplaces.find?_map n
      rw [← hP.placement, hn] at hfound
      rw [hinstances]
      exact Option.map_eq_none_iff.1 hfound.symm

end Graph.Compiles

/-! ### What a host sees -/

namespace Parallel

variable {g : Graph} {P : Program} {e : Engine} {i : Interpreter}

theorem heard (h : Parallel g P e i) :
    e.heard = i.heard.map (Utterance.happening P.placement.address) := by
  rw [Engine.heard, Engine.journal, Interpreter.heard, List.filter_reverse, h.scene.heard,
    List.map_reverse]

theorem count? (h : Parallel g P e i) (n : NodeId) : e.count? n = i.count? n := by
  rw [Engine.count?, Interpreter.count?, Engine.addressOf?, h.placement]
  cases hn : P.placement.find? n with
  | none => rw [h.scene.absent n hn]; rfl
  | some a => rw [← h.scene.placed n a hn]; rfl

end Parallel

/-- **Running a compiled graph is interpreting the graph.** For every graph that edits lead to and
every run of commands, outcomes, what hosts hear, the engine's state and all counts are those of an
interpreter that keeps one instance for each node and looks connections up one by one. -/
theorem Graph.Reachable.runs_as_interpreted {g : Graph} (hg : g.Reachable) (config : PoolConfig)
    (limit : Nat) (cs : List Command) :
    let P := (g.compile config).value
    let compiled := (Engine.ofProgram P limit).run cs
    let direct := (Interpreter.ofGraph g P.placement.address limit).run cs
    compiled.1 = direct.1 ∧
      compiled.2.heard = direct.2.heard.map (Utterance.happening P.placement.address) ∧
      compiled.2.state = direct.2.state ∧ compiled.2.started = direct.2.started ∧
      ∀ n, compiled.2.count? n = direct.2.count? n := by
  have h := hg.wellFormed
  have hP := h.compiles config
  obtain ⟨houtcomes, hpar⟩ := hP.run_agrees h (hP.parallel_start h limit) cs
  exact ⟨houtcomes, hpar.heard, hpar.state, hpar.started, hpar.count?⟩

end

/-- A host's dealings with the sample: two commands out of turn, and a call that counts once
more. -/
def Sample.session : List Command :=
  [.enable, .bringUp, .enable, .start, .call ⟨2⟩ ⟨1⟩, .read ⟨5⟩ ⟨1⟩ .text "", .start, .tearDown]

theorem Graph.Reachable.runs_as_interpreted_sample :
    let P := (Sample.graph.value.compile .standard).value
    let compiled := (Engine.ofProgram P defaultDepth).run Sample.session
    let direct := (Interpreter.ofGraph Sample.graph.value P.placement.address defaultDepth).run
      Sample.session
    Sample.graph.value.Reachable ∧ compiled.2.count? Sample.counter = some 6 ∧
      compiled.1 = direct.1 ∧
      compiled.2.heard = direct.2.heard.map (Utterance.happening P.placement.address) ∧
      compiled.2.state = direct.2.state ∧ compiled.2.started = direct.2.started ∧
      ∀ n, compiled.2.count? n = direct.2.count? n :=
  ⟨Sample.graph_reachable, by decide +kernel,
    Graph.Reachable.runs_as_interpreted Sample.graph_reachable .standard defaultDepth
      Sample.session⟩

end FlowGraph
