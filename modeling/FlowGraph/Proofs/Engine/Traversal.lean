import FlowGraph.Proofs.Engine.Takeover
import FlowGraph.Proofs.Program.Ports

/-!
# Control runs depth first

Where control only passes through sequences and speaking nodes, what is heard of a start can be read
off the graph: each start event, in the order of the nodes, sends control to the ends of its exit;
a sequence sends it on through its exits one after the other, a speaking node speaks before it sends
it on, and ends of one exit are served in the order in which the connections were made. A node that
is reached in several ways is visited once for each of them. The limit on nesting makes no
difference, as long as no chain of connections is longer.

* `Graph.Visits`, `Graph.Visits.unique` — the order of visits, and what is said on the way.
* `Scene.hear` — a scene after more was said.
* `Graph.Recites`, `Graph.WellFormed.recites_call` — one call, by induction on the nesting allowed.
* `Graph.Reachable.starts_depth_first` — what this says of engines.
-/

namespace FlowGraph

namespace Graph

/-! ### Order of visits -/

/-- What is said when control arrives at ends, one after the other: a speaking node speaks and sends
control on, a sequence sends it through its exits in their order. -/
inductive Visits (g : Graph) : List PortRef → List (NodeId × String) → Prop
  | nil : Visits g [] []
  | printText {n : NodeId} {lead : String} {rest : List PortRef}
      {inner outer : List (NodeId × String)} (hn : g.instance? n = some (.printText lead))
      (hinner : Visits g (g.targets ⟨n, ⟨2⟩⟩) inner) (houter : Visits g rest outer) :
      Visits g (⟨n, ⟨0⟩⟩ :: rest) ((n, lead) :: inner ++ outer)
  | sequence {n : NodeId} {arity : UInt32} {rest : List PortRef}
      {inner outer : List (NodeId × String)} (hn : g.instance? n = some (.sequence arity))
      (hinner : Visits g ((Stock.Instance.exitPorts arity).flatMap fun p => g.targets ⟨n, p⟩) inner)
      (houter : Visits g rest outer) : Visits g (⟨n, ⟨0⟩⟩ :: rest) (inner ++ outer)

namespace Visits

variable {g : Graph}

theorem append {as bs : List PortRef} {l l' : List (NodeId × String)} (ha : g.Visits as l)
    (hb : g.Visits bs l') : g.Visits (as ++ bs) (l ++ l') := by
  induction ha with
  | nil => exact hb
  | printText hn hinner _ _ ih =>
      rw [List.append_assoc]
      exact .printText hn hinner ih
  | sequence hn hinner _ _ ih =>
      rw [List.append_assoc]
      exact .sequence hn hinner ih

/-- There is one order of visits only. -/
theorem unique {as : List PortRef} {l l' : List (NodeId × String)} (h : g.Visits as l)
    (h' : g.Visits as l') : l = l' := by
  induction h generalizing l' with
  | nil =>
      cases h'
      rfl
  | printText hn _ _ ihinner ihouter =>
      cases h' with
      | printText hn' hinner' houter' =>
          cases Option.some.inj (hn.symm.trans hn')
          rw [ihinner hinner', ihouter houter']
      | sequence hn' => cases Option.some.inj (hn.symm.trans hn')
  | sequence hn _ _ ihinner ihouter =>
      cases h' with
      | printText hn' => cases Option.some.inj (hn.symm.trans hn')
      | sequence hn' hinner' houter' =>
          cases Option.some.inj (hn.symm.trans hn')
          rw [ihinner hinner', ihouter houter']

/-- Whoever says something is a speaking node, and says its lead. -/
theorem instance_of_mem {as : List PortRef} {l : List (NodeId × String)} (h : g.Visits as l)
    {x : NodeId × String} (hx : x ∈ l) : g.instance? x.1 = some (.printText x.2) := by
  induction h with
  | nil => cases hx
  | printText hn _ _ ihinner ihouter =>
      rcases List.mem_cons.1 hx with rfl | hx
      · exact hn
      · exact (List.mem_append.1 hx).elim ihinner ihouter
  | sequence _ _ _ ihinner ihouter => exact (List.mem_append.1 hx).elim ihinner ihouter

end Visits

/-- A node that does nothing with control but send it on, perhaps with a word of its own. -/
inductive Relays (g : Graph) (n : NodeId) : Prop
  | startEvent (hn : g.instance? n = some .startEvent)
  | sequence (arity : UInt32) (hn : g.instance? n = some (.sequence arity))
  | printText (lead : String) (hn : g.instance? n = some (.printText lead))
      (hunfed : g.connectionsTo ⟨n, ⟨1⟩⟩ = [])

/-- The start events, in node order. -/
def startEvents (g : Graph) : List NodeId :=
  (g.nodes.filter fun n => g.catalog.find? n.behavior = some .startEvent).map Node.id

/-- The ends that a start sends control to. -/
def openings (g : Graph) : List PortRef := g.startEvents.flatMap fun n => g.targets ⟨n, ⟨0⟩⟩

end Graph

/-! ### Saying things one after the other -/

namespace Scene

/-- The scene after nodes have said something, first things first. -/
def hear (s : Scene) (log : List (NodeId × String)) : Scene :=
  { s with heard := (log.map fun x => .message x.1 x.2).reverse ++ s.heard }

@[simp] theorem hear_hear (s : Scene) (l l' : List (NodeId × String)) :
    (s.hear l).hear l' = s.hear (l ++ l') := by
  simp only [hear, List.map_append, List.reverse_append, List.append_assoc]

/-- What hosts hear of a scene of which nothing had been heard. -/
theorem happenings_hear (address : NodeId → PackedAddress) {s : Scene} (hs : s.heard = [])
    (log : List (NodeId × String)) :
    (s.hear log).heard.reverse.map (Utterance.happening address)
      = log.map fun x => .message (address x.1) x.2 := by
  rw [hear, hs, List.append_nil, List.reverse_reverse, List.map_map]
  rfl

/-- **A sequence** sends control through its exits, one after the other. -/
theorem deliver_sequence {s : Scene} {n : NodeId} {arity : UInt32}
    (hn : s.instances.find? n = some (.sequence arity)) (server : Server) :
    deliver server s ⟨n, ⟨0⟩⟩
      = (Stock.Instance.exitPorts arity).foldl (fun s p => (server n (.call p) s).2) s := by
  rw [deliver, hn]
  exact congrArg Prod.snd (Action.run_callAll stage server n _ s)

/-- **A speaking node** whose text is not fed says its lead and sends control on. -/
theorem deliver_printText {g : Graph} {s : Scene} {n : NodeId} {lead : String}
    (hn : s.instances.find? n = some (.printText lead)) (hunfed : g.connectionsTo ⟨n, ⟨1⟩⟩ = [])
    (address : NodeId → PackedAddress) (allowed : Nat) :
    deliver (interpret g address allowed) s ⟨n, ⟨0⟩⟩
      = (interpret g address allowed n (.call ⟨2⟩) (s.hear [(n, lead)])).2 := by
  -- The text is asked for even at the limit, and is the default there as everywhere.
  have hread : interpret g address allowed n (.read ⟨1⟩ .text "") s = ("", s) := by
    cases allowed with
    | zero => rfl
    | succ allowed => rw [interpret, Graph.producer?_of_unfed hunfed]
  have hrun : deliver (interpret g address allowed) s ⟨n, ⟨0⟩⟩
      = (interpret g address allowed n (.call ⟨2⟩)
          ((interpret g address allowed n (.read ⟨1⟩ .text "") s).2.hear
            [(n, lead ++ (interpret g address allowed n (.read ⟨1⟩ .text "") s).1)])).2 := by
    rw [deliver, hn]
    rfl
  rw [hrun, hread, String.append_empty]

end Scene

namespace Graph

variable {g : Graph}

/-- Something that makes what is said in the order of visits heard, and changes nothing else. -/
def Recites (g : Graph) (instances : Table NodeId Instance) (ends : List PortRef)
    (act : Scene → Scene) : Prop :=
  ∃ log, g.Visits ends log ∧ ∀ s : Scene, s.instances = instances → act s = s.hear log

/-- One after the other. -/
theorem Recites.foldl {α : Type} {instances : Table NodeId Instance} {act : Scene → α → Scene}
    {ends : α → List PortRef} {l : List α}
    (hact : ∀ x ∈ l, g.Recites instances (ends x) fun s => act s x) :
    g.Recites instances (l.flatMap ends) (l.foldl act) := by
  induction l with
  | nil => exact ⟨[], .nil, fun s _ => rfl⟩
  | cons x l ih =>
      obtain ⟨first, hfirst, hx⟩ := hact x (by simp)
      obtain ⟨rest, hrest, hl⟩ := ih fun y hy => hact y (by simp [hy])
      refine ⟨first ++ rest, hfirst.append hrest, fun s hs => ?_⟩
      calc l.foldl act (act s x)
          = l.foldl act (s.hear first) := congrArg (fun s => l.foldl act s) (hx s hs)
        _ = (s.hear first).hear rest := hl (s.hear first) hs
        _ = s.hear (first ++ rest) := s.hear_hear first rest

/-! ### One call -/

/-- Among ports of which only the first is entered, control arrives at the first. -/
theorem entry_of_ports {first p : Port} {rest : List Port} {port : PortIndex}
    (hrest : ∀ q ∈ rest, q.kind ≠ .enter) (hp : (first :: rest)[port.index]? = some p)
    (hk : p.kind = .enter) : port = ⟨0⟩ := by
  cases hindex : port.index with
  | zero => exact congrArg PortIndex.mk (UInt32.toNat_inj.1 hindex)
  | succ k =>
      rw [hindex, List.getElem?_cons_succ] at hp
      exact absurd hk (hrest p (List.mem_of_getElem? hp))

/-- Control that arrives at a node that relays it arrives at the first port of a speaking node or of
a sequence. -/
theorem WellFormed.arrives (h : g.WellFormed) {r target : PortRef} (ht : target ∈ g.targets r)
    (hrelays : g.Relays target.node) :
    target.port = ⟨0⟩ ∧ ((∃ arity, g.instance? target.node = some (.sequence arity)) ∨
      ∃ lead, g.instance? target.node = some (.printText lead) ∧
        g.connectionsTo ⟨target.node, ⟨1⟩⟩ = []) := by
  obtain ⟨i, p, hi, hp, hk⟩ := h.enter_of_target ht
  cases hrelays with
  | startEvent hn =>
      cases Option.some.inj (hi.symm.trans hn)
      rw [List.mem_singleton.1 (List.mem_of_getElem? hp)] at hk
      cases hk
  | sequence arity hn =>
      cases Option.some.inj (hi.symm.trans hn)
      refine ⟨entry_of_ports (fun q hq => ?_) hp hk, .inl ⟨arity, hn⟩⟩
      obtain ⟨k, -, rfl⟩ := List.mem_map.1 hq
      nofun
  | printText lead hn hunfed =>
      cases Option.some.inj (hi.symm.trans hn)
      exact ⟨entry_of_ports (by decide) hp hk, .inr ⟨lead, hn, hunfed⟩⟩

/-- **One end** of a call recites what is said there and behind it, if calls behind it do. -/
theorem WellFormed.recites_deliver (h : g.WellFormed) {address : NodeId → PackedAddress}
    {instances : Table NodeId Instance} {allowed : Nat} {r target : PortRef}
    (ht : target ∈ g.targets r) (hrelays : g.Relays target.node)
    (hthere : ∀ i, g.instance? target.node = some i →
      ∃ count, instances.find? target.node = some (i.withCount count))
    (hbehind : ∀ port, g.Recites instances (g.targets ⟨target.node, port⟩) fun s =>
      (interpret g address allowed target.node (.call port) s).2) :
    g.Recites instances [target] fun s =>
      Scene.deliver (interpret g address allowed) s target := by
  obtain ⟨hport, ⟨arity, hn⟩ | ⟨lead, hn, hunfed⟩⟩ := h.arrives ht hrelays
  all_goals
    obtain ⟨count, hfind⟩ := hthere _ hn
    obtain ⟨n, port⟩ := target
    cases hport
  · obtain ⟨log, hlog, hexits⟩ :=
      Recites.foldl (l := Stock.Instance.exitPorts arity) fun p _ => hbehind p
    refine ⟨log, by simpa using Visits.sequence hn hlog .nil, fun s hs => ?_⟩
    have hfound : s.instances.find? n = some (.sequence arity) := hs ▸ hfind
    calc Scene.deliver (interpret g address allowed) s ⟨n, ⟨0⟩⟩
        = (Stock.Instance.exitPorts arity).foldl
            (fun s p => (interpret g address allowed n (.call p) s).2) s :=
          Scene.deliver_sequence hfound _
      _ = s.hear log := hexits s hs
  · obtain ⟨log, hlog, hcall⟩ := hbehind ⟨2⟩
    refine ⟨(n, lead) :: log, by simpa using Visits.printText hn hlog .nil, fun s hs => ?_⟩
    have hfound : s.instances.find? n = some (.printText lead) := hs ▸ hfind
    calc Scene.deliver (interpret g address allowed) s ⟨n, ⟨0⟩⟩
        = (interpret g address allowed n (.call ⟨2⟩) (s.hear [(n, lead)])).2 :=
          Scene.deliver_printText hfound hunfed address allowed
      _ = (s.hear [(n, lead)]).hear log := hcall (s.hear [(n, lead)]) hs
      _ = s.hear ((n, lead) :: log) := s.hear_hear [(n, lead)] log

/-- **One call.** Let control only reach nodes that relay it, along chains no longer than the
nesting allowed. Then what is heard of a call is what is said in the order of visits. -/
theorem WellFormed.recites_call (h : g.WellFormed) (address : NodeId → PackedAddress)
    {instances : Table NodeId Instance} {allowed : Nat} {n : NodeId}
    (hchains : ∀ k, Walk g.Leads k n → k ≤ allowed)
    (hrelays : ∀ m, Relation.ReflTransGen g.Leads n m → g.Relays m)
    (hthere : ∀ m i, Relation.ReflTransGen g.Leads n m → g.instance? m = some i →
      ∃ count, instances.find? m = some (i.withCount count)) (port : PortIndex) :
    g.Recites instances (g.targets ⟨n, port⟩) fun s =>
      (interpret g address allowed n (.call port) s).2 := by
  induction allowed generalizing n port with
  | zero =>
      have hnone : g.targets ⟨n, port⟩ = [] :=
        List.eq_nil_iff_forall_not_mem.2 fun t ht =>
          Walk.not_step hchains (b := t.node) ⟨port, t, ht, rfl⟩
      rw [hnone]
      exact ⟨[], .nil, fun s _ => rfl⟩
  | succ allowed ih =>
      have hall : g.Recites instances ((g.targets ⟨n, port⟩).flatMap fun t => [t])
          ((g.targets ⟨n, port⟩).foldl (Scene.deliver (interpret g address allowed))) := by
        refine Recites.foldl fun t ht => ?_
        have hstep : g.Leads n t.node := ⟨port, t, ht, rfl⟩
        exact h.recites_deliver ht (hrelays t.node (.single hstep))
          (fun i => hthere t.node i (.single hstep))
          (ih (Walk.shorter hchains hstep) (fun m hm => hrelays m (.head hstep hm))
            fun m i hm => hthere m i (.head hstep hm))
      rwa [List.flatMap_singleton'] at hall

/-! ### The start -/

theorem startEvents_ascending (h : g.Ordered) :
    g.startEvents.Pairwise fun m n => m.raw < n.raw :=
  List.pairwise_map.2 (h.nodes_ascending.filter _)

theorem mem_startEvents {node : Node} (hn : node ∈ g.nodes)
    (hb : g.catalog.find? node.behavior = some .startEvent) : node.id ∈ g.startEvents :=
  List.mem_map.2 ⟨node, List.mem_filter.2 ⟨hn, decide_eq_true hb⟩, rfl⟩

/-- Of the built-in behaviours only start events take notice of a start. -/
theorem onEvent_start {i : Stock.Instance} (hi : i.behavior ∈ Stock.Behavior.builtin)
    (hne : i.behavior ≠ .startEvent) : Instance.onEvent i .start = .done () := by
  cases i with
  | startEvent => exact absurd rfl hne
  | tracer tag | shape mode | probe c =>
      exact absurd hi (by simp [Stock.Instance.behavior, Stock.Behavior.builtin])
  | _ => rfl

/-- **One node** recites what is said behind its exit, if it is a start event, and otherwise
nothing. -/
theorem WellFormed.recites_notify (h : g.WellFormed) (hbuiltin : g.IsBuiltin)
    {server : Scene.Server} {instances : Table NodeId Instance} {node : Node} (hn : node ∈ g.nodes)
    {b : Behavior} (hb : g.catalog.find? node.behavior = some b)
    (hthere : ∀ n i, g.instance? n = some i →
      ∃ count, instances.find? n = some (i.withCount count))
    (hcall : b = .startEvent → g.Recites instances (g.targets ⟨node.id, ⟨0⟩⟩) fun s =>
      (server node.id (.call ⟨0⟩) s).2) :
    g.Recites instances (if b = .startEvent then g.targets ⟨node.id, ⟨0⟩⟩ else []) fun s =>
      Interpreter.notify server .start s node.id := by
  obtain ⟨count, hfind⟩ := hthere _ _ (h.instance?_of_mem hn hb)
  generalize hi : ((Instance.decode b node.data).value).withCount count = i at hfind
  have hbehavior : i.behavior = b := by
    rw [← hi, Instance.behavior_withCount, Instance.behavior_decode]
  have hnotify : ∀ s : Scene, s.instances = instances → Interpreter.notify server .start s node.id
      = ((i.onEvent .start).run Scene.stage server node.id s).2 := by
    intro s hs
    rw [Interpreter.notify, hs, hfind]
  by_cases hstart : b = .startEvent
  · subst hstart
    obtain ⟨log, hlog, hall⟩ := hcall rfl
    refine ⟨log, by simpa using hlog, fun s hs => (hnotify s hs).trans ?_⟩
    cases i with
    | startEvent => exact hall s hs
    | _ => cases hbehavior
  · refine ⟨[], by simpa [hstart] using Visits.nil, fun s hs => (hnotify s hs).trans ?_⟩
    have hknown : i.behavior ∈ Stock.Behavior.builtin := hbehavior ▸ hbuiltin node hn b hb
    have hother : i.behavior ≠ .startEvent := hbehavior ▸ hstart
    rw [onEvent_start hknown hother]
    rfl

/-- **The start** recites what is said behind the start events, in node order. -/
theorem WellFormed.recites_start (h : g.WellFormed) (hbuiltin : g.IsBuiltin)
    (address : NodeId → PackedAddress) (instances : Table NodeId Instance) {limit : Nat}
    (hchains : ∀ n ∈ g.startEvents, ∀ k, Walk g.Leads k n → k ≤ limit)
    (hrelays : ∀ n ∈ g.startEvents, ∀ m, Relation.ReflTransGen g.Leads n m → g.Relays m)
    (hthere : ∀ n i, g.instance? n = some i →
      ∃ count, instances.find? n = some (i.withCount count)) :
    g.Recites instances g.openings fun s =>
      ((Interpreter.instancesOf g).map Prod.fst).foldl
        (Interpreter.notify (interpret g address limit) .start) s := by
  have hnodes : g.Recites instances
      (g.nodes.flatMap fun node => if g.catalog.find? node.behavior = some .startEvent
        then g.targets ⟨node.id, ⟨0⟩⟩ else [])
      (g.nodes.foldl fun s node => (g.catalog.find? node.behavior).elim s fun _ =>
        Interpreter.notify (interpret g address limit) .start s node.id) := by
    refine Recites.foldl fun node hn => ?_
    cases hb : g.catalog.find? node.behavior with
    | none => exact ⟨[], .nil, fun s _ => rfl⟩
    | some b =>
        simp only [Option.some.injEq]
        refine h.recites_notify hbuiltin hn hb hthere fun hstart => ?_
        have hmem := mem_startEvents hn (hstart ▸ hb)
        exact h.recites_call address (hchains _ hmem) (hrelays _ hmem)
          (fun m i _ => hthere m i) ⟨0⟩
  rw [flatMap_ite] at hnodes
  obtain ⟨log, hlog, hall⟩ := hnodes
  refine ⟨log, ?_, fun s hs => ?_⟩
  · rw [openings, startEvents, List.flatMap_map]
    exact hlog
  · show ((Interpreter.instancesOf g).map Prod.fst).foldl _ s = _
    rw [List.foldl_map, Interpreter.instancesOf, List.foldl_filterMap]
    refine Eq.trans (congrArg (fun f => g.nodes.foldl f s) ?_) (hall s hs)
    funext s node
    cases g.catalog.find? node.behavior <;> rfl

/-- **Control runs depth first.** Take a graph of built-in behaviours in which control that leaves
the start events only reaches nodes that relay it, along chains of connections no longer than the
limit, so that none of them goes round in a circle. Whenever an engine that runs and from which
nothing was released is started for the first time, it starts, and what is heard of it is what is
said in the order of visits, of which there is one only, each word under the address of the node
that says it. -/
theorem Reachable.starts_depth_first (hg : g.Reachable) (hbuiltin : g.IsBuiltin)
    (hrelays : ∀ n ∈ g.startEvents, ∀ m, Relation.ReflTransGen g.Leads n m → g.Relays m)
    (config : PoolConfig) (limit : Nat)
    (hchains : ∀ n ∈ g.startEvents, ∀ k, Walk g.Leads k n → k ≤ limit) (ops : List Operation) :
    let P := (g.compile config).value
    let e := (Engine.ofProgram P limit).after ops
    e.isRunning = true → e.started = false →
      (∀ n a, P.addressOf? n = some a → Operation.release a ∉ ops) →
      ∃ log, g.Visits g.openings log ∧ (∀ log', g.Visits g.openings log' → log' = log) ∧
        (g.startEvents.Pairwise fun m n => m.raw < n.raw) ∧
        (∀ x ∈ log, P.addressOf? x.1 = some (P.placement.address x.1)) ∧
        e.start.1 = .ok () ∧
        e.start.2.heard = e.heard ++ log.map fun x => .message (P.placement.address x.1) x.2 := by
  intro P e hrunning hfresh hstays
  have h := hg.wellFormed
  have hP := h.compiles config
  obtain ⟨log, hlog, hall⟩ := h.recites_start hbuiltin P.placement.address
    (Interpreter.ofEngine g e).scene.instances hchains hrelays
    fun n i hi => hP.find?_ofEngine h limit hi (hstays n)
  obtain ⟨hstart, hheard⟩ := hP.start_from h limit hrunning hfresh
  refine ⟨log, hlog, fun log' hlog' => hlog'.unique hlog, startEvents_ascending h.toOrdered,
    fun x hx => hP.addressOf?_of_instance h (hlog.instance_of_mem hx), hstart, hheard.trans ?_⟩
  have hsaid := hall (Interpreter.ofEngine g e).scene rfl
  exact congrArg (e.heard ++ ·) ((congrArg (fun s : Scene => s.heard.reverse.map _) hsaid).trans
    (Scene.happenings_hear P.placement.address rfl log))

end Graph

/-- A sequence sends control to two speaking nodes through its first exit, to the second of which
first, and to the first of which again through its second exit; the first sends it on to the second,
and so does another start event. -/
def Sample.recitalEdits : List Edit :=
  [ .addNode Behavior.startEvent.id .origin .null
  , .addNode Behavior.sequence.id .origin .null
  , .addNode Behavior.printText.id .origin (.object [("prefix", .text "long")])
  , .addNode Behavior.printText.id .origin (.object [("prefix", .text "ago")])
  , .addNode Behavior.startEvent.id .origin .null
  , .connect ⟨⟨1⟩, ⟨0⟩⟩ ⟨⟨2⟩, ⟨0⟩⟩
  , .connect ⟨⟨2⟩, ⟨2⟩⟩ ⟨⟨3⟩, ⟨0⟩⟩
  , .connect ⟨⟨2⟩, ⟨1⟩⟩ ⟨⟨4⟩, ⟨0⟩⟩
  , .connect ⟨⟨2⟩, ⟨1⟩⟩ ⟨⟨3⟩, ⟨0⟩⟩
  , .connect ⟨⟨3⟩, ⟨2⟩⟩ ⟨⟨4⟩, ⟨0⟩⟩
  , .connect ⟨⟨5⟩, ⟨0⟩⟩ ⟨⟨4⟩, ⟨0⟩⟩ ]

/-- The graph that these edits lead to. -/
def Sample.recital : Graph := recitalEdits.foldl Graph.edit (.empty .builtin)

theorem Sample.recital_relays {n m : NodeId} (hn : n ∈ recital.startEvents)
    (hm : Relation.ReflTransGen recital.Leads n m) : recital.Relays m := by
  have hmem : m ∈ ([⟨1⟩, ⟨2⟩, ⟨3⟩, ⟨4⟩, ⟨5⟩] : List NodeId) := by
    cases hm with
    | refl =>
        have hstarts : ∀ n ∈ recital.startEvents,
            n ∈ ([⟨1⟩, ⟨2⟩, ⟨3⟩, ⟨4⟩, ⟨5⟩] : List NodeId) := by decide +kernel
        exact hstarts n hn
    | tail _ hlast =>
        obtain ⟨port, target, htarget, rfl⟩ := hlast
        obtain ⟨c, hc, -, rfl, -⟩ := Graph.mem_targets htarget
        have hsinks : ∀ c ∈ recital.connections,
            c.sink.node ∈ ([⟨1⟩, ⟨2⟩, ⟨3⟩, ⟨4⟩, ⟨5⟩] : List NodeId) := by decide +kernel
        exact hsinks c hc
  simp only [List.mem_cons, List.not_mem_nil, or_false] at hmem
  rcases hmem with rfl | rfl | rfl | rfl | rfl
  · exact .startEvent (by decide +kernel)
  · exact .sequence 2 (by decide +kernel)
  · exact .printText "long" (by decide +kernel) (by decide +kernel)
  · exact .printText "ago" (by decide +kernel) (by decide +kernel)
  · exact .startEvent (by decide +kernel)

/-- Six visits to two nodes, under the least limit that allows them. -/
theorem Graph.Reachable.starts_depth_first_recital :
    let P := (Sample.recital.compile .standard).value
    let e := (Engine.ofProgram P 3).after [.bringUp, .enable]
    Sample.recital.Reachable ∧ e.isRunning = true ∧ e.started = false ∧ e.start.1 = .ok () ∧
      ∃ log, Sample.recital.Visits [⟨⟨2⟩, ⟨0⟩⟩, ⟨⟨4⟩, ⟨0⟩⟩] log ∧
        e.start.2.heard = e.heard ++ log.map (fun x => .message (P.placement.address x.1) x.2) ∧
        log.map Prod.snd = ["ago", "long", "ago", "long", "ago", "ago"] := by
  intro P e
  have hrecital : Sample.recital.Reachable :=
    Graph.reachable_foldl .builtin Sample.recitalEdits (by decide)
  have hrunning : e.isRunning = true := by decide +kernel
  have hfresh : e.started = false := by decide +kernel
  have hrises : Sample.recital.Rises fun n => (n.raw.toNat - 1) % 4 := by decide +kernel
  have hopenings : Sample.recital.openings = [⟨⟨2⟩, ⟨0⟩⟩, ⟨⟨4⟩, ⟨0⟩⟩] := by decide +kernel
  obtain ⟨log, hlog, -, -, -, hstart, hheard⟩ := Graph.Reachable.starts_depth_first hrecital
    (Graph.isBuiltin_of_catalog (by decide +kernel))
    (fun n hn m hm => Sample.recital_relays hn hm) .standard 3
    (fun n _ k hk => Nat.le_trans (hrises.leads_le 3 (fun n => by omega) hk) (Nat.sub_le 3 _))
    [.bringUp, .enable] hrunning hfresh (by simp)
  have hsaid : ((e.start.2.heard.drop e.heard.length).filterMap Happening.message?).map Prod.snd
      = ["ago", "long", "ago", "long", "ago", "ago"] := by
    decide +kernel
  rw [hheard, List.drop_left, List.filterMap_map] at hsaid
  refine ⟨hrecital, hrunning, hfresh, hstart, log, hopenings ▸ hlog, hheard, ?_⟩
  simpa [Function.comp_def, Happening.message?] using hsaid

end FlowGraph
