import FlowGraph.Proofs.Graph.Connections
import FlowGraph.Proofs.Pool.Changes
import FlowGraph.Proofs.Program.Links

/-!
# Ports as drawn and ports as run

The data of a node are decoded twice. The graph decodes them when they are set, to show the node
with its ports; compiling decodes them once more, perhaps many edits later, to get the instance that
will run. What can be connected comes from the first, what is done from the second, and a sequence
fires exits by a count of its own, not by its list of ports. All three agree, whatever the data are:
a sequence that is told to have too many exits has as many as it shows, and shows as many as it
fires.

* `Action.run_callAll` — what firing exits one after the other comes to, on any machine.
* `Stock.Instance.exitPorts`, `Stock.Instance.mem_exitPorts_iff` — a sequence fires the exits that
  it has.
* `Graph.Reachable.ports_agree` — the ports of graph and program, and the exits that are fired.
-/

namespace FlowGraph

/-! ### Exits of a sequence -/

/-- Firing exits one after the other: each call is over before the next one is made. -/
theorem Action.run_callAll {κ σ : Type} (stage : Stage κ σ)
    (serve : κ → (r : Request) → σ → r.Answer × σ) (self : κ) (ps : List Nat) (s : σ) :
    (callAll ps).run stage serve self s
      = ((), (ps.map fun p => (⟨p.toUInt32⟩ : PortIndex)).foldl
          (fun s p => (serve self (.call p) s).2) s) := by
  induction ps generalizing s with
  | nil => rfl
  | cons p ps ih => exact ih _

namespace Stock.Instance

/-- The exits that a sequence of a given arity fires, in their order. -/
def exitPorts (arity : UInt32) : List PortIndex :=
  ((List.range (exitCount arity)).map (· + 1)).map fun k => ⟨k.toUInt32⟩

theorem exitCount_le (arity : UInt32) : exitCount arity ≤ 256 := Nat.min_le_right _ _

/-- The number of an exit fits its word, since a sequence has no more than 256. -/
theorem toNat_exit {arity : UInt32} {k : Nat} (hk : k < exitCount arity) :
    ((k + 1).toUInt32).toNat = k + 1 := by
  have hle := exitCount_le arity
  rw [Nat.toUInt32, UInt32.toNat_ofNat']
  exact Nat.mod_eq_of_lt (by omega)

theorem onControl_sequence (arity : UInt32) :
    (sequence arity).onControl ⟨0⟩ = .callAll ((List.range (exitCount arity)).map (· + 1)) := rfl

theorem exitPorts_ascending (arity : UInt32) :
    (exitPorts arity).Pairwise fun p q => p.raw < q.raw := by
  rw [exitPorts, List.map_map, List.pairwise_map]
  refine (List.pairwise_lt_range).imp_of_mem fun {j k} hj hk hlt => ?_
  show (j + 1).toUInt32 < (k + 1).toUInt32
  rw [UInt32.lt_iff_toNat_lt, toNat_exit (List.mem_range.1 hj), toNat_exit (List.mem_range.1 hk)]
  exact Nat.succ_lt_succ hlt

theorem mem_exitPorts {arity : UInt32} {p : PortIndex} :
    p ∈ exitPorts arity ↔ ∃ k, k < exitCount arity ∧ p.index = k + 1 := by
  rw [exitPorts, List.map_map, List.mem_map]
  constructor
  · rintro ⟨k, hk, rfl⟩
    exact ⟨k, List.mem_range.1 hk, toNat_exit (List.mem_range.1 hk)⟩
  · rintro ⟨k, hk, hp⟩
    refine ⟨k, List.mem_range.2 hk, congrArg PortIndex.mk ?_⟩
    exact UInt32.toNat_inj.1 ((toNat_exit hk).trans hp.symm)

/-- **The exits fired are the exits there are**: behind its entry, a sequence has nothing else. -/
theorem mem_exitPorts_iff {arity : UInt32} {p : PortIndex} :
    p ∈ exitPorts arity ↔ ∃ q, (sequence arity).ports[p.index]? = some q ∧ q.kind = .exit := by
  rw [mem_exitPorts, ports]
  constructor
  · rintro ⟨k, hk, hp⟩
    refine ⟨.exit s!"then {k}", ?_, rfl⟩
    rw [hp, List.getElem?_cons_succ, List.getElem?_map, List.getElem?_range hk]
    rfl
  · rintro ⟨q, hq, hkind⟩
    cases hp : p.index with
    | zero =>
      rw [hp, List.getElem?_cons_zero] at hq
      rw [← Option.some.inj hq] at hkind
      cases hkind
    | succ k =>
      rw [hp, List.getElem?_cons_succ, List.getElem?_map, Option.map_eq_some_iff] at hq
      obtain ⟨j, hj, -⟩ := hq
      have hlt := (List.getElem?_eq_some_iff.1 hj).1
      rw [List.length_range] at hlt
      exact ⟨k, hlt, rfl⟩

end Stock.Instance

/-! ### Nodes and their ports -/

namespace Graph

/-- These are the exits among the ports of a node, each once and in ascending order. -/
structure AreExits (g : Graph) (n : NodeId) (exits : List PortIndex) : Prop where
  ascending : exits.Pairwise fun p q => p.raw < q.raw
  mem_iff : ∀ p : PortIndex, p ∈ exits ↔ ∃ q, (g.ports n)[p.index]? = some q ∧ q.kind = .exit

/-- The ports of a node are those of its decoded data. -/
theorem WellFormed.ports_of_known {g : Graph} (h : g.WellFormed) {node : Node} (hn : node ∈ g.nodes)
    {b : Behavior} (hb : g.catalog.find? node.behavior = some b) :
    g.ports node.id = (Instance.decode b node.data).value.ports := by
  rw [ports, h.node?_of_mem hn]
  show node.ports = _
  rw [h.derived node hn, derivedPorts, hb]

/-- **Ports as drawn are ports as run.** Take any graph that edits lead to, and a node of known
behaviour with any data whatsoever. Behind the address of the node lies an instance of that
behaviour, which is what the data decode to now; it has the ports that the graph shows. Of a
sequence, control that arrives at its entry fires the exits among these ports and nothing else, each
once and in ascending order, on whatever machine it runs. -/
theorem Reachable.ports_agree {g : Graph} (hg : g.Reachable) (config : PoolConfig) {node : Node}
    (hn : node ∈ g.nodes) {b : Behavior} (hb : g.catalog.find? node.behavior = some b) :
    let P := (g.compile config).value
    let i := (Instance.decode b node.data).value
    ∃ a, P.addressOf? node.id = some a ∧ P.pools.behind? a = some (b, i) ∧
      i.ports = g.ports node.id ∧
      (b = .sequence → ∃ exits, g.AreExits node.id exits ∧
        ∀ {κ σ : Type} (stage : Stage κ σ) (serve : κ → (r : Request) → σ → r.Answer × σ)
          (self : κ) (s : σ), (i.onControl ⟨0⟩).run stage serve self s
            = ((), exits.foldl (fun s p => (serve self (.call p) s).2) s)) := by
  intro P i
  have h := hg.wellFormed
  have hP : g.Compiles config P := h.compiles config
  obtain ⟨a, ha, hi⟩ := hP.instance_of_node h hn hb
  have hports : g.ports node.id = i.ports := h.ports_of_known hn hb
  have hbehavior : i.behavior = b := Instance.behavior_decode b node.data
  refine ⟨a, ha, ?_, hports.symm, fun hsequence => ?_⟩
  · rw [(hP.sound_pools h).behind?_eq, hi]
    exact congrArg some (Prod.ext hbehavior rfl)
  · obtain ⟨arity, harity⟩ : ∃ arity, i = .sequence arity := by
      rw [hsequence] at hbehavior
      cases hcase : i with
      | sequence arity => exact ⟨arity, rfl⟩
      | _ =>
        rw [hcase] at hbehavior
        cases hbehavior
    refine ⟨Stock.Instance.exitPorts arity, ⟨Stock.Instance.exitPorts_ascending arity,
      fun p => ?_⟩, ?_⟩
    · rw [hports, harity]
      exact Stock.Instance.mem_exitPorts_iff
    · intro κ σ stage serve self s
      rw [harity]
      show (Stock.Instance.onControl (.sequence arity) ⟨0⟩).run stage serve self s = _
      rw [Stock.Instance.onControl_sequence, Action.run_callAll]
      rfl

/-- A sequence with the usual two exits is told to have a thousand. -/
def overgrown : Graph :=
  [ .addNode Behavior.sequence.id .origin .null
  , .setData ⟨1⟩ (.object [("colour", .text "red"), ("arity", .int 1000)]) ].foldl edit
    (.empty .builtin)

/-- It gets as many as there can be, and fires them all. -/
theorem Reachable.ports_agree_overgrown :
    let P := (overgrown.compile .standard).value
    overgrown.Reachable ∧ (overgrown.ports ⟨1⟩).length = 257 ∧
      ∃ a i exits, P.addressOf? ⟨1⟩ = some a ∧ P.pools.behind? a = some (.sequence, i) ∧
        i.ports = overgrown.ports ⟨1⟩ ∧ overgrown.AreExits ⟨1⟩ exits ∧
        ∀ (server : Server) (w : World), server.run a (i.onControl ⟨0⟩) w
          = ((), exits.foldl (fun w p => (server a (.call p) w).2) w) := by
  intro P
  have hreachable : overgrown.Reachable := reachable_foldl .builtin _ (by decide)
  have hsome : (overgrown.node? ⟨1⟩).isSome = true := by decide +kernel
  obtain ⟨node, hnode⟩ := Option.isSome_iff_exists.1 hsome
  obtain ⟨hmem, hid⟩ := node?_eq_some hnode
  have hknown : (overgrown.node? ⟨1⟩).bind (fun n => overgrown.catalog.find? n.behavior)
      = some .sequence := by decide +kernel
  rw [hnode, Option.bind_some] at hknown
  obtain ⟨a, ha, hbehind, hports, hfires⟩ :=
    Reachable.ports_agree hreachable .standard hmem hknown
  obtain ⟨exits, hexits, hrun⟩ := hfires rfl
  rw [hid] at ha hports hexits
  exact ⟨hreachable, by decide +kernel, a, _, exits, ha, hbehind, hports, hexits,
    fun server w => hrun World.stage server a w⟩

end Graph

end FlowGraph
