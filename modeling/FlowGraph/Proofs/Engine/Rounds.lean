import FlowGraph.Proofs.Engine.Traversal

/-!
# Going round in a circle

Nothing keeps an author from connecting speaking nodes in a ring, and control that enters a ring
never leaves it of its own accord. It is the limit on nesting that ends the round, after exactly as
many steps as it allows; the text that each node reads on the way is nested one deeper, but is gone
by the time that control moves on. Nothing of a round is left over, so the next one is as long.

* `Graph.Ring` — speaking nodes in a ring.
* `Graph.Ring.round`, `Graph.Ring.interpret_call` — what is said in one call, by induction on the
  nesting allowed.
* `Graph.Ring.heard_calls` — calls one after the other, by induction on their number.
* `Graph.Reachable.ring_stops_at_limit` — what this says of engines.
-/

namespace FlowGraph

/-- A call from outside does not end a run. -/
theorem Engine.isRunning_call (e : Engine) (a : PackedAddress) (port : PortIndex) :
    (e.call a port).isRunning = e.isRunning := by
  rw [call]
  split <;> rfl

namespace Graph

/-- Speaking nodes in a ring: the exit of each leads to the next and nowhere else, and nothing feeds
their texts. -/
structure Ring (g : Graph) (k : Nat) (node : Nat → NodeId) (lead : Nat → String) : Prop where
  two_le : 2 ≤ k
  speaks : ∀ i < k, g.instance? (node i) = some (.printText (lead i))
  onward : ∀ i < k, (g.connectionsFrom ⟨node i, ⟨2⟩⟩).map Connection.sink
    = [⟨node ((i + 1) % k), ⟨0⟩⟩]
  unfed : ∀ i < k, g.connectionsTo ⟨node i, ⟨1⟩⟩ = []

namespace Ring

variable {g : Graph} {k : Nat} {node : Nat → NodeId} {lead : Nat → String}

/-- What is said in a number of steps that lead on from a place. -/
def round (k : Nat) (node : Nat → NodeId) (lead : Nat → String) (steps start : Nat) :
    List (NodeId × String) :=
  (List.range steps).map fun i => (node ((start + i + 1) % k), lead ((start + i + 1) % k))

theorem round_succ (k : Nat) (node : Nat → NodeId) (lead : Nat → String) (steps start : Nat) :
    round k node lead (steps + 1) start = (node ((start + 1) % k), lead ((start + 1) % k)) ::
      round k node lead steps (start + 1) := by
  rw [round, List.range_succ_eq_map, List.map_cons, List.map_map]
  refine congrArg (List.cons _) (List.map_congr_left fun i _ => ?_)
  have hplace : start + (i + 1) + 1 = start + 1 + i + 1 := by omega
  simp only [Function.comp, Nat.succ_eq_add_one, hplace]

theorem pos (hring : g.Ring k node lead) : 0 < k :=
  Nat.lt_of_lt_of_le Nat.zero_lt_two hring.two_le

theorem targets_eq (hring : g.Ring k node lead) (h : g.WellFormed) {i : Nat} (hi : i < k) :
    g.targets ⟨node i, ⟨2⟩⟩ = [⟨node ((i + 1) % k), ⟨0⟩⟩] := by
  have hport : g.port? ⟨node i, ⟨2⟩⟩ = some (.exit "then") := by
    rw [h.port?_eq, hring.speaks i hi]
    rfl
  rw [targets, hport]
  exact (if_pos rfl).trans (hring.onward i hi)

/-- **One call** makes as many steps as nesting is allowed, and each node that control comes to
speaks. -/
theorem interpret_call (hring : g.Ring k node lead) (h : g.WellFormed)
    (address : NodeId → PackedAddress) {instances : Table NodeId Instance}
    (hthere : ∀ i < k, instances.find? (node i) = some (.printText (lead i)))
    (allowed start : Nat) {s : Scene} (hs : s.instances = instances) :
    (interpret g address allowed (node (start % k)) (.call ⟨2⟩) s).2
      = s.hear (round k node lead allowed start) := by
  induction allowed generalizing start s with
  | zero => rfl
  | succ allowed ih =>
      have hhere : start % k < k := Nat.mod_lt start hring.pos
      have hnext : (start + 1) % k < k := Nat.mod_lt (start + 1) hring.pos
      have htargets : g.targets ⟨node (start % k), ⟨2⟩⟩ = [⟨node ((start + 1) % k), ⟨0⟩⟩] := by
        rw [hring.targets_eq h hhere, Nat.mod_add_mod]
      have hfound : s.instances.find? (node ((start + 1) % k))
          = some (.printText (lead ((start + 1) % k))) := by
        rw [hs]
        exact hthere _ hnext
      calc (interpret g address (allowed + 1) (node (start % k)) (.call ⟨2⟩) s).2
          = Scene.deliver (interpret g address allowed) s ⟨node ((start + 1) % k), ⟨0⟩⟩ := by
            rw [interpret, htargets, List.foldl_cons, List.foldl_nil]
        _ = (interpret g address allowed (node ((start + 1) % k)) (.call ⟨2⟩)
              (s.hear [(node ((start + 1) % k), lead ((start + 1) % k))])).2 :=
            Scene.deliver_printText hfound (hring.unfed _ hnext) address allowed
        _ = (s.hear [(node ((start + 1) % k), lead ((start + 1) % k))]).hear
              (round k node lead allowed (start + 1)) := ih (start + 1) hs
        _ = s.hear (round k node lead (allowed + 1) start) := by
            rw [Scene.hear_hear, round_succ, List.singleton_append]

/-! #### Engines -/

variable {config : PoolConfig} {P : Program}

/-- What hosts hear of a call, with a limit on nesting. -/
def messages (address : NodeId → PackedAddress) (k : Nat) (node : Nat → NodeId)
    (lead : Nat → String) (limit : Nat) : List Happening :=
  (List.range limit).map fun i => .message (address (node ((i + 1) % k))) (lead ((i + 1) % k))

theorem heard_call (hring : g.Ring k node lead) (h : g.WellFormed) (hP : g.Compiles config P)
    (limit : Nat) {ops : List Operation}
    (hrunning : ((Engine.ofProgram P limit).after ops).isRunning = true)
    (hstays : ∀ i < k, Operation.release (P.placement.address (node i)) ∉ ops) :
    let e := (Engine.ofProgram P limit).after ops
    (e.call (P.placement.address (node 0)) ⟨2⟩).heard
      = e.heard ++ messages P.placement.address k node lead limit := by
  intro e
  have hthere : ∀ i < k, (Interpreter.ofEngine g e).scene.instances.find? (node i)
      = some (.printText (lead i)) := by
    intro i hi
    obtain ⟨count, hcount⟩ := hP.find?_ofEngine h limit (hring.speaks i hi) fun a ha =>
      Placement.address_of_find? ha ▸ hstays i hi
    exact hcount
  have hround := hring.interpret_call h P.placement.address hthere limit 0
    (s := (Interpreter.ofEngine g e).scene) rfl
  have haddress := hP.addressOf?_of_instance h (hring.speaks 0 hring.pos)
  rw [Nat.zero_mod] at hround
  rw [hP.call_from h limit hrunning haddress, hround, Scene.happenings_hear _ rfl, round,
    List.map_map, messages]
  simp only [Function.comp_def, Nat.zero_add]
  rfl

/-- **Calls one after the other** are heard alike. -/
theorem heard_calls (hring : g.Ring k node lead) (h : g.WellFormed) (hP : g.Compiles config P)
    (limit : Nat) {ops : List Operation}
    (hrunning : ((Engine.ofProgram P limit).after ops).isRunning = true)
    (hstays : ∀ i < k, Operation.release (P.placement.address (node i)) ∉ ops) (times : Nat) :
    let e := (Engine.ofProgram P limit).after ops
    (e.after (List.replicate times (.call (P.placement.address (node 0)) ⟨2⟩))).heard
      = e.heard ++ (List.replicate times
          (messages P.placement.address k node lead limit)).flatten := by
  induction times generalizing ops with
  | zero => exact (List.append_nil _).symm
  | succ times ih =>
      intro e
      have hnext : (Engine.ofProgram P limit).after
          (ops ++ [.call (P.placement.address (node 0)) ⟨2⟩])
          = e.call (P.placement.address (node 0)) ⟨2⟩ :=
        Engine.after_append _ ops [.call _ _]
      have hrest := @ih (ops ++ [.call (P.placement.address (node 0)) ⟨2⟩])
        (by rw [hnext, Engine.isRunning_call]; exact hrunning) (by simpa using hstays)
      rw [hnext] at hrest
      calc (e.after (List.replicate (times + 1) (.call (P.placement.address (node 0)) ⟨2⟩))).heard
          = (e.call (P.placement.address (node 0)) ⟨2⟩).heard ++ (List.replicate times
              (messages P.placement.address k node lead limit)).flatten := hrest
        _ = e.heard ++ (List.replicate (times + 1)
              (messages P.placement.address k node lead limit)).flatten := by
            rw [hring.heard_call h hP limit hrunning hstays, List.append_assoc,
              List.replicate_succ, List.flatten_cons]

end Ring

/-- **A ring stops at the limit.** Take speaking nodes in a ring, in a graph that edits lead to, and
any limit on nesting. At any point of a run at which the engine runs, as long as none of the ring
was released, a call through the exit of the first makes exactly as many of them speak as the limit
allows, from the second on and round the ring, each under its own address. However often the call is
made, what is heard of it is the same each time. -/
theorem Reachable.ring_stops_at_limit {g : Graph} (hg : g.Reachable) {k : Nat}
    {node : Nat → NodeId} {lead : Nat → String} (hring : g.Ring k node lead) (config : PoolConfig)
    (limit : Nat) :
    let P := (g.compile config).value
    let address := P.placement.address
    (∀ i < k, P.addressOf? (node i) = some (address (node i))) ∧
      ∀ ops, let e := (Engine.ofProgram P limit).after ops
        let said := Ring.messages address k node lead limit
        e.isRunning = true →
        (∀ i < k, Operation.release (address (node i)) ∉ ops) →
        (e.call (address (node 0)) ⟨2⟩).heard = e.heard ++ said ∧
        ∀ times, (e.after (List.replicate times (.call (address (node 0)) ⟨2⟩))).heard
          = e.heard ++ (List.replicate times said).flatten := by
  intro P address
  have h := hg.wellFormed
  have hP := h.compiles config
  have haddress : ∀ i < k, P.addressOf? (node i) = some (address (node i)) :=
    fun i hi => hP.addressOf?_of_instance h (hring.speaks i hi)
  refine ⟨haddress, ?_⟩
  intro ops e said hrunning hstays
  exact ⟨hring.heard_call h hP limit hrunning hstays,
    hring.heard_calls h hP limit hrunning hstays⟩

end Graph

/-- Three speaking nodes in a ring. -/
def Sample.ringEdits : List Edit :=
  [ .addNode Behavior.printText.id .origin (.object [("prefix", .text "ready")])
  , .addNode Behavior.printText.id .origin (.object [("prefix", .text "steady")])
  , .addNode Behavior.printText.id .origin (.object [("prefix", .text "go")])
  , .connect ⟨⟨1⟩, ⟨2⟩⟩ ⟨⟨2⟩, ⟨0⟩⟩
  , .connect ⟨⟨2⟩, ⟨2⟩⟩ ⟨⟨3⟩, ⟨0⟩⟩
  , .connect ⟨⟨3⟩, ⟨2⟩⟩ ⟨⟨1⟩, ⟨0⟩⟩ ]

/-- The graph that these edits lead to. -/
def Sample.ring : Graph := ringEdits.foldl Graph.edit (.empty .builtin)

theorem Sample.ring_ring :
    ring.Ring 3 (fun i => ⟨i.toUInt32 + 1⟩) (fun i => ["ready", "steady", "go"].getD i "") where
  two_le := by decide
  speaks := by decide +kernel
  onward := by decide +kernel
  unfed := by decide +kernel

/-- Under a limit of five, a call goes round once and a part of the way again, and so does the next
one. -/
theorem Graph.Reachable.ring_stops_at_limit_five :
    let e := (Engine.ofProgram (Sample.ring.compile .standard).value 5).after [.bringUp]
    let said : List Happening :=
      [ .message (.pack ⟨1⟩ ⟨2⟩) "steady", .message (.pack ⟨1⟩ ⟨3⟩) "go"
      , .message (.pack ⟨1⟩ ⟨1⟩) "ready", .message (.pack ⟨1⟩ ⟨2⟩) "steady"
      , .message (.pack ⟨1⟩ ⟨3⟩) "go" ]
    Sample.ring.Reachable ∧ e.isRunning = true ∧
      (e.call (.pack ⟨1⟩ ⟨1⟩) ⟨2⟩).heard = e.heard ++ said ∧
      ∀ times, (e.after (List.replicate times (.call (.pack ⟨1⟩ ⟨1⟩) ⟨2⟩))).heard
        = e.heard ++ (List.replicate times said).flatten := by
  intro e said
  have hring : Sample.ring.Reachable := Graph.reachable_foldl .builtin Sample.ringEdits (by decide)
  have hrunning : e.isRunning = true := by decide +kernel
  have haddresses : let address := (Sample.ring.compile .standard).value.placement.address
      address ⟨1⟩ = .pack ⟨1⟩ ⟨1⟩ ∧ address ⟨2⟩ = .pack ⟨1⟩ ⟨2⟩ ∧
        address ⟨3⟩ = .pack ⟨1⟩ ⟨3⟩ := by
    decide +kernel
  obtain ⟨hfirst, hsecond, hthird⟩ := haddresses
  have hsaid : Graph.Ring.messages (Sample.ring.compile .standard).value.placement.address 3
      (fun i => ⟨i.toUInt32 + 1⟩) (fun i => ["ready", "steady", "go"].getD i "") 5 = said := by
    simp [Graph.Ring.messages, List.range_succ, hfirst, hsecond, hthird, said]
  obtain ⟨-, hcalls⟩ := Graph.Reachable.ring_stops_at_limit hring Sample.ring_ring .standard 5
  obtain ⟨honce, hoften⟩ := hcalls [.bringUp] hrunning (by simp)
  have hzero : (⟨Nat.toUInt32 0 + 1⟩ : NodeId) = ⟨1⟩ := by decide
  rw [hsaid, hzero, hfirst] at honce hoften
  exact ⟨hring, hrunning, honce, hoften⟩

end FlowGraph
