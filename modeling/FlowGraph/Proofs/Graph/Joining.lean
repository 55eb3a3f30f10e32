import FlowGraph.Proofs.Graph.Connections
import FlowGraph.Proofs.Graph.Refusals

/-!
# What it takes to join two ports

An editor drags a link from one port to another and may start at either end. Which end is the source
is read off the port where it started, before anything is known of the other one. So there are two
things to see. A source and its counterpart are never of the same side, hence the order is right
whenever there is one that could be right. And what is made then is the link in that order,
whichever end was named first.

* `Graph.Joinable` — the links that may be made: they would fit, and they are not there yet.
* `Graph.connect_of_joinable` — such a link is made, given in either order.
* `Graph.connect_exactly` — no other is, and nothing else happens.
-/

namespace FlowGraph

theorem PortKind.isSource_iff (k : PortKind) : k.isSource = true ↔ k = .exit ∨ k = .output := by
  cases k <;> simp [isSource]

theorem Port.typeCompatible_iff (p q : Port) :
    p.typeCompatible q = true ↔
      ∀ s t, p.declaredType = some s → q.declaredType = some t → s = t := by
  unfold typeCompatible
  cases p.declaredType <;> cases q.declaredType <;> simp

theorem Graph.IsOrderOf.swap {source sink a b : PortRef} (h : IsOrderOf source sink a b) :
    IsOrderOf source sink b a :=
  Or.symm h

namespace Graph

section

variable [Repertoire]

/-! ### Links that may be made -/

/-- A link that may be made: it would fit, and it is not there yet. -/
structure Joinable (g : Graph) (source sink : PortRef) : Prop where
  fits : g.Fits ⟨⟨g.nextConnectionId⟩, source, sink⟩
  unjoined : ∀ c ∈ g.connections, c.source = source → c.sink ≠ sink

/-- A connection fits exactly if it is valid in the graph as it stands. -/
theorem fits_iff_accepts (g : Graph) (c : Connection) :
    g.Fits c ↔ g.accepts c.source c.sink = true := by
  rw [accepts_iff]
  constructor
  · rintro ⟨s, t, p, q, hs, ht, hne, hp, hq, hsource, hkind, htype⟩
    exact ⟨hne, p, q, (g.port?_eq_some_iff _ _).2 ⟨s, hs, hp⟩,
      (g.port?_eq_some_iff _ _).2 ⟨t, ht, hq⟩, (PortKind.isSource_iff _).2 hsource, hkind,
      (Port.typeCompatible_iff p q).2 htype⟩
  · rintro ⟨hne, p, q, hp, hq, hfeeds⟩
    obtain ⟨s, hs, hsp⟩ := (g.port?_eq_some_iff _ _).1 hp
    obtain ⟨t, ht, htq⟩ := (g.port?_eq_some_iff _ _).1 hq
    exact ⟨s, t, p, q, hs, ht, hne, hsp, htq, (PortKind.isSource_iff _).1 hfeeds.isSource,
      hfeeds.counterpart, (Port.typeCompatible_iff p q).1 hfeeds.compatible⟩

theorem joined_eq_false_iff (g : Graph) (source sink : PortRef) :
    g.joined source sink = false ↔ ∀ c ∈ g.connections, c.source = source → c.sink ≠ sink := by
  simp only [joined, List.any_eq_false, decide_eq_true_eq, not_and, ne_eq]

theorem joinable_iff (g : Graph) (source sink : PortRef) :
    g.Joinable source sink ↔ g.accepts source sink = true ∧ g.joined source sink = false := by
  rw [joined_eq_false_iff, ← fits_iff_accepts g ⟨⟨g.nextConnectionId⟩, source, sink⟩]
  exact ⟨fun h => ⟨h.fits, h.unjoined⟩, fun h => ⟨h.1, h.2⟩⟩

/-! ### Making a link -/

theorem portAt_of_port? {g : Graph} {r : PortRef} {p : Port} (h : g.port? r = some p) :
    g.portAt r = .ok p := by
  unfold port? at h
  cases hr : g.portAt r with
  | error e =>
    rw [hr] at h
    cases h
  | ok q =>
    rw [hr] at h
    exact congrArg Except.ok (Option.some.inj h)

theorem checkLink_of_accepts {g : Graph} {source sink : PortRef}
    (h : g.accepts source sink = true) : g.checkLink source sink = .ok () := by
  unfold accepts at h
  cases hc : g.checkLink source sink with
  | error e =>
    rw [hc] at h
    cases h
  | ok u => rfl

/-- **A link that may be made is made**, whichever of its ends is named first. The kind of that one
port tells which end it is, since the counterpart of a source is a sink. -/
theorem connect_of_joinable {g : Graph} {source sink a b : PortRef}
    (hord : IsOrderOf source sink a b) (h : g.Joinable source sink) :
    (g.connect a b).value = (.ok ⟨g.nextConnectionId⟩, g.linked source sink) := by
  obtain ⟨hacc, hnew⟩ := (g.joinable_iff source sink).1 h
  have hcheck := checkLink_of_accepts hacc
  obtain ⟨-, p, q, hp, hq, hfeeds⟩ := (g.accepts_iff source sink).1 hacc
  unfold connect
  rcases hord with ⟨rfl, rfl⟩ | ⟨rfl, rfl⟩
  · rw [portAt_of_port? hp]
    simp only [hfeeds.isSource, if_true, hcheck, hnew]
    rfl
  · have hsink : q.kind.isSource = false := by
      rw [hfeeds.counterpart, PortKind.isSource_counterpart, hfeeds.isSource]
      rfl
    rw [portAt_of_port? hq]
    simp only [hsink, Bool.false_eq_true, if_false, hcheck, hnew]
    rfl

/-- A link that was made is one that may be made. -/
theorem joinable_of_connect {g : Graph} {a b : PortRef} {c : ConnectionId}
    (h : (g.connect a b).value.1 = .ok c) :
    ∃ source sink, IsOrderOf source sink a b ∧ g.Joinable source sink := by
  rcases g.connect_cases a b with ⟨e, he⟩ | ⟨source, sink, hord, hacc, hnew, -⟩
  · rw [he] at h
    cases h
  · exact ⟨source, sink, hord, (g.joinable_iff source sink).2 ⟨hacc, hnew⟩⟩

/-- Where a link is made from one end, it is made from the other. -/
theorem connect_swap_of_ok {g : Graph} {a b : PortRef} {c : ConnectionId}
    (h : (g.connect a b).value.1 = .ok c) : (g.connect b a).value = (g.connect a b).value := by
  obtain ⟨source, sink, hord, hjoin⟩ := joinable_of_connect h
  rw [connect_of_joinable hord hjoin, connect_of_joinable hord.swap hjoin]

/-- From either end, two ports are joined alike or not at all. The refusals may differ in their
wording, as each names what was wrong with the order that it read. -/
theorem connect_comm (g : Graph) (a b : PortRef) :
    (∀ c, (g.connect a b).value.1 = .ok c ↔ (g.connect b a).value.1 = .ok c) ∧
      (g.connect a b).value.2 = (g.connect b a).value.2 := by
  refine ⟨fun c => ⟨fun h => ?_, fun h => ?_⟩, ?_⟩
  · rwa [connect_swap_of_ok h]
  · rwa [connect_swap_of_ok h]
  · cases hab : (g.connect a b).value.1 with
    | ok c => rw [connect_swap_of_ok hab]
    | error e =>
      cases hba : (g.connect b a).value.1 with
      | ok c => rw [connect_swap_of_ok hba]
      | error e' => rw [connect_of_error hab, connect_of_error hba]

theorem makeRoom_of_port {g : Graph} {sink : PortRef} {q : Port} (hq : g.port? sink = some q) :
    g.makeRoom sink
      = if q.kind = .input then g.connections.filter (·.sink ≠ sink) else g.connections := by
  simp only [makeRoom, hq]

/-- **Exactly the legal pairs, with exactly one effect.** Two references are joined if and only if
one of them names a source port, the other a port of the counterpart kind on another node, types
that are declared agree, and the two are not joined yet. It does not matter which is named first:
both orders succeed on the same graphs and lead to the same graph. What a success does is to take
the next id, drop whatever led into the sink if that is an input, and put the new link last; the
nodes, the other connections and the counter of nodes are those from before. -/
theorem connect_exactly (g : Graph) (a b : PortRef) :
    ((∃ c, (g.connect a b).value.1 = .ok c) ↔
      ∃ source sink, IsOrderOf source sink a b ∧ g.Joinable source sink) ∧
    (∀ c, (g.connect a b).value.1 = .ok c ↔ (g.connect b a).value.1 = .ok c) ∧
    (g.connect a b).value.2 = (g.connect b a).value.2 ∧
    ∀ source sink, IsOrderOf source sink a b → g.Joinable source sink →
      ∃ q, g.port? sink = some q ∧
        (g.connect a b).value = (.ok ⟨g.nextConnectionId⟩,
          { g with
            connections :=
              (if q.kind = .input then g.connections.filter (·.sink ≠ sink) else g.connections)
                ++ [⟨⟨g.nextConnectionId⟩, source, sink⟩]
            nextConnectionId := g.nextConnectionId + 1 }) := by
  obtain ⟨halike, hsame⟩ := g.connect_comm a b
  refine ⟨⟨fun ⟨c, hc⟩ => joinable_of_connect hc, ?_⟩, halike, hsame, ?_⟩
  · rintro ⟨source, sink, hord, hjoin⟩
    exact ⟨_, congrArg Prod.fst (connect_of_joinable hord hjoin)⟩
  · intro source sink hord hjoin
    obtain ⟨-, p, q, -, hq, -⟩ :=
      (g.accepts_iff source sink).1 ((g.joinable_iff source sink).1 hjoin).1
    refine ⟨q, hq, ?_⟩
    rw [connect_of_joinable hord hjoin, linked, makeRoom_of_port hq]

end

/-- A second constant takes the place of the first one, asked for from the input's side. -/
theorem connect_exactly_reshaped :
    ∃ q, reshaped.port? ⟨⟨2⟩, ⟨0⟩⟩ = some q ∧ q.kind = .input ∧
      (reshaped.connect ⟨⟨2⟩, ⟨0⟩⟩ ⟨⟨3⟩, ⟨0⟩⟩).value = (.ok ⟨5⟩,
        { reshaped with
          connections := [⟨⟨5⟩, ⟨⟨3⟩, ⟨0⟩⟩, ⟨⟨2⟩, ⟨0⟩⟩⟩]
          nextConnectionId := 6 }) := by
  have hjoin : reshaped.Joinable ⟨⟨3⟩, ⟨0⟩⟩ ⟨⟨2⟩, ⟨0⟩⟩ :=
    (joinable_iff _ _ _).2 ⟨by decide +kernel, by decide +kernel⟩
  obtain ⟨q, hq, heq⟩ := (connect_exactly reshaped ⟨⟨2⟩, ⟨0⟩⟩ ⟨⟨3⟩, ⟨0⟩⟩).2.2.2
    ⟨⟨3⟩, ⟨0⟩⟩ ⟨⟨2⟩, ⟨0⟩⟩ (.inr ⟨rfl, rfl⟩) hjoin
  have hport : reshaped.port? ⟨⟨2⟩, ⟨0⟩⟩ = some (.input .int "value") := by decide +kernel
  have hkind : q.kind = .input := by
    rw [hport] at hq
    rw [← Option.some.inj hq]
    rfl
  have hnext : reshaped.nextConnectionId = 5 := by decide +kernel
  have hlist : reshaped.connections.filter (·.sink ≠ ⟨⟨2⟩, ⟨0⟩⟩) = [] := by decide +kernel
  refine ⟨q, hq, hkind, ?_⟩
  rw [heq, if_pos hkind, hlist, hnext]
  rfl

end Graph

end FlowGraph
