import FlowGraph.Proofs.Engine.Trace
import FlowGraph.Proofs.Engine.TypedReads

/-!
# Dispatch follows connections, in their direction

The table of a program has links at every connected port, whatever the kind of the port: an enter
port has links back to the exits that lead to it, and an output has links to the inputs that it
feeds. Dispatch takes no notice of these. A call goes from an exit to the enter ports that it is
connected to, a read from an input to the output that feeds it. Which way a link may be taken is
decided by its kind alone, and the kinds that compiling has put there are the right ones for this.

* `Server.roots_deliveries`, `Engine.roots_read` — the hooks that a request runs directly.
* `Engine.call_of_dead_end`, `Engine.read_of_dead_end` — a request that leads nowhere does nothing.
* `Graph.Compiles.port_of_link` — at which ports the table has links, and of which kind.
* `Engine.CallsAlong`, `Engine.ReadsAlong` — requests at a port, in terms of connections.
* `Graph.Reachable.dispatch_follows_connections` — engines of compiled graphs.
-/

namespace FlowGraph

section

variable [Repertoire]

/-! ### What is run directly -/

namespace Server

variable {server : Server}

/-- At an enter port of a node that is there, its control hook is run. -/
theorem roots_traceDeliver (server : Server) (tracer : Tracer) (w : World) (t : LinkEntry) :
    (server.traceDeliver tracer w t).roots
      = if t.kind = .enter ∧ w.isLive t.address = true then [(t.address, .control t.port)]
        else [] := by
  unfold traceDeliver
  by_cases hk : t.kind = .enter
  · rw [if_neg (not_not_intro hk), World.isLive]
    cases w.pools.find? t.address with
    | none => simp [Trace.roots]
    | some i => simp [Trace.roots, hk]
  · rw [if_pos hk, if_neg fun h => hk h.1]
    rfl

/-- **Calls.** Control arrives at the enter ports among the other ends, in order, as far as the
nodes there have not been released. No node goes away while others are called. -/
theorem roots_deliveries (h : server.Within fun w w' => w.Tells w' []) (tracer : Tracer)
    (a : PackedAddress) (port : PortIndex) (ts : List LinkEntry) (w : World) :
    (Trace.sequence (server.deliver a port) (server.traceDeliver tracer) ts w).roots
      = (ts.filter fun t => t.kind = .enter ∧ w.isLive t.address = true).map
          fun t => (t.address, .control t.port) := by
  induction ts generalizing w with
  | nil => rfl
  | cons t ts ih =>
      have hlive : (server.deliver a port w t).isLive = w.isLive :=
        funext (World.respects_tells.deliver h a port w t).live
      rw [Trace.sequence, Trace.roots, Trace.roots_append, ih, hlive, roots_traceDeliver]
      by_cases ht : t.kind = .enter ∧ w.isLive t.address = true
      · rw [if_pos ht, List.filter_cons_of_pos (by simpa using ht)]
        rfl
      · rw [if_neg ht, List.filter_cons_of_neg (by simpa using ht)]
        rfl

end Server

namespace Engine

variable {e : Engine}

/-- The hooks by which a node is asked for a value at a port, unless it has been released: once for
a value of the type wanted and, if none is produced, for any. -/
def consulted (e : Engine) (a : PackedAddress) (port : PortIndex) (type : DataType) :
    List (PackedAddress × Hook) :=
  if e.world.isLive a then
    (a, .produce port) :: if (e.produced? a port type).isSome then [] else [(a, .offer port)]
  else []

/-- The hook that a connection leads to: control arrives at its sink, unless the node there has been
released. -/
def arrival? (e : Engine) (sink : PortRef) : Option (PackedAddress × Hook) :=
  ((e.addressOf? sink.node).filter e.world.isLive).map fun a => (a, .control sink.port)

/-- A request of a running engine is answered with all but one of the nestings left. -/
theorem server_of_limit (hlimit : 1 ≤ e.limit) :
    e.server = serve e.links e.limit (e.limit - 1 + 1) := by
  rw [server, Nat.sub_add_cancel hlimit]

theorem tracer_of_limit (hlimit : 1 ≤ e.limit) :
    e.tracer = traceOf e.links e.limit (e.limit - 1 + 1) := by
  rw [tracer, Nat.sub_add_cancel hlimit]

/-- The hooks that a call runs directly. -/
theorem roots_call (hrunning : e.isRunning = true) (hlimit : 1 ≤ e.limit) (a : PackedAddress)
    (port : PortIndex) :
    (e.trace (.call a port)).roots
      = ((e.links.links a port).filter fun t =>
          t.kind = .enter ∧ e.world.isLive t.address = true).map
            fun t => (t.address, .control t.port) := by
  rw [trace, if_pos hrunning, tracer_of_limit hlimit, traceOf]
  exact Server.roots_deliveries (World.tells_serve _ _ _) _ a port _ _

/-- **Reads.** The hooks that a read runs directly are those of the one producer. -/
theorem roots_read (hrunning : e.isRunning = true) (hlimit : 1 ≤ e.limit) {a : PackedAddress}
    {port : PortIndex} {producer : LinkEntry}
    (hhead : (e.links.links a port).head? = some producer) (hk : producer.kind = .output)
    (type : DataType) (default : type.Carrier) :
    (e.trace (.read a port type default)).roots
      = e.consulted producer.address producer.port type := by
  have hroots : (e.trace (.read a port type default)).roots
      = ((serve e.links e.limit (e.limit - 1)).traceFetch (traceOf e.links e.limit (e.limit - 1))
          producer type e.world).roots := by
    rw [trace, if_pos hrunning, tracer_of_limit hlimit, traceOf, hhead]
    simp only [Trace.roots, Trace.roots_append, List.append_nil]
  rw [hroots, Server.traceFetch, if_neg (not_not_intro hk), consulted, produced?, World.isLive,
    pools]
  cases e.world.pools.find? producer.address with
  | none => rfl
  | some i =>
      obtain ⟨⟨⟨claimed, ⟨content⟩⟩, w⟩, hout⟩ : ∃ out,
          Server.run (serve e.links e.limit (e.limit - 1)) producer.address
            (i.produce producer.address producer.port (OutputSlot.empty : OutputSlot type))
            (e.world.record (.hook producer.address (.produce producer.port))) = out := ⟨_, rfl⟩
      simp only [Option.isSome_some, if_true, Option.bind_some, hout]
      cases claimed with
      | false => rfl
      | true => cases content <;> rfl

/-! ### Dead ends -/

/-- A call from where no enter port is linked does nothing. -/
theorem call_of_dead_end (hrunning : e.isRunning = true) (hlimit : 1 ≤ e.limit)
    {a : PackedAddress} {port : PortIndex} (hnone : ∀ t ∈ e.links.links a port, t.kind ≠ .enter) :
    e.call a port = e := by
  have hworld : (e.server a (.call port) e.world).2 = e.world := by
    rw [server_of_limit hlimit, serve]
    exact foldl_deliver_of_ne _ a port hnone e.world
  rw [call, if_pos hrunning, answer]
  simp only [hworld]

/-- A read from where no output is linked takes its default and does nothing. -/
theorem read_of_dead_end (hrunning : e.isRunning = true) (hlimit : 1 ≤ e.limit)
    {a : PackedAddress} {port : PortIndex} (hnone : ∀ t ∈ e.links.links a port, t.kind ≠ .output)
    (type : DataType) (default : type.Carrier) : e.read a port type default = (default, e) := by
  have hworld : e.server a (.read port type default) e.world = (default, e.world) := by
    rw [server_of_limit hlimit, serve]
    cases hhead : (e.links.links a port).head? with
    | none => rfl
    | some t => exact if_pos (hnone t (List.mem_of_head? hhead))
  rw [read, if_pos hrunning, answer, hworld]

/-- A producer that has been released is not asked, and the default is taken. -/
theorem read_of_absent (hrunning : e.isRunning = true) (hlimit : 1 ≤ e.limit) {a : PackedAddress}
    {port : PortIndex} {producer : LinkEntry}
    (hhead : (e.links.links a port).head? = some producer)
    (hgone : e.world.isLive producer.address = false) (type : DataType) (default : type.Carrier) :
    (e.read a port type default).1 = default := by
  have hanswer : (e.server a (.read port type default) e.world).1 = default := by
    rw [server_of_limit hlimit, serve, hhead]
    simp only [Server.fetch, World.find?_of_absent hgone]
    split <;> rfl
  rw [read, if_pos hrunning, answer]
  exact hanswer

end Engine

/-! ### Links and connections -/

namespace Graph

/-- The kind of a port, if there is one. -/
def kind? (g : Graph) (r : PortRef) : Option PortKind := (g.port? r).map (·.kind)

theorem kind?_eq_some {g : Graph} {r : PortRef} {k : PortKind} :
    g.kind? r = some k ↔ ∃ p, g.port? r = some p ∧ p.kind = k := Option.map_eq_some_iff

/-- Which ends of which connections are far ends of a port is told by the kind of the port. -/
theorem Sound.partners_of_kind {g : Graph} (h : g.Sound) {r : PortRef} {k : PortKind}
    (hk : g.kind? r = some k) : g.partners r = g.farEnds r k := by
  obtain ⟨p, hp, rfl⟩ := kind?_eq_some.1 hk
  exact (h.farEnds_eq hp).symm

theorem Sound.partners_of_exit {g : Graph} (h : g.Sound) {r : PortRef}
    (hk : g.kind? r = some .exit) : g.partners r = (g.connectionsFrom r).map (·.sink) :=
  h.partners_of_kind hk

theorem Sound.partners_of_input {g : Graph} (h : g.Sound) {r : PortRef}
    (hk : g.kind? r = some .input) : g.partners r = (g.connectionsTo r).map (·.source) :=
  h.partners_of_kind hk

/-- An input has no more than one connection. -/
theorem WellFormed.connectionsTo_eq {g : Graph} (h : g.WellFormed) {r : PortRef}
    (hk : g.kind? r = some .input) {c : Connection} (hc : c ∈ g.connectionsTo r) :
    g.connectionsTo r = [c] := by
  obtain ⟨p, hp, hk⟩ := kind?_eq_some.1 hk
  have hlength := h.length_connectionsTo hp hk
  cases hall : g.connectionsTo r with
  | nil =>
      rw [hall] at hc
      cases hc
  | cons d ds =>
      rw [hall, List.length_cons] at hlength
      obtain rfl : ds = [] := List.eq_nil_of_length_eq_zero (by omega)
      rw [hall, List.mem_singleton] at hc
      rw [hc]

/-- No two connections from a port lead to the same sink. -/
theorem WellFormed.sinks_nodup {g : Graph} (h : g.WellFormed) (r : PortRef) :
    ((g.connectionsFrom r).map (·.sink)).Nodup := by
  have hapart : (g.connectionsFrom r).Pairwise fun c d => c ≠ d ∧ c.id ≠ d.id :=
    h.toOrdered.ne_of_ids.filter _
  refine List.pairwise_map.2 (hapart.imp_of_mem fun {c d} hc hd hne hsink => hne.1 ?_)
  obtain ⟨hc, hcr⟩ := mem_connectionsFrom.1 hc
  obtain ⟨hd, hdr⟩ := mem_connectionsFrom.1 hd
  exact h.distinct c hc d hd (hcr.trans hdr.symm) hsink

namespace Compiles

variable {g : Graph} {config : PoolConfig} {P : Program}

/-- **Where there are links.** The table has links at connected ports of compiled nodes only, and of
the kind that the port calls for. -/
theorem port_of_link (hP : g.Compiles config P) (h : g.WellFormed) {a : PackedAddress}
    {p : PortIndex} {t : LinkEntry} (ht : t ∈ P.links.links a p) :
    ∃ n k, P.addressOf? n = some a ∧ g.kind? ⟨n, p⟩ = some k ∧ t.kind = k.counterpart ∧
      g.partners ⟨n, p⟩ ≠ [] := by
  have hplaced : a ∈ P.order := by
    refine Decidable.byContradiction fun hout => ?_
    rw [LinkTable.links_eq_slice, hP.getLinks_of_stranger h hout] at ht
    cases ht
  obtain ⟨n, hn⟩ := hP.exists_of_mem_order h hplaced
  obtain ⟨port, hport, hk⟩ := hP.kind_of_link h hn ht
  refine ⟨n, port.kind, hn, kind?_eq_some.2 ⟨port, hport, rfl⟩, hk, fun hnone => ?_⟩
  have hlinks := hP.links_eq h hn p
  rw [hnone, List.map_nil, List.map_eq_nil_iff] at hlinks
  rw [hlinks] at ht
  cases ht

/-- Every connection of a port is one link of it, whatever its kind. -/
theorem length_links (hP : g.Compiles config P) (h : g.WellFormed) {n : NodeId}
    {a : PackedAddress} (hn : P.addressOf? n = some a) (p : PortIndex) :
    (P.links.links a p).length = (g.partners ⟨n, p⟩).length := by
  have hlinks := congrArg List.length (hP.links_eq h hn p)
  rwa [List.length_map, List.length_map] at hlinks

variable {e : Engine}

/-- Where a link names a far end, its hook is that to which the connection leads. -/
theorem arrival?_of_names {t : LinkEntry} {r : PortRef} (ht : Names e.placement t r) :
    e.arrival? r
      = if e.world.isLive t.address = true then some (t.address, .control t.port) else none := by
  rw [Engine.arrival?, Engine.addressOf?, ht.address, Option.filter_some, ht.port]
  split <;> rfl

/-- **Exits.** The links of an exit that are followed are its connections to nodes still there. -/
theorem arrivals_eq (hP : g.Compiles config P) (h : g.WellFormed)
    (hplacement : e.placement = P.placement) {n : NodeId} {a : PackedAddress}
    (hn : P.addressOf? n = some a) {p : PortIndex} (hk : g.kind? ⟨n, p⟩ = some .exit) :
    ((P.links.links a p).filter fun t => t.kind = .enter ∧ e.world.isLive t.address = true).map
        (fun t => (t.address, Hook.control t.port))
      = ((g.connectionsFrom ⟨n, p⟩).map (·.sink)).filterMap e.arrival? := by
  have hlinks := hP.links_eq h hn p
  have hnames : ∀ r ∈ g.partners ⟨n, p⟩, ∀ t, g.entryIn? P r = some t →
      Names e.placement t r ∧ t.kind = .enter := by
    intro r hr t ht
    obtain ⟨port, hport, hkind⟩ := kind?_eq_some.1 hk
    obtain ⟨hname, q, hq, hqk⟩ := names_of_entryIn? ht
    obtain ⟨q', hq', hk'⟩ := h.toSound.port?_of_mem_partners hport hr
    obtain rfl := Option.some.inj (hq.symm.trans hq')
    rw [hplacement, hqk, hk', hkind]
    exact ⟨hname, rfl⟩
  rw [← h.toSound.partners_of_exit hk]
  -- Links and far ends are gone through side by side.
  generalize P.links.links a p = ts at hlinks
  generalize g.partners ⟨n, p⟩ = rs at hlinks hnames
  induction rs generalizing ts with
  | nil =>
      rw [List.map_nil, List.map_eq_nil_iff] at hlinks
      rw [hlinks]
      rfl
  | cons r rs ih =>
      rw [List.map_cons] at hlinks
      obtain ⟨t, ts', rfl, ht, hrest⟩ := List.map_eq_cons_iff.1 hlinks
      obtain ⟨hname, hkind⟩ := hnames r (by simp) t ht.symm
      have hmore := ih ts' hrest fun s hs => hnames s (by simp [hs])
      have hone := arrival?_of_names hname
      by_cases hlive : e.world.isLive t.address = true
      · rw [if_pos hlive] at hone
        rw [List.filter_cons_of_pos (by simp [hkind, hlive]), List.map_cons, hmore,
          List.filterMap_cons_some hone]
      · rw [if_neg hlive] at hone
        rw [List.filter_cons_of_neg (by simp [hlive]), hmore, List.filterMap_cons_none hone]

/-- Different sinks are reached by different hooks. -/
theorem nodup_arrivals (hP : g.Compiles config P) (h : g.WellFormed)
    (hplacement : e.placement = P.placement) {sinks : List PortRef} (hsinks : sinks.Nodup) :
    (sinks.filterMap e.arrival?).Nodup := by
  have hproper : e.placement.Proper := hplacement ▸ hP.proper h
  refine List.Pairwise.filterMap e.arrival? (fun r s hne x hx y hy heq => hne ?_) hsinks
  obtain ⟨a, ha, rfl⟩ := Option.map_eq_some_iff.1 hx
  obtain ⟨b, hb, rfl⟩ := Option.map_eq_some_iff.1 hy
  obtain ⟨rfl, hport⟩ := Prod.mk.inj heq
  have hnode := hproper.injective (Option.filter_eq_some_iff.1 ha).1
    (Option.filter_eq_some_iff.1 hb).1
  exact congrArg₂ PortRef.mk hnode (Hook.control.inj hport)

end Compiles

end Graph

/-! ### Requests in terms of connections -/

namespace Engine

/-- A call at a port, in terms of the connections of a graph. -/
structure CallsAlong (e : Engine) (g : Graph) (a : PackedAddress) (p : PortIndex) : Prop where
  /-- At anything but a connected exit of a compiled node, nothing is done. -/
  elsewhere : (∀ n, e.addressOf? n = some a → g.kind? ⟨n, p⟩ = some .exit →
    g.connectionsFrom ⟨n, p⟩ = []) → e.call a p = e
  /-- From an exit, control arrives at the enter ports that it is connected to, in the order of the
  connections, once at each whose node has not been released. -/
  along : ∀ n, e.addressOf? n = some a → g.kind? ⟨n, p⟩ = some .exit →
    (e.trace (.call a p)).roots
        = ((g.connectionsFrom ⟨n, p⟩).map (·.sink)).filterMap e.arrival? ∧
      (e.trace (.call a p)).roots.Nodup ∧
      ∀ c ∈ g.connectionsFrom ⟨n, p⟩, g.kind? c.sink = some .enter
  /-- The hooks that are run are those of the trace. -/
  told : (e.call a p).world.hooks = (e.trace (.call a p)).hooks.reverse ++ e.world.hooks

/-- A read at a port, in terms of the connections of a graph. -/
structure ReadsAlong (e : Engine) (g : Graph) (a : PackedAddress) (p : PortIndex)
    (type : DataType) (default : type.Carrier) : Prop where
  /-- At anything but a connected input of a compiled node, the default is taken and nothing is
  done. -/
  elsewhere : (∀ n, e.addressOf? n = some a → g.kind? ⟨n, p⟩ = some .input →
    g.connectionsTo ⟨n, p⟩ = []) → e.read a p type default = (default, e)
  /-- An input has one connection at most. The node at its source is asked at the output there and
  no other is; if it has been released, the default is taken. -/
  along : ∀ n c, e.addressOf? n = some a → g.kind? ⟨n, p⟩ = some .input →
    c ∈ g.connectionsTo ⟨n, p⟩ → g.connectionsTo ⟨n, p⟩ = [c] ∧
      g.kind? c.source = some .output ∧ ∃ b, e.addressOf? c.source.node = some b ∧
        (e.trace (.read a p type default)).roots = e.consulted b c.source.port type ∧
        (e.world.isLive b = false → (e.read a p type default).1 = default)
  /-- The hooks that are run are those of the trace. -/
  told : (e.read a p type default).2.world.hooks
    = (e.trace (.read a p type default)).hooks.reverse ++ e.world.hooks

end Engine

namespace Graph.Compiles

variable {g : Graph} {config : PoolConfig} {P : Program} {e : Engine}

theorem callsAlong (hP : g.Compiles config P) (h : g.WellFormed) (hlinks : e.links = P.links)
    (hplacement : e.placement = P.placement) (hrunning : e.isRunning = true)
    (hlimit : 1 ≤ e.limit) (a : PackedAddress) (p : PortIndex) : e.CallsAlong g a p where
  elsewhere hnone := by
    refine Engine.call_of_dead_end hrunning hlimit fun t ht hk => ?_
    rw [hlinks] at ht
    obtain ⟨n, k, hn, hkind, hlink, hpartners⟩ := hP.port_of_link h ht
    have hexit : k = .exit := by
      rw [PortKind.eq_counterpart hlink, hk]
      rfl
    rw [hexit] at hkind
    rw [Program.addressOf?, ← hplacement] at hn
    refine hpartners ?_
    rw [h.toSound.partners_of_exit hkind, hnone n hn hkind, List.map_nil]
  along n hn hk := by
    rw [Engine.addressOf?, hplacement] at hn
    have hroots := Engine.roots_call hrunning hlimit a p
    rw [hlinks, hP.arrivals_eq h hplacement hn hk] at hroots
    refine ⟨hroots, ?_, fun c hc => ?_⟩
    · rw [hroots]
      exact hP.nodup_arrivals h hplacement (h.sinks_nodup ⟨n, p⟩)
    · obtain ⟨port, hport, hkind⟩ := kind?_eq_some.1 hk
      have hfar : c.sink ∈ g.partners ⟨n, p⟩ := by
        rw [h.toSound.partners_of_exit hk]
        exact List.mem_map.2 ⟨c, hc, rfl⟩
      obtain ⟨q, hq, hqk⟩ := h.toSound.port?_of_mem_partners hport hfar
      rw [hkind] at hqk
      exact kind?_eq_some.2 ⟨q, hq, hqk⟩
  told := e.hooks_operate (.call a p)

theorem readsAlong (hP : g.Compiles config P) (h : g.WellFormed) (hlinks : e.links = P.links)
    (hplacement : e.placement = P.placement) (hrunning : e.isRunning = true)
    (hlimit : 1 ≤ e.limit) (a : PackedAddress) (p : PortIndex) (type : DataType)
    (default : type.Carrier) : e.ReadsAlong g a p type default where
  elsewhere hnone := by
    refine Engine.read_of_dead_end hrunning hlimit (fun t ht hk => ?_) type default
    rw [hlinks] at ht
    obtain ⟨n, k, hn, hkind, hlink, hpartners⟩ := hP.port_of_link h ht
    have hinput : k = .input := by
      rw [PortKind.eq_counterpart hlink, hk]
      rfl
    rw [hinput] at hkind
    rw [Program.addressOf?, ← hplacement] at hn
    refine hpartners ?_
    rw [h.toSound.partners_of_input hkind, hnone n hn hkind, List.map_nil]
  along n c hn hk hc := by
    obtain ⟨hmem, hsink⟩ := mem_connectionsTo.1 hc
    obtain ⟨s, t, hs, ht, hfeeds⟩ := h.toSound.ends hmem
    obtain ⟨q, hq, hqk⟩ := kind?_eq_some.1 hk
    obtain rfl : t = q := by
      rw [hsink] at ht
      exact Option.some.inj (ht.symm.trans hq)
    have hsource : s.kind = .output := by
      rw [PortKind.eq_counterpart hfeeds.counterpart, hqk]
      rfl
    obtain ⟨b, -, hb, -, -, -⟩ := hP.instance_of_port h hs
    have ha : P.addressOf? c.sink.node = some a := by
      rw [Program.addressOf?, ← hplacement, hsink]
      exact hn
    have hhead := hP.head?_links h hmem ht hqk ha hb
    rw [hsink, ← hlinks] at hhead
    refine ⟨h.connectionsTo_eq hk hc, kind?_eq_some.2 ⟨s, hs, hsource⟩, b, ?_, ?_, ?_⟩
    · rw [Engine.addressOf?, hplacement]
      exact hb
    · exact Engine.roots_read hrunning hlimit hhead rfl type default
    · exact fun hgone => Engine.read_of_absent hrunning hlimit hhead hgone type default
  told := e.hooks_operate (.read a p type default)

end Graph.Compiles

/-! ### Engines of compiled graphs -/

/-- **Dispatch follows connections, in their direction.** Take the engine of a compiled graph at any
point of a run at which it is running, with at least one nesting allowed, and any address and any
port, be there nodes or not. What is called and what is asked, and in which order, is read off the
connections of the graph. The table has a link for each connection of a port, whatever its kind; yet
calls at ports that are no exits, and reads at ports that are no inputs, do nothing. -/
theorem Graph.Reachable.dispatch_follows_connections {g : Graph} (hg : g.Reachable)
    (config : PoolConfig) (limit : Nat) (hlimit : 1 ≤ limit) (ops : List Operation)
    (hrunning : ((Engine.ofProgram (g.compile config).value limit).after ops).isRunning = true)
    (a : PackedAddress) (p : PortIndex) :
    let e := (Engine.ofProgram (g.compile config).value limit).after ops
    e.CallsAlong g a p ∧ (∀ type default, e.ReadsAlong g a p type default) ∧
      ∀ n k, e.addressOf? n = some a → g.kind? ⟨n, p⟩ = some k →
        (e.links.links a p).length = (g.partners ⟨n, p⟩).length ∧
          (k ≠ .exit → e.call a p = e) ∧
          (k ≠ .input → ∀ type default, e.read a p type default = (default, e)) := by
  intro e
  have h := hg.wellFormed
  have hP := h.compiles config
  have hlinks : e.links = (g.compile config).value.links := Engine.links_after _ limit ops
  have hplacement : e.placement = (g.compile config).value.placement :=
    Engine.placement_after _ limit ops
  have hallowed : 1 ≤ e.limit := by
    rw [Engine.limit_after]
    exact hlimit
  have hcalls := hP.callsAlong h hlinks hplacement hrunning hallowed a p
  have hreads := hP.readsAlong h hlinks hplacement hrunning hallowed a p
  refine ⟨hcalls, hreads, fun n k hn hk => ⟨?_, fun hne => ?_, fun hne type default => ?_⟩⟩
  · rw [hlinks]
    rw [Engine.addressOf?, hplacement] at hn
    exact hP.length_links h hn p
  all_goals
    have hproper : e.placement.Proper := hplacement ▸ hP.proper h
    have honly : ∀ m, e.addressOf? m = some a → m = n := fun m hm => hproper.injective hm hn
  · refine hcalls.elsewhere fun m hm hexit => absurd ?_ hne
    rw [honly m hm, hk] at hexit
    exact Option.some.inj hexit
  · refine (hreads type default).elsewhere fun m hm hinput => absurd ?_ hne
    rw [honly m hm, hk] at hinput
    exact Option.some.inj hinput

end

/-- In the sample, the first exit of the sequence leads to the counter. The counter's enter port has
a link back to it, and its output has links to the two that read it; nothing goes along these. -/
theorem Graph.Reachable.dispatch_follows_connections_sample :
    let e := (Engine.ofProgram (Sample.graph.value.compile .standard).value defaultDepth).after
      [.bringUp]
    let sequence := PackedAddress.pack ⟨2⟩ ⟨1⟩
    let counter := PackedAddress.pack ⟨3⟩ ⟨1⟩
    Sample.graph.value.Reachable ∧ e.isRunning = true ∧
      (e.trace (.call sequence ⟨1⟩)).roots = [(counter, .control ⟨0⟩)] ∧
      (e.links.links counter ⟨0⟩).length = 1 ∧ e.call counter ⟨0⟩ = e ∧
      (e.links.links counter ⟨2⟩).length = 2 ∧
      ∀ type default, e.read counter ⟨2⟩ type default = (default, e) := by
  intro e sequence counter
  have hrunning : e.isRunning = true := by decide +kernel
  have hlimit : 1 ≤ defaultDepth := by decide
  obtain ⟨hexit, -⟩ := Graph.Reachable.dispatch_follows_connections Sample.graph_reachable
    .standard defaultDepth hlimit [.bringUp] hrunning sequence ⟨1⟩
  obtain ⟨-, -, henter⟩ := Graph.Reachable.dispatch_follows_connections Sample.graph_reachable
    .standard defaultDepth hlimit [.bringUp] hrunning counter ⟨0⟩
  obtain ⟨-, -, houtput⟩ := Graph.Reachable.dispatch_follows_connections Sample.graph_reachable
    .standard defaultDepth hlimit [.bringUp] hrunning counter ⟨2⟩
  -- The program is made once for all that is looked up in it.
  have hlooked : e.addressOf? ⟨2⟩ = some sequence ∧ e.addressOf? ⟨3⟩ = some counter ∧
      ((Sample.graph.value.connectionsFrom ⟨⟨2⟩, ⟨1⟩⟩).map (·.sink)).filterMap e.arrival?
        = [(counter, .control ⟨0⟩)] := by
    decide +kernel
  have hports : Sample.graph.value.kind? ⟨⟨2⟩, ⟨1⟩⟩ = some .exit ∧
      Sample.graph.value.kind? ⟨⟨3⟩, ⟨0⟩⟩ = some .enter ∧
      Sample.graph.value.kind? ⟨⟨3⟩, ⟨2⟩⟩ = some .output ∧
      (Sample.graph.value.partners ⟨⟨3⟩, ⟨0⟩⟩).length = 1 ∧
      (Sample.graph.value.partners ⟨⟨3⟩, ⟨2⟩⟩).length = 2 := by
    decide +kernel
  obtain ⟨hsequence, hcounter, harrivals⟩ := hlooked
  obtain ⟨hone, htwo, hthree, hback, hreaders⟩ := hports
  obtain ⟨hfirst, hcall, -⟩ := henter ⟨3⟩ .enter hcounter htwo
  obtain ⟨hsecond, -, hread⟩ := houtput ⟨3⟩ .output hcounter hthree
  exact ⟨Sample.graph_reachable, hrunning,
    (hexit.along ⟨2⟩ hsequence hone).1.trans harrivals, hfirst.trans hback, hcall (by decide),
    hsecond.trans hreaders, hread (by decide)⟩

end FlowGraph
