import FlowGraph.Proofs.Engine.Dispatch
import FlowGraph.Proofs.Program.Links

/-!
# Dispatch mirrors direct interpretation

A world of pools and a scene of instances by node mirror each other if the same instances lie at
corresponding places and the same things have been heard. Every request keeps them so and gets the
same answer in both, since the table names the very ends that the connections lead to.

* `Mirrors` — the relation between worlds and scenes.
* `Agrees` — the relation between those who answer requests.
* `Graph.Compiles.serve_agrees` — dispatch by the table agrees with interpretation of the graph, by
  induction on the nesting allowed.
-/

namespace FlowGraph

/-! ### Worlds and scenes -/

/-- Whether a host hears of something that happened. -/
def Happening.isHeard : Happening → Bool
  | .message .. | .entered _ => true
  | .hook .. | .notice _ => false

/-- What is heard of a graph under interpretation, as a host hears it from an engine. -/
def Utterance.happening (address : NodeId → PackedAddress) : Utterance → Happening
  | .message n text => .message (address n) text
  | .entered state => .entered state

/-- The address of a node; for nodes without one, the address that names nothing. -/
def Placement.address (p : Placement) (n : NodeId) : PackedAddress := (p.find? n).getD .empty

theorem Placement.address_of_find? {p : Placement} {n : NodeId} {a : PackedAddress}
    (h : p.find? n = some a) : p.address n = a := by
  rw [Placement.address, h]
  rfl

variable [Repertoire]

/-- A world and a scene mirror each other: the same instances, and the same things heard. -/
structure Mirrors (p : Placement) (w : World) (s : Scene) : Prop where
  pools : w.pools.WellFormed
  placed : ∀ n a, p.find? n = some a → w.pools.find? a = s.instances.find? n
  absent : ∀ n, p.find? n = none → s.instances.find? n = none
  heard : w.journal.filter Happening.isHeard = s.heard.map (Utterance.happening p.address)

namespace Mirrors

variable {p : Placement} {w : World} {s : Scene}

/-- What no host hears of makes no difference. -/
theorem record (h : Mirrors p w s) {x : Happening} (hx : x.isHeard = false) :
    Mirrors p (w.record x) s where
  pools := h.pools
  placed := h.placed
  absent := h.absent
  heard := by
    rw [World.journal_record, List.filter_cons_of_neg (by simp [hx])]
    exact h.heard

theorem note (h : Mirrors p w s) (n : Notice) : Mirrors p (w.note n) s := h.record rfl

/-- What a host hears of is heard in both. -/
theorem hear (h : Mirrors p w s) {x : Happening} {u : Utterance}
    (hu : u.happening p.address = x) (hx : x.isHeard = true) :
    Mirrors p (w.record x) { s with heard := u :: s.heard } where
  pools := h.pools
  placed := h.placed
  absent := h.absent
  heard := by
    rw [World.journal_record, List.filter_cons_of_pos hx, h.heard, List.map_cons, hu]

theorem setCount (h : Mirrors p w s) (hp : p.Proper) {n : NodeId} {a : PackedAddress}
    (hn : p.find? n = some a) (k : Int64) :
    Mirrors p (World.stage.setCount a k w) (Scene.stage.setCount n k s) where
  pools := h.pools.modify a _
  placed m b hm := by
    have hadjust := Table.find?_adjust s.instances n m (Instance.withCount k)
    have hmodify := h.pools.find?_modify a b (Instance.withCount k)
    have hsame : b = a ↔ m = n := by
      constructor
      · rintro rfl
        exact hp.injective hm hn
      · rintro rfl
        exact Option.some.inj (hm.symm.trans hn)
    refine hmodify.trans (Eq.trans ?_ hadjust.symm)
    rw [h.placed m b hm]
    by_cases hmn : m = n
    · rw [if_pos (hsame.2 hmn), if_pos hmn]
    · rw [if_neg fun hba => hmn (hsame.1 hba), if_neg hmn]
  absent m hm := by
    refine (Table.find?_adjust s.instances n m _).trans ?_
    rw [h.absent m hm]
    split <;> rfl
  heard := h.heard

end Mirrors

/-! ### Answers -/

/-- Two who answer requests, one by address and one by node, agree. -/
def Agrees (p : Placement) (server : Server) (direct : Scene.Server) : Prop :=
  ∀ n a r w s, p.find? n = some a → Mirrors p w s →
    (server a r w).1 = (direct n r s).1 ∧ Mirrors p (server a r w).2 (direct n r s).2

/-- An entry of a table that names a port of a graph. -/
structure Names (p : Placement) (e : LinkEntry) (r : PortRef) : Prop where
  address : p.find? r.node = some e.address
  port : e.port = r.port

section

variable {p : Placement} {server : Server} {direct : Scene.Server}

/-- Under servers that agree, a node's actions have the same result. -/
theorem Agrees.run {α : Type} (h : Agrees p server direct) (hp : p.Proper) {n : NodeId}
    {a : PackedAddress} (hn : p.find? n = some a) (t : Action α) {w : World} {s : Scene}
    (hm : Mirrors p w s) :
    (server.run a t w).1 = (t.run Scene.stage direct n s).1 ∧
      Mirrors p (server.run a t w).2 (t.run Scene.stage direct n s).2 := by
  refine Action.run_related (R := Mirrors p) (fun m w s hws => ?_)
    (fun k w s hws => hws.setCount hp hn k) (fun r w s hws => h n a r w s hn hws) t hm
  refine hws.hear (u := .message n m) ?_ rfl
  rw [Utterance.happening, Placement.address_of_find? hn]

theorem Agrees.deliver (h : Agrees p server direct) (hp : p.Proper) {e : LinkEntry} {r : PortRef}
    (he : Names p e r) (hk : e.kind = .enter) {w : World} {s : Scene} (hm : Mirrors p w s)
    (a : PackedAddress) (port : PortIndex) :
    Mirrors p (server.deliver a port w e) (Scene.deliver direct s r) := by
  have hsame := hm.placed _ _ he.address
  rw [Server.deliver, Scene.deliver, if_neg (not_not_intro hk), hsame]
  cases s.instances.find? r.node with
  | none => exact hm.note _
  | some i =>
      have hrun := h.run hp he.address (i.onControl r.port)
        (hm.record (x := .hook e.address (.control e.port)) rfl)
      simp only [he.port] at hrun ⊢
      exact hrun.2

/-- Control reaches the ends of a port one after the other. -/
theorem Agrees.foldl_deliver (h : Agrees p server direct) (hp : p.Proper)
    {f : PortRef → Option LinkEntry} {rs : List PortRef} {es : List LinkEntry}
    (hes : es.map some = rs.map f)
    (hnames : ∀ r ∈ rs, ∀ e, f r = some e → Names p e r ∧ e.kind = .enter) {w : World} {s : Scene}
    (hm : Mirrors p w s) (a : PackedAddress) (port : PortIndex) :
    Mirrors p (es.foldl (server.deliver a port) w) (rs.foldl (Scene.deliver direct) s) := by
  induction rs generalizing es w s with
  | nil =>
      rw [List.map_nil, List.map_eq_nil_iff] at hes
      rw [hes]
      exact hm
  | cons r rs ih =>
      rw [List.map_cons] at hes
      obtain ⟨e, es', rfl, he, hrest⟩ := List.map_eq_cons_iff.1 hes
      obtain ⟨hname, hk⟩ := hnames r (by simp) e he.symm
      exact ih hrest (fun x hx => hnames x (by simp [hx])) (h.deliver hp hname hk hm a port)

/-- Ends that are no enter ports are passed over. -/
theorem foldl_deliver_of_ne (server : Server) (a : PackedAddress) (port : PortIndex)
    {es : List LinkEntry} (hes : ∀ e ∈ es, e.kind ≠ .enter) (w : World) :
    es.foldl (server.deliver a port) w = w := by
  induction es with
  | nil => rfl
  | cons e es ih =>
      have hskip : server.deliver a port w e = w := if_pos (hes e (by simp))
      rw [List.foldl_cons, hskip, ih fun x hx => hes x (by simp [hx])]

theorem Mirrors.offered {w : World} {s : Scene} (hm : Mirrors p w s) {e : LinkEntry} {r : PortRef}
    (he : Names p e r) (a : PackedAddress) (port : PortIndex) (type : DataType)
    (default : type.Carrier) :
    (w.offered a port e type default).1 = s.offered r type default ∧
      Mirrors p (w.offered a port e type default).2 s := by
  have hsame := hm.placed _ _ he.address
  have hm' := hm.record (x := .hook e.address (.offer e.port)) rfl
  unfold World.offered Scene.offered
  simp only [World.pools_record, hsame, he.port] at hm' ⊢
  cases (s.instances.find? r.node).bind (·.offer? r.port) with
  | none => exact ⟨rfl, hm'⟩
  | some v =>
      simp only [Option.bind_some]
      cases v.as? type with
      | none => exact ⟨rfl, hm'.note _⟩
      | some x => exact ⟨rfl, hm'⟩

theorem Agrees.fetch (h : Agrees p server direct) (hp : p.Proper) {e : LinkEntry} {r : PortRef}
    (he : Names p e r) (hk : e.kind = .output) {w : World} {s : Scene} (hm : Mirrors p w s)
    (a : PackedAddress) (port : PortIndex) (type : DataType) (default : type.Carrier) :
    (server.fetch a port e type default w).1
        = (Scene.fetch p.address direct r type default s).1 ∧
      Mirrors p (server.fetch a port e type default w).2
        (Scene.fetch p.address direct r type default s).2 := by
  have hsame := hm.placed _ _ he.address
  rw [Server.fetch, Scene.fetch, if_neg (not_not_intro hk), hsame,
    Placement.address_of_find? he.address]
  cases s.instances.find? r.node with
  | none => exact ⟨rfl, hm.note _⟩
  | some i =>
      have hrun := h.run hp he.address
        (i.produce e.address r.port (OutputSlot.empty : OutputSlot type))
        (hm.record (x := .hook e.address (.produce e.port)) rfl)
      simp only [he.port] at hrun ⊢
      generalize (i.produce e.address r.port OutputSlot.empty).run Scene.stage direct r.node s
        = out at hrun ⊢
      generalize server.run e.address (i.produce e.address r.port OutputSlot.empty)
        (w.record (.hook e.address (.produce r.port))) = out' at hrun ⊢
      obtain ⟨⟨claimed, slot⟩, s'⟩ := out
      obtain ⟨answer, w'⟩ := out'
      obtain ⟨rfl, hm'⟩ := hrun
      cases claimed with
      | false => exact hm'.offered he a port type default
      | true =>
          obtain ⟨content⟩ := slot
          cases content with
          | none => exact hm'.offered he a port type default
          | some x => exact ⟨rfl, hm'⟩

theorem Agrees.notify (h : Agrees p server direct) (hp : p.Proper) {n : NodeId} {a : PackedAddress}
    (hn : p.find? n = some a) (event : LifecycleEvent) {w : World} {s : Scene}
    (hm : Mirrors p w s) :
    Mirrors p (World.notify server event w a) (Interpreter.notify direct event s n) := by
  have hsame := hm.placed _ _ hn
  rw [World.notify, Interpreter.notify, hsame]
  cases s.instances.find? n with
  | none => exact hm.note _
  | some i =>
      exact (h.run hp hn (i.onEvent event) (hm.record (x := .hook a (.lifecycle event)) rfl)).2

/-- An event reaches nodes one after the other. -/
theorem Agrees.broadcast (h : Agrees p server direct) (hp : p.Proper) (event : LifecycleEvent)
    {l : Placement} (hl : ∀ x ∈ l, p.find? x.1 = some x.2) {w : World} {s : Scene}
    (hm : Mirrors p w s) :
    Mirrors p (w.broadcast server event l.addresses)
      ((l.map Prod.fst).foldl (Interpreter.notify direct event) s) := by
  unfold World.broadcast Placement.addresses
  induction l generalizing w s with
  | nil => exact hm
  | cons x l ih =>
      exact ih (fun y hy => hl y (by simp [hy])) (h.notify hp (hl x (by simp)) event hm)

end

/-! ### The table and the graph -/

/-- The far end that an entry names. -/
theorem Graph.names_of_entryIn? {g : Graph} {P : Program} {far : PortRef} {e : LinkEntry}
    (he : g.entryIn? P far = some e) :
    Names P.placement e far ∧ ∃ q, g.port? far = some q ∧ e.kind = q.kind := by
  obtain ⟨b, hb, he⟩ := Option.bind_eq_some_iff.1 he
  obtain ⟨q, hq, he⟩ := Option.bind_eq_some_iff.1 he
  cases he
  exact ⟨⟨hb, rfl⟩, q, hq, rfl⟩

/-- From an exit, calls go to all that it is connected to. -/
theorem Graph.Sound.targets_eq {g : Graph} (h : g.Sound) {r : PortRef} {p : Port}
    (hp : g.port? r = some p) (hk : p.kind = .exit) : g.targets r = g.partners r := by
  rw [Graph.targets, ← h.farEnds_eq hp, hp]
  simp only [hk, if_true, Graph.farEnds, PortKind.isSource]

/-- An input is fed by the first port that it is connected to. -/
theorem Graph.Sound.producer?_eq {g : Graph} (h : g.Sound) {r : PortRef} {p : Port}
    (hp : g.port? r = some p) (hk : p.kind = .input) :
    g.producer? r = (g.partners r).head? := by
  rw [Graph.producer?, ← h.farEnds_eq hp, hp]
  simp only [hk, if_true, Graph.farEnds, PortKind.isSource, Bool.false_eq_true, if_false,
    List.head?_map]

/-- Only an input has a producer. -/
theorem Graph.producer?_eq_none (g : Graph) (r : PortRef)
    (h : ∀ p, g.port? r = some p → p.kind ≠ .input) : g.producer? r = none := by
  rw [Graph.producer?]
  cases hp : g.port? r with
  | none => rfl
  | some p => exact if_neg (h p hp)

namespace Graph.Compiles

variable {g : Graph} {config : PoolConfig} {P : Program}

/-- The links of a port are of the kind that its own kind calls for. -/
theorem kind_of_link (hP : g.Compiles config P) (h : g.WellFormed) {n : NodeId} {a : PackedAddress}
    (hn : P.addressOf? n = some a) {port : PortIndex} {e : LinkEntry}
    (he : e ∈ P.links.links a port) :
    ∃ p, g.port? ⟨n, port⟩ = some p ∧ e.kind = p.kind.counterpart := by
  have hmem : some e ∈ (g.partners ⟨n, port⟩).map (g.entryIn? P) := by
    rw [← hP.links_eq h hn port]
    exact List.mem_map.2 ⟨e, he, rfl⟩
  obtain ⟨far, hfar, hentry⟩ := List.mem_map.1 hmem
  cases hp : g.port? ⟨n, port⟩ with
  | none =>
      rw [h.toSound.partners_of_missing hp] at hfar
      cases hfar
  | some p =>
      obtain ⟨q, hq, hk⟩ := h.toSound.port?_of_mem_partners hp hfar
      obtain ⟨-, q', hq', hk'⟩ := names_of_entryIn? hentry
      rw [hq] at hq'
      cases hq'
      exact ⟨p, rfl, hk'.trans hk⟩

/-- **A call** reaches the ends that the connections from its exit lead to. -/
theorem call_agrees (hP : g.Compiles config P) (h : g.WellFormed) {server : Server}
    {direct : Scene.Server} (hs : Agrees P.placement server direct) {n : NodeId}
    {a : PackedAddress} (hn : P.addressOf? n = some a) (port : PortIndex) {w : World} {s : Scene}
    (hm : Mirrors P.placement w s) :
    Mirrors P.placement ((P.links.links a port).foldl (server.deliver a port) w)
      ((g.targets ⟨n, port⟩).foldl (Scene.deliver direct) s) := by
  have hproper := hP.proper h
  by_cases hexit : ∃ p, g.port? ⟨n, port⟩ = some p ∧ p.kind = .exit
  · obtain ⟨p, hp, hk⟩ := hexit
    rw [h.toSound.targets_eq hp hk]
    refine hs.foldl_deliver hproper (hP.links_eq h hn port) (fun r hr e he => ?_) hm a port
    obtain ⟨hname, q, hq, hkind⟩ := names_of_entryIn? he
    obtain ⟨q', hq', hk'⟩ := h.toSound.port?_of_mem_partners hp hr
    rw [hq] at hq'
    cases hq'
    exact ⟨hname, by rw [hkind, hk', hk]; rfl⟩
  · -- Through any other port nothing is called, though it may have links.
    have htargets : g.targets ⟨n, port⟩ = [] :=
      Interpreter.targets_eq_nil g _ fun p hp hk => hexit ⟨p, hp, hk⟩
    rw [htargets, foldl_deliver_of_ne server a port (fun e he hk => ?_) w]
    · exact hm
    · obtain ⟨p, hp, hkind⟩ := hP.kind_of_link h hn he
      refine hexit ⟨p, hp, ?_⟩
      rw [PortKind.eq_counterpart hkind, hk]
      rfl

/-- **A read** gets its value from the producer that its input is connected to. -/
theorem read_agrees (hP : g.Compiles config P) (h : g.WellFormed) {server : Server}
    {direct : Scene.Server} (hs : Agrees P.placement server direct) {n : NodeId}
    {a : PackedAddress} (hn : P.addressOf? n = some a) (port : PortIndex) (type : DataType)
    (default : type.Carrier) {w : World} {s : Scene} (hm : Mirrors P.placement w s) :
    let fetched := match (P.links.links a port).head? with
      | none => (default, w)
      | some producer => server.fetch a port producer type default w
    let direct := match g.producer? ⟨n, port⟩ with
      | none => (default, s)
      | some producer => Scene.fetch P.placement.address direct producer type default s
    fetched.1 = direct.1 ∧ Mirrors P.placement fetched.2 direct.2 := by
  have hproper := hP.proper h
  by_cases hinput : ∃ p, g.port? ⟨n, port⟩ = some p ∧ p.kind = .input
  · obtain ⟨p, hp, hk⟩ := hinput
    have hlinks := hP.links_eq h hn port
    have hkinds := fun r (hr : r ∈ g.partners ⟨n, port⟩) => h.toSound.port?_of_mem_partners hp hr
    rw [h.toSound.producer?_eq hp hk]
    cases hpartners : g.partners ⟨n, port⟩ with
    | nil =>
        rw [hpartners, List.map_nil, List.map_eq_nil_iff] at hlinks
        rw [hlinks]
        exact ⟨rfl, hm⟩
    | cons far rest =>
        rw [hpartners, List.map_cons] at hlinks
        obtain ⟨e, es, hes, he, -⟩ := List.map_eq_cons_iff.1 hlinks
        obtain ⟨hname, q, hq, hkind⟩ := names_of_entryIn? he.symm
        obtain ⟨q', hq', hk'⟩ := hkinds far (by simp [hpartners])
        rw [hq] at hq'
        cases hq'
        rw [hes]
        exact hs.fetch hproper hname (by rw [hkind, hk', hk]; rfl) hm a port type default
  · have hproducer : g.producer? ⟨n, port⟩ = none :=
      g.producer?_eq_none _ fun p hp hk => hinput ⟨p, hp, hk⟩
    rw [hproducer]
    cases hl : (P.links.links a port).head? with
    | none => exact ⟨rfl, hm⟩
    | some e =>
        obtain ⟨p, hp, hkind⟩ := hP.kind_of_link h hn (List.mem_of_head? hl)
        have hne : e.kind ≠ .output := by
          intro hk
          refine hinput ⟨p, hp, ?_⟩
          rw [PortKind.eq_counterpart hkind, hk]
          rfl
        have hskip : server.fetch a port e type default w = (default, w) := if_pos hne
        simp only [hskip, true_and]
        exact hm

/-- **Dispatch.** Whatever nesting is allowed, requests are answered by the table as they are
answered by the graph. -/
theorem serve_agrees (hP : g.Compiles config P) (h : g.WellFormed) (limit allowed : Nat) :
    Agrees P.placement (serve P.links limit allowed)
      (interpret g P.placement.address allowed) := by
  induction allowed with
  | zero =>
      intro n a r w s _ hm
      rw [serve_zero, Interpreter.interpret_zero]
      exact ⟨rfl, hm.note _⟩
  | succ allowed ih =>
      intro n a r w s hn hm
      cases r with
      | call port => exact ⟨rfl, hP.call_agrees h ih hn port hm⟩
      | read port type default => exact hP.read_agrees h ih hn port type default hm

end Graph.Compiles

end FlowGraph
