import FlowGraph.Proofs.Engine.Mirror
import FlowGraph.Proofs.Engine.Population
import FlowGraph.Proofs.Graph.Connections
import FlowGraph.Proofs.Graph.Flow

/-!
# Typed connections carry values

A connection is only made between data ports whose declared types are equal. At run time the types
are not looked at again: a reader asks its producer for a value of the type that it wants, and the
producer answers whether it has one. That the check made beforehand suffices is shown here. What is
produced at a typed output of a built-in behaviour is of the type declared, whatever the producer
reads on the way, be it cut short by the limit on nesting; so the reader gets it, and its default is
never taken.

* `Action.Always` — what holds of the result of a tree of actions, whatever its requests yield.
* `Engine.produced?` — the value that a producer has for a reader.
* `Graph.Compiles.served` — a producer that always has one serves its readers.
* `Stock.Instance.Makes` — the typed outputs of the built-in behaviours.
* `Stock.Instance.Makes.produce` — there, a value of that type is produced.
* `Graph.Reachable.typed_reads_are_served` — what is read at a declared type was produced.
-/

namespace FlowGraph

/-! ### Results of actions -/

namespace Action

variable {α β : Type}

/-- What holds of every result to which a tree of actions can lead. -/
def Always (P : α → Prop) : Action α → Prop
  | .done x => P x
  | .ask _ next => ∀ x, (next x).Always P
  | .say _ next => next.Always P
  | .setCount _ next => next.Always P

/-- It holds of the result of a run, whoever answers the requests. -/
theorem Always.run {κ σ : Type} {stage : Stage κ σ}
    {serve : κ → (r : Request) → σ → r.Answer × σ} {self : κ} {P : α → Prop} {t : Action α}
    (h : t.Always P) (s : σ) : P (t.run stage serve self s).1 := by
  induction t generalizing s with
  | done x => exact h
  | ask r next ih => exact ih _ (h _) _
  | say m next ih => exact ih h _
  | setCount n next ih => exact ih h _

end Action

/-- A value is claimed to be produced, and there is one. -/
def OutputSlot.Served {type : DataType} (out : Bool × OutputSlot type) : Prop :=
  ∃ x, out = (true, ⟨some x⟩)

section

variable [Repertoire]

/-! ### Reads from outside -/

namespace Engine

/-- The value of a type that a node of a running engine produces at a port, if it claims to produce
one. What it reads on the way is nested in the reader's request. -/
def produced? (e : Engine) (a : PackedAddress) (port : PortIndex) (type : DataType) :
    Option type.Carrier :=
  (e.pools.find? a).bind fun i =>
    let out := Server.run (serve e.links e.limit (e.limit - 1)) a
      (i.produce a port (OutputSlot.empty : OutputSlot type))
      (e.world.record (.hook a (.produce port)))
    if out.1.1 then out.1.2.content else none

variable {e : Engine}

/-- Where a value is always produced, there is one. -/
theorem produced?_of_served {a : PackedAddress} {i : Instance} (hi : e.pools.find? a = some i)
    {port : PortIndex} {type : DataType}
    (h : (i.produce a port (OutputSlot.empty : OutputSlot type)).Always OutputSlot.Served) :
    ∃ v, e.produced? a port type = some v := by
  have hserved : OutputSlot.Served (Server.run (serve e.links e.limit (e.limit - 1)) a
      (i.produce a port (OutputSlot.empty : OutputSlot type))
      (e.world.record (.hook a (.produce port)))).1 := h.run _
  obtain ⟨v, hv⟩ := hserved
  refine ⟨v, ?_⟩
  rw [produced?, hi, Option.bind_some]
  simp only [hv, if_true]

/-- **A read** of what is produced is answered with it, whatever its default. -/
theorem read_of_produced {a : PackedAddress} {port : PortIndex} {producer : LinkEntry}
    (hrunning : e.isRunning = true) (hlimit : 1 ≤ e.limit)
    (hhead : (e.links.links a port).head? = some producer) (hk : producer.kind = .output)
    {type : DataType} {v : type.Carrier}
    (hv : e.produced? producer.address producer.port type = some v) (default : type.Carrier) :
    (e.read a port type default).1 = v := by
  obtain ⟨allowed, hallowed⟩ : ∃ allowed, e.limit = allowed + 1 :=
    ⟨e.limit - 1, (Nat.sub_add_cancel hlimit).symm⟩
  have hread : (e.read a port type default).1
      = (Server.fetch (serve e.links e.limit allowed) a port producer type default e.world).1 := by
    have hserver : e.server = serve e.links e.limit (allowed + 1) := by rw [server, ← hallowed]
    rw [read, if_pos hrunning, answer, hserver, serve, hhead]
  obtain ⟨i, hi, hv⟩ := Option.bind_eq_some_iff.1 hv
  have hfind : e.world.pools.find? producer.address = some i := hi
  have hsub : e.limit - 1 = allowed := by omega
  rw [hsub] at hv
  rw [hread, Server.fetch, if_neg (not_not_intro hk), hfind]
  simp only at hv ⊢
  generalize Server.run (serve e.links e.limit allowed) producer.address _ _ = out at hv ⊢
  obtain ⟨⟨claimed, content⟩, w⟩ := out
  cases claimed with
  | false => cases hv
  | true =>
      have hcontent : content.content = some v := hv
      simp only [hcontent]

end Engine

/-! ### The producer of a connection -/

namespace Graph.Compiles

variable {g : Graph} {config : PoolConfig} {P : Program}

/-- Behind a port lies an instance with that port, of a behaviour that the catalog knows. -/
theorem instance_of_port (hP : g.Compiles config P) (h : g.WellFormed) {r : PortRef} {p : Port}
    (hp : g.port? r = some p) :
    ∃ a i, P.addressOf? r.node = some a ∧ P.pools.find? a = some i ∧
      i.ports[r.port.index]? = some p ∧
      ∃ node ∈ g.nodes, g.catalog.find? node.behavior = some i.behavior := by
  obtain ⟨i, hi, hport⟩ := h.instance_of_port hp
  obtain ⟨node, hmem, hid, hb, hdata⟩ := instance?_eq_some hi
  obtain ⟨a, ha, hfound⟩ := hP.instance_of_node h hmem hb
  rw [hid] at ha
  rw [hdata] at hfound
  exact ⟨a, i, ha, hfound, hport, node, hmem, hb⟩

/-- The only link of a connected input leads to its producer. -/
theorem head?_links (hP : g.Compiles config P) (h : g.WellFormed) {c : Connection}
    (hc : c ∈ g.connections) {q : Port} (hq : g.port? c.sink = some q) (hk : q.kind = .input)
    {a b : PackedAddress} (ha : P.addressOf? c.sink.node = some a)
    (hb : P.addressOf? c.source.node = some b) :
    (P.links.links a c.sink.port).head? = some ⟨b, c.source.port, .output⟩ := by
  obtain ⟨s, t, hs, ht, hfeeds⟩ := h.toSound.ends hc
  rw [hq] at ht
  cases ht
  have hkind : s.kind = .output := by
    rw [PortKind.eq_counterpart hfeeds.counterpart, hk]
    rfl
  have hentry : g.entryIn? P c.source = some ⟨b, c.source.port, .output⟩ := by
    rw [← hkind]
    exact linkTo?_eq_some hb hs
  have honly : ∀ far ∈ g.partners c.sink, far = c.source := by
    intro far hfar
    obtain ⟨d, hd, hother⟩ := mem_partners.1 hfar
    rcases other?_cases hother with ⟨hds, -⟩ | ⟨hdt, rfl⟩
    · exact absurd hds (h.toSound.source_ne_sink hd hc)
    · rw [h.toSound.producer d hd c hc hdt q (by rw [hdt]; exact hq) hk]
  have hpartner : c.source ∈ g.partners c.sink := by
    refine mem_partners.2 ⟨c, hc, ?_⟩
    have hne := h.toSound.source_ne_sink hc hc
    simp [Connection.other?, hne]
  have hlinks := hP.links_eq h ha c.sink.port
  cases hpartners : g.partners c.sink with
  | nil =>
      rw [hpartners] at hpartner
      cases hpartner
  | cons far rest =>
      have hfar : far = c.source := honly far (by simp [hpartners])
      have hsink : (⟨c.sink.node, c.sink.port⟩ : PortRef) = c.sink := rfl
      rw [hsink, hpartners, List.map_cons, hfar, hentry] at hlinks
      obtain ⟨e, es, hes, he, -⟩ := List.map_eq_cons_iff.1 hlinks
      rw [hes, List.head?_cons, he]

/-- **In a run** a producer that always produces a value, whatever its count, serves its input as
long as it is not released. -/
theorem served (hP : g.Compiles config P) (h : g.WellFormed) {limit : Nat} (hlimit : 1 ≤ limit)
    {c : Connection} (hc : c ∈ g.connections) {q : Port} (hq : g.port? c.sink = some q)
    (hk : q.kind = .input) {a b : PackedAddress} (ha : P.addressOf? c.sink.node = some a)
    (hb : P.addressOf? c.source.node = some b) {i : Instance} (hi : P.pools.find? b = some i)
    {type : DataType} (hserves : ∀ n, ((i.withCount n).produce b c.source.port
      (OutputSlot.empty : OutputSlot type)).Always OutputSlot.Served) {ops : List Operation}
    (hrunning : ((Engine.ofProgram P limit).after ops).isRunning = true)
    (hstays : Operation.release b ∉ ops) :
    ∃ v, ((Engine.ofProgram P limit).after ops).produced? b c.source.port type = some v ∧
      ∀ default,
        (((Engine.ofProgram P limit).after ops).read a c.sink.port type default).1 = v := by
  obtain ⟨n, hn⟩ := (hP.sound h limit).find?_after hi hstays
  obtain ⟨v, hv⟩ := Engine.produced?_of_served hn (hserves n)
  have hlimits : 1 ≤ ((Engine.ofProgram P limit).after ops).limit := by
    rw [Engine.limit_after]
    exact hlimit
  have hhead : (((Engine.ofProgram P limit).after ops).links.links a c.sink.port).head?
      = some ⟨b, c.source.port, .output⟩ := by
    rw [Engine.links_after]
    exact hP.head?_links h hc hq hk ha hb
  exact ⟨v, hv, Engine.read_of_produced hrunning hlimits hhead rfl hv⟩

end Graph.Compiles

end

/-! ### Typed outputs -/

namespace Stock.Instance

/-- The typed outputs of the built-in behaviours. -/
inductive Makes : Instance → PortIndex → DataType → Prop
  | constantInt (value : Int64) : Makes (.constantInt value) ⟨0⟩ .int
  | constantText (value : String) : Makes (.constantText value) ⟨0⟩ .text
  | addInt : Makes .addInt ⟨2⟩ .int
  | greaterThan : Makes .greaterThan ⟨2⟩ .bool
  | intToText : Makes .intToText ⟨1⟩ .text

/-- **Typed outputs produce**, whatever is read for it. -/
theorem Makes.produce {i : Instance} {port : PortIndex} {type : DataType} (h : i.Makes port type)
    (self : PackedAddress) :
    (i.produce self port (OutputSlot.empty : OutputSlot type)).Always OutputSlot.Served := by
  cases h with
  | constantInt value => exact ⟨value, rfl⟩
  | constantText value => exact ⟨value, rfl⟩
  | addInt =>
      intro a b
      exact ⟨a + b, rfl⟩
  | greaterThan =>
      intro a b
      exact ⟨decide (b < a), rfl⟩
  | intToText =>
      intro n
      exact ⟨toString n.toInt, rfl⟩

/-- None of them belongs to a node that counts. -/
theorem Makes.withCount_eq {i : Instance} {port : PortIndex} {type : DataType}
    (h : i.Makes port type) (n : Int64) : i.withCount n = i := by
  cases h <;> rfl

theorem Makes.mem_types {i : Instance} {port : PortIndex} {type : DataType}
    (h : i.Makes port type) : type ∈ [DataType.int, .bool, .text] := by
  cases h <;> decide

/-- Where all ports but the last are inputs, an output is the last port. -/
theorem last_of_output (front : List Port) (hfront : ∀ q ∈ front, q.kind = .input) {last p : Port}
    {port : PortIndex} {n : UInt32} (hn : front.length = n.toNat)
    (hp : (front ++ [last])[port.index]? = some p) (hk : p.kind = .output) :
    port = ⟨n⟩ ∧ p = last := by
  rcases Nat.lt_trichotomy port.index front.length with hlt | heq | hgt
  · rw [List.getElem?_append_left hlt] at hp
    have hinput := hfront p (List.mem_of_getElem? hp)
    rw [hk] at hinput
    cases hinput
  · rw [heq, List.getElem?_concat_length] at hp
    exact ⟨congrArg PortIndex.mk (UInt32.toNat_inj.1 (heq.trans hn)), (Option.some.inj hp).symm⟩
  · have hbeyond : (front ++ [last]).length ≤ port.index := by
      rw [List.length_append, List.length_singleton]
      omega
    rw [List.getElem?_eq_none hbeyond] at hp
    cases hp

/-- Outputs with a declared type are typed outputs. -/
theorem makes_of_port {i : Instance} (hi : i.behavior ∈ Behavior.builtin) {port : PortIndex}
    {p : Port} (hp : i.ports[port.index]? = some p) (hk : p.kind = .output) {tag : TypeTag}
    (ht : p.declaredType = some tag) : ∃ type, i.Makes port type ∧ type.tag = tag := by
  have htwo : ∀ q ∈ [Port.input .int "a", .input .int "b"], q.kind = .input := by decide
  cases i with
  | constantInt value =>
      obtain ⟨rfl, rfl⟩ := last_of_output [] nofun (n := 0) rfl hp hk
      exact ⟨.int, .constantInt value, Option.some.inj ht⟩
  | constantText value =>
      obtain ⟨rfl, rfl⟩ := last_of_output [] nofun (n := 0) rfl hp hk
      exact ⟨.text, .constantText value, Option.some.inj ht⟩
  | addInt =>
      obtain ⟨rfl, rfl⟩ := last_of_output _ htwo (n := 2) rfl hp hk
      exact ⟨.int, .addInt, Option.some.inj ht⟩
  | greaterThan =>
      obtain ⟨rfl, rfl⟩ := last_of_output _ htwo (n := 2) rfl hp hk
      exact ⟨.bool, .greaterThan, Option.some.inj ht⟩
  | intToText =>
      obtain ⟨rfl, rfl⟩ := last_of_output [.input .int "value"] (by decide) (n := 1) rfl hp hk
      exact ⟨.text, .intToText, Option.some.inj ht⟩
  | startEvent | sequence arity | branch | counter c | printText lead =>
      -- Of these only the counter has an output, and its type is up to the reader.
      have hmem := List.mem_of_getElem? hp
      have hnone : p.declaredType = none := by
        simp only [ports, List.mem_cons, List.mem_map, List.not_mem_nil, or_false] at hmem
        grind [Port.enter, Port.exit, Port.plain, Port.input, Port.dynamicOutput, Port.external]
      rw [hnone] at ht
      cases ht
  | tracer tag | shape mode | probe c => exact absurd hi (by simp [behavior, Behavior.builtin])

end Stock.Instance

/-! ### Typed connections -/

/-- **What is read at a declared type was produced.** Take a graph of built-in behaviours, with
cycles or without, and a connection from an output to an input that both declare a type. The types
are the same, and one that readers can ask for. In every run of the graph's program, as long as the
producer is not released, the producer of the connection has a value of that type whenever the
engine runs, and whoever reads the input at that type gets this value, whatever the default. -/
theorem Graph.Reachable.typed_reads_are_served {g : Graph} (hg : g.Reachable)
    (hbuiltin : ∀ n ∈ g.nodes, ∀ k, g.catalog.find? n.behavior = some k →
      k ∈ Stock.Behavior.builtin)
    (config : PoolConfig) (limit : Nat) (hlimit : 1 ≤ limit) {c : Connection}
    (hc : c ∈ g.connections) {p q : Port} (hp : g.port? c.source = some p)
    (hq : g.port? c.sink = some q) (hinput : q.kind = .input) {s t : TypeTag}
    (hs : p.declaredType = some s) (ht : q.declaredType = some t) :
    let P := (g.compile config).value
    ∃ a b type, P.addressOf? c.sink.node = some a ∧ P.addressOf? c.source.node = some b ∧
      type ∈ [DataType.int, .bool, .text] ∧ type.tag = t ∧ s = t ∧
      ∀ ops, let e := (Engine.ofProgram P limit).after ops
        e.isRunning = true → Operation.release b ∉ ops →
          ∃ v, e.produced? b c.source.port type = some v ∧
            ∀ default, (e.read a c.sink.port type default).1 = v := by
  intro P
  have h := hg.wellFormed
  have hP := h.compiles config
  obtain ⟨p', q', hp', hq', hfeeds⟩ := h.toSound.ends hc
  obtain rfl : p = p' := Option.some.inj (hp.symm.trans hp')
  obtain rfl : q = q' := Option.some.inj (hq.symm.trans hq')
  have hst : s = t := by
    have hcompatible := hfeeds.compatible
    rw [Port.typeCompatible, hs, ht] at hcompatible
    exact eq_of_beq hcompatible
  have hkind : p.kind = .output := by
    rw [← PortKind.counterpart_counterpart p.kind, ← hfeeds.counterpart, hinput]
    rfl
  obtain ⟨a, -, ha, -, -, -⟩ := hP.instance_of_port h hq
  obtain ⟨b, i, hb, hi, hport, node, hnode, hknown⟩ := hP.instance_of_port h hp
  obtain ⟨type, hmakes, htag⟩ :=
    Stock.Instance.makes_of_port (hbuiltin node hnode _ hknown) hport hkind hs
  have hserves (n : Int64) : ((i.withCount n).produce b c.source.port
      (OutputSlot.empty : OutputSlot type)).Always OutputSlot.Served := by
    have hsame : i.withCount n = i := hmakes.withCount_eq n
    rw [hsame]
    exact hmakes.produce b
  exact ⟨a, b, type, ha, hb, hmakes.mem_types, htag.trans hst, hst, fun ops hrunning hstays =>
    hP.served h hlimit hc hq hinput ha hb hi hserves hrunning hstays⟩

/-- Two adders feed each other, and a constant feeds the first of them. -/
def Sample.loopEdits : List Edit :=
  [ .addNode Behavior.addInt.id .origin .null
  , .addNode Behavior.addInt.id .origin .null
  , .addNode Behavior.constantInt.id .origin (.object [("value", .int 7)])
  , .connect ⟨⟨1⟩, ⟨2⟩⟩ ⟨⟨2⟩, ⟨0⟩⟩
  , .connect ⟨⟨2⟩, ⟨2⟩⟩ ⟨⟨1⟩, ⟨0⟩⟩
  , .connect ⟨⟨3⟩, ⟨0⟩⟩ ⟨⟨1⟩, ⟨1⟩⟩ ]

/-- The graph that these edits lead to. -/
def Sample.loop : Graph := loopEdits.foldl Graph.edit (.empty .builtin)

/-- What the first adder reads of the second is a sum, at which the limit on nesting has let the
constant come round twice, whatever the default. -/
theorem Graph.Reachable.typed_reads_are_served_loop :
    let e := (Engine.ofProgram (Sample.loop.compile .standard).value 6).after [.bringUp, .enable]
    Sample.loop.Reachable ∧ e.isRunning = true ∧
      ∃ b, e.produced? b ⟨2⟩ .int = some 14 ∧
        ∀ default, (e.read (.pack ⟨1⟩ ⟨1⟩) ⟨0⟩ .int default).1 = (14 : Int64) := by
  intro e
  have hloop : Sample.loop.Reachable :=
    Graph.reachable_foldl .builtin Sample.loopEdits (by decide)
  have hcatalog : Sample.loop.catalog = .builtin := by decide +kernel
  have hrunning : e.isRunning = true := by decide +kernel
  obtain ⟨a, b, type, ha, -, hmem, htag, -, hserved⟩ :=
    Graph.Reachable.typed_reads_are_served hloop
      (fun n _ k hk => by
        rw [hcatalog] at hk
        exact List.mem_of_find?_eq_some hk)
      .standard 6 (by decide) (c := ⟨⟨2⟩, ⟨⟨2⟩, ⟨2⟩⟩, ⟨⟨1⟩, ⟨0⟩⟩⟩)
      (by decide +kernel) (p := .output .int "sum") (q := .input .int "a")
      (by decide +kernel) (by decide +kernel) rfl rfl rfl
  have hint : type = .int := by
    cases type with
    | int => rfl
    | bool | text | narrow => exact absurd htag (by decide)
  subst hint
  have haddress : a = .pack ⟨1⟩ ⟨1⟩ := by
    have hfirst : (Sample.loop.compile .standard).value.addressOf? ⟨1⟩ = some (.pack ⟨1⟩ ⟨1⟩) := by
      decide +kernel
    exact Option.some.inj (ha.symm.trans hfirst)
  subst haddress
  obtain ⟨v, hv, hread⟩ := hserved [.bringUp, .enable] hrunning (by simp)
  have hsum : (e.read (.pack ⟨1⟩ ⟨1⟩) ⟨0⟩ .int (0 : Int64)).1 = (14 : Int64) := by decide +kernel
  have hfourteen : v = (14 : Int64) := (hread 0).symm.trans hsum
  rw [hfourteen] at hv hread
  exact ⟨hloop, hrunning, b, hv, hread⟩

end FlowGraph
