import FlowGraph.Proofs.Engine.Takeover
import FlowGraph.Proofs.Engine.TypedReads

/-!
# Reading a network

Values are pulled: a read asks a producer, which reads its own inputs before it answers, and so on.
Nothing is kept of what was read, a producer with several readers answers each of them anew, and at
the limit on nesting a read gets its default. Still a read from outside gets what the network
means, as long as no chain of producers is longer than the limit: what the producer's behaviour
makes of the values of its own inputs, these being taken to be numbers.

* `Instance.result` — what a node makes of two numbers.
* `Graph.Worth`, `Graph.Worth.unique` — what an input is worth.
* `Scene.fetch_result` — one producer, whatever its inputs are worth.
* `Graph.WellFormed.interpret_read` — the whole network, by induction on the nesting allowed.
* `Graph.Reachable.reads_what_it_is_worth` — what this says of engines.
-/

namespace FlowGraph

/-! ### What a network means -/

/-- A value where a number is wanted; anything else counts as zero. -/
def Value.number (v : Option Value) : Int := ((v.bind (as? .int)).getD 0).toInt

/-- What a node of a built-in behaviour has at its output, by the numbers at its inputs and by the
count that it has come to. -/
def Instance.result (count : Option Int64) (a b : Int) : Instance → Option Value
  | constantInt value => some (.int value)
  | constantText value => some (.text value)
  | addInt => some (.int (Int64.ofInt (a + b)))
  | greaterThan => some (.bool (decide (b < a)))
  | intToText => some (.text (toString a))
  | counter _ => count.map .int
  | _ => none

namespace Graph

/-- What an input is worth, by the counts that counters have come to: nothing without a producer,
and otherwise what its producer makes of its own inputs. -/
inductive Worth (g : Graph) (count? : NodeId → Option Int64) : PortRef → Option Value → Prop
  | unfed {r : PortRef} (hr : g.producer? r = none) : Worth g count? r none
  | fed {r producer : PortRef} {i : Instance} {a b : Option Value} {v : Value}
      (hr : g.producer? r = some producer) (hi : g.instance? producer.node = some i)
      (ha : Worth g count? ⟨producer.node, ⟨0⟩⟩ a) (hb : Worth g count? ⟨producer.node, ⟨1⟩⟩ b)
      (hv : i.result (count? producer.node) (Value.number a) (Value.number b) = some v) :
      Worth g count? r (some v)

/-- An input is worth one thing only. -/
theorem Worth.unique {g : Graph} {count? : NodeId → Option Int64} {r : PortRef}
    {v w : Option Value} (hv : g.Worth count? r v) (hw : g.Worth count? r w) : v = w := by
  induction hv generalizing w with
  | unfed hr =>
      cases hw with
      | unfed => rfl
      | fed hr' =>
          rw [hr] at hr'
          cases hr'
  | fed hr hi _ _ hv iha ihb =>
      cases hw with
      | unfed hr' =>
          rw [hr] at hr'
          cases hr'
      | fed hr' hi' ha' hb' hv' =>
          obtain rfl := Option.some.inj (hr.symm.trans hr')
          obtain rfl := Option.some.inj (hi.symm.trans hi')
          rw [← iha ha', ← ihb hb'] at hv'
          exact hv.symm.trans hv'

end Graph

/-! ### One producer -/

/-- The outputs of built-in behaviours: the typed ones, and the count of a counter. -/
theorem Stock.Instance.output_cases {i : Stock.Instance} (hi : i.behavior ∈ Behavior.builtin)
    {port : PortIndex} {p : Port} (hp : i.ports[port.index]? = some p) (hk : p.kind = .output) :
    (∃ type, i.Makes port type) ∨ ∃ c, i = .counter c ∧ port = ⟨2⟩ := by
  cases ht : p.declaredType with
  | some tag =>
      obtain ⟨type, hmakes, -⟩ := makes_of_port hi hp hk ht
      exact .inl ⟨type, hmakes⟩
  | none =>
      have hmem := List.mem_of_getElem? hp
      cases i with
      | counter c =>
          refine .inr ⟨c, rfl, congrArg PortIndex.mk (UInt32.toNat_inj.1 ?_)⟩
          have hplace : ∀ k : Nat, (counter c).ports[k]? = some p → k = 2 := by
            intro k hp
            match k with
            | 0 | 1 =>
                cases hp
                cases hk
            | 2 => rfl
            | k + 3 => cases hp
          exact hplace _ hp
      | tracer tag | shape mode | probe c => exact absurd hi (by simp [behavior, Behavior.builtin])
      | _ =>
          simp only [ports, List.mem_cons, List.mem_map, List.not_mem_nil, or_false] at hmem
          grind [Port.enter, Port.exit, Port.plain, Port.input, Port.output, Port.external]

namespace Scene

variable {address : NodeId → PackedAddress} {server : Server} {s : Scene} {producer : PortRef}
  {i : Instance}

/-- What is read of a producer that puts a value, or tries to, if it is of another type. -/
theorem fetch_of_put (hfind : s.instances.find? producer.node = some i)
    (hoffer : i.offer? producer.port = none) {type : DataType} {v : Value}
    (hput : (i.produce (address producer.node) producer.port
      (OutputSlot.empty : OutputSlot type)).run stage server producer.node s
        = (OutputSlot.empty.put v, s)) (default : type.Carrier) :
    fetch address server producer type default s = ((v.as? type).getD default, s) := by
  rw [fetch, hfind]
  simp only [hput, OutputSlot.put]
  cases v.as? type with
  | none =>
      show (s.offered producer type default, s) = _
      rw [offered, hfind, Option.bind_some, hoffer]
      rfl
  | some x => rfl

/-- **One producer.** If what is read at its inputs are their values, then what is read of it is
what it makes of them. -/
theorem fetch_result (address : NodeId → PackedAddress)
    (hbuiltin : i.behavior ∈ Stock.Behavior.builtin) {p : Port}
    (hp : i.ports[producer.port.index]? = some p) (hk : p.kind = .output) {n : Int64}
    (hfind : s.instances.find? producer.node = some (i.withCount n)) {a b : Option Value}
    (ha : ∀ default, server producer.node (.read ⟨0⟩ .int default) s
      = ((a.bind (Value.as? .int)).getD default, s))
    (hb : ∀ default, server producer.node (.read ⟨1⟩ .int default) s
      = ((b.bind (Value.as? .int)).getD default, s)) :
    ∃ v, i.result (i.withCount n).count? (Value.number a) (Value.number b) = some v ∧
      ∀ type default, fetch address server producer type default s
        = ((v.as? type).getD default, s) := by
  obtain ⟨node, port⟩ := producer
  -- Those that read put what they make of their two numbers.
  have hreads : ∀ {α : Type} (f : Int64 → Int64 → α),
      ((do
        let x ← Action.read 0 .int 0
        let y ← Action.read 1 .int 0
        Action.done (f x y) : Action α)).run stage server node s
        = (f ((a.bind (Value.as? .int)).getD 0) ((b.bind (Value.as? .int)).getD 0), s) := by
    intro α f
    show (let (x, s) := server node (.read ⟨0⟩ .int 0) s
      let (y, s) := server node (.read ⟨1⟩ .int 0) s
      (f x y, s)) = _
    simp only [ha, hb]
  rcases Stock.Instance.output_cases hbuiltin hp hk with ⟨type, hmakes⟩ | ⟨c, rfl, hport⟩
  · cases hmakes with
    | constantInt value =>
        exact ⟨_, rfl, fun type default => fetch_of_put hfind rfl rfl default⟩
    | constantText value =>
        exact ⟨_, rfl, fun type default => fetch_of_put hfind rfl rfl default⟩
    | addInt =>
        refine ⟨_, rfl, fun type default => fetch_of_put hfind rfl ?_ default⟩
        cases type with
        | int =>
            refine (hreads fun x y => OutputSlot.empty.put (.int (x + y))).trans ?_
            rw [Value.number, Value.number, Int64.ofInt_add, Int64.ofInt_toInt, Int64.ofInt_toInt]
        | text | bool | narrow => rfl
    | greaterThan =>
        refine ⟨_, rfl, fun type default => fetch_of_put hfind rfl ?_ default⟩
        cases type with
        | bool =>
            refine (hreads fun x y => OutputSlot.empty.put (.bool (decide (y < x)))).trans ?_
            rw [Value.number, Value.number, decide_eq_decide.2 Int64.lt_iff_toInt_lt]
        | int | text | narrow => rfl
    | intToText =>
        refine ⟨_, rfl, fun type default => fetch_of_put hfind rfl ?_ default⟩
        cases type with
        | text =>
            show (let (x, s) := server node (.read ⟨0⟩ .int 0) s
              (OutputSlot.empty.put (.text (toString x.toInt)), s)) = _
            simp only [ha]
            rfl
        | int | bool | narrow => rfl
  · subst hport
    refine ⟨.int n, rfl, fun type default => ?_⟩
    rw [fetch, hfind]
    show (s.offered _ type default, s) = _
    rw [offered, hfind]
    rfl

end Scene

/-! ### The whole network -/

namespace Graph

variable {g : Graph}

/-- **The whole network.** With as much nesting allowed as the longest chain of producers is long, a
read gets what the input is worth, and changes nothing. -/
theorem WellFormed.interpret_read (h : g.WellFormed) (hbuiltin : g.IsBuiltin)
    (address : NodeId → PackedAddress) (s : Scene) {allowed : Nat} {r : PortRef}
    (hchains : ∀ k, Walk g.Draws k r → k ≤ allowed)
    (hthere : ∀ q i, Relation.TransGen g.Draws r q → g.instance? q.node = some i →
      ∃ n, s.instances.find? q.node = some (i.withCount n)) :
    ∃ v, g.Worth (fun n => (s.instances.find? n).bind Instance.count?) r v ∧
      ∀ type default, interpret g address allowed r.node (.read r.port type default) s
        = ((v.bind (Value.as? type)).getD default, s) := by
  induction allowed generalizing r with
  | zero =>
      have hr : g.producer? r = none := by
        cases hr : g.producer? r with
        | none => rfl
        | some producer => exact absurd ⟨producer, hr, rfl⟩ (Walk.not_step hchains (b := producer))
      exact ⟨none, .unfed hr, fun type default => rfl⟩
  | succ allowed ih =>
      cases hr : g.producer? r with
      | none =>
          refine ⟨none, .unfed hr, fun type default => ?_⟩
          rw [interpret, hr]
          rfl
      | some producer =>
          -- Both inputs of the producer are one step away, whether it has them or not.
          have hstep : ∀ port, g.Draws r ⟨producer.node, port⟩ := fun port => ⟨producer, hr, rfl⟩
          have hinput := fun port => ih (r := ⟨producer.node, port⟩)
            (Walk.shorter hchains (hstep port)) fun q i hq => hthere q i (.head (hstep port) hq)
          obtain ⟨a, hworth₀, ha⟩ := hinput ⟨0⟩
          obtain ⟨b, hworth₁, hb⟩ := hinput ⟨1⟩
          obtain ⟨i, p, hi, hp, hk⟩ := h.output_of_producer hr
          obtain ⟨n, hn⟩ := hthere ⟨producer.node, ⟨0⟩⟩ i (.single (hstep ⟨0⟩)) hi
          obtain ⟨v, hv, hfetch⟩ := Scene.fetch_result address
            (hbuiltin.behavior_mem hi) hp hk hn (ha .int) (hb .int)
          refine ⟨some v, .fed hr hi hworth₀ hworth₁ ?_, fun type default => ?_⟩
          · rw [hn]
            exact hv
          · rw [interpret, hr]
            exact hfetch type default

/-- **Reading a network computes its value.** Take a graph of built-in behaviours and an input of
it, behind which no chain of producers is longer than the limit on nesting, so that none of them
goes round in a circle. At any point of a run at which the engine runs and nothing that the input
draws on was released, the input is worth one thing, by the counts that the counters have come to;
and whoever reads it at a type gets this if it is of the type, and otherwise the default. -/
theorem Reachable.reads_what_it_is_worth (hg : g.Reachable) (hbuiltin : g.IsBuiltin)
    (config : PoolConfig) (limit : Nat) {r : PortRef} {p : Port} (hp : g.port? r = some p)
    (hchains : ∀ k, Walk g.Draws k r → k ≤ limit) :
    let P := (g.compile config).value
    ∃ a, P.addressOf? r.node = some a ∧
      ∀ ops, let e := (Engine.ofProgram P limit).after ops
        e.isRunning = true →
        (∀ q b, Relation.TransGen g.Draws r q → P.addressOf? q.node = some b →
          Operation.release b ∉ ops) →
        ∃ v, g.Worth e.count? r v ∧ (∀ w, g.Worth e.count? r w → w = v) ∧
          ∀ type default, (e.read a r.port type default).1
            = (v.bind (Value.as? type)).getD default := by
  intro P
  have h := hg.wellFormed
  have hP := h.compiles config
  obtain ⟨a, -, ha, -⟩ := hP.instance_of_port h hp
  refine ⟨a, ha, ?_⟩
  intro ops e hrunning hstays
  obtain ⟨v, hworth, hread⟩ := h.interpret_read hbuiltin P.placement.address
    (Interpreter.ofEngine g e).scene hchains fun q i hq hi =>
      hP.find?_ofEngine h limit hi fun b => hstays q b hq
  have hcounts : e.count? = fun n =>
      ((Interpreter.ofEngine g e).scene.instances.find? n).bind Instance.count? :=
    funext fun n => hP.count?_ofEngine h limit ops n
  rw [hcounts]
  refine ⟨v, hworth, fun w hw => hw.unique hworth, fun type default => ?_⟩
  exact (hP.read_from h limit hrunning ha r.port type default).trans
    (congrArg Prod.fst (hread type default))

end Graph

/-- A constant and a counter are added, the sum is added to itself, and the text of this is what
would be printed. -/
def Sample.doublingEdits : List Edit :=
  [ .addNode Behavior.constantInt.id .origin (.object [("value", .int 9223372036854775807)])
  , .addNode Behavior.counter.id .origin (.object [("start", .int 2)])
  , .addNode Behavior.addInt.id .origin .null
  , .addNode Behavior.addInt.id .origin .null
  , .addNode Behavior.intToText.id .origin .null
  , .addNode Behavior.printText.id .origin .null
  , .connect ⟨⟨1⟩, ⟨0⟩⟩ ⟨⟨3⟩, ⟨0⟩⟩
  , .connect ⟨⟨2⟩, ⟨2⟩⟩ ⟨⟨3⟩, ⟨1⟩⟩
  , .connect ⟨⟨3⟩, ⟨2⟩⟩ ⟨⟨4⟩, ⟨0⟩⟩
  , .connect ⟨⟨3⟩, ⟨2⟩⟩ ⟨⟨4⟩, ⟨1⟩⟩
  , .connect ⟨⟨4⟩, ⟨2⟩⟩ ⟨⟨5⟩, ⟨0⟩⟩
  , .connect ⟨⟨5⟩, ⟨1⟩⟩ ⟨⟨6⟩, ⟨1⟩⟩ ]

/-- The graph that these edits lead to. -/
def Sample.doubling : Graph := doublingEdits.foldl Graph.edit (.empty .builtin)

/-- The largest integer and two more, doubled, are two, and a limit of four is enough to read it. -/
theorem Graph.Reachable.reads_what_it_is_worth_doubling :
    let e := (Engine.ofProgram (Sample.doubling.compile .standard).value 4).after [.bringUp]
    Sample.doubling.Reachable ∧ e.isRunning = true ∧
      Sample.doubling.Worth e.count? ⟨⟨6⟩, ⟨1⟩⟩ (some (.text "2")) ∧
      ∀ default, (e.read (.pack ⟨5⟩ ⟨1⟩) ⟨1⟩ .text default).1 = "2" := by
  intro e
  have hdoubling : Sample.doubling.Reachable :=
    Graph.reachable_foldl .builtin Sample.doublingEdits (by decide)
  have hrunning : e.isRunning = true := by decide +kernel
  have hrises : Sample.doubling.Rises fun n => n.raw.toNat - 2 := by decide +kernel
  obtain ⟨a, ha, hreads⟩ := Graph.Reachable.reads_what_it_is_worth hdoubling
    (Graph.isBuiltin_of_catalog (by decide +kernel)) .standard 4 (r := ⟨⟨6⟩, ⟨1⟩⟩)
    (p := .input .text "text") (by decide +kernel) fun k hk => hrises.draws_le hk
  obtain ⟨v, hworth, -, hread⟩ := hreads [.bringUp] hrunning (by simp)
  have haddress : a = .pack ⟨5⟩ ⟨1⟩ := by
    have hsixth : (Sample.doubling.compile .standard).value.addressOf? ⟨6⟩
        = some (.pack ⟨5⟩ ⟨1⟩) := by
      decide +kernel
    exact Option.some.inj (ha.symm.trans hsixth)
  subst haddress
  have htwo : (e.read (.pack ⟨5⟩ ⟨1⟩) ⟨1⟩ .text "").1 = "2" := by decide +kernel
  have hv : v = some (.text "2") := by
    have hgot := (hread .text "").symm.trans htwo
    have hdefault : ("" : String) ≠ "2" := by decide
    rcases v with _ | ⟨type, x⟩
    · exact absurd hgot hdefault
    · cases type with
      | text => exact congrArg (fun x => some (Value.text x)) hgot
      | int | bool | narrow => exact absurd hgot hdefault
  subst hv
  exact ⟨hdoubling, hrunning, hworth, fun default => hread .text default⟩

-- Under a limit of three, constant and counter are out of reach, and nothing doubled is nothing.
example :
    let e := (Engine.ofProgram (Sample.doubling.compile .standard).value 3).after [.bringUp]
    (e.read (.pack ⟨5⟩ ⟨1⟩) ⟨1⟩ .text "").1 = "0" := by
  decide +kernel

end FlowGraph
