import FlowGraph.Engine.Basic

/-!
# The counter of requests under way

A machine need not know in advance how deeply requests may still nest. It can count those that are
under way, one up when a request is taken and one down when it is over, whichever way it comes to
its end, and refuse a request if there are as many as the limit allows. Every request leaves the
counter where it found it, so what is left of the limit is the same all the time that one request is
carried out. This is what makes it an argument of the recursion in `serve`.

* `Nested` — a world with the number of requests that are under way in it.
* `Nested.enter?`, `Nested.leave`, `Nested.serve` — the machine that counts.
* `Nested.Counts` — it puts the counter back, and does what a server of worlds does.
* `Nested.counts_serve` — so it is for requests at any nesting, by induction on what the limit
  leaves.
* `Nested.depth_serve`, `Engine.counts_server`, `Engine.counts_broadcast` — what this says of single
  requests, of engines and of their broadcasts.
-/

namespace FlowGraph

variable [Repertoire]

/-! ### The machine -/

/-- A world, and how many requests are under way in it. -/
structure Nested where
  world : World
  depth : Nat

namespace Nested

/-- Let something happen. -/
def record (s : Nested) (x : Happening) : Nested := { s with world := s.world.record x }

/-- Give a notice. -/
def note (s : Nested) (n : Notice) : Nested := s.record (.notice n)

/-- What nodes say and keep goes into the world. -/
def stage : Stage PackedAddress Nested where
  say a message s := { s with world := World.stage.say a message s.world }
  setCount a n s := { s with world := World.stage.setCount a n s.world }

/-- Answers requests of nodes. -/
abbrev Server := PackedAddress → (r : Request) → Nested → r.Answer × Nested

/-- A request is taken, unless there are too many. -/
def enter? (limit : Nat) (s : Nested) : Option Nested :=
  if limit ≤ s.depth then none else some { s with depth := s.depth + 1 }

/-- A request is over. -/
def leave (s : Nested) : Nested := { s with depth := s.depth - 1 }

/-- Pass a call on to one of the ends linked to its port. -/
def deliver (server : Server) (a : PackedAddress) (port : PortIndex) (s : Nested)
    (target : LinkEntry) : Nested :=
  if target.kind ≠ .enter then s
  else
    match s.world.pools.find? target.address with
    | none => s.note (.callTargetMissing a port target.address)
    | some i =>
      ((i.onControl target.port).run stage server target.address
        (s.record (.hook target.address (.control target.port)))).2

/-- Ask a producer for a value: first at the wanted type, then at its own. -/
def fetch (server : Server) (a : PackedAddress) (port : PortIndex) (producer : LinkEntry)
    (type : DataType) (default : type.Carrier) (s : Nested) : type.Carrier × Nested :=
  if producer.kind ≠ .output then (default, s)
  else
    match s.world.pools.find? producer.address with
    | none => (default, s.note (.producerMissing a port producer.address))
    | some i =>
      let slot : OutputSlot type := .empty
      let ((claimed, slot), s) :=
        (i.produce producer.address producer.port slot).run stage server producer.address
          (s.record (.hook producer.address (.produce producer.port)))
      match claimed, slot.content with
      | true, some x => (x, s)
      | _, _ =>
        let (x, world) := s.world.offered a port producer type default
        (x, { s with world })

/-- Carry out a request that was taken. -/
def dispatch (links : LinkTable) (server : Server) (a : PackedAddress) :
    (r : Request) → Nested → r.Answer × Nested
  | .call port, s => ((), (links.links a port).foldl (deliver server a port) s)
  | .read port type default, s =>
    match (links.links a port).head? with
    | none => (default, s)
    | some producer => fetch server a port producer type default s

/-- The answer to a request, all that happens being counted. The fuel is there for the sake of the
recursion, and so much of it that the limit comes first. -/
def serve (links : LinkTable) (limit : Nat) : Nat → Server
  | 0, _, r, s => (r.refusal, s)
  | fuel + 1, a, r, s =>
    match s.enter? limit with
    | none => (r.refusal, s.note (.depthReached limit a r.port))
    | some s =>
      let (x, s) := dispatch links (serve links limit fuel) a r s
      (x, s.leave)

/-- Tell a node of a lifecycle event, if it has not been released. -/
def notify (server : Server) (event : LifecycleEvent) (s : Nested) (a : PackedAddress) : Nested :=
  match s.world.pools.find? a with
  | none => s.note (.eventUndelivered event a)
  | some i => ((i.onEvent event).run stage server a (s.record (.hook a (.lifecycle event)))).2

/-! ### Counting -/

/-- Where so many requests are under way, a counting server does what a server of worlds does, and
puts the counter back. -/
def Counts (depth : Nat) (counting : Server) (server : FlowGraph.Server) : Prop :=
  ∀ a r w, counting a r ⟨w, depth⟩ = ((server a r w).1, ⟨(server a r w).2, depth⟩)

namespace Counts

variable {depth : Nat} {counting : Server} {server : FlowGraph.Server}

theorem run {α : Type} (h : Counts depth counting server) (self : PackedAddress) (t : Action α)
    (w : World) : t.run stage counting self ⟨w, depth⟩
      = ((server.run self t w).1, ⟨(server.run self t w).2, depth⟩) := by
  induction t generalizing w with
  | done x => rfl
  | ask r next ih =>
      rw [Action.run, h self r w]
      exact ih _ _
  | say m next ih => exact ih _
  | setCount n next ih => exact ih _

theorem deliver (h : Counts depth counting server) (a : PackedAddress) (port : PortIndex)
    (w : World) (target : LinkEntry) :
    Nested.deliver counting a port ⟨w, depth⟩ target = ⟨server.deliver a port w target, depth⟩ := by
  unfold Nested.deliver Server.deliver
  split
  · rfl
  · cases w.pools.find? target.address with
    | none => rfl
    | some i => exact congrArg Prod.snd (h.run target.address (i.onControl target.port) _)

/-- One after the other. -/
theorem foldl {α : Type} {f : Nested → α → Nested} {g : World → α → World}
    (hf : ∀ w x, f ⟨w, depth⟩ x = ⟨g w x, depth⟩) (xs : List α) (w : World) :
    xs.foldl f ⟨w, depth⟩ = ⟨xs.foldl g w, depth⟩ := by
  induction xs generalizing w with
  | nil => rfl
  | cons x xs ih =>
      rw [List.foldl_cons, hf w x]
      exact ih (g w x)

theorem fetch (h : Counts depth counting server) (a : PackedAddress) (port : PortIndex)
    (producer : LinkEntry) (type : DataType) (default : type.Carrier) (w : World) :
    Nested.fetch counting a port producer type default ⟨w, depth⟩
      = ((server.fetch a port producer type default w).1,
          ⟨(server.fetch a port producer type default w).2, depth⟩) := by
  unfold Nested.fetch Server.fetch
  split
  · rfl
  · cases w.pools.find? producer.address with
    | none => rfl
    | some i =>
        have hrun := h.run producer.address
          (i.produce producer.address producer.port (OutputSlot.empty : OutputSlot type))
          (w.record (.hook producer.address (.produce producer.port)))
        simp only [record, hrun]
        generalize server.run producer.address _ _ = out
        obtain ⟨⟨claimed, content⟩, v⟩ := out
        cases claimed with
        | false => rfl
        | true =>
            obtain ⟨content⟩ := content
            cases content <;> rfl

theorem notify (h : Counts depth counting server) (event : LifecycleEvent) (w : World)
    (a : PackedAddress) :
    Nested.notify counting event ⟨w, depth⟩ a = ⟨World.notify server event w a, depth⟩ := by
  unfold Nested.notify World.notify
  cases w.pools.find? a with
  | none => rfl
  | some i => exact congrArg Prod.snd (h.run a (i.onEvent event) _)

end Counts

/-- **The counter is put back**, and what is left of the limit is the argument of the recursion. -/
theorem counts_serve (links : LinkTable) (limit : Nat) {depth fuel : Nat}
    (hfuel : limit - depth < fuel) :
    Counts depth (serve links limit fuel) (FlowGraph.serve links limit (limit - depth)) := by
  obtain ⟨allowed, hallowed⟩ : ∃ allowed, limit - depth = allowed := ⟨_, rfl⟩
  rw [hallowed] at hfuel ⊢
  induction allowed generalizing depth fuel with
  | zero =>
      intro a r w
      obtain ⟨fuel, rfl⟩ := Nat.exists_eq_succ_of_ne_zero (Nat.ne_of_gt hfuel)
      have hfull : limit ≤ depth := by omega
      rw [serve, enter?, if_pos hfull, serve_zero]
      rfl
  | succ allowed ih =>
      intro a r w
      obtain ⟨fuel, rfl⟩ := Nat.exists_eq_succ_of_ne_zero (Nat.ne_of_gt (Nat.zero_lt_of_lt hfuel))
      have hroom : ¬ limit ≤ depth := by omega
      -- Inside the request one more is under way, all the time that it is carried out.
      have hinner : Counts (depth + 1) (serve links limit fuel)
          (FlowGraph.serve links limit allowed) := ih (by omega) (by omega)
      rw [serve, enter?, if_neg hroom]
      cases r with
      | call port =>
          have hcalls := Counts.foldl (hinner.deliver a port) (links.links a port) w
          simp only [dispatch, hcalls]
          rfl
      | read port type default =>
          simp only [dispatch, FlowGraph.serve]
          cases (links.links a port).head? with
          | none => rfl
          | some producer =>
              have hfetch := hinner.fetch a port producer type default w
              simp only [hfetch]
              rfl

/-- **Every request leaves the counter where it found it**, be it refused or carried out, and
whichever way it comes to its end. -/
theorem depth_serve (links : LinkTable) (limit : Nat) {fuel : Nat} (a : PackedAddress)
    (r : Request) {s : Nested} (hfuel : limit - s.depth < fuel) :
    (serve links limit fuel a r s).2.depth = s.depth := by
  obtain ⟨w, depth⟩ := s
  rw [counts_serve links limit hfuel a r w]

end Nested

/-! ### Engines -/

namespace Engine

variable {e : Engine}

/-- **An engine's server** is the counting machine with no request under way. -/
theorem counts_server {fuel : Nat} (hfuel : e.limit < fuel) :
    Nested.Counts 0 (Nested.serve e.links e.limit fuel) e.server := by
  have hall : Nested.Counts 0 (Nested.serve e.links e.limit fuel)
      (serve e.links e.limit (e.limit - 0)) := Nested.counts_serve e.links e.limit hfuel
  exact hall

/-- No request is under way when nodes are told of an event, nor when they have all been told. -/
theorem counts_broadcast {fuel : Nat} (hfuel : e.limit < fuel) (event : LifecycleEvent)
    (order : List PackedAddress) :
    order.foldl (Nested.notify (Nested.serve e.links e.limit fuel) event) ⟨e.world, 0⟩
      = ⟨(e.broadcast event order).world, 0⟩ :=
  Nested.Counts.foldl ((counts_server hfuel).notify event) order e.world

end Engine

end FlowGraph
