import FlowGraph.Engine.Dispatch
import FlowGraph.Proofs.Pool.Instances

/-!
# What dispatch cannot do

However deeply calls and reads nest, what they do to a world is done in small steps: something is
noted down, or a count is set. A relation between worlds that is kept by each such step, and can be
chained, is kept by whole dispatches. Two relations are of use: the journal only grows, and what is
noted down are neither lifecycle events nor states of the engine, while every node stays where it
is. Broadcasts then tell the nodes that are there, each once and in order, whatever their hooks do.

* `Action.run_related` — two machines that take corresponding steps answer alike.
* `World.Respects` — relations that every small step of dispatch keeps.
* `World.Respects.serve` — so does the answer to a request, by induction on the nesting allowed.
* `Mark`, `World.Tells` — the lifecycle events and states that are noted down between two worlds.
* `World.tells_serve`, `World.tells_broadcast` — dispatch notes down none, a broadcast one for each
  node that is there.
-/

namespace FlowGraph

/-! ### Runs of actions -/

/-- **Two machines, one tree.** If corresponding states stay so under whatever a node says, keeps or
asks for, and requests are answered alike, then a tree of actions has the same result in both. -/
theorem Action.run_related {κ₁ κ₂ σ τ α : Type} {stage₁ : Stage κ₁ σ} {stage₂ : Stage κ₂ τ}
    {serve₁ : κ₁ → (r : Request) → σ → r.Answer × σ}
    {serve₂ : κ₂ → (r : Request) → τ → r.Answer × τ} {a : κ₁} {n : κ₂} {R : σ → τ → Prop}
    (say : ∀ m w s, R w s → R (stage₁.say a m w) (stage₂.say n m s))
    (setCount : ∀ k w s, R w s → R (stage₁.setCount a k w) (stage₂.setCount n k s))
    (ask : ∀ r w s, R w s →
      (serve₁ a r w).1 = (serve₂ n r s).1 ∧ R (serve₁ a r w).2 (serve₂ n r s).2)
    (t : Action α) {w : σ} {s : τ} (h : R w s) :
    (t.run stage₁ serve₁ a w).1 = (t.run stage₂ serve₂ n s).1 ∧
      R (t.run stage₁ serve₁ a w).2 (t.run stage₂ serve₂ n s).2 := by
  induction t generalizing w s with
  | done x => exact ⟨rfl, h⟩
  | ask r next ih =>
      obtain ⟨hanswer, hstate⟩ := ask r w s h
      have hrest := ih (serve₁ a r w).1 hstate
      simp only [Action.run]
      rw [← hanswer]
      exact hrest
  | say m next ih => exact ih (say m w s h)
  | setCount k next ih => exact ih (setCount k w s h)

/-! ### Small steps -/

/-- Whether something is noted down by dispatch itself: a hook that a call or a read leads to, a
message or a notice. -/
def Happening.isInner : Happening → Bool
  | .hook _ (.lifecycle _) | .entered _ => false
  | .hook .. | .message .. | .notice _ => true

/-- What marks the course of a life: a node is told of an event, or a state is entered. -/
inductive Mark
  | told (node : PackedAddress) (event : LifecycleEvent)
  | entered (state : EngineState)
  deriving DecidableEq

/-- The mark that something which happened leaves, if any. -/
def Happening.mark? : Happening → Option Mark
  | .hook a (.lifecycle event) => some (.told a event)
  | .entered s => some (.entered s)
  | .hook .. | .message .. | .notice _ => none

theorem Happening.mark?_of_isInner {x : Happening} (h : x.isInner = true) : x.mark? = none := by
  cases x with
  | hook a hook =>
      cases hook with
      | lifecycle event => cases h
      | control port => rfl
      | produce port => rfl
      | offer port => rfl
  | message a text => rfl
  | entered s => cases h
  | notice n => rfl

variable [Repertoire]

namespace World

/-- A relation between an earlier and a later world that no small step of dispatch breaks. -/
structure Respects (R : World → World → Prop) : Prop where
  refl : ∀ w, R w w
  trans : ∀ {u v w}, R u v → R v w → R u w
  record : ∀ w {x : Happening}, x.isInner = true → R w (w.record x)
  setCount : ∀ w a n, R w (stage.setCount a n w)

end World

section

variable {R : World → World → Prop} {server : Server}

/-- A server all of whose answers keep a relation. -/
def Server.Within (server : Server) (R : World → World → Prop) : Prop :=
  ∀ a r w, R w (server a r w).2

namespace World.Respects

theorem run {α : Type} (hR : Respects R) (h : server.Within R) (self : PackedAddress)
    (t : Action α) (w : World) : R w (server.run self t w).2 := by
  induction t generalizing w with
  | done x => exact hR.refl w
  | ask r next ih => exact hR.trans (h self r w) (ih _ _)
  | say m next ih => exact hR.trans (hR.record w rfl) (ih _)
  | setCount n next ih => exact hR.trans (hR.setCount w self n) (ih _)

theorem deliver (hR : Respects R) (h : server.Within R) (a : PackedAddress) (port : PortIndex)
    (w : World) (target : LinkEntry) : R w (server.deliver a port w target) := by
  unfold Server.deliver
  split
  · exact hR.refl w
  · split
    · exact hR.record w rfl
    · exact hR.trans (hR.record w rfl) (hR.run h _ _ _)

theorem offered (hR : Respects R) (a : PackedAddress) (port : PortIndex) (producer : LinkEntry)
    (type : DataType) (default : type.Carrier) (w : World) :
    R w (w.offered a port producer type default).2 := by
  have hhook : R w (w.record (.hook producer.address (.offer producer.port))) := hR.record w rfl
  unfold World.offered
  simp only
  split
  · exact hhook
  · split
    · exact hhook
    · exact hR.trans hhook (hR.record _ rfl)

theorem fetch (hR : Respects R) (h : server.Within R) (a : PackedAddress) (port : PortIndex)
    (producer : LinkEntry) (type : DataType) (default : type.Carrier) (w : World) :
    R w (server.fetch a port producer type default w).2 := by
  unfold Server.fetch
  split
  · exact hR.refl w
  · split
    · exact hR.record w rfl
    · next i hi =>
      have hproduced := hR.trans (hR.record w (x := .hook producer.address (.produce producer.port))
        rfl) (hR.run h producer.address
          (i.produce producer.address producer.port (OutputSlot.empty : OutputSlot type)) _)
      simp only
      split
      · exact hproduced
      · exact hR.trans hproduced (hR.offered a port producer type default _)

theorem foldl {α : Type} (hR : Respects R) {f : World → α → World} (hf : ∀ w x, R w (f w x))
    (xs : List α) (w : World) : R w (xs.foldl f w) := by
  induction xs generalizing w with
  | nil => exact hR.refl w
  | cons x xs ih => exact hR.trans (hf w x) (ih _)

/-- **Dispatch is made of small steps.** What each of them keeps is kept by the answer to a request,
however deeply further requests nest in it. -/
theorem serve (hR : Respects R) (links : LinkTable) (limit allowed : Nat) :
    (FlowGraph.serve links limit allowed).Within R := by
  induction allowed with
  | zero =>
      intro a r w
      rw [serve_zero]
      exact hR.record w rfl
  | succ allowed ih =>
      intro a r w
      cases r with
      | call port => exact hR.foldl (fun w target => hR.deliver ih a port w target) _ w
      | read port type default =>
          rw [FlowGraph.serve]
          split
          · exact hR.refl w
          · exact hR.fetch ih a port _ type default w

end World.Respects

end

/-! ### The journal grows -/

namespace World

/-- Nothing that was noted down is taken back. -/
def Grows (w w' : World) : Prop := w.journal <:+ w'.journal

theorem Grows.trans {u v w : World} (h : u.Grows v) (h' : v.Grows w) : u.Grows w :=
  List.IsSuffix.trans h h'

theorem grows_record (w : World) (x : Happening) : w.Grows (w.record x) :=
  List.suffix_cons x w.journal

theorem respects_grows : Respects Grows where
  refl w := List.suffix_refl w.journal
  trans := Grows.trans
  record w x _ := grows_record w x
  setCount w _ _ := List.suffix_refl w.journal

end World

/-! ### Nodes stay -/

/-- Whether a node is there. -/
def World.isLive (w : World) (a : PackedAddress) : Bool := (w.pools.find? a).isSome

/-- At the address of a node that is not there lies nothing. -/
theorem World.find?_of_absent {w : World} {a : PackedAddress} (h : w.isLive a = false) :
    w.pools.find? a = none := by
  rw [World.isLive, Option.isSome_eq_false_iff, Option.isNone_iff_eq_none] at h
  exact h

/-! ### Marks -/

namespace World

/-- From one world to a later one, these marks are left, first things first, and no node comes or
goes. -/
structure Tells (w w' : World) (marks : List Mark) : Prop where
  journal : ∃ news, w'.journal = news ++ w.journal ∧
    news.reverse.filterMap Happening.mark? = marks
  live : ∀ a, w'.isLive a = w.isLive a

theorem Tells.refl (w : World) : w.Tells w [] := ⟨⟨[], rfl, rfl⟩, fun _ => rfl⟩

theorem Tells.trans {u v w : World} {ms ns : List Mark} (h : u.Tells v ms) (h' : v.Tells w ns) :
    u.Tells w (ms ++ ns) := by
  obtain ⟨news, hnews, hmarks⟩ := h.journal
  obtain ⟨news', hnews', hmarks'⟩ := h'.journal
  refine ⟨⟨news' ++ news, ?_, ?_⟩, fun a => (h'.live a).trans (h.live a)⟩
  · rw [hnews', hnews, List.append_assoc]
  · rw [List.reverse_append, List.filterMap_append, hmarks, hmarks']

theorem tells_record (w : World) (x : Happening) : w.Tells (w.record x) x.mark?.toList := by
  refine ⟨⟨[x], rfl, ?_⟩, fun _ => rfl⟩
  cases hx : x.mark? with
  | none => simp [hx]
  | some m => simp [hx]

theorem respects_tells : Respects fun w w' => w.Tells w' [] where
  refl := Tells.refl
  trans h h' := h.trans h'
  record w x hx := by
    have hrecord := w.tells_record x
    rwa [Happening.mark?_of_isInner hx] at hrecord
  setCount w a n := ⟨⟨[], rfl, rfl⟩, fun x => w.pools.isSome_find?_modify a x _⟩

/-- **Dispatch leaves no marks.** -/
theorem tells_serve (links : LinkTable) (limit allowed : Nat) :
    (serve links limit allowed).Within fun w w' => w.Tells w' [] :=
  respects_tells.serve links limit allowed

/-- A node is told of an event if it is there. -/
theorem tells_notify {server : Server} (h : server.Within fun w w' => w.Tells w' [])
    (event : LifecycleEvent) (w : World) (a : PackedAddress) :
    w.Tells (notify server event w a) (if w.isLive a then [.told a event] else []) := by
  unfold notify isLive
  cases w.pools.find? a with
  | none => exact w.tells_record (.notice (.eventUndelivered event a))
  | some i =>
      exact (w.tells_record (.hook a (.lifecycle event))).trans
        (respects_tells.run h a (i.onEvent event) _)

/-- **A broadcast** tells the nodes that are there, each once and in order, whatever their hooks
do. -/
theorem tells_broadcast {server : Server} (h : server.Within fun w w' => w.Tells w' [])
    (event : LifecycleEvent) (order : List PackedAddress) (w : World) :
    w.Tells (w.broadcast server event order)
      ((order.filter w.isLive).map fun a => .told a event) := by
  unfold broadcast
  induction order generalizing w with
  | nil => exact .refl w
  | cons a order ih =>
      have hfirst := w.tells_notify h event a
      have hrest := ih (notify server event w a)
      rw [show isLive (notify server event w a) = w.isLive from funext hfirst.live] at hrest
      rw [List.foldl_cons]
      cases ha : w.isLive a with
      | true =>
          rw [ha] at hfirst
          rw [List.filter_cons_of_pos ha]
          exact hfirst.trans hrest
      | false =>
          rw [ha] at hfirst
          rw [List.filter_cons_of_neg (by simp [ha])]
          exact hfirst.trans hrest

end World

end FlowGraph
