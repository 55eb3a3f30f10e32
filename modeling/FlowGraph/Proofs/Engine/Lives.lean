import FlowGraph.Proofs.Engine.Population
import FlowGraph.Proofs.Engine.Protocol
import FlowGraph.Proofs.Graph.Connections
import FlowGraph.Proofs.Lists

/-!
# The lives of nodes

Seen from one node, the life of an engine is a list of events. Two ways lead to the last of them:
the node is released, or the engine is torn down. Whatever a host does, the list is that of a
well-ordered life: set-up first, enabling and disabling in turns, at most one start in between, and
at most one tear-down, which comes last.

* `Engine.life`, `Turn.events` — what a node was told so far, and in one turn.
* `LifecycleEvent.inTurns`, `Midlife`, `IsLife` — the shape of a life.
* `Standing`, `Standing.Step` — how a node stands in an engine, and what an operation makes of that.
* `Course` — the invariant: the state of the engine, presence and life go together.
* `Standing.Step.course`, `Engine.Sound.course` — it is kept by a step, hence by a run.
* `Graph.Reachable.every_life_is_ordered` — what this says of the nodes of a compiled graph.
-/

namespace FlowGraph

/-! ### What a node is told -/

/-- The event that a node is told of, if that is what the mark says. -/
def Mark.event? (a : PackedAddress) : Mark → Option LifecycleEvent
  | .told b event => if b = a then some event else none
  | .entered _ => none

/-- The event that a node is told of, if that is what happened. -/
def Happening.event? (a : PackedAddress) : Happening → Option LifecycleEvent
  | .hook b (.lifecycle event) => if b = a then some event else none
  | .hook .. | .message .. | .entered _ | .notice _ => none

theorem Happening.event?_eq (a : PackedAddress) (x : Happening) :
    x.event? a = x.mark?.bind (Mark.event? a) := by
  cases x with
  | hook b hook => cases hook <;> rfl
  | message b text => rfl
  | entered s => rfl
  | notice n => rfl

theorem filterMap_event? (a : PackedAddress) (news : List Happening) :
    news.filterMap (·.event? a)
      = (news.filterMap Happening.mark?).filterMap (Mark.event? a) := by
  rw [List.filterMap_filterMap, ← funext (Happening.event?_eq a)]

/-! ### The shape of a life -/

namespace LifecycleEvent

/-- So many events, enabling and disabling in turns. -/
def inTurns (n : Nat) : List LifecycleEvent :=
  (List.range n).map fun i => if i % 2 = 0 then .enable else .disable

theorem inTurns_succ (n : Nat) :
    inTurns (n + 1) = inTurns n ++ [if n % 2 = 0 then .enable else .disable] := by
  rw [inTurns, inTurns, List.range_succ, List.map_append]
  rfl

theorem getElem?_inTurns {i n : Nat} (h : i < n) :
    (inTurns n)[i]? = some (if i % 2 = 0 then .enable else .disable) := by
  rw [inTurns, List.getElem?_map, List.getElem?_range h]
  rfl

/-- What a node is told between set-up and tear-down: so many times it is enabled or disabled, in
turns, and so many times it is started, anywhere in between. -/
structure Midlife (middle : List LifecycleEvent) (switches starts : Nat) : Prop where
  switches : (middle.filter fun x => x ≠ .start) = inTurns switches
  starts : middle.count .start = starts

/-- A life as it should be. -/
inductive IsLife : List LifecycleEvent → Prop
  | unborn : IsLife []
  | living {middle : List LifecycleEvent} {switches starts : Nat}
      (h : Midlife middle switches starts) (once : starts ≤ 1) : IsLife (.setUp :: middle)
  | ended {middle : List LifecycleEvent} {switches starts : Nat}
      (h : Midlife middle switches starts) (once : starts ≤ 1) :
      IsLife (.setUp :: (middle ++ [.tearDown]))

namespace Midlife

variable {middle : List LifecycleEvent} {k n : Nat}

theorem nil : Midlife [] 0 0 := ⟨rfl, rfl⟩

theorem enable (h : Midlife middle k n) (hk : k % 2 = 0) :
    Midlife (middle ++ [.enable]) (k + 1) n where
  switches := by
    rw [List.filter_append, h.switches, inTurns_succ, hk]
    rfl
  starts := by
    rw [List.count_append, h.starts]
    rfl

theorem disable (h : Midlife middle k n) (hk : k % 2 = 1) :
    Midlife (middle ++ [.disable]) (k + 1) n where
  switches := by
    rw [List.filter_append, h.switches, inTurns_succ, hk]
    rfl
  starts := by
    rw [List.count_append, h.starts]
    rfl

theorem start (h : Midlife middle k n) : Midlife (middle ++ [.start]) k (n + 1) where
  switches := by
    rw [List.filter_append, h.switches]
    exact List.append_nil _
  starts := by
    rw [List.count_append, h.starts]
    rfl

/-- Set-up and tear-down are not in between. -/
theorem count_tearDown (h : Midlife middle k n) : middle.count .tearDown = 0 := by
  rw [List.count_eq_zero]
  intro hmem
  have hin : LifecycleEvent.tearDown ∈ middle.filter fun x => x ≠ .start := by simp [hmem]
  rw [h.switches, inTurns, List.mem_map] at hin
  obtain ⟨i, -, hi⟩ := hin
  split at hi <;> cases hi

/-- If disabling came last, it has followed each enabling. -/
theorem disable_mem (h : Midlife middle k n) (hk : k % 2 = 0)
    {before after : List LifecycleEvent} (hsplit : middle = before ++ .enable :: after) :
    LifecycleEvent.disable ∈ after := by
  have hswitches := h.switches
  rw [hsplit, List.filter_append, List.filter_cons_of_pos (by decide)] at hswitches
  generalize hxs : (before.filter fun x => x ≠ .start) = xs at hswitches
  have hlength : xs.length < k := by
    have hcount := congrArg List.length hswitches
    rw [inTurns, List.length_map, List.length_range, List.length_append, List.length_cons] at hcount
    omega
  -- The enabling stands at an even place, so there is another place, and a disabling stands there.
  have hthis : (inTurns k)[xs.length]? = some .enable := by
    rw [← hswitches]
    simp
  rw [getElem?_inTurns hlength] at hthis
  have heven : xs.length % 2 = 0 := by
    by_cases hmod : xs.length % 2 = 0
    · exact hmod
    · rw [if_neg hmod] at hthis
      cases hthis
  have hnext := getElem?_inTurns (i := xs.length + 1) (n := k) (by omega)
  rw [← hswitches, List.getElem?_append_right (by omega), if_neg (by omega)] at hnext
  have hmem : LifecycleEvent.disable ∈ after.filter fun x => x ≠ .start := by
    refine List.mem_of_getElem? (i := 0) ?_
    simpa using hnext
  exact (List.mem_filter.1 hmem).1

/-- The same in a life that is over. -/
theorem disable_mem_of_ended (h : Midlife middle k n) (hk : k % 2 = 0)
    {before after : List LifecycleEvent}
    (hsplit : .setUp :: (middle ++ [.tearDown]) = before ++ .enable :: (after ++ [.tearDown])) :
    LifecycleEvent.disable ∈ after := by
  cases before with
  | nil => cases hsplit
  | cons x before =>
      rw [List.cons_append, List.cons.injEq, ← List.cons_append, ← List.append_assoc] at hsplit
      exact h.disable_mem hk (List.append_cancel_right hsplit.2)

end Midlife

end LifecycleEvent

/-! ### How a node stands -/

/-- How a node stands in an engine: the engine's state, and what became of the node so far. -/
structure Standing where
  state : EngineState
  started : Bool
  live : Bool
  life : List LifecycleEvent

namespace Standing

/-- The node is told of an event, if it is there. -/
def tell (s : Standing) (event : LifecycleEvent) : Standing :=
  { s with life := bif s.live then s.life ++ [event] else s.life }

/-- What an operation may make of how a node stands. -/
inductive Step : Standing → Standing → Prop
  | idle (s : Standing) : Step s s
  | bringUp {s : Standing} (h : s.state = .uninitialized) :
      Step s { s.tell .setUp with state := .initialized }
  | enable {s : Standing} (h : s.state = .initialized ∨ s.state = .disabled) :
      Step s { s.tell .enable with state := .enabled }
  | disable {s : Standing} (h : s.state = .enabled) :
      Step s { s.tell .disable with state := .disabled }
  | start {s : Standing} (h : s.state.isRunning = true) (new : s.started = false) :
      Step s { s.tell .start with started := true }
  | tearDown {s : Standing} (h : s.state = .initialized ∨ s.state = .disabled) :
      Step s { s.tell .tearDown with state := .deInitialized }
  /-- An enabled engine is disabled first. -/
  | tearDownEnabled {s : Standing} (h : s.state = .enabled) :
      Step s { (s.tell .disable).tell .tearDown with state := .deInitialized }
  | release {s : Standing} (h : s.live = true) (running : s.state.isRunning = true) :
      Step s { s.tell .tearDown with live := false }
  | releaseIdle {s : Standing} (h : s.live = true) (idle : s.state.isRunning = false) :
      Step s { s with live := false }

end Standing

open LifecycleEvent (Midlife IsLife)

/-- **The invariant.** Before set-up there is no life yet. A node that is there while the engine
runs is in the middle of its life, and was enabled last exactly if the engine is. Any other life is
over or never began. One that ended after an enabling ended `early`, by a release. -/
inductive Course (early : Prop) : Standing → Prop
  | unborn : Course early ⟨.uninitialized, false, true, []⟩
  | living {state : EngineState} {started : Bool} {middle : List LifecycleEvent} {switches : Nat}
      (running : state.isRunning = true) (h : Midlife middle switches started.toNat)
      (parity : switches % 2 = 1 ↔ state = .enabled) :
      Course early ⟨state, started, true, .setUp :: middle⟩
  | absent {state : EngineState} {started : Bool} : Course early ⟨state, started, false, []⟩
  | ended {state : EngineState} {started live : Bool} {middle : List LifecycleEvent}
      {switches starts : Nat} (h : Midlife middle switches starts) (once : starts ≤ 1)
      (closed : live = true → state = .deInitialized) (parity : switches % 2 = 1 → early) :
      Course early ⟨state, started, live, .setUp :: (middle ++ [.tearDown])⟩

namespace Course

variable {early : Prop} {s s' : Standing}

theorem mono {later : Prop} (h : Course early s) (himp : early → later) : Course later s := by
  cases h with
  | unborn => exact .unborn
  | living running h parity => exact .living running h parity
  | absent => exact .absent
  | ended h once closed parity => exact .ended h once closed fun hk => himp (parity hk)

theorem isLife (h : Course early s) : IsLife s.life := by
  cases h with
  | unborn => exact .unborn
  | @living _ started _ _ running h parity => exact .living h (Bool.toNat_le started)
  | absent => exact .unborn
  | ended h once closed parity => exact .ended h once

/-- Once an engine is torn down, every life that began is over. -/
theorem closed (h : Course early s)
    (hstate : s.state = .deInitialized) (hborn : LifecycleEvent.setUp ∈ s.life) :
    ∃ middle switches starts, s.life = .setUp :: (middle ++ [.tearDown]) ∧
      Midlife middle switches starts ∧ (switches % 2 = 1 → early) := by
  cases h with
  | unborn => cases hborn
  | living running h parity =>
      cases hstate
      cases running
  | absent => cases hborn
  | ended h once closed parity => exact ⟨_, _, _, rfl, h, parity⟩

end Course

/-- Whether a step takes a node away from an enabled engine. -/
def Standing.Leaves (s s' : Standing) : Prop :=
  s.live = true ∧ s'.live = false ∧ s.state = .enabled

/-- **Step.** What an operation makes of a node keeps the invariant. -/
theorem Standing.Step.course {early : Prop} {s s' : Standing} (hstep : s.Step s')
    (hc : Course early s) : Course (early ∨ s.Leaves s') s' := by
  cases hc with
  | unborn =>
      cases hstep with
      | idle => exact .unborn
      | bringUp h => exact .living rfl .nil (by decide)
      | enable h => simp at h
      | disable h => cases h
      | start h new => cases h
      | tearDown h => simp at h
      | tearDownEnabled h => cases h
      | release h running => cases running
      | releaseIdle h idle => exact .absent
  | @living state started middle k running h parity =>
      have heven : state ≠ .enabled → k % 2 = 0 := by
        intro hne
        have hodd := mt parity.1 hne
        omega
      have once := Bool.toNat_le started
      cases hstep with
      | idle => exact .living running h parity
      | bringUp hs =>
          cases hs
          cases running
      | enable hs =>
          have hk : k % 2 = 0 := heven (by rintro rfl; simp at hs)
          exact .living rfl (h.enable hk) (by simp; omega)
      | disable hs =>
          have hk : k % 2 = 1 := parity.2 hs
          exact .living rfl (h.disable hk) (by simp; omega)
      | start hs new =>
          cases new
          exact .living running h.start parity
      | tearDown hs =>
          have hk : k % 2 = 0 := heven (by rintro rfl; simp at hs)
          exact .ended h once (fun _ => rfl) (by omega)
      | tearDownEnabled hs =>
          have hk : k % 2 = 1 := parity.2 hs
          exact .ended (h.disable hk) once (fun _ => rfl) (by omega)
      | release hl hs => exact .ended h once nofun fun hk => .inr ⟨rfl, rfl, parity.1 hk⟩
      | releaseIdle hl idle =>
          have hboth : true = false := running.symm.trans idle
          cases hboth
  | absent =>
      cases hstep with
      | release h running => cases h
      | releaseIdle h idle => cases h
      | _ => exact .absent
  | @ended state started live middle k n h once closed parity =>
      cases live with
      | false =>
          -- A node that is not there is told of nothing.
          cases hstep with
          | release hl running => cases hl
          | releaseIdle hl idle => cases hl
          | _ => exact .ended h once nofun fun hk => .inl (parity hk)
      | true =>
          obtain rfl := closed rfl
          cases hstep with
          | idle => exact .ended h once closed fun hk => .inl (parity hk)
          | bringUp hs => cases hs
          | enable hs => simp at hs
          | disable hs => cases hs
          | start hs new => cases hs
          | tearDown hs => simp at hs
          | tearDownEnabled hs => cases hs
          | release hl running => cases running
          | releaseIdle hl idle => exact .ended h once nofun fun hk => .inl (parity hk)

section

variable [Repertoire]

/-! ### Operations, seen from a node -/

/-- The events that a node has been told of so far, first things first. -/
def Engine.life (e : Engine) (a : PackedAddress) : List LifecycleEvent :=
  e.journal.filterMap (·.event? a)

/-- The events that a node is told of in a turn, which are those that the journal gains. -/
def Turn.events (t : Turn) (a : PackedAddress) : List LifecycleEvent :=
  (t.after.journal.drop t.before.journal.length).filterMap (·.event? a)

/-- Whether a node is released in a turn. -/
def Turn.Releases (t : Turn) (a : PackedAddress) : Prop :=
  t.operation = .release a ∧ t.reply = .released true

theorem Engine.Tells.life {e e' : Engine} {marks : List Mark} (h : e.Tells e' marks)
    (a : PackedAddress) : e'.life a = e.life a ++ marks.filterMap (Mark.event? a) := by
  obtain ⟨news, hnews, rfl⟩ := h
  rw [Engine.life, hnews, List.filterMap_append, filterMap_event? a news]
  rfl

/-- In a turn, nodes are told of what is due. -/
theorem Turn.events_eq (t : Turn) (a : PackedAddress) :
    t.events a = (t.before.due t.operation).filterMap (Mark.event? a) := by
  obtain ⟨news, hnews, hmarks⟩ := t.before.tells_operate t.operation
  have hgain : t.after.journal = t.before.journal ++ news := hnews
  rw [Turn.events, hgain, List.drop_left, filterMap_event?, hmarks]

/-- A life is what a node was told, turn by turn. -/
theorem Engine.life_after (e : Engine) (ops : List Operation) (a : PackedAddress) :
    (e.after ops).life a = e.life a ++ (e.turns ops).flatMap fun t => t.events a := by
  rw [(e.tells_after ops).life a, List.filterMap_flatMap]
  simp only [Turn.events_eq]

/-- How a node stands in an engine. -/
def Engine.standing (e : Engine) (a : PackedAddress) : Standing :=
  ⟨e.state, e.started, e.world.isLive a, e.life a⟩

@[simp] theorem Engine.state_standing (e : Engine) (a : PackedAddress) :
    (e.standing a).state = e.state := rfl

namespace Engine

variable {e : Engine}

/-- Of what is told to nodes that are all different, a node that is among them hears once, if it is
there. -/
theorem filterMap_told (event : LifecycleEvent) {order : List PackedAddress} (horder : order.Nodup)
    {a : PackedAddress} (ha : e.world.isLive a = true → a ∈ order) :
    (e.told event order).filterMap (Mark.event? a)
      = bif e.world.isLive a then [event] else [] := by
  have hevents : (e.told event order).filterMap (Mark.event? a)
      = (order.filter e.world.isLive).filterMap fun b => if b = a then some event else none := by
    rw [told, List.filterMap_map]
    rfl
  rw [hevents, filterMap_singleton a event (horder.filter _)]
  cases hlive : e.world.isLive a with
  | true => simp [hlive, ha hlive]
  | false => simp [hlive]

/-- A node is told of an event that all nodes are told of, if it is there. -/
theorem standing_of_told {e' : Engine} {event : LifecycleEvent} {order : List PackedAddress}
    {marks : List Mark} {a : PackedAddress}
    (h : e.world.Tells e'.world (e.told event order ++ marks))
    (hmarks : marks.filterMap (Mark.event? a) = []) (horder : order.Nodup)
    (ha : e.world.isLive a = true → a ∈ order) :
    e'.standing a
      = { (e.standing a).tell event with state := e'.state, started := e'.started } := by
  have hlife := (tells_of_world e e' h).life a
  rw [List.filterMap_append, hmarks, List.append_nil, filterMap_told event horder ha] at hlife
  rw [standing, hlife, h.live a]
  cases hlive : e.world.isLive a with
  | true => simp [standing, Standing.tell, hlive]
  | false => simp [standing, Standing.tell, hlive]

namespace Sound

/-- What is not done leaves a node as it stands. -/
theorem step_guarded {allowed : List EngineState} {action : String} {go : Engine → Engine}
    {a : PackedAddress}
    (hgo : e.state ∈ allowed → (e.standing a).Step ((go e).standing a)) :
    (e.standing a).Step ((e.guarded allowed action go).2.standing a) := by
  unfold guarded
  split
  · next hstate => exact hgo hstate
  · exact .idle _

/-- A broadcast to all nodes, and the state that it leads to. -/
theorem standing_move (h : e.Sound) (event : LifecycleEvent) (s : EngineState)
    (a : PackedAddress) :
    ((e.broadcast event e.order).enter s).standing a
      = { (e.standing a).tell event with state := s } :=
  standing_of_told (e.tells_move event e.order s) rfl h.once (h.placed a)

/-- The same in reverse order. -/
theorem standing_moveBack (h : e.Sound) (event : LifecycleEvent) (s : EngineState)
    (a : PackedAddress) :
    ((e.broadcast event e.order.reverse).enter s).standing a
      = { (e.standing a).tell event with state := s } :=
  standing_of_told (e.tells_move event e.order.reverse s) rfl
    ((List.reverse_perm _).nodup_iff.2 h.once) fun hlive => List.mem_reverse.2 (h.placed a hlive)

theorem standing_disable (h : e.Sound) (hs : e.state = .enabled) (a : PackedAddress) :
    e.disable.2.standing a = { (e.standing a).tell .disable with state := .disabled } := by
  have hdisable : e.disable.2 = (e.broadcast .disable e.order).enter .disabled := by
    unfold disable guarded
    rw [if_pos (by simp [hs])]
  rw [hdisable]
  exact h.standing_move .disable .disabled a

theorem step_start (h : e.Sound) (a : PackedAddress) :
    (e.standing a).Step (e.start.2.standing a) := by
  rcases e.start_cases with ⟨hnew, hrunning, -, hstarted⟩ | ⟨-, hsame⟩
  · have htells := e.tells_start
    have hdue : e.due .start = e.told .start e.order ++ [] := by
      rw [List.append_nil]
      exact if_pos ⟨hnew, hrunning⟩
    rw [hdue] at htells
    have hstate : e.start.2.state = e.state := by
      unfold start
      split
      · rfl
      · exact guarded_keeps (P := fun e' => e'.state = e.state) rfl rfl
    rw [standing_of_told htells rfl h.once (h.placed a), hstarted, hstate]
    exact .start (s := e.standing a) hrunning hnew
  · rw [hsame]
    exact .idle _

theorem step_tearDown (h : e.Sound) (a : PackedAddress) :
    (e.standing a).Step (e.tearDown.2.standing a) := by
  refine step_guarded fun hrunning => ?_
  by_cases hs : e.state = .enabled
  · have hfirst := h.standing_disable hs a
    have hlast := (h.operate .disable).standing_moveBack .tearDown .deInitialized a
    have hsame : (e.operate .disable).2 = e.disable.2 := rfl
    rw [hsame, hfirst] at hlast
    simp only [if_pos hs]
    rw [hlast]
    exact .tearDownEnabled (s := e.standing a) hs
  · simp only [if_neg hs]
    rw [h.standing_moveBack]
    refine .tearDown (s := e.standing a) ?_
    simpa [running, hs] using hrunning

/-- Nothing that is asked in a node's name makes a difference to how a node stands. -/
theorem standing_of_level {e' : Engine} (hlevel : e.Level e') (h : e.world.Tells e'.world [])
    (a : PackedAddress) : e'.standing a = e.standing a := by
  have hlife := (tells_of_world e e' h).life a
  rw [List.filterMap_nil, List.append_nil] at hlife
  rw [standing, standing, hlevel.state, hlevel.started, h.live a, hlife]

/-- A node that is released is told so, if the engine runs. -/
theorem step_release_self (h : e.Sound) (a : PackedAddress) :
    (e.standing a).Step ((e.release a).2.standing a) := by
  have hlevel := e.level_release a
  have hlife := (e.tells_release a).life a
  cases hthere : e.world.isLive a with
  | false =>
      have hrefused : e.release a = (false, e) := if_pos (by rw [h.contains_eq, hthere]; rfl)
      rw [hrefused]
      exact .idle _
  | true =>
      have hgone : (e.release a).2.world.isLive a = false := by
        rw [(h.release_live a).2]
        simp
      rw [standing, standing, hlevel.state, hlevel.started, hgone, hlife, hthere]
      cases hrunning : e.isRunning with
      | true =>
          have hdue : e.due (.release a) = e.told .tearDown [a] :=
            if_pos ⟨(h.contains_eq a).trans hthere, hrunning⟩
          rw [hdue, filterMap_told _ (List.pairwise_singleton _ a)
            (fun _ => List.mem_singleton_self a), hthere]
          exact .release (s := ⟨e.state, e.started, true, e.life a⟩) rfl hrunning
      | false =>
          have hdue : e.due (.release a) = [] := by
            refine if_neg fun hboth => ?_
            rw [hrunning] at hboth
            cases hboth.2
          rw [hdue, List.filterMap_nil, List.append_nil]
          exact .releaseIdle (s := ⟨e.state, e.started, true, e.life a⟩) rfl hrunning

/-- Of the release of another a node is not told. -/
theorem standing_release_other (h : e.Sound) {a b : PackedAddress} (hb : b ≠ a) :
    (e.release b).2.standing a = e.standing a := by
  have hlevel := e.level_release b
  have hlife := (e.tells_release b).life a
  have hstay : (e.release b).2.world.isLive a = e.world.isLive a := by
    rw [(h.release_live b).2]
    simp [Ne.symm hb]
  have hdue : (e.due (.release b)).filterMap (Mark.event? a) = [] := by
    refine List.filterMap_eq_nil_iff.2 fun m hm => ?_
    simp only [due] at hm
    split at hm
    · obtain ⟨c, hc, rfl⟩ := List.mem_map.1 hm
      obtain rfl := List.mem_singleton.1 (List.mem_filter.1 hc).1
      exact if_neg hb
    · cases hm
  rw [standing, standing, hlevel.state, hlevel.started, hstay, hlife, hdue, List.append_nil]

/-- **One operation** makes of a node what a step may make of it. -/
theorem step (h : e.Sound) (op : Operation) (a : PackedAddress) :
    (e.standing a).Step ((e.operate op).2.standing a) := by
  cases op with
  | bringUp =>
      refine step_guarded fun hs => ?_
      rw [h.standing_move]
      exact .bringUp (s := e.standing a) (by simpa using hs)
  | enable =>
      refine step_guarded fun hs => ?_
      rw [h.standing_move]
      exact .enable (s := e.standing a) (by simpa using hs)
  | disable =>
      refine step_guarded fun hs => ?_
      rw [h.standing_move]
      exact .disable (s := e.standing a) (by simpa using hs)
  | start => exact h.step_start a
  | tearDown => exact h.step_tearDown a
  | call b port =>
      show (e.standing a).Step ((e.call b port).standing a)
      rw [standing_of_level (e.level_call b port) (e.tells_call b port)]
      exact .idle _
  | read b port type default =>
      show (e.standing a).Step ((e.read b port type default).2.standing a)
      rw [standing_of_level (e.level_read b port type default) (e.tells_read b port type default)]
      exact .idle _
  | release b =>
      by_cases hb : b = a
      · rw [hb]
        exact h.step_release_self a
      · show (e.standing a).Step ((e.release b).2.standing a)
        rw [h.standing_release_other hb]
        exact .idle _

/-- A node that an operation takes away from an enabled engine is released by it. -/
theorem releases_of_leaves (h : e.Sound) {op : Operation} {a : PackedAddress}
    (hleaves : (e.standing a).Leaves ((e.operate op).2.standing a)) :
    (Turn.mk e op).Releases a ∧ e.state = .enabled := by
  obtain ⟨hthere, hgone, hstate⟩ := hleaves
  have hlive := h.isLive_operate op a
  have hop : op = .release a := by
    refine Classical.byContradiction fun hne => ?_
    have hstay : (e.operate op).2.world.isLive a = true := hlive.2 ⟨hthere, hne⟩
    have hboth : true = false := hstay.symm.trans hgone
    cases hboth
  refine ⟨⟨hop, ?_⟩, hstate⟩
  subst hop
  exact congrArg Reply.released ((h.release_live a).1.trans hthere)

/-- **Run.** So do all operations of a run; early ends are those of releases from an enabled
engine. -/
theorem course (h : e.Sound) {early : Prop} {a : PackedAddress} (hc : Course early (e.standing a))
    (ops : List Operation) :
    Course (early ∨ ∃ t ∈ e.turns ops, t.Releases a ∧ t.before.state = .enabled)
      ((e.after ops).standing a) := by
  induction ops generalizing e early with
  | nil => exact hc.mono .inl
  | cons op ops ih =>
      have hfirst := (h.step op a).course hc
      refine (ih (h.operate op) hfirst).mono ?_
      rintro ((hearly | hleaves) | ⟨t, ht, hreleases⟩)
      · exact .inl hearly
      · exact .inr ⟨⟨e, op⟩, List.mem_cons_self, h.releases_of_leaves hleaves⟩
      · exact .inr ⟨t, List.mem_cons_of_mem _ ht, hreleases⟩

end Sound

/-- At the start no node has been told of anything. -/
theorem course_start (p : Program) (limit : Nat) (a : PackedAddress) :
    Course False ((ofProgram p limit).standing a) := by
  have hstanding : (ofProgram p limit).standing a
      = ⟨.uninitialized, false, (ofProgram p limit).world.isLive a, []⟩ := rfl
  rw [hstanding]
  cases (ofProgram p limit).world.isLive a with
  | true => exact .unborn
  | false => exact .absent

end Engine

/-! ### The end of a life -/

/-- What a node is told once in a run, it is told in one turn. -/
theorem Engine.told_in_one_turn {e : Engine} {a : PackedAddress} (hfresh : e.life a = [])
    {ops : List Operation} {event : LifecycleEvent}
    (honce : ((e.after ops).life a).count event = 1) :
    ∃ t, (e.turns ops).filter (fun t => event ∈ t.events a) = [t] ∧ event ∈ t.events a := by
  rw [e.life_after ops a, hfresh, List.nil_append] at honce
  obtain ⟨t, ht⟩ := filter_mem_of_count_flatMap (fun t : Turn => t.events a) event honce
  have hmem : t ∈ (e.turns ops).filter fun t => event ∈ t.events a := by
    rw [ht]
    exact List.mem_singleton_self t
  exact ⟨t, ht, by simpa using (List.mem_filter.1 hmem).2⟩

/-- A node is told to tear down when it is released, or when the engine is torn down. -/
theorem Turn.operation_of_tearDown {t : Turn} {a : PackedAddress}
    (h : LifecycleEvent.tearDown ∈ t.events a) :
    t.operation = .release a ∨ t.operation = .tearDown := by
  obtain ⟨e, op⟩ := t
  rw [Turn.events_eq] at h
  obtain ⟨m, hm, hevent⟩ := List.mem_filterMap.1 h
  have htold : m = .told a .tearDown := by
    cases m with
    | entered s => cases hevent
    | told b event =>
        simp only [Mark.event?] at hevent
        split at hevent
        · next hb => rw [hb, Option.some.inj hevent]
        · cases hevent
  subst htold
  cases op with
  | tearDown => exact .inr rfl
  | release b =>
      have hb : a = b := by
        simp only [Engine.due, List.mem_ite_nil_right] at hm
        obtain ⟨c, hc, heq⟩ := List.mem_map.1 hm.2
        cases heq
        exact List.mem_singleton.1 (List.mem_filter.1 hc).1
      rw [hb]
      exact .inl rfl
  | _ => simp [Engine.due, Engine.told] at hm

namespace Graph

/-- **Every life is ordered.** Whatever operations a host runs on the engine of a compiled graph,
what one node is told is set-up, then enabling and disabling in turns with at most one start in
between, then at most one tear-down, or nothing at all. In an engine that has been torn down every
node that was set up has been told to tear down once, in a single turn, which was its own release
or the tear-down of the engine; and unless it was released from an enabled engine, it was disabled
after each enabling before that. -/
theorem Reachable.every_life_is_ordered {g : Graph} (hg : g.Reachable) (config : PoolConfig)
    (limit : Nat) (ops : List Operation) (a : PackedAddress) :
    let start := Engine.ofProgram (g.compile config).value limit
    let life := (start.after ops).life a
    IsLife life ∧
      ((start.after ops).state = .deInitialized → LifecycleEvent.setUp ∈ life →
        life.count .tearDown = 1 ∧
        (∃ t, (start.turns ops).filter (fun t => LifecycleEvent.tearDown ∈ t.events a) = [t] ∧
          (t.operation = .release a ∨ t.operation = .tearDown)) ∧
        ((∀ t ∈ start.turns ops, t.Releases a → t.before.state ≠ .enabled) →
          ∀ before after, life = before ++ .enable :: (after ++ [.tearDown]) →
            LifecycleEvent.disable ∈ after)) := by
  intro start life
  have h := hg.wellFormed
  have hsound : start.Sound := (h.compiles config).sound h limit
  have hcourse := hsound.course (Engine.course_start (g.compile config).value limit a) ops
  refine ⟨hcourse.isLife, fun hstate hborn => ?_⟩
  obtain ⟨middle, k, n, hlife, hmiddle, hparity⟩ := hcourse.closed hstate hborn
  have hwhole : life = .setUp :: (middle ++ [.tearDown]) := hlife
  have hcount : life.count .tearDown = 1 := by
    rw [hwhole, List.count_cons_of_ne (by decide), List.count_append, hmiddle.count_tearDown]
    rfl
  refine ⟨hcount, ?_, ?_⟩
  · obtain ⟨t, ht, hevent⟩ := Engine.told_in_one_turn (e := start) rfl hcount
    exact ⟨t, ht, Turn.operation_of_tearDown hevent⟩
  · intro hlate before after hsplit
    have heven : k % 2 = 0 := by
      refine (Nat.mod_two_eq_zero_or_one k).resolve_right fun hodd => ?_
      rcases hparity hodd with hnever | ⟨t, ht, hreleases, henabled⟩
      · exact hnever
      · exact hlate t ht hreleases henabled
    exact hmiddle.disable_mem_of_ended heven (hwhole.symm.trans hsplit)

end Graph

end

/-- The sample from its start to its end. It is still enabled when it is torn down. -/
def Sample.wholeLife : List Operation :=
  [.bringUp, .enable, .start, .disable, .enable, .tearDown]

/-- The counter of the sample lives to the end. -/
theorem Graph.Reachable.every_life_is_ordered_counter :
    let start := Engine.ofProgram (Sample.graph.value.compile .standard).value defaultDepth
    let life := (start.after Sample.wholeLife).life (.pack ⟨3⟩ ⟨1⟩)
    Sample.graph.value.Reachable ∧ (start.after Sample.wholeLife).state = .deInitialized ∧
      life = [.setUp, .enable, .start, .disable, .enable, .disable, .tearDown] ∧ IsLife life ∧
      ∃ t, (start.turns Sample.wholeLife).filter
          (fun t => LifecycleEvent.tearDown ∈ t.events (.pack ⟨3⟩ ⟨1⟩)) = [t] ∧
        (t.operation = .release (.pack ⟨3⟩ ⟨1⟩) ∨ t.operation = .tearDown) := by
  intro start life
  obtain ⟨hlife, hend⟩ := Graph.Reachable.every_life_is_ordered Sample.graph_reachable .standard
    defaultDepth Sample.wholeLife (.pack ⟨3⟩ ⟨1⟩)
  have hstate : (start.after Sample.wholeLife).state = .deInitialized := by decide +kernel
  have hevents : life = [.setUp, .enable, .start, .disable, .enable, .disable, .tearDown] := by
    decide +kernel
  obtain ⟨-, honce, -⟩ := hend hstate (by
    show LifecycleEvent.setUp ∈ life
    rw [hevents]
    exact List.mem_cons_self)
  exact ⟨Sample.graph_reachable, hstate, hevents, hlife, honce⟩

end FlowGraph
