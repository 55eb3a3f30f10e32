import FlowGraph.Proofs.Graph.Edits
import FlowGraph.Stock.Repertoire

/-!
# Refused edits

An editor asks for many things that cannot be done: it removes what is gone, joins ports that do not
fit, or joins two ports a second time. It is told so, and that is all: the graph it is left with is
the graph it had, down to the order of the connections and the ids that are given out next. In
particular an input does not lose its producer to a connection that is then not made.

* `EditReply`, `Graph.reply` — what an editor is told about an edit.
* `EditReply.isRefusal` — the replies that tell of a failure.
* `Graph.edit_of_refused` — one refused edit.
* `Graph.accepted`, `Graph.refusals_leave_no_trace` — a run of edits, and the run without those that
  were refused.
-/

namespace FlowGraph

/-! ### Replies -/

/-- What an editor is told about an edit. -/
inductive EditReply
  /-- The id of a new node. -/
  | added (node : NodeId)
  /-- Whether the edit was made. -/
  | flag (done : Bool)
  /-- How many connections a change of a node cost; nothing if there is no such node. -/
  | dropped (count : Option Nat)
  /-- The id of a new connection, or why there is none. -/
  | connected (result : Except ConnectError ConnectionId)

/-- Whether a reply tells of a failure. A new node is never refused. -/
def EditReply.isRefusal : EditReply → Bool
  | .added _ => false
  | .flag done => !done
  | .dropped count => count.isNone
  | .connected (.error _) => true
  | .connected (.ok _) => false

namespace Graph

section

variable [Repertoire]

/-- What an editor is told about an edit. -/
def reply (g : Graph) : Edit → EditReply
  | .addNode behavior position data => .added (g.addNode behavior position data).value.1
  | .removeNode n => .flag (g.removeNode n).value.1
  | .setPosition n position => .flag (g.setPosition n position).1
  | .setData n data => .dropped (g.setData n data).value.1
  | .invalidate n => .dropped (g.invalidate n).value.1
  | .connect a b => .connected (g.connect a b).value.1
  | .tryConnect a b => .flag (g.tryConnect a b).value.1
  | .disconnect c => .flag (g.disconnect c).1

/-- What an editor is told in a run of edits. -/
def replies (g : Graph) : List Edit → List EditReply
  | [] => []
  | e :: es => g.reply e :: (g.edit e).replies es

/-- The edits of a run that are not refused. -/
def accepted (g : Graph) : List Edit → List Edit
  | [] => []
  | e :: es =>
    if (g.reply e).isRefusal then (g.edit e).accepted es else e :: (g.edit e).accepted es

/-! ### One edit -/

/-- A connection that was refused did not make room for itself first. -/
theorem connect_of_error {g : Graph} {a b : PortRef} {e : ConnectError}
    (h : (g.connect a b).value.1 = .error e) : (g.connect a b).value.2 = g := by
  rcases g.connect_cases a b with ⟨e', he⟩ | ⟨source, sink, -, -, -, hok⟩
  · rw [he]
  · rw [hok] at h
    cases h

theorem invalidate_of_none {g : Graph} {n : NodeId} (h : (g.invalidate n).value.1 = none) :
    g.node? n = none ∧ (g.invalidate n).value.2 = g := by
  cases hn : g.node? n with
  | none => exact ⟨rfl, by rw [invalidate_missing hn]⟩
  | some node =>
    rw [invalidate_found hn] at h
    cases h

/-- New data are stored before the ports are derived, but a node that does not exist has no place to
store them. -/
theorem setData_of_none {g : Graph} {n : NodeId} {data : Json}
    (h : (g.setData n data).value.1 = none) : (g.setData n data).value.2 = g := by
  obtain ⟨hnone, hsame⟩ := invalidate_of_none h
  rw [node?_updateNode g n n (fun node => { node with data }) fun _ => rfl, if_pos rfl,
    Option.map_eq_none_iff] at hnone
  exact hsame.trans (updateNode_missing hnone _)

/-- **One refused edit** leaves the graph as it was. -/
theorem edit_of_refused {g : Graph} {e : Edit} (h : (g.reply e).isRefusal = true) :
    g.edit e = g := by
  cases e with
  | addNode behavior position data => cases h
  | removeNode n =>
    cases hn : g.node? n with
    | none =>
      show (g.removeNode n).value.2 = g
      rw [removeNode_missing hn]
    | some node =>
      rw [reply, removeNode_value hn] at h
      cases h
  | setPosition n position =>
    show (g.setPosition n position).2 = g
    cases hn : g.node? n with
    | none => simp only [setPosition, hn]
    | some node =>
      simp only [reply, setPosition, hn] at h
      cases h
  | setData n data => exact setData_of_none (Option.isNone_iff_eq_none.1 h)
  | invalidate n => exact (invalidate_of_none (Option.isNone_iff_eq_none.1 h)).2
  | connect a b =>
    show (g.connect a b).value.2 = g
    cases hr : (g.connect a b).value.1 with
    | error e => exact connect_of_error hr
    | ok id =>
      rw [reply, hr] at h
      cases h
  | tryConnect a b =>
    show (g.connect a b).value.2 = g
    have hflag : (g.reply (.tryConnect a b)).isRefusal
        = !(g.connect a b).value.1.toOption.isSome := rfl
    cases hr : (g.connect a b).value.1 with
    | error e => exact connect_of_error hr
    | ok id =>
      rw [hflag, hr] at h
      cases h
  | disconnect c =>
    cases hx : g.connection? c with
    | none =>
      show (g.disconnect c).2 = g
      rw [disconnect_missing hx]
    | some x =>
      rw [reply, disconnect_value hx] at h
      cases h

/-! ### Runs of edits -/

theorem foldl_accepted (g : Graph) (es : List Edit) :
    (g.accepted es).foldl edit g = es.foldl edit g := by
  induction es generalizing g with
  | nil => rfl
  | cons e es ih =>
    rw [accepted, List.foldl_cons, ← ih (g.edit e)]
    split
    · next h => rw [edit_of_refused h]
    · rfl

theorem replies_accepted (g : Graph) (es : List Edit) :
    g.replies (g.accepted es) = (g.replies es).filter fun r => !r.isRefusal := by
  induction es generalizing g with
  | nil => rfl
  | cons e es ih =>
    rw [accepted, replies]
    cases h : (g.reply e).isRefusal with
    | true =>
      rw [if_pos rfl, List.filter_cons_of_neg (by simp [h]), ← ih (g.edit e), edit_of_refused h]
    | false =>
      rw [if_neg Bool.false_ne_true, List.filter_cons_of_pos (by simp [h]), ← ih (g.edit e)]
      rfl

/-- **Refusals leave no trace.** Whatever edit is refused, and for whatever reason, the whole graph
is the one before: nodes, connections in their order, and the counters that the next ids are taken
from. So a run of edits comes to the same graph, and gets the same replies, as if those that it was
refused had never been asked for. -/
theorem refusals_leave_no_trace (g : Graph) (es : List Edit) :
    (∀ e, (g.reply e).isRefusal = true → g.edit e = g) ∧
      (g.accepted es).foldl edit g = es.foldl edit g ∧
      g.replies (g.accepted es) = (g.replies es).filter fun r => !r.isRefusal :=
  ⟨fun _ h => edit_of_refused h, g.foldl_accepted es, g.replies_accepted es⟩

end

/-- Two constants, a text and a sum whose first input is fed by the first constant. -/
def fed : Graph :=
  [ .addNode Behavior.constantInt.id .origin .null
  , .addNode Behavior.constantText.id .origin .null
  , .addNode Behavior.addInt.id .origin .null
  , .addNode Behavior.startEvent.id .origin .null
  , .connect ⟨⟨1⟩, ⟨0⟩⟩ ⟨⟨3⟩, ⟨0⟩⟩ ].foldl edit (.empty .builtin)

/-- Edits that this graph refuses. Those in the middle are connections that fail in each of the ways
there are, most of them at the input that is fed, given in one order and in the other. -/
def refused : List Edit :=
  [ .removeNode ⟨9⟩
  , .setPosition ⟨9⟩ .origin
  , .setData ⟨9⟩ (.int 1)
  , .invalidate ⟨0⟩
  , .connect ⟨⟨3⟩, ⟨2⟩⟩ ⟨⟨3⟩, ⟨0⟩⟩
  , .connect ⟨⟨9⟩, ⟨0⟩⟩ ⟨⟨3⟩, ⟨0⟩⟩
  , .connect ⟨⟨3⟩, ⟨0⟩⟩ ⟨⟨1⟩, ⟨7⟩⟩
  , .connect ⟨⟨4⟩, ⟨0⟩⟩ ⟨⟨3⟩, ⟨0⟩⟩
  , .connect ⟨⟨3⟩, ⟨0⟩⟩ ⟨⟨2⟩, ⟨0⟩⟩
  , .connect ⟨⟨3⟩, ⟨0⟩⟩ ⟨⟨1⟩, ⟨0⟩⟩
  , .tryConnect ⟨⟨2⟩, ⟨0⟩⟩ ⟨⟨3⟩, ⟨0⟩⟩
  , .disconnect ⟨2⟩ ]

theorem refusals_leave_no_trace_fed :
    (∀ e ∈ refused, (fed.reply e).isRefusal = true) ∧ (∀ e ∈ refused, fed.edit e = fed) ∧
      fed.connections = [⟨⟨1⟩, ⟨⟨1⟩, ⟨0⟩⟩, ⟨⟨3⟩, ⟨0⟩⟩⟩] ∧ fed.nextConnectionId = 2 := by
  have hrefused : ∀ e ∈ refused, (fed.reply e).isRefusal = true := by decide +kernel
  refine ⟨hrefused, fun e he => ?_, by decide +kernel, by decide +kernel⟩
  exact (refusals_leave_no_trace fed refused).1 e (hrefused e he)

end Graph

end FlowGraph
