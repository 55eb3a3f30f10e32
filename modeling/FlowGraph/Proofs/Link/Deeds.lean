import FlowGraph.Proofs.Link.Acceptance

/-!
# What the calls of a builder have done

A run of a builder of link tables is told by what its accepted calls have done: nodes added, headers
reserved, entries filled in. The cursor, the last header, the index of spans and the count of what
is missing all follow from that, call by call.

* `LinkTableBuilder.Deed`, `done` — what the accepted calls of a run have done.
* `LinkTableBuilder.accepted_alone` — refused calls leave no trace.
* `LinkTableBuilder.Keeps` — how a builder stands for the deeds; `Keeps.step`, `Keeps.run`.
* `LinkTableBuilder.Keeps.waiting_iff` — which places wait for an entry.
-/

namespace FlowGraph.LinkTableBuilder

/-! ### Deeds -/

namespace Call

/-- The node that a call adds. -/
def node? : Call → Option PackedAddress
  | pushNode a => some a
  | _ => none

/-- The header that a call reserves. -/
def header? : Call → Option LinkRecord
  | reserve a port kind count => some ⟨a, port, kind, count⟩
  | _ => none

/-- The entry that a call fills in, with its place. -/
def write? : Call → Option (Nat × LinkEntry)
  | write i e => some (i, e)
  | _ => none

end Call

/-- What an accepted call does. -/
inductive Deed
  | node (a : PackedAddress)
  /-- A header, with the place that was answered for its first entry. -/
  | header (first : Nat) (header : LinkRecord)
  | entry (i : Nat) (e : LinkEntry)

namespace Deed

/-- The call that does it. -/
def call : Deed → Call
  | node a => .pushNode a
  | header _ r => .reserve r.address r.port r.kind r.count
  | entry i e => .write i e

/-- The header that was reserved, with the place of its first entry. -/
def reservation? : Deed → Option (Nat × LinkRecord)
  | header first r => some (first, r)
  | _ => none

/-- The nodes in the order in which they were added. -/
def nodes (ds : List Deed) : List PackedAddress := ds.filterMap (·.call.node?)

/-- The headers in the order in which they were reserved, with the places of their first entries. -/
def reservations (ds : List Deed) : List (Nat × LinkRecord) := ds.filterMap reservation?

/-- The headers in the order in which they were reserved. -/
def headers (ds : List Deed) : List LinkRecord := (reservations ds).map Prod.snd

/-- The entries in the order in which they were filled in, with their places. -/
def entries (ds : List Deed) : List (Nat × LinkEntry) := ds.filterMap (·.call.write?)

/-- The entries that were filled in at a place. -/
def entriesAt (ds : List Deed) (i : Nat) : List LinkEntry :=
  ((entries ds).filter fun w => w.1 = i).map Prod.snd

end Deed

/-- What a call does if it is accepted. -/
def deed (b : LinkTableBuilder) : Call → Except LinkTableError Deed
  | .pushNode a => (b.pushNode a).map fun _ => .node a
  | .reserve a port kind count =>
      (b.reserve a port kind count).map fun x => .header x.1 ⟨a, port, kind, count⟩
  | .write i e => (b.write i e).map fun _ => .entry i e

/-- What the accepted ones among some calls do, one after the other. -/
def deeds (b : LinkTableBuilder) : List Call → List Deed
  | [] => []
  | call :: calls => (b.deed call).toOption.toList ++ (b.attempt call).deeds calls

/-- The builder after some calls. -/
def after (nodes records : Nat) (calls : List Call) : LinkTableBuilder :=
  calls.foldl attempt (withCapacity nodes records)

/-- What the accepted ones among some calls have done. -/
def done (nodes records : Nat) (calls : List Call) : List Deed :=
  (withCapacity nodes records).deeds calls

/-- Whether a place is that of an entry of a header with its first entry at the place given. -/
def Covers (r : Nat × LinkRecord) (i : Nat) : Prop := r.1 ≤ i ∧ i < r.1 + r.2.count.toNat

/-! ### One call -/

/-- How a builder takes a call. -/
inductive Does (b : LinkTableBuilder) : Call → Deed → LinkTableBuilder → Prop
  | node {a c} (h : b.pushNode a = .ok c) : Does b (.pushNode a) (.node a) c
  | header {a port kind count first c} (h : b.reserve a port kind count = .ok (first, c)) :
      Does b (.reserve a port kind count) (.header first ⟨a, port, kind, count⟩) c
  | entry {i e c} (h : b.write i e = .ok c) : Does b (.write i e) (.entry i e) c

/-- A call is refused and changes nothing, or it is accepted. -/
theorem deed_cases (b : LinkTableBuilder) (call : Call) :
    (∃ e, b.deed call = .error e ∧ b.attempt call = b) ∨
      ∃ d, b.deed call = .ok d ∧ Does b call d (b.attempt call) := by
  cases call with
  | pushNode a =>
      simp only [deed, attempt]
      cases hc : b.pushNode a with
      | error e => exact .inl ⟨e, rfl, rfl⟩
      | ok c => exact .inr ⟨_, rfl, .node hc⟩
  | reserve a port kind count =>
      simp only [deed, attempt]
      cases hc : b.reserve a port kind count with
      | error e => exact .inl ⟨e, rfl, rfl⟩
      | ok x => exact .inr ⟨_, rfl, .header hc⟩
  | write i e =>
      simp only [deed, attempt]
      cases hc : b.write i e with
      | error e => exact .inl ⟨e, rfl, rfl⟩
      | ok c => exact .inr ⟨_, rfl, .entry hc⟩

theorem does_of_deed {b : LinkTableBuilder} {call : Call} {d : Deed} (h : b.deed call = .ok d) :
    Does b call d (b.attempt call) := by
  rcases b.deed_cases call with ⟨e, he, -⟩ | ⟨x, hx, hdoes⟩
  · rw [h] at he
    cases he
  · rw [h, Except.ok.injEq] at hx
    exact hx ▸ hdoes

/-- A refused call leaves the builder as it was. -/
theorem attempt_of_error {b : LinkTableBuilder} {call : Call} {e : LinkTableError}
    (h : b.deed call = .error e) : b.attempt call = b := by
  rcases b.deed_cases call with ⟨-, -, hsame⟩ | ⟨d, hd, -⟩
  · exact hsame
  · rw [h] at hd
    cases hd

theorem Does.deed_eq {b c : LinkTableBuilder} {call : Call} {d : Deed} (h : Does b call d c) :
    b.deed call = .ok d := by
  cases h with
  | node h => simp only [deed, h, Except.map]
  | header h => simp only [deed, h, Except.map]
  | entry h => simp only [deed, h, Except.map]

theorem Does.call_eq {b c : LinkTableBuilder} {call : Call} {d : Deed} (h : Does b call d c) :
    d.call = call := by
  cases h <;> rfl

theorem deeds_append (b : LinkTableBuilder) (calls more : List Call) :
    b.deeds (calls ++ more) = b.deeds calls ++ (calls.foldl attempt b).deeds more := by
  induction calls generalizing b with
  | nil => rfl
  | cons call calls ih =>
      rw [List.cons_append, deeds, deeds, ih, List.append_assoc, List.foldl_cons]

/-- A run is as if its refused calls had not been made. -/
theorem accepted_alone (calls : List Call) (b : LinkTableBuilder) :
    b.deeds ((b.deeds calls).map Deed.call) = b.deeds calls ∧
      ((b.deeds calls).map Deed.call).foldl attempt b = calls.foldl attempt b := by
  induction calls generalizing b with
  | nil => exact ⟨rfl, rfl⟩
  | cons call calls ih =>
      obtain ⟨hdeeds, hafter⟩ := ih (b.attempt call)
      cases hd : b.deed call with
      | error e =>
          have hsame := attempt_of_error hd
          rw [hsame] at hdeeds hafter
          simp only [deeds, hd, hsame, List.foldl_cons, Except.toOption, Option.toList_none,
            List.nil_append]
          exact ⟨hdeeds, hafter⟩
      | ok d =>
          have hcall := (does_of_deed hd).call_eq
          simp only [deeds, hd, Except.toOption, Option.toList_some, List.singleton_append,
            List.map_cons, List.foldl_cons, hcall, hdeeds, hafter, and_self]

/-! ### How a builder stands for the deeds -/

namespace Deed

/-- The record at a place that was reserved. -/
def recordAt (ds : List Deed) (i : Nat) : LinkRecord :=
  match entriesAt ds i with
  | [] => .unwritten
  | e :: _ => .ofEntry e

/-- The block of a header as far as it has been filled. -/
def block (ds : List Deed) (r : Nat × LinkRecord) : LinkBlock :=
  ⟨r.2, (List.range r.2.count.toNat).map fun k => recordAt ds (r.1 + k)⟩

/-- The blocks as far as they have been filled. -/
def blocks (ds : List Deed) : List LinkBlock := (reservations ds).map (block ds)

/-- The index of the headers. -/
def index (ds : List Deed) : Table PackedAddress NodeSpan :=
  (reservations ds).foldl (fun spans r =>
    extendSpan spans r.2.address (r.1 - 1) (r.1 + r.2.count.toNat)) .empty

variable (ds es : List Deed)

theorem nodes_append : nodes (ds ++ es) = nodes ds ++ nodes es := List.filterMap_append

theorem reservations_append : reservations (ds ++ es) = reservations ds ++ reservations es :=
  List.filterMap_append

theorem entries_append : entries (ds ++ es) = entries ds ++ entries es := List.filterMap_append

theorem entriesAt_append (i : Nat) :
    entriesAt (ds ++ es) i = entriesAt ds i ++ entriesAt es i := by
  rw [entriesAt, entries_append, List.filter_append, List.map_append, entriesAt, entriesAt]

@[simp] theorem nodes_node (a : PackedAddress) : nodes (ds ++ [node a]) = nodes ds ++ [a] :=
  nodes_append ds _

@[simp] theorem reservations_node (a : PackedAddress) :
    reservations (ds ++ [node a]) = reservations ds :=
  (reservations_append ds _).trans (List.append_nil _)

@[simp] theorem headers_node (a : PackedAddress) : headers (ds ++ [node a]) = headers ds := by
  rw [headers, reservations_node, headers]

@[simp] theorem entries_node (a : PackedAddress) : entries (ds ++ [node a]) = entries ds :=
  (entries_append ds _).trans (List.append_nil _)

@[simp] theorem nodes_header (first : Nat) (r : LinkRecord) :
    nodes (ds ++ [header first r]) = nodes ds :=
  (nodes_append ds _).trans (List.append_nil _)

@[simp] theorem reservations_header (first : Nat) (r : LinkRecord) :
    reservations (ds ++ [header first r]) = reservations ds ++ [(first, r)] :=
  reservations_append ds _

@[simp] theorem headers_header (first : Nat) (r : LinkRecord) :
    headers (ds ++ [header first r]) = headers ds ++ [r] := by
  rw [headers, reservations_header, List.map_append, headers, List.map_singleton]

@[simp] theorem entries_header (first : Nat) (r : LinkRecord) :
    entries (ds ++ [header first r]) = entries ds :=
  (entries_append ds _).trans (List.append_nil _)

@[simp] theorem nodes_entry (i : Nat) (e : LinkEntry) : nodes (ds ++ [entry i e]) = nodes ds :=
  (nodes_append ds _).trans (List.append_nil _)

@[simp] theorem reservations_entry (i : Nat) (e : LinkEntry) :
    reservations (ds ++ [entry i e]) = reservations ds :=
  (reservations_append ds _).trans (List.append_nil _)

@[simp] theorem headers_entry (i : Nat) (e : LinkEntry) :
    headers (ds ++ [entry i e]) = headers ds := by
  rw [headers, reservations_entry, headers]

@[simp] theorem entries_entry (i : Nat) (e : LinkEntry) :
    entries (ds ++ [entry i e]) = entries ds ++ [(i, e)] :=
  entries_append ds _

/-- A header extends the span of its address. -/
theorem index_header (i : Nat) (r : LinkRecord) :
    index (ds ++ [header (i + 1) r]) = extendSpan (index ds) r.address i (i + r.blockLength) := by
  rw [index, reservations_header, List.foldl_append, List.foldl_cons, List.foldl_nil, ← index,
    Nat.add_sub_cancel, LinkRecord.blockLength, Nat.add_assoc, Nat.add_comm 1]

theorem headers_blocks : (blocks ds).map LinkBlock.header = headers ds := by
  rw [blocks, List.map_map, headers]
  rfl

theorem length_entries_block (r : Nat × LinkRecord) :
    (block ds r).entries.length = r.2.count.toNat := by
  rw [block, List.length_map, List.length_range]

theorem getElem?_block {r : Nat × LinkRecord} {k : Nat} (hk : k < r.2.count.toNat) :
    (block ds r).entries[k]? = some (recordAt ds (r.1 + k)) := by
  simp only [block, List.getElem?_map, List.getElem?_range hk, Option.map_some]

theorem entriesAt_eq_nil_iff (i : Nat) : entriesAt ds i = [] ↔ ∀ w ∈ entries ds, w.1 ≠ i := by
  rw [entriesAt, List.map_eq_nil_iff, List.filter_eq_nil_iff]
  simp only [decide_eq_true_eq, ne_eq]

theorem mem_entriesAt_iff (i : Nat) (e : LinkEntry) : e ∈ entriesAt ds i ↔ (i, e) ∈ entries ds := by
  rw [entriesAt, List.mem_map]
  constructor
  · rintro ⟨⟨j, x⟩, hw, rfl⟩
    obtain ⟨hmem, hj⟩ := List.mem_filter.1 hw
    rwa [← of_decide_eq_true hj]
  · exact fun hw => ⟨(i, e), List.mem_filter.2 ⟨hw, decide_eq_true rfl⟩, rfl⟩

/-- The blocks are told by the reservations and by what lies at the places that they cover. -/
theorem blocks_congr {ds es : List Deed} (hr : reservations es = reservations ds)
    (he : ∀ r ∈ reservations ds, ∀ i, Covers r i → recordAt es i = recordAt ds i) :
    blocks es = blocks ds := by
  rw [blocks, blocks, hr]
  refine List.map_congr_left fun r hmem => ?_
  rw [block, block]
  congr 1
  refine List.map_congr_left fun k hk => he r hmem _ ?_
  rw [List.mem_range] at hk
  exact ⟨Nat.le_add_right _ _, by omega⟩

theorem recordAt_of_entries {ds es : List Deed} (h : entries es = entries ds) (i : Nat) :
    recordAt es i = recordAt ds i := by
  rw [recordAt, recordAt, entriesAt, entriesAt, h]

theorem entriesAt_entry (i j : Nat) (e : LinkEntry) :
    entriesAt [entry i e] j = if i = j then [e] else [] := by
  by_cases hij : i = j <;> simp [entriesAt, entries, call, Call.write?, hij]

/-- Elsewhere, an entry changes nothing. -/
theorem recordAt_entry_of_ne {i j : Nat} (hij : i ≠ j) (e : LinkEntry) :
    recordAt (ds ++ [entry i e]) j = recordAt ds j := by
  rw [recordAt, recordAt, entriesAt_append, entriesAt_entry, if_neg hij, List.append_nil]

/-- An entry fills its place in the block that waits for it. -/
theorem block_entry {r : Nat × LinkRecord} {i : Nat} (hi : Covers r i)
    (hfree : ∀ w ∈ entries ds, w.1 ≠ i) (e : LinkEntry) :
    block (ds ++ [entry i e]) r = (block ds r).fill (i - r.1) (.ofEntry e) := by
  obtain ⟨hle, hlt⟩ := hi
  rw [LinkBlock.fill, block, block]
  congr 1
  refine List.ext_getElem? fun k => ?_
  rw [List.getElem?_set, List.getElem?_map, List.getElem?_map, List.length_map, List.length_range]
  by_cases hk : k < r.2.count.toNat
  · rw [List.getElem?_range hk, Option.map_some, Option.map_some]
    split
    · next hsame =>
      have hplace : r.1 + k = i := by omega
      rw [if_pos (by omega), hplace, recordAt, entriesAt_append, entriesAt_entry, if_pos rfl,
        (entriesAt_eq_nil_iff ds i).2 hfree, List.nil_append]
    · next hother => rw [recordAt_entry_of_ne ds (by omega)]
  · rw [List.getElem?_eq_none (by rw [List.length_range]; omega), if_neg (by omega)]
    rfl

end Deed

/-- **The invariant of a run.** The builder has laid down the blocks that were asked for, one behind
the other, each entry at its place. -/
structure Keeps (nodes records : Nat) (ds : List Deed) (b : LinkTableBuilder) : Prop where
  order : b.nodes = Deed.nodes ds
  capacity : b.nodeCapacity = nodes
  fits : (Deed.nodes ds).length ≤ nodes
  room : b.records.length = records
  lays : b.Lays (Deed.blocks ds)
  inPlace : Deed.reservations ds = placed 1 (Deed.headers ds)
  valid : ∀ w ∈ Deed.entries ds, w.2.address.isValid = true
  inside : ∀ w ∈ Deed.entries ds, ∃ r ∈ Deed.reservations ds, Covers r w.1
  distinct : ((Deed.entries ds).map Prod.fst).Nodup
  spans : b.spans = Deed.index ds

theorem keeps_withCapacity (nodes records : Nat) :
    Keeps nodes records [] (withCapacity nodes records) where
  order := rfl
  capacity := rfl
  fits := Nat.zero_le _
  room := List.length_replicate
  lays := lays_withCapacity nodes records
  inPlace := rfl
  valid := by simp [Deed.entries]
  inside := by simp [Deed.entries]
  distinct := List.nodup_nil
  spans := rfl

namespace Keeps

variable {nodes records : Nat} {ds : List Deed} {b c : LinkTableBuilder}

/-! #### Where things lie -/

theorem cursor_eq (h : Keeps nodes records ds b) : b.cursor = extent (Deed.headers ds) := by
  rw [h.lays.cursor, Deed.headers_blocks]

/-- A reservation lies behind those made before it. -/
theorem first_eq (h : Keeps nodes records ds b) {pre post : List (Nat × LinkRecord)}
    {r : Nat × LinkRecord} (hsplit : Deed.reservations ds = pre ++ r :: post) :
    r.1 = extent (pre.map Prod.snd) + 1 := by
  have hplaced := h.inPlace
  rw [Deed.headers, hsplit, List.map_append, List.map_cons, placed_append, placed] at hplaced
  have hlength : pre.length = (placed 1 (pre.map Prod.snd)).length := by
    have hsnd := congrArg List.length (map_snd_placed 1 (pre.map Prod.snd))
    rw [List.length_map, List.length_map] at hsnd
    exact hsnd.symm
  have hcons := (List.append_inj hplaced hlength).2
  rw [List.cons.injEq] at hcons
  rw [Nat.add_comm]
  exact congrArg Prod.fst hcons.1

/-- Each block is that of a reservation. -/
theorem exists_reservation (h : Keeps nodes records ds b) {pre post : List LinkBlock}
    {x : LinkBlock} (hsplit : Deed.blocks ds = pre ++ x :: post) :
    ∃ r ∈ Deed.reservations ds, x = Deed.block ds r ∧ r.1 = (LinkBlock.flatten pre).length + 1 := by
  have hfull := h.lays.full
  rw [hsplit] at hfull
  obtain ⟨rpre, rest, hrs, rfl, hrest⟩ := List.map_eq_append_iff.1 hsplit
  obtain ⟨r, rpost, rfl, rfl, -⟩ := List.map_eq_cons_iff.1 hrest
  refine ⟨r, by simp [hrs], rfl, ?_⟩
  rw [h.first_eq hrs, LinkBlock.length_flatten fun y hy => hfull y (List.mem_append_left _ hy),
    List.map_map]
  rfl

/-- Each reservation has its block. -/
theorem block_of_reservation (h : Keeps nodes records ds b) {rpre rpost : List (Nat × LinkRecord)}
    {r : Nat × LinkRecord} (hsplit : Deed.reservations ds = rpre ++ r :: rpost) :
    b.Lays (rpre.map (Deed.block ds) ++ Deed.block ds r :: rpost.map (Deed.block ds)) ∧
      r.1 = (LinkBlock.flatten (rpre.map (Deed.block ds))).length + 1 := by
  have hlays := h.lays
  rw [Deed.blocks, hsplit, List.map_append, List.map_cons] at hlays
  refine ⟨hlays, ?_⟩
  rw [h.first_eq hsplit,
    LinkBlock.length_flatten fun y hy => hlays.full y (List.mem_append_left _ hy), List.map_map]
  rfl

/-- A place that was reserved holds the record that was filled in there. -/
theorem getElem?_of_covers (h : Keeps nodes records ds b) {r : Nat × LinkRecord}
    (hr : r ∈ Deed.reservations ds) {i : Nat} (hi : Covers r i) :
    i < b.cursor ∧ b.records[i]? = some (Deed.recordAt ds i) := by
  obtain ⟨rpre, rpost, hsplit⟩ := List.append_of_mem hr
  obtain ⟨hlays, hfirst⟩ := h.block_of_reservation hsplit
  obtain ⟨hle, hlt⟩ := hi
  have hk : i - r.1 < r.2.count.toNat := by omega
  have hk' : i - r.1 < (Deed.block ds r).entries.length := by rwa [Deed.length_entries_block]
  have hplace : (LinkBlock.flatten (rpre.map (Deed.block ds))).length + 1 + (i - r.1) = i := by
    omega
  have hcursor := hlays.entry_lt_cursor hk'
  have hget := hlays.getElem?_entry hk'
  rw [hplace] at hcursor hget
  rw [Deed.getElem?_block ds hk, Nat.add_sub_cancel' hle] at hget
  exact ⟨hcursor, hget⟩

theorem recordAt_eq_unwritten_iff (h : Keeps nodes records ds b) (i : Nat) :
    Deed.recordAt ds i = .unwritten ↔ ∀ w ∈ Deed.entries ds, w.1 ≠ i := by
  rw [← Deed.entriesAt_eq_nil_iff, Deed.recordAt]
  cases he : Deed.entriesAt ds i with
  | nil => simp
  | cons e es =>
      have hmem : (i, e) ∈ Deed.entries ds := (Deed.mem_entriesAt_iff ds i e).1 (by simp [he])
      have hvalid : e.address.isValid = true := h.valid (i, e) hmem
      have hne : LinkRecord.ofEntry e ≠ .unwritten := ne_unwritten_of_valid (r := .ofEntry e) hvalid
      simp [hne]

/-- **Waiting places.** The unwritten record marks exactly the entries that were reserved and not
filled: a header or an entry never looks like it. -/
theorem waiting_iff (h : Keeps nodes records ds b) (i : Nat) :
    (i < b.cursor ∧ b.records[i]? = some .unwritten) ↔
      (∃ r ∈ Deed.reservations ds, Covers r i) ∧ ∀ w ∈ Deed.entries ds, w.1 ≠ i := by
  rw [← h.recordAt_eq_unwritten_iff]
  constructor
  · rintro ⟨hlt, hget⟩
    rw [h.lays.cursor, ← LinkBlock.length_flatten h.lays.full] at hlt
    obtain ⟨pre, x, post, hsplit, hplace⟩ := LinkBlock.place_cases _ i hlt
    have hlays := h.lays
    rw [hsplit] at hlays
    obtain ⟨r, hr, rfl, hfirst⟩ := h.exists_reservation hsplit
    rcases hplace with rfl | ⟨k, hk, rfl⟩
    · have hvalid := (hlays.full (Deed.block ds r) (by simp)).valid
      rw [hlays.getElem?_header] at hget
      exact absurd (Option.some.inj hget) (ne_unwritten_of_valid hvalid)
    · rw [Deed.length_entries_block] at hk
      have hcovers : Covers r ((LinkBlock.flatten pre).length + 1 + k) := ⟨by omega, by omega⟩
      rw [(h.getElem?_of_covers hr hcovers).2] at hget
      exact ⟨⟨r, hr, hcovers⟩, Option.some.inj hget⟩
  · rintro ⟨⟨r, hr, hcovers⟩, hrecord⟩
    rw [← hrecord]
    exact h.getElem?_of_covers hr hcovers

/-- Reservations do not overlap. -/
theorem apart (h : Keeps nodes records ds b) {pre post : List (Nat × LinkRecord)}
    {r : Nat × LinkRecord} (hsplit : Deed.reservations ds = pre ++ r :: post) :
    (∀ x ∈ pre, x.1 + x.2.count.toNat < r.1) ∧ ∀ x ∈ post, r.1 + r.2.count.toNat < x.1 := by
  have hpair := placed_pairwise 1 (Deed.headers ds)
  rw [← h.inPlace, hsplit, List.pairwise_append, List.pairwise_cons] at hpair
  obtain ⟨-, ⟨hpost, -⟩, hpre⟩ := hpair
  exact ⟨fun x hx => hpre x hx r (by simp), fun x hx => hpost x hx⟩

/-- What was filled in lies before the cursor. -/
theorem entry_lt_cursor (h : Keeps nodes records ds b) {w : Nat × LinkEntry}
    (hw : w ∈ Deed.entries ds) : w.1 < b.cursor := by
  obtain ⟨r, hr, hcovers⟩ := h.inside w hw
  exact (h.getElem?_of_covers hr hcovers).1

/-! #### Steps -/

theorem node (h : Keeps nodes records ds b) {a : PackedAddress} (hc : b.pushNode a = .ok c) :
    Keeps nodes records (ds ++ [.node a]) c := by
  have hlays := h.lays.pushNode hc
  have hfits := h.fits
  obtain ⟨-, hroom, rfl⟩ := (b.pushNode_ok_iff c a).1 hc
  rw [h.order, h.capacity] at hroom
  exact
    { order := by rw [Deed.nodes_node, h.order]
      capacity := h.capacity
      fits := by
        rw [Deed.nodes_node, List.length_append, List.length_singleton]
        omega
      room := h.room
      lays := by
        rwa [Deed.blocks_congr (Deed.reservations_node ds a) fun _ _ i _ =>
          Deed.recordAt_of_entries (Deed.entries_node ds a) i]
      inPlace := by simpa using h.inPlace
      valid := by simpa using h.valid
      inside := by simpa using h.inside
      distinct := by simpa using h.distinct
      spans := by rw [Deed.index, Deed.reservations_node, h.spans, Deed.index] }

/-- A new header adds a block that waits for all its entries. -/
theorem blocks_header (h : Keeps nodes records ds b) (r : LinkRecord) :
    Deed.blocks (ds ++ [.header (b.cursor + 1) r]) = Deed.blocks ds ++ [reserved r] := by
  have hrecords : ∀ i, Deed.recordAt (ds ++ [.header (b.cursor + 1) r]) i = Deed.recordAt ds i :=
    Deed.recordAt_of_entries (Deed.entries_header ds _ r)
  have hblock : ∀ x, Deed.block (ds ++ [.header (b.cursor + 1) r]) x = Deed.block ds x := by
    intro x
    simp only [Deed.block, hrecords]
  rw [Deed.blocks, Deed.reservations_header, List.map_append, Deed.blocks, List.map_singleton]
  congr 1
  · exact List.map_congr_left fun x _ => hblock x
  · rw [hblock, Deed.block, reserved]
    congr 2
    refine List.eq_replicate_iff.2 ⟨by simp, fun x hx => ?_⟩
    obtain ⟨k, -, rfl⟩ := List.mem_map.1 hx
    refine (h.recordAt_eq_unwritten_iff _).2 fun w hw heq => ?_
    have hlt := h.entry_lt_cursor hw
    omega

theorem header (h : Keeps nodes records ds b) {a : PackedAddress} {port : PortIndex}
    {kind : PortKind} {count : UInt32} {first : Nat}
    (hc : b.reserve a port kind count = .ok (first, c)) :
    Keeps nodes records (ds ++ [.header first ⟨a, port, kind, count⟩]) c := by
  have hlays := h.lays.reserve hc
  obtain ⟨-, -, -, -, rfl, rfl⟩ := (b.reserve_ok_iff c a port kind count first).1 hc
  exact
    { order := by rw [Deed.nodes_header, h.order]
      capacity := h.capacity
      fits := by simpa using h.fits
      room := List.length_set.trans h.room
      lays := by rwa [h.blocks_header]
      inPlace := by
        rw [Deed.headers_header, Deed.reservations_header, placed_append, ← h.inPlace,
          ← h.cursor_eq, Nat.add_comm 1]
        rfl
      valid := by simpa using h.valid
      inside := by
        rw [Deed.entries_header, Deed.reservations_header]
        intro w hw
        obtain ⟨r, hr, hcovers⟩ := h.inside w hw
        exact ⟨r, List.mem_append_left _ hr, hcovers⟩
      distinct := by simpa using h.distinct
      spans := by
        rw [Deed.index_header, ← h.spans]
        rfl }

/-- An entry fills a place in one block and leaves the others as they are. -/
theorem blocks_entry (h : Keeps nodes records ds b) {i : Nat} {r : Nat × LinkRecord}
    {rpre rpost : List (Nat × LinkRecord)} (hsplit : Deed.reservations ds = rpre ++ r :: rpost)
    (hi : Covers r i) (hfree : ∀ w ∈ Deed.entries ds, w.1 ≠ i) (e : LinkEntry) :
    Deed.blocks (ds ++ [.entry i e]) = rpre.map (Deed.block ds)
      ++ (Deed.block ds r).fill (i - r.1) (.ofEntry e) :: rpost.map (Deed.block ds) := by
  obtain ⟨hpre, hpost⟩ := h.apart hsplit
  obtain ⟨hle, hlt⟩ := hi
  have hother : ∀ x : Nat × LinkRecord, ¬ Covers x i →
      Deed.block (ds ++ [.entry i e]) x = Deed.block ds x := by
    intro x hx
    rw [Deed.block, Deed.block]
    congr 1
    refine List.map_congr_left fun k hk => Deed.recordAt_entry_of_ne ds ?_ e
    rintro rfl
    rw [List.mem_range] at hk
    exact hx ⟨Nat.le_add_right _ _, by omega⟩
  rw [Deed.blocks, Deed.reservations_entry, hsplit, List.map_append, List.map_cons,
    Deed.block_entry ds ⟨hle, hlt⟩ hfree]
  congr 1
  · refine List.map_congr_left fun x hx => hother x fun hcovers => ?_
    have hbefore := hpre x hx
    obtain ⟨-, hlt'⟩ := hcovers
    omega
  · congr 1
    refine List.map_congr_left fun x hx => hother x fun hcovers => ?_
    have hbehind := hpost x hx
    obtain ⟨hle', -⟩ := hcovers
    omega

theorem entry (h : Keeps nodes records ds b) {i : Nat} {e : LinkEntry}
    (hc : b.write i e = .ok c) : Keeps nodes records (ds ++ [.entry i e]) c := by
  obtain ⟨hvalid, hlt, hget, hwritten⟩ := (b.write_ok_iff c i e).1 hc
  obtain ⟨⟨r, hr, hi⟩, hfree⟩ := (h.waiting_iff i).1 ⟨hlt, hget⟩
  obtain ⟨rpre, rpost, hsplit⟩ := List.append_of_mem hr
  obtain ⟨hlays, hfirst⟩ := h.block_of_reservation hsplit
  have hk : i - r.1 < r.2.count.toNat := by
    obtain ⟨hle, hlt⟩ := hi
    omega
  have hplace : (LinkBlock.flatten (rpre.map (Deed.block ds))).length + 1 + (i - r.1) = i := by
    obtain ⟨hle, -⟩ := hi
    omega
  have hwaits : (Deed.block ds r).entries[i - r.1]? = some .unwritten := by
    rw [Deed.getElem?_block ds hk, Nat.add_sub_cancel' hi.1,
      (h.recordAt_eq_unwritten_iff i).2 hfree]
  obtain ⟨d, hd, -, -, hfilled⟩ := hlays.write_at hwaits hvalid
  rw [hplace, hc, Except.ok.injEq] at hd
  subst hd
  rw [← h.blocks_entry hsplit hi hfree] at hfilled
  subst hwritten
  exact
    { order := by rw [Deed.nodes_entry, h.order]
      capacity := h.capacity
      fits := by simpa using h.fits
      room := List.length_set.trans h.room
      lays := hfilled
      inPlace := by simpa using h.inPlace
      valid := by
        rw [Deed.entries_entry]
        intro w hw
        rcases List.mem_append.1 hw with hw | hw
        · exact h.valid w hw
        · rw [List.mem_singleton.1 hw]
          exact hvalid
      inside := by
        rw [Deed.entries_entry, Deed.reservations_entry]
        intro w hw
        rcases List.mem_append.1 hw with hw | hw
        · exact h.inside w hw
        · rw [List.mem_singleton.1 hw]
          exact ⟨r, hr, hi⟩
      distinct := by
        rw [Deed.entries_entry, List.map_append, List.map_singleton]
        refine List.nodup_append.2 ⟨h.distinct, List.pairwise_singleton _ _, fun x hx y hy => ?_⟩
        obtain ⟨w, hw, rfl⟩ := List.mem_map.1 hx
        rw [List.mem_singleton.1 hy]
        exact hfree w hw
      spans := by rw [Deed.index, Deed.reservations_entry, h.spans, Deed.index] }

/-- **Step.** What an accepted call does is added to the deeds. -/
theorem step (h : Keeps nodes records ds b) (call : Call) :
    Keeps nodes records (ds ++ (b.deed call).toOption.toList) (b.attempt call) := by
  cases hd : b.deed call with
  | error e =>
      rw [attempt_of_error hd]
      simpa [Except.toOption] using h
  | ok d =>
      have hdoes := does_of_deed hd
      generalize b.attempt call = c at hdoes
      cases hdoes with
      | node hc => exact h.node hc
      | header hc => exact h.header hc
      | entry hc => exact h.entry hc

/-- **Run.** After any calls, the builder stands for what they have done. -/
theorem run (h : Keeps nodes records ds b) (calls : List Call) :
    Keeps nodes records (ds ++ b.deeds calls) (calls.foldl attempt b) := by
  induction calls generalizing ds b with
  | nil => simpa [deeds] using h
  | cons call calls ih =>
      rw [deeds, ← List.append_assoc, List.foldl_cons]
      exact ih (h.step call)

end Keeps

theorem keeps_after (nodes records : Nat) (calls : List Call) :
    Keeps nodes records (done nodes records calls) (after nodes records calls) :=
  (keeps_withCapacity nodes records).run calls

end FlowGraph.LinkTableBuilder
