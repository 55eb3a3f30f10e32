import FlowGraph.Proofs.Link.Protocol

/-!
# What a builder of link tables seals

A sealed table is told by the deeds of the run: the nodes that were added, and for each header that
was reserved the entries that were filled in behind it. In which order they were filled in, and
which calls were refused in between, cannot be seen in it.

* `LinkTableBuilder.Deed.table` — the table that the deeds ask for.
* `LinkTableBuilder.Rearranges`, `Timely` — the same calls with the entries filled in another order,
  each behind the header that it belongs to.
* `LinkTableBuilder.accepted_of_timely` — a rearranged run is accepted as a whole.
* `LinkTableBuilder.seals_as_asked` — all that can be said of a sealed table.
-/

namespace FlowGraph.LinkTableBuilder

/-! ### Calls in another order -/

/-- The accepted ones among some calls. -/
def accepted (nodes records : Nat) (calls : List Call) : List Call :=
  (done nodes records calls).map Deed.call

/-- The same calls, with those that fill in entries moved about. -/
structure Rearranges (calls calls' : List Call) : Prop where
  others : calls'.filter (·.write?.isNone) = calls.filter (·.write?.isNone)
  writes : (calls'.filterMap Call.write?).Perm (calls.filterMap Call.write?)

/-- Each entry is filled in when the header that it belongs to is among those reserved so far. The
reservations are those of all the calls. -/
def Timely (reservations : List (Nat × LinkRecord)) (calls : List Call) : Prop :=
  ∀ pre i e post, calls = pre ++ .write i e :: post →
    ∃ r ∈ reservations.take (pre.filterMap Call.header?).length, Covers r i

/-- What a sealed table owes to the calls. -/
structure SealsAsAsked (nodes records : Nat) (calls : List Call) (t : LinkTable) : Prop where
  order : t.nodes = Deed.nodes (done nodes records calls)
  /-- Each header is followed by what was filled in at its places, and the last one by nothing
  else. -/
  layout : t.records = (Deed.reservations (done nodes records calls)).flatMap fun r =>
    r.2 :: (List.range r.2.count.toNat).flatMap fun k =>
      (Deed.entriesAt (done nodes records calls) (r.1 + k)).map LinkRecord.ofEntry
  once : ∀ r ∈ Deed.reservations (done nodes records calls), ∀ i, Covers r i →
    ∃ e, Deed.entriesAt (done nodes records calls) i = [e]
  headerCount : t.headerCount = (Deed.reservations (done nodes records calls)).length
  linkCount : t.linkCount = ((Deed.headers (done nodes records calls)).map (·.count.toNat)).sum
  /-- Only the accepted calls matter, and not when an entry was filled in nor how much room there
  was. -/
  rearranged : ∀ nodes' records' calls',
    Rearranges (accepted nodes records calls) (accepted nodes' records' calls') →
      (after nodes' records' calls').finish.value = .ok t
  /-- The accepted calls may be made in another order if each entry comes behind its header. -/
  reordered : ∀ calls', Rearranges (accepted nodes records calls) calls' →
    Timely (Deed.reservations (done nodes records calls)) calls' →
      accepted nodes records calls' = calls' ∧ (after nodes records calls').finish.value = .ok t

/-! ### The calls tell the deeds -/

namespace Deed

theorem nodes_eq (ds : List Deed) : nodes ds = (ds.map call).filterMap Call.node? := by
  rw [nodes, List.filterMap_map]
  rfl

theorem entries_eq (ds : List Deed) : entries ds = (ds.map call).filterMap Call.write? := by
  rw [entries, List.filterMap_map]
  rfl

theorem headers_eq (ds : List Deed) : headers ds = (ds.map call).filterMap Call.header? := by
  rw [headers, reservations, List.map_filterMap, List.filterMap_map]
  congr 1
  funext d
  cases d <;> rfl

end Deed

/-- Nodes and headers are not moved. -/
theorem filterMap_of_others {β : Type} {f : Call → Option β} (hf : ∀ i e, f (.write i e) = none)
    {calls calls' : List Call}
    (h : calls'.filter (·.write?.isNone) = calls.filter (·.write?.isNone)) :
    calls'.filterMap f = calls.filterMap f := by
  have hskip : ∀ l : List Call, (l.filter (·.write?.isNone)).filterMap f = l.filterMap f := by
    intro l
    rw [List.filterMap_filter]
    congr 1
    funext call
    cases call with
    | write i e => exact (hf i e).symm
    | _ => rfl
  rw [← hskip calls, ← h, hskip]

/-- The same nodes are added. -/
theorem Deed.nodes_of_others {ds es : List Deed}
    (h : (es.map call).filter (·.write?.isNone) = (ds.map call).filter (·.write?.isNone)) :
    nodes es = nodes ds := by
  rw [nodes_eq, nodes_eq, filterMap_of_others (fun _ _ => rfl) h]

/-- The same headers are reserved. -/
theorem Deed.headers_of_others {ds es : List Deed}
    (h : (es.map call).filter (·.write?.isNone) = (ds.map call).filter (·.write?.isNone)) :
    headers es = headers ds := by
  rw [headers_eq, headers_eq, filterMap_of_others (fun _ _ => rfl) h]

/-! ### The table of a complete run -/

/-- The table that the deeds ask for. -/
def Deed.table (ds : List Deed) : LinkTable :=
  ⟨nodes ds, LinkBlock.flatten (blocks ds), index ds⟩

theorem length_blocks_flatten {bs : List LinkBlock} (hfull : ∀ x ∈ bs, x.Full) :
    (LinkTable.blocks (LinkBlock.flatten bs)).length = bs.length := by
  induction bs with
  | nil =>
      rw [LinkBlock.flatten, LinkTable.blocks]
      rfl
  | cons b bs ih =>
      have hrest : (b.entries ++ LinkBlock.flatten bs).drop b.header.count.toNat
          = LinkBlock.flatten bs := by
        rw [← (hfull b (by simp)).length, List.drop_left]
      rw [LinkBlock.flatten, LinkTable.blocks, List.length_cons, hrest,
        ih fun x hx => hfull x (by simp [hx]), List.length_cons]

/-- A walk over blocks meets their headers. -/
theorem headerCount_flatten {t : LinkTable} {bs : List LinkBlock} (hfull : ∀ x ∈ bs, x.Full)
    (hrecords : t.records = LinkBlock.flatten bs) : t.headerCount = bs.length := by
  rw [LinkTable.headerCount, hrecords, length_blocks_flatten hfull]

/-- What it does not meet are the entries. -/
theorem linkCount_flatten {t : LinkTable} {bs : List LinkBlock} (hfull : ∀ x ∈ bs, x.Full)
    (hrecords : t.records = LinkBlock.flatten bs) :
    t.linkCount = ((bs.map LinkBlock.header).map (·.count.toNat)).sum := by
  have hlength : (bs.map LinkBlock.header).length = bs.length := List.length_map _
  rw [LinkTable.linkCount, headerCount_flatten hfull hrecords, hrecords,
    LinkBlock.length_flatten hfull, extent_eq]
  omega

namespace Keeps

variable {nodes records nodes' records' : Nat} {ds es : List Deed} {b c : LinkTableBuilder}

/-- **Sealing.** A builder is sealed when its deeds are complete, and then to their table. -/
theorem finish_eq_ok_iff (h : Keeps nodes records ds b) {t : LinkTable} :
    b.finish.value = .ok t ↔ Complete ds ∧ t = Deed.table ds := by
  have htable : ∀ u, b.finish.value = .ok u → u = Deed.table ds := by
    intro u hu
    obtain ⟨hholds, hnodes⟩ := h.lays.finish hu
    have hspans : u.spans = b.spans := by
      unfold finish at hu
      split at hu
      · cases hu
      · cases hu
        rfl
    obtain ⟨unodes, urecords, uspans⟩ := u
    rw [Deed.table, ← h.order, ← h.spans, ← hholds.records, ← hnodes, ← hspans]
  constructor
  · exact fun ht => ⟨h.finish_ok_iff.1 ⟨t, ht⟩, htable t ht⟩
  · rintro ⟨hcomplete, rfl⟩
    obtain ⟨u, hu⟩ := h.finish_ok_iff.2 hcomplete
    rw [hu, htable u hu]

/-- Each place is filled in once. -/
theorem once (h : Keeps nodes records ds b) (hcomplete : Complete ds) {r : Nat × LinkRecord}
    (hr : r ∈ Deed.reservations ds) {i : Nat} (hi : Covers r i) :
    ∃ e, Deed.entriesAt ds i = [e] := by
  have hones : (Deed.entriesAt ds i).length ≤ 1 := by
    rw [Deed.entriesAt, List.length_map]
    refine length_filter_le_one ((List.pairwise_map.1 h.distinct).imp fun hne hboth => hne ?_)
    rw [of_decide_eq_true hboth.1, of_decide_eq_true hboth.2]
  obtain ⟨⟨j, e⟩, hw, rfl⟩ := hcomplete r hr i hi
  have hmem := (Deed.mem_entriesAt_iff ds j e).2 hw
  cases hes : Deed.entriesAt ds j with
  | nil =>
      rw [hes] at hmem
      cases hmem
  | cons x xs =>
      rw [hes, List.length_cons] at hones
      exact ⟨x, by rw [List.eq_nil_of_length_eq_zero (by omega : xs.length = 0)]⟩

theorem layout (h : Keeps nodes records ds b) (hcomplete : Complete ds) :
    (Deed.table ds).records = (Deed.reservations ds).flatMap fun r =>
      r.2 :: (List.range r.2.count.toNat).flatMap fun k =>
        (Deed.entriesAt ds (r.1 + k)).map LinkRecord.ofEntry := by
  have hblock : ∀ r ∈ Deed.reservations ds, (Deed.block ds r).entries
      = (List.range r.2.count.toNat).flatMap fun k =>
          (Deed.entriesAt ds (r.1 + k)).map LinkRecord.ofEntry := by
    intro r hr
    rw [Deed.block, List.map_eq_flatMap, List.flatMap_def, List.flatMap_def]
    refine congrArg List.flatten (List.map_congr_left fun k hk => ?_)
    rw [List.mem_range] at hk
    obtain ⟨e, he⟩ := h.once hcomplete hr (i := r.1 + k) ⟨Nat.le_add_right _ _, by omega⟩
    rw [Deed.recordAt, he]
    rfl
  rw [Deed.table, LinkBlock.flatten_eq_flatMap, Deed.blocks, List.flatMap_map, List.flatMap_def,
    List.flatMap_def]
  refine congrArg List.flatten (List.map_congr_left fun r hr => ?_)
  rw [← hblock r hr]
  rfl

theorem headerCount_table (h : Keeps nodes records ds b) :
    (Deed.table ds).headerCount = (Deed.reservations ds).length := by
  rw [headerCount_flatten h.lays.full rfl, Deed.blocks, List.length_map]

theorem linkCount_table (h : Keeps nodes records ds b) :
    (Deed.table ds).linkCount = ((Deed.headers ds).map (·.count.toNat)).sum := by
  rw [linkCount_flatten h.lays.full rfl, Deed.headers_blocks]

/-! ### Another order -/

/-- Deeds that are rearranged ask for the same table. -/
theorem rearranged (h : Keeps nodes records ds b) (h' : Keeps nodes' records' es c)
    (hcomplete : Complete ds) (hcalls : Rearranges (ds.map Deed.call) (es.map Deed.call)) :
    Complete es ∧ Deed.table es = Deed.table ds := by
  have hnodes := Deed.nodes_of_others hcalls.others
  have hreservations : Deed.reservations es = Deed.reservations ds := by
    rw [h.inPlace, h'.inPlace, Deed.headers_of_others hcalls.others]
  have hentries : (Deed.entries es).Perm (Deed.entries ds) := by
    rw [Deed.entries_eq, Deed.entries_eq]
    exact hcalls.writes
  refine ⟨fun r hr i hi => ?_, ?_⟩
  · rw [hreservations] at hr
    obtain ⟨w, hw, hplace⟩ := hcomplete r hr i hi
    exact ⟨w, hentries.mem_iff.2 hw, hplace⟩
  · have hblocks : Deed.blocks es = Deed.blocks ds := by
      refine Deed.blocks_congr hreservations fun r hr i hi => ?_
      obtain ⟨e, he⟩ := h.once hcomplete hr hi
      have hperm : (Deed.entriesAt es i).Perm (Deed.entriesAt ds i) :=
        (hentries.filter _).map _
      rw [he] at hperm
      rw [Deed.recordAt, Deed.recordAt, he, List.perm_singleton.1 hperm]
    rw [Deed.table, Deed.table, hnodes, hblocks, Deed.index, Deed.index, hreservations]

/-- What was done was permitted when it was done. -/
theorem permits_of_split (h : Keeps nodes records ds b) {calls : List Call} {pre post : List Deed}
    {d : Deed} (hsplit : b.deeds calls = pre ++ d :: post) :
    Permits nodes records (ds ++ pre) d.call := by
  induction calls generalizing ds b pre with
  | nil => simp [deeds] at hsplit
  | cons call calls ih =>
      have hstep := h.step call
      rw [deeds] at hsplit
      cases hd : b.deed call with
      | error e =>
          simp only [hd, Except.toOption, Option.toList_none, List.append_nil] at hstep
          simp only [hd, Except.toOption, Option.toList_none, List.nil_append] at hsplit
          exact ih hstep hsplit
      | ok x =>
          simp only [hd, Except.toOption, Option.toList_some] at hstep
          simp only [hd, Except.toOption, Option.toList_some, List.singleton_append] at hsplit
          cases pre with
          | nil =>
              rw [List.nil_append, List.cons.injEq] at hsplit
              rw [List.append_nil, ← hsplit.1, (does_of_deed hd).call_eq]
              exact (h.accepts_iff call).1 ⟨x, hd⟩
          | cons y pre =>
              rw [List.cons_append, List.cons.injEq] at hsplit
              obtain ⟨rfl, hrest⟩ := hsplit
              have hpermits := ih hstep hrest
              rwa [List.append_assoc, List.singleton_append] at hpermits

end Keeps

/-! ### A rearranged run is accepted -/

section Reordered

variable {nodes records : Nat} {calls pre post : List Call}

/-- An accepted call was permitted after the accepted calls before it. -/
theorem permits_of_accepted {call : Call}
    (hsplit : accepted nodes records calls = pre ++ call :: post) :
    ∃ ds, ds.map Deed.call = pre ∧ Permits nodes records ds call := by
  obtain ⟨ds, rest, hdone, rfl, hrest⟩ := List.map_eq_append_iff.1 hsplit
  obtain ⟨d, rest', rfl, rfl, -⟩ := List.map_eq_cons_iff.1 hrest
  exact ⟨ds, rfl, (keeps_withCapacity nodes records).permits_of_split hdone⟩

/-- Whether a node or a header may come next depends on the nodes and headers alone. -/
theorem permits_of_others {ds es : List Deed} {call : Call} (hcall : call.write?.isNone = true)
    (hnodes : Deed.nodes es = Deed.nodes ds) (hheaders : Deed.headers es = Deed.headers ds)
    (h : Permits nodes records ds call) : Permits nodes records es call := by
  cases call with
  | pushNode a =>
      rw [Permits, hnodes]
      exact h
  | reserve a port kind count =>
      rw [Permits, hheaders]
      exact h
  | write i e => cases hcall

/-- A node or a header comes behind the same nodes and headers as before. -/
theorem permits_other {call : Call} (hcall : call.write?.isNone = true)
    (hothers : (pre ++ call :: post).filter (·.write?.isNone)
      = (accepted nodes records calls).filter (·.write?.isNone))
    (hpre : accepted nodes records pre = pre) :
    Permits nodes records (done nodes records pre) call := by
  have hkept : (call :: post).filter (·.write?.isNone)
      = call :: post.filter (·.write?.isNone) := List.filter_cons_of_pos hcall
  rw [List.filter_append, hkept] at hothers
  obtain ⟨front, rest, hsplit, hfront, hrest⟩ := List.filter_eq_append_iff.1 hothers.symm
  obtain ⟨skipped, back, rfl, hskipped, -, -⟩ := List.filter_eq_cons_iff.1 hrest
  rw [← List.append_assoc] at hsplit
  obtain ⟨ds, hds, hpermits⟩ := permits_of_accepted hsplit
  have hsame : ((done nodes records pre).map Deed.call).filter (·.write?.isNone)
      = (ds.map Deed.call).filter (·.write?.isNone) := by
    rw [hds, List.filter_append, hfront, List.filter_eq_nil_iff.2 hskipped, List.append_nil]
    exact congrArg _ hpre
  exact permits_of_others hcall (Deed.nodes_of_others hsame) (Deed.headers_of_others hsame) hpermits

/-- The headers reserved by the first calls of a rearranged run are the first ones of all. -/
theorem reservations_take
    (hothers : (pre ++ post).filter (·.write?.isNone)
      = (accepted nodes records calls).filter (·.write?.isNone))
    (hpre : accepted nodes records pre = pre) :
    (Deed.reservations (done nodes records calls)).take (pre.filterMap Call.header?).length
      = Deed.reservations (done nodes records pre) := by
  have hheaders : Deed.headers (done nodes records pre) = pre.filterMap Call.header? := by
    rw [Deed.headers_eq]
    exact congrArg _ hpre
  have hall : Deed.headers (done nodes records calls)
      = Deed.headers (done nodes records pre) ++ post.filterMap Call.header? := by
    rw [hheaders, ← List.filterMap_append, filterMap_of_others (fun _ _ => rfl) hothers,
      Deed.headers_eq]
    rfl
  have hlength : (pre.filterMap Call.header?).length
      = (Deed.reservations (done nodes records pre)).length := by
    rw [← hheaders, Deed.headers, List.length_map]
  rw [(keeps_after nodes records calls).inPlace, hall, placed_append,
    ← (keeps_after nodes records pre).inPlace, hlength, List.take_left]

/-- An entry comes behind its header, and no other was filled in at its place. -/
theorem permits_write {i : Nat} {e : LinkEntry}
    (hcalls : Rearranges (accepted nodes records calls) (pre ++ .write i e :: post))
    (htimely : Timely (Deed.reservations (done nodes records calls)) (pre ++ .write i e :: post))
    (hpre : accepted nodes records pre = pre) :
    Permits nodes records (done nodes records pre) (.write i e) := by
  have hwrites := hcalls.writes
  have hwrite : (Call.write i e :: post).filterMap Call.write?
      = (i, e) :: post.filterMap Call.write? := List.filterMap_cons_some rfl
  rw [List.filterMap_append, hwrite, accepted, ← Deed.entries_eq] at hwrites
  have hentries : Deed.entries (done nodes records pre) = pre.filterMap Call.write? := by
    rw [Deed.entries_eq]
    exact congrArg _ hpre
  rw [Permits, hentries]
  refine ⟨?_, ?_, fun w hw heq => ?_⟩
  · exact (keeps_after nodes records calls).valid (i, e) (hwrites.mem_iff.1 (by simp))
  · have hcovered := htimely pre i e post rfl
    rwa [reservations_take hcalls.others hpre] at hcovered
  · have hdistinct := (hwrites.map Prod.fst).nodup_iff.2 (keeps_after nodes records calls).distinct
    rw [List.map_append, List.map_cons] at hdistinct
    exact (List.nodup_append.1 hdistinct).2.2 w.1 (List.mem_map_of_mem hw) i (by simp) heq

/-- **A rearranged run is accepted as a whole**, by induction on the calls still to come. -/
theorem accepted_of_timely {calls' : List Call}
    (hcalls : Rearranges (accepted nodes records calls) calls')
    (htimely : Timely (Deed.reservations (done nodes records calls)) calls') :
    accepted nodes records calls' = calls' := by
  have hrun : ∀ post pre, calls' = pre ++ post → accepted nodes records pre = pre →
      accepted nodes records calls' = calls' := by
    intro post
    induction post with
    | nil =>
        intro pre hsplit hpre
        rw [hsplit, List.append_nil]
        exact hpre
    | cons call post ih =>
        intro pre hsplit hpre
        refine ih (pre ++ [call]) (by simp [hsplit]) ?_
        have hpermits : Permits nodes records (done nodes records pre) call := by
          subst hsplit
          cases call with
          | write i e => exact permits_write hcalls htimely hpre
          | _ => exact permits_other rfl hcalls.others hpre
        obtain ⟨d, hd⟩ := ((keeps_after nodes records pre).accepts_iff call).2 hpermits
        have hdone : done nodes records (pre ++ [call]) = done nodes records pre ++ [d] := by
          rw [done, deeds_append, deeds, deeds]
          simp only [after] at hd
          rw [hd]
          rfl
        rw [accepted, hdone, List.map_append, List.map_singleton, (does_of_deed hd).call_eq]
        exact congrArg (· ++ [call]) hpre
  exact hrun calls' [] rfl rfl

end Reordered

/-! ### What was asked for -/

/-- **What a builder seals is what was asked for.** The sealed table consists of what the accepted
calls have done, and it is the same in whichever order the entries were filled in, whatever calls
were refused in between. -/
theorem seals_as_asked (nodes records : Nat) (calls : List Call) {t : LinkTable}
    (sealed : (after nodes records calls).finish.value = .ok t) :
    SealsAsAsked nodes records calls t := by
  have hkeeps := keeps_after nodes records calls
  obtain ⟨hcomplete, rfl⟩ := hkeeps.finish_eq_ok_iff.1 sealed
  have hrearranged : ∀ nodes' records' calls',
      Rearranges (accepted nodes records calls) (accepted nodes' records' calls') →
        (after nodes' records' calls').finish.value
          = .ok (Deed.table (done nodes records calls)) := by
    intro nodes' records' calls' hcalls
    have hkeeps' := keeps_after nodes' records' calls'
    obtain ⟨hcomplete', htable⟩ := hkeeps.rearranged hkeeps' hcomplete hcalls
    exact hkeeps'.finish_eq_ok_iff.2 ⟨hcomplete', htable.symm⟩
  exact
    { order := rfl
      layout := hkeeps.layout hcomplete
      once := fun _ hr _ hi => hkeeps.once hcomplete hr hi
      headerCount := hkeeps.headerCount_table
      linkCount := hkeeps.linkCount_table
      rearranged := hrearranged
      reordered := fun calls' hcalls htimely => by
        have hall := accepted_of_timely hcalls htimely
        exact ⟨hall, hrearranged nodes records calls' (hall.symm ▸ hcalls)⟩ }

/-- The accepted calls of `LinkTable.strayCalls` with the first entry filled in last, after one call
that is refused. -/
def lateCalls : List Call :=
  [.pushNode (.pack ⟨1⟩ ⟨1⟩), .reserve (.pack ⟨1⟩ ⟨1⟩) ⟨0⟩ .exit 1,
    .reserve (.pack ⟨1⟩ ⟨1⟩) ⟨3⟩ .exit 1, .write 3 ⟨.pack ⟨3⟩ ⟨1⟩, ⟨2⟩, .enter⟩,
    .write 9 ⟨.pack ⟨2⟩ ⟨1⟩, ⟨4⟩, .enter⟩, .write 1 ⟨.pack ⟨2⟩ ⟨1⟩, ⟨4⟩, .enter⟩]

theorem seals_as_asked_late : ∃ t, (after 1 8 LinkTable.strayCalls).finish.value = .ok t ∧
    SealsAsAsked 1 8 LinkTable.strayCalls t ∧ t.headerCount = 2 ∧
      (after 1 4 lateCalls).finish.value = .ok t := by
  have hasked := seals_as_asked 1 8 LinkTable.strayCalls rfl
  exact ⟨_, rfl, hasked, hasked.headerCount.trans (by decide +kernel),
    hasked.rearranged 1 4 lateCalls ⟨rfl, by decide +kernel⟩⟩

end FlowGraph.LinkTableBuilder
