import FlowGraph.Proofs.Link.Layout
import FlowGraph.Proofs.Lists
import Mathlib.Data.List.Find

/-!
# Looking links up

A lookup jumps to the block of an address and stops as soon as it has passed the wanted port. It
answers the same as a walk over all headers of the table, from the first record on, each header
leading to the next one behind its entries.

* `LinkTable.headers` — the walk; `LinkTable.header?` — the header of a port that it meets first.
* `LinkTable.Built` — the tables that come about, by sealing or by loading.
* `LinkTable.Holds.getLinks_eq` — the lookup finds what the walk finds.
* `LinkTable.Built.lookup_agrees_with_walk` — all that can be said of a lookup, for every table.
-/

namespace FlowGraph

/-! ### Headers and their places -/

/-- Headers with their places, the first at `i` and each behind the block of the one before. -/
def placed : Nat → List LinkRecord → List (Nat × LinkRecord)
  | _, [] => []
  | i, h :: hs => (i, h) :: placed (i + h.blockLength) hs

theorem placed_append (i : Nat) (hs ks : List LinkRecord) :
    placed i (hs ++ ks) = placed i hs ++ placed (i + extent hs) ks := by
  induction hs generalizing i with
  | nil => rfl
  | cons h hs ih =>
      simp only [List.cons_append, placed, ih, extent_cons, Nat.add_assoc]

theorem map_snd_placed (i : Nat) (hs : List LinkRecord) : (placed i hs).map Prod.snd = hs := by
  induction hs generalizing i with
  | nil => rfl
  | cons h hs ih => simp only [placed, List.map_cons, ih]

/-- A header's place is what the blocks before it take up. -/
theorem mem_placed {i : Nat} {hs : List LinkRecord} {x : Nat × LinkRecord}
    (hx : x ∈ placed i hs) : ∃ pre post, hs = pre ++ x.2 :: post ∧ x.1 = i + extent pre := by
  induction hs generalizing i with
  | nil => simp [placed] at hx
  | cons h hs ih =>
      rcases List.mem_cons.1 hx with rfl | hx
      · exact ⟨[], hs, rfl, rfl⟩
      · obtain ⟨pre, post, rfl, hplace⟩ := ih hx
        refine ⟨h :: pre, post, rfl, ?_⟩
        rw [hplace, extent_cons, Nat.add_assoc]

/-- Blocks do not overlap. -/
theorem placed_pairwise (i : Nat) (hs : List LinkRecord) :
    (placed i hs).Pairwise fun x y => x.1 + x.2.blockLength ≤ y.1 := by
  induction hs generalizing i with
  | nil => exact List.Pairwise.nil
  | cons h hs ih =>
      refine List.pairwise_cons.2 ⟨fun y hy => ?_, ih _⟩
      obtain ⟨pre, post, -, hplace⟩ := mem_placed hy
      rw [hplace]
      exact Nat.le_add_right _ _

/-- Two blocks that share a place are one. -/
theorem eq_of_overlap {i : Nat} {hs : List LinkRecord} {x y : Nat × LinkRecord}
    (hx : x ∈ placed i hs) (hy : y ∈ placed i hs) {k : Nat} (hxk : x.1 ≤ k)
    (hkx : k < x.1 + x.2.blockLength) (hyk : y.1 ≤ k) (hky : k < y.1 + y.2.blockLength) :
    x = y := by
  have hpair := placed_pairwise i hs
  generalize placed i hs = ps at hx hy hpair
  induction ps with
  | nil => cases hx
  | cons p ps ih =>
      rw [List.pairwise_cons] at hpair
      rcases List.mem_cons.1 hx with hxp | hxps <;> rcases List.mem_cons.1 hy with hyp | hyps
      · rw [hxp, hyp]
      · have hle := hpair.1 y hyps
        rw [← hxp] at hle
        omega
      · have hle := hpair.1 x hxps
        rw [← hyp] at hle
        omega
      · exact ih hxps hyps hpair.2

/-! ### The walk -/

/-- Whether a header is that of a port. -/
def LinkRecord.isFor (r : LinkRecord) (a : PackedAddress) (port : PortIndex) : Bool :=
  decide (r.address = a ∧ r.port = port)

theorem isFor_iff {r : LinkRecord} {a : PackedAddress} {port : PortIndex} :
    r.isFor a port = true ↔ r.address = a ∧ r.port = port := by
  show decide (r.address = a ∧ r.port = port) = true ↔ r.address = a ∧ r.port = port
  exact decide_eq_true_iff

/-- Side by side with ascending ports, no two headers are of one port. -/
theorem Spanned.pairwise {hs : List LinkRecord} {a : PackedAddress} {s : Option NodeSpan}
    (h : Spanned hs a s) (port : PortIndex) :
    hs.Pairwise fun x y => ¬ (x.isFor a port = true ∧ y.isFor a port = true) := by
  have hall : ∀ ks : List LinkRecord, (∀ x ∈ ks, x.address ≠ a) →
      ks.Pairwise fun x y => ¬ (x.isFor a port = true ∧ y.isFor a port = true) := fun ks hks =>
    List.Pairwise.imp_of_mem (fun hx _ _ hboth => hks _ hx (isFor_iff.1 hboth.1).1)
      (List.pairwise_of_forall fun _ _ => trivial)
  cases h with
  | absent other => exact hall hs other
  | group pre grp post split present before behind own ascending =>
      rw [split, List.append_assoc]
      refine List.pairwise_append.2 ⟨hall pre before, List.pairwise_append.2
        ⟨ascending.imp fun hlt hboth => ?_, hall post behind, fun x _ y hy hboth => ?_⟩,
        fun x hx y _ hboth => ?_⟩
      · rw [(isFor_iff.1 hboth.1).2, (isFor_iff.1 hboth.2).2] at hlt
        exact UInt32.lt_irrefl _ hlt
      · exact behind y hy (isFor_iff.1 hboth.2).1
      · exact before x hx (isFor_iff.1 hboth.1).1

/-- The places of the entries of a header that was found. -/
def LinkRange.behind : Option (Nat × LinkRecord) → LinkRange
  | none => .empty
  | some (i, h) => ⟨i + 1, h.count.toNat⟩

namespace LinkTable

/-- The headers among records, met by walking from a place on: the next one follows the entries. -/
def headersFrom (records : List LinkRecord) (i : Nat) : List (Nat × LinkRecord) :=
  if h : i < records.length then
    (i, records[i]) :: headersFrom records (i + records[i].blockLength)
  else []
termination_by records.length - i
decreasing_by simp only [LinkRecord.blockLength]; omega

/-- The headers of a table with their places, met by walking from the first record on. -/
def headers (t : LinkTable) : List (Nat × LinkRecord) := headersFrom t.records 0

/-- The first header of a port that the walk meets, with its place. -/
def header? (t : LinkTable) (a : PackedAddress) (port : PortIndex) : Option (Nat × LinkRecord) :=
  t.headers.find? fun x => x.2.isFor a port

theorem headersFrom_flatten (front : List LinkRecord) (bs : List LinkBlock)
    (hfull : ∀ x ∈ bs, x.Full) :
    headersFrom (front ++ LinkBlock.flatten bs) front.length
      = placed front.length (bs.map LinkBlock.header) := by
  induction bs generalizing front with
  | nil =>
      rw [headersFrom]
      simp [LinkBlock.flatten, placed]
  | cons b bs ih =>
      have hb := hfull b (by simp)
      have hlt : front.length < (front ++ LinkBlock.flatten (b :: bs)).length := by
        simp only [LinkBlock.flatten, List.length_append, List.length_cons]
        omega
      have hget : (front ++ LinkBlock.flatten (b :: bs))[front.length] = b.header := by
        simp [LinkBlock.flatten]
      have hsplit : front ++ LinkBlock.flatten (b :: bs)
          = (front ++ b.header :: b.entries) ++ LinkBlock.flatten bs := by
        simp only [LinkBlock.flatten, List.append_assoc, List.cons_append]
      have hnext : front.length + b.header.blockLength
          = (front ++ b.header :: b.entries).length := by
        simp only [LinkRecord.blockLength, List.length_append, List.length_cons, hb.length]
      rw [headersFrom, dif_pos hlt, hget, List.map_cons, placed, hnext, hsplit,
        ih (front ++ b.header :: b.entries) fun x hx => hfull x (by simp [hx])]

/-- **The scan of one block.** Over headers with ascending ports, stopping early misses nothing. -/
theorem scanBlock_flatten (front back : List LinkRecord) (bs : List LinkBlock)
    (hfull : ∀ x ∈ bs, x.Full) (port : PortIndex)
    (hasc : (bs.map LinkBlock.header).Pairwise fun h k => h.port.raw < k.port.raw) :
    scanBlock (front ++ (LinkBlock.flatten bs ++ back)) port
        (front.length + extent (bs.map LinkBlock.header)) front.length
      = .behind ((placed front.length (bs.map LinkBlock.header)).find? fun x =>
          decide (x.2.port = port)) := by
  induction bs generalizing front with
  | nil =>
      rw [scanBlock]
      simp [placed, LinkRange.behind]
  | cons b bs ih =>
      have hb := hfull b (by simp)
      rw [List.map_cons, List.pairwise_cons] at hasc
      have hget : (front ++ (LinkBlock.flatten (b :: bs) ++ back))[front.length]?
          = some b.header := by
        simp [LinkBlock.flatten]
      have hsplit : front ++ (LinkBlock.flatten (b :: bs) ++ back)
          = (front ++ b.header :: b.entries) ++ (LinkBlock.flatten bs ++ back) := by
        simp only [LinkBlock.flatten, List.append_assoc, List.cons_append]
      have hnext : front.length + b.header.blockLength
          = (front ++ b.header :: b.entries).length := by
        simp only [LinkRecord.blockLength, List.length_append, List.length_cons, hb.length]
      rw [scanBlock, List.map_cons, extent_cons,
        if_pos (by simp only [LinkRecord.blockLength]; omega), hget]
      simp only [placed]
      by_cases hport : b.header.port = port
      · rw [if_pos hport, List.find?_cons_of_pos (by simpa using hport)]
        rfl
      · rw [if_neg hport, List.find?_cons_of_neg (by simpa using hport)]
        by_cases hpast : port.raw < b.header.port.raw
        · rw [if_pos hpast]
          -- All later headers are for still higher ports.
          have hnone : (placed (front.length + b.header.blockLength)
              (bs.map LinkBlock.header)).find? (fun x => decide (x.2.port = port)) = none := by
            refine List.find?_eq_none.2 fun x hx heq => ?_
            obtain ⟨pre, post, hhs, -⟩ := mem_placed hx
            have hlt := hasc.1 x.2 (by rw [hhs]; simp)
            rw [of_decide_eq_true heq] at hlt
            exact UInt32.lt_irrefl _ (UInt32.lt_trans hlt hpast)
          rw [hnone]
          rfl
        · rw [if_neg hpast, ← Nat.add_assoc, hnext, hsplit,
            ih (front ++ b.header :: b.entries) (fun x hx => hfull x (by simp [hx])) hasc.2]

/-! ### The entries of a range -/

/-- The links of a port are the records of the range, taken for entries. -/
theorem links_eq_slice (t : LinkTable) (a : PackedAddress) (port : PortIndex) :
    t.links a port = ((t.records.drop (t.getLinks a port).first).take
      (t.getLinks a port).count).map LinkRecord.toEntry := by
  rw [links, LinkRange.indices, List.filterMap_map, ← filterMap_range_getElem?, List.map_filterMap]
  congr 1
  funext k
  simp only [Function.comp, getLink, List.getElem?_drop]

namespace Holds

variable {t : LinkTable} {bs : List LinkBlock}

/-! ### What the walk meets -/

theorem headers_eq (h : t.Holds bs) : t.headers = placed 0 (bs.map LinkBlock.header) := by
  have hwalk := headersFrom_flatten [] bs h.full
  rw [headers, h.records]
  exact hwalk

/-- Each header that the walk meets starts a block. -/
theorem block_of_header (h : t.Holds bs) {x : Nat × LinkRecord} (hx : x ∈ t.headers) :
    ∃ pre b post, bs = pre ++ b :: post ∧ x = ((LinkBlock.flatten pre).length, b.header) := by
  rw [h.headers_eq] at hx
  obtain ⟨pre, post, hsplit, hplace⟩ := mem_placed hx
  obtain ⟨pre', rest, rfl, rfl, hrest⟩ := List.map_eq_append_iff.1 hsplit
  obtain ⟨b, post', rfl, hb, -⟩ := List.map_eq_cons_iff.1 hrest
  refine ⟨pre', b, post', rfl, Prod.ext ?_ hb.symm⟩
  rw [hplace, Nat.zero_add, LinkBlock.length_flatten fun c hc => h.full c (by simp [hc])]

/-- The walk meets the header of each block. -/
theorem header_of_block {pre post : List LinkBlock} {b : LinkBlock}
    (h : t.Holds (pre ++ b :: post)) : ((LinkBlock.flatten pre).length, b.header) ∈ t.headers := by
  rw [h.headers_eq, List.map_append, List.map_cons, placed_append, placed, Nat.zero_add,
    LinkBlock.length_flatten fun c hc => h.full c (by simp [hc])]
  exact List.mem_append_right _ (List.mem_cons_self)

/-- The walk meets at most one header of a port. -/
theorem length_headers_le_one (h : t.Holds bs) (a : PackedAddress) (port : PortIndex) :
    (t.headers.filter fun x => x.2.isFor a port).length ≤ 1 := by
  have hones := length_filter_le_one ((h.spans a).pairwise port)
  rw [← map_snd_placed 0 (bs.map LinkBlock.header), List.filter_map, List.length_map,
    ← h.headers_eq] at hones
  exact hones

/-- A header of a port that the walk meets is the first one that it meets. -/
theorem header?_eq_some (h : t.Holds bs) {x : Nat × LinkRecord} (hx : x ∈ t.headers)
    {a : PackedAddress} {port : PortIndex} (hfor : x.2.isFor a port = true) :
    t.header? a port = some x := by
  have hones := h.length_headers_le_one a port
  have hmem : x ∈ t.headers.filter fun y => y.2.isFor a port := List.mem_filter.2 ⟨hx, hfor⟩
  rw [header?, ← List.head?_filter]
  cases hl : t.headers.filter fun y => y.2.isFor a port with
  | nil => rw [hl] at hmem; cases hmem
  | cons y ys =>
      rw [hl] at hones hmem
      rw [List.length_cons] at hones
      have hys : ys = [] := List.eq_nil_of_length_eq_zero (by omega)
      rw [hys, List.mem_singleton] at hmem
      rw [hmem]
      rfl

/-! ### The lookup -/

/-- **The jump.** The lookup finds the header that the walk finds. -/
theorem getLinks_eq (h : t.Holds bs) (a : PackedAddress) (port : PortIndex) :
    t.getLinks a port = .behind (t.header? a port) := by
  have hnone : ∀ (i : Nat) (ks : List LinkRecord), (∀ x ∈ ks, x.address ≠ a) →
      (placed i ks).find? (fun x => x.2.isFor a port) = none := by
    intro i ks hks
    refine List.find?_eq_none.2 fun x hx hfor => ?_
    obtain ⟨pre, post, hsplit, -⟩ := mem_placed hx
    exact hks x.2 (by rw [hsplit]; simp) (isFor_iff.1 hfor).1
  have hspan := h.spans a
  rw [header?, h.headers_eq]
  unfold getLinks
  cases hs : t.spans.find? a with
  | none =>
      rw [hs] at hspan
      cases hspan with
      | absent other => rw [hnone 0 _ other]; rfl
  | some s =>
      rw [hs] at hspan
      cases hspan with
      | group pre grp post split present before behind own ascending =>
          obtain ⟨front, back, hbs, hfront, hpost⟩ := List.map_eq_append_iff.1 split
          obtain ⟨lead, mine, rfl, rfl, rfl⟩ := List.map_eq_append_iff.1 hfront
          subst hbs hpost
          have hlead : (LinkBlock.flatten lead).length = extent (lead.map LinkBlock.header) :=
            LinkBlock.length_flatten fun c hc => h.full c (by simp [hc])
          have hscan := scanBlock_flatten (LinkBlock.flatten lead) (LinkBlock.flatten back) mine
            (fun c hc => h.full c (by simp [hc])) port ascending
          have hown :
              (placed (extent (lead.map LinkBlock.header)) (mine.map LinkBlock.header)).find?
                (fun x => x.2.isFor a port)
              = (placed (extent (lead.map LinkBlock.header)) (mine.map LinkBlock.header)).find?
                fun x => decide (x.2.port = port) := by
            refine List.find?_congr fun x hx => ?_
            obtain ⟨pre, post, hsplit, -⟩ := mem_placed hx
            have hxa := own x.2 (by rw [hsplit]; simp)
            simp only [LinkRecord.isFor, hxa, true_and]
          rw [hlead] at hscan
          rw [h.records, LinkBlock.flatten_append, LinkBlock.flatten_append, List.append_assoc]
          refine hscan.trans ?_
          rw [split, placed_append, placed_append, List.find?_append, List.find?_append,
            hnone 0 _ before, hnone _ _ behind, Nat.zero_add, hown, Option.none_or, Option.or_none]

/-- The lookup of a block's port answers its entries. -/
theorem getLinks_of_block {pre post : List LinkBlock} {b : LinkBlock}
    (h : t.Holds (pre ++ b :: post)) : t.getLinks b.header.address b.header.port
      = ⟨(LinkBlock.flatten pre).length + 1, b.entries.length⟩ := by
  rw [h.getLinks_eq, h.header?_eq_some h.header_of_block (isFor_iff.2 ⟨rfl, rfl⟩),
    (h.full b (by simp)).length]
  rfl

theorem slice_of_block {pre post : List LinkBlock} {b : LinkBlock}
    (h : t.Holds (pre ++ b :: post)) :
    (t.records.drop ((LinkBlock.flatten pre).length + 1)).take b.entries.length = b.entries := by
  rw [h.records, LinkBlock.flatten_middle, ← LinkBlock.length_before_entries pre b,
    List.drop_left, List.take_left]

/-- The links of a port that has a block are the block's entries. -/
theorem links_of_block (h : t.Holds bs) {b : LinkBlock} (hb : b ∈ bs) :
    t.links b.header.address b.header.port = b.entries.map LinkRecord.toEntry := by
  obtain ⟨pre, post, rfl⟩ := List.append_of_mem hb
  rw [links_eq_slice, h.getLinks_of_block, h.slice_of_block]

/-- A port that has no block has no links. -/
theorem getLinks_of_missing (h : t.Holds bs) {a : PackedAddress} {port : PortIndex}
    (hmissing : ∀ b ∈ bs, b.header.isFor a port = false) : t.getLinks a port = .empty := by
  rw [h.getLinks_eq, header?, List.find?_eq_none.2 fun x hx hfor => ?_]
  · rfl
  · obtain ⟨pre, b, post, rfl, rfl⟩ := h.block_of_header hx
    have hfalse := hmissing b (by simp)
    rw [hfalse] at hfor
    cases hfor

end Holds

/-! ### How tables come about -/

/-- The tables that come about: sealed after any calls of the builder, or loaded from an image. -/
inductive Built : LinkTable → Prop
  | sealed (nodes records : Nat) (calls : List LinkTableBuilder.Call) {t : LinkTable}
      (done : (calls.foldl LinkTableBuilder.attempt
        (.withCapacity nodes records)).finish.value = .ok t) : Built t
  | loaded (i : Image) {t : LinkTable} (done : (ofImage i).value = .ok t) : Built t

end LinkTable

theorem Except.bind_eq_ok {ε α β : Type} {x : Except ε α} {f : α → Except ε β} {r : β} :
    (x >>= f) = .ok r ↔ ∃ y, x = .ok y ∧ f y = .ok r := by
  cases x with
  | error e =>
      constructor
      · intro h
        cases h
      · intro h
        obtain ⟨y, hy, -⟩ := h
        cases hy
  | ok y =>
      constructor
      · exact fun h => ⟨y, rfl, h⟩
      · intro h
        obtain ⟨z, hz, hf⟩ := h
        cases hz
        exact hf

namespace LinkTableBuilder

theorem Lays.pushNodes {as : List PackedAddress} {b c : LinkTableBuilder} {bs : List LinkBlock}
    (h : b.Lays bs) (hc : b.pushNodes as = .ok c) : c.Lays bs := by
  induction as generalizing b with
  | nil =>
      cases hc
      exact h
  | cons a as ih =>
      obtain ⟨d, hd, hrest⟩ := Except.bind_eq_ok.1 hc
      exact ih (h.pushNode hd) hrest

theorem Lays.writeAll {es : List LinkEntry} {b c : LinkTableBuilder} {bs : List LinkBlock} {i : Nat}
    (h : b.Lays bs) (hc : b.writeAll i es = .ok c) : ∃ cs, c.Lays cs := by
  induction es generalizing b bs i with
  | nil =>
      cases hc
      exact ⟨bs, h⟩
  | cons e es ih =>
      obtain ⟨d, hd, hrest⟩ := Except.bind_eq_ok.1 hc
      obtain ⟨cs, hcs⟩ := h.write hd
      exact ih hcs hrest

end LinkTableBuilder

namespace LinkTable

open LinkTableBuilder (Lays)

theorem layDown_keeps {b c : LinkTableBuilder} {bs : List LinkBlock} (h : Lays b bs)
    {block : LinkRecord × List LinkRecord} (hc : layDown b block = .ok c) :
    ∃ cs, Lays c cs := by
  obtain ⟨r, hr, hc⟩ := Except.bind_eq_ok.1 hc
  obtain ⟨d, hd, hc⟩ := Except.bind_eq_ok.1 hc
  obtain ⟨cs, hcs⟩ := (h.reserve hr).writeAll hd
  split at hc
  · cases hc
  · cases hc
    exact ⟨cs, hcs⟩

theorem foldlM_layDown_keeps {blocks : List (LinkRecord × List LinkRecord)} {b c : LinkTableBuilder}
    {bs : List LinkBlock} (h : Lays b bs) (hc : blocks.foldlM layDown b = .ok c) :
    ∃ cs, Lays c cs := by
  induction blocks generalizing b bs with
  | nil =>
      cases hc
      exact ⟨bs, h⟩
  | cons block blocks ih =>
      rw [List.foldlM_cons] at hc
      obtain ⟨d, hd, hrest⟩ := Except.bind_eq_ok.1 hc
      obtain ⟨cs, hcs⟩ := layDown_keeps h hd
      exact ih hcs hrest

/-- However a table comes about, it is a row of blocks under an index that knows them. -/
theorem Built.holds {t : LinkTable} (h : t.Built) : ∃ bs, t.Holds bs := by
  cases h with
  | sealed nodes records calls done =>
      obtain ⟨bs, hbs⟩ := LinkTableBuilder.lays_foldl_attempt nodes records calls
      exact ⟨bs, (hbs.finish done).1⟩
  | loaded i done =>
      unfold ofImage at done
      simp only at done
      split at done
      · cases done
      · next b hb =>
        obtain ⟨c, hc, hrest⟩ := Except.bind_eq_ok.1 hb
        have hstart := (LinkTableBuilder.lays_withCapacity _ _).pushNodes hc
        obtain ⟨bs, hbs⟩ := foldlM_layDown_keeps hstart hrest
        exact ⟨bs, (hbs.finish done).1⟩

/-- A table read from a text was loaded from an image. -/
theorem Built.of_parse {s : String} {t : LinkTable} (h : (parse s).value = .ok t) : t.Built := by
  unfold parse at h
  split at h
  · cases h
  · split at h
    · cases h
    · next i _ =>
      rw [Noted.value_bind] at h
      split at h
      · cases h
      · next u hu =>
        split at h
        · cases h
          exact .loaded i hu
        · cases h

/-! ### Lookups and the walk -/

/-- What a lookup owes to the walk over all headers of the table. -/
structure FindsAsWalked (t : LinkTable) (a : PackedAddress) (port : PortIndex) : Prop where
  /-- The walk meets at most one header of the port. -/
  once : (t.headers.filter fun x => x.2.isFor a port).length ≤ 1
  /-- The range starts behind that header and has its count; without one, it is empty. -/
  range : t.getLinks a port = .behind (t.header? a port)
  inside : (t.getLinks a port).stop ≤ t.records.length
  /-- A block that reaches into the range is the port's, and only its entries do. -/
  own : ∀ i ∈ (t.getLinks a port).indices, ∀ x ∈ t.headers,
    x.1 ≤ i → i < x.1 + x.2.blockLength → x.2.isFor a port = true ∧ x.1 ≠ i
  /-- The links are the records of the range, one for each place. -/
  each : (t.links a port).map some = (t.getLinks a port).indices.map t.getLink
  count : (t.links a port).length = (t.getLinks a port).count

theorem mem_indices {r : LinkRange} {i : Nat} : i ∈ r.indices ↔ r.first ≤ i ∧ i < r.stop := by
  rw [LinkRange.indices, LinkRange.stop, List.mem_map]
  constructor
  · intro h
    obtain ⟨k, hk, rfl⟩ := h
    rw [List.mem_range] at hk
    omega
  · intro h
    obtain ⟨hle, hlt⟩ := h
    exact ⟨i - r.first, List.mem_range.2 (by omega), by omega⟩

/-- Inside the records, each place of a range has a link. -/
theorem map_some_links {t : LinkTable} {a : PackedAddress} {port : PortIndex}
    (h : (t.getLinks a port).stop ≤ t.records.length) :
    (t.links a port).map some = (t.getLinks a port).indices.map t.getLink := by
  unfold links
  have hall : ∀ i ∈ (t.getLinks a port).indices, (t.getLink i).isSome = true := by
    intro i hi
    have hlt := (mem_indices.1 hi).2
    rw [getLink, List.getElem?_eq_getElem (Nat.lt_of_lt_of_le hlt h)]
    rfl
  generalize (t.getLinks a port).indices = is at hall
  induction is with
  | nil => rfl
  | cons i is ih =>
      obtain ⟨e, he⟩ := Option.isSome_iff_exists.1 (hall i (by simp))
      rw [List.filterMap_cons_some he, List.map_cons, List.map_cons, he,
        ih fun j hj => hall j (by simp [hj])]

/-- **Lookup agrees with the walk.** In every table that comes about, a lookup finds the header that
a walk over the whole table finds, and its range covers the entries of that header and no more. -/
theorem Built.lookup_agrees_with_walk {t : LinkTable} (h : t.Built) (a : PackedAddress)
    (port : PortIndex) : t.FindsAsWalked a port := by
  obtain ⟨bs, hbs⟩ := h.holds
  have hrange := hbs.getLinks_eq a port
  have hones := hbs.length_headers_le_one a port
  cases hheader : t.header? a port with
  | none =>
      have hempty : t.getLinks a port = .empty := by
        rw [hrange, hheader]
        rfl
      have hinside : (t.getLinks a port).stop ≤ t.records.length := by
        rw [hempty]
        exact Nat.zero_le _
      have heach := map_some_links hinside
      refine ⟨hones, hrange, hinside, fun i hi => ?_, heach, ?_⟩
      · rw [hempty] at hi
        cases hi
      · rw [links_eq_slice, hempty]
        rfl
  | some x =>
      have hfor : x.2.isFor a port = true := by
        have hmeets := List.find?_some hheader
        exact hmeets
      have hmem : x ∈ t.headers := List.mem_of_find?_eq_some hheader
      obtain ⟨pre, b, post, rfl, rfl⟩ := hbs.block_of_header hmem
      obtain ⟨rfl, rfl⟩ := isFor_iff.1 hfor
      have hget := hbs.getLinks_of_block
      have hfull := hbs.full b (by simp)
      have hinside : (t.getLinks b.header.address b.header.port).stop ≤ t.records.length := by
        rw [hget, hbs.records, LinkBlock.flatten_append]
        simp only [LinkRange.stop, LinkBlock.flatten, List.length_append, List.length_cons]
        omega
      refine ⟨hones, hrange, hinside, fun i hi y hy hle hlt => ?_, map_some_links hinside, ?_⟩
      · -- The place lies in the block found as well, so the two blocks are one.
        rw [hget, mem_indices] at hi
        simp only [LinkRange.stop] at hi
        rw [hbs.headers_eq] at hmem hy
        have hsame := eq_of_overlap hy hmem hle hlt (k := i) (by omega)
          (by simp only [LinkRecord.blockLength, ← hfull.length]; omega)
        rw [hsame]
        exact ⟨hfor, by simp only [ne_eq]; omega⟩
      · rw [hbs.links_of_block (b := b) (by simp), hget, List.length_map]

/-- Two headers of one node, the first reserved twice and its entry written twice. -/
def strayCalls : List LinkTableBuilder.Call :=
  [.pushNode (.pack ⟨1⟩ ⟨1⟩), .reserve (.pack ⟨1⟩ ⟨1⟩) ⟨0⟩ .exit 1,
    .reserve (.pack ⟨1⟩ ⟨1⟩) ⟨0⟩ .exit 1, .write 1 ⟨.pack ⟨2⟩ ⟨1⟩, ⟨4⟩, .enter⟩,
    .write 1 ⟨.pack ⟨2⟩ ⟨2⟩, ⟨4⟩, .enter⟩, .reserve (.pack ⟨1⟩ ⟨1⟩) ⟨3⟩ .exit 1,
    .write 3 ⟨.pack ⟨3⟩ ⟨1⟩, ⟨2⟩, .enter⟩]

theorem lookup_agrees_with_walk_stray : ∃ t : LinkTable, t.Built ∧
    t.FindsAsWalked (.pack ⟨1⟩ ⟨1⟩) ⟨3⟩ ∧ t.getLinks (.pack ⟨1⟩ ⟨1⟩) ⟨3⟩ = ⟨3, 1⟩ := by
  have hbuilt := Built.sealed 1 8 strayCalls rfl
  exact ⟨_, hbuilt, hbuilt.lookup_agrees_with_walk _ _, by decide +kernel⟩

end LinkTable

end FlowGraph
