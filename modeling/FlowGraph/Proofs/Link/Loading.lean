import FlowGraph.Proofs.Link.Acceptance

/-!
# Loading a link table

An image is taken exactly if it is what a table is made of: nodes with valid addresses, and a row of
blocks whose headers stand side by side for each address, ports ascending. The counts of entries
are not looked at; the table has zero there.

* `Grouped` — headers of one address stand side by side, with ascending ports.
* `LinkTable.Image.ConsistsOf` — the images that are rows of blocks.
* `LinkTable.Image.loadByPlaces?` — loading by places, with nothing to show for a place behind the
  last record.
* `LinkTable.layDown_cases`, `LinkTable.foldlM_layDown_cases` — one block, and then a row of them,
  is taken or refused.
* `LinkTable.Image.loads_exactly` — which images are taken, what becomes of them, and why the others
  are refused.
-/

namespace FlowGraph

/-! ### Headers in order -/

/-- Headers of one address stand side by side, and their ports ascend. -/
def Grouped (hs : List LinkRecord) : Prop :=
  ∀ pre x mid y post, hs = pre ++ x :: (mid ++ y :: post) → x.address = y.address →
    (∀ h ∈ mid, h.address = x.address) ∧ x.port.raw < y.port.raw

/-- Where an index knows the headers of every address, they stand in order. -/
theorem grouped_of_spanned {hs : List LinkRecord}
    (h : ∀ a, ∃ s, Spanned hs a s) : Grouped hs := by
  intro pre x mid y post hsplit hsame
  obtain ⟨s, hs⟩ := h x.address
  cases hs with
  | absent other => exact absurd rfl (other x (by rw [hsplit]; simp))
  | group front grp back split present before behind own ascending =>
      rw [split, List.append_assoc] at hsplit
      obtain ⟨lead, hlead⟩ := exists_of_not_mem_front hsplit fun hx => before x hx rfl
      rw [show lead ++ x :: (mid ++ y :: post) = (lead ++ x :: mid) ++ y :: post by simp] at hlead
      obtain ⟨rest, rfl⟩ := exists_of_not_mem_back hlead fun hy => behind y hy hsame.symm
      refine ⟨fun k hk => own k (by simp [hk]), ?_⟩
      rw [List.append_assoc, List.cons_append, List.pairwise_append, List.pairwise_cons]
        at ascending
      exact ascending.2.1.1 y (by simp)

namespace LinkTableBuilder

/-- In a row whose headers stand in order, each block may come next to those before it. -/
theorem continues_of_grouped {bs : List LinkBlock} {x : LinkBlock} {hs : List LinkRecord}
    (h : Grouped (bs.map LinkBlock.header ++ x.header :: hs)) :
    Continues bs x.header.address x.header.port := by
  rcases List.eq_nil_or_concat bs with rfl | ⟨init, last, rfl⟩
  · exact .inl fun y hy => absurd hy List.not_mem_nil
  rw [List.concat_eq_append] at h ⊢
  rw [List.map_append, List.map_singleton, List.append_assoc, List.singleton_append] at h
  by_cases hlast : last.header.address = x.header.address
  · exact .inr ⟨last, List.getLast?_concat, hlast, (h _ _ [] _ _ rfl hlast).2⟩
  · -- A header of the address further back would have the last one between itself and the new one.
    refine .inl fun y hy heq => ?_
    rcases List.mem_append.1 hy with hy | hy
    · obtain ⟨front, mid, rfl⟩ := List.append_of_mem hy
      have hbetween := (h (front.map LinkBlock.header) y.header
        (mid.map LinkBlock.header ++ [last.header]) x.header hs (by simp) heq).1
      exact hlast ((hbetween last.header (by simp)).trans heq)
    · rw [List.mem_singleton.1 hy] at heq
      exact hlast heq

end LinkTableBuilder

/-! ### Blocks of an image -/

namespace LinkBlock

/-- A block as an image may hold it: a header that can be reserved, with as many entries as it
announces, all of which lead somewhere. -/
structure Sound (b : LinkBlock) : Prop extends b.Full where
  entries : ∀ r ∈ b.entries, r.address.isValid = true

/-- A block as a table holds it: entries count nothing. -/
def cleared (b : LinkBlock) : LinkBlock :=
  { b with entries := b.entries.map fun r => { r with count := 0 } }

/-- Records are a row of full blocks in one way only. -/
theorem flatten_injective {bs cs : List LinkBlock} (hb : ∀ x ∈ bs, x.Full) (hc : ∀ x ∈ cs, x.Full)
    (h : flatten bs = flatten cs) : bs = cs := by
  induction bs generalizing cs with
  | nil =>
      cases cs with
      | nil => rfl
      | cons c cs => cases h
  | cons b bs ih =>
      cases cs with
      | nil => cases h
      | cons c cs =>
          rw [flatten, flatten, List.cons.injEq] at h
          obtain ⟨hheader, hrest⟩ := h
          have hlength : b.entries.length = c.entries.length := by
            rw [(hb b (by simp)).length, (hc c (by simp)).length, hheader]
          obtain ⟨hentries, htail⟩ := List.append_inj hrest hlength
          rw [ih (fun x hx => hb x (by simp [hx])) (fun x hx => hc x (by simp [hx])) htail,
            show b = c by cases b; cases c; cases hheader; cases hentries; rfl]

end LinkBlock

namespace LinkTable

/-- An image of nodes with valid addresses and of a row of blocks whose headers stand in order. -/
structure Image.ConsistsOf (i : Image) (bs : List LinkBlock) : Prop where
  nodes : ∀ a ∈ i.nodes, a.isValid = true
  records : i.records = LinkBlock.flatten bs
  sound : ∀ x ∈ bs, x.Sound
  grouped : Grouped (bs.map LinkBlock.header)

/-- The kinds of error that an image can be refused with. -/
def Image.errorKinds : List String :=
  ["InvalidAddress", "EmptyHeader", "OutOfOrder", "NonContiguous", "CapacityExceeded"]

/-! ### One block -/

open LinkTableBuilder (Lays Continues)

/-- What a header out of order is refused with. -/
theorem kind_of_orderError? {b : LinkTableBuilder} {a : PackedAddress} {port : PortIndex}
    {e : LinkTableError} (h : b.orderError? a port = some e) :
    e.kind = "OutOfOrder" ∨ e.kind = "NonContiguous" := by
  have hfresh : (if b.spans.contains a then some (LinkTableError.nonContiguous a) else none)
      = some e → e.kind = "NonContiguous" := by
    intro he
    split at he
    · cases he
      rfl
    · cases he
  simp only [LinkTableBuilder.orderError?] at h
  cases hl : b.last with
  | none =>
      rw [hl] at h
      exact .inr (hfresh h)
  | some l =>
      simp only [hl] at h
      by_cases hsame : l.1 = a
      · rw [if_pos hsame] at h
        split at h
        · cases h
          exact .inl rfl
        · cases h
      · rw [if_neg hsame] at h
        exact .inr (hfresh h)

/-- What a header is refused with is an error that an image can meet. -/
theorem kind_of_reserve {b : LinkTableBuilder} {a : PackedAddress} {port : PortIndex}
    {kind : PortKind} {count : UInt32} {e : LinkTableError}
    (h : b.reserve a port kind count = .error e) : e.kind ∈ Image.errorKinds := by
  simp only [LinkTableBuilder.reserve] at h
  split at h
  · cases h
    simp [LinkTableError.kind, Image.errorKinds]
  · split at h
    · cases h
      simp [LinkTableError.kind, Image.errorKinds]
    · split at h
      · next e' horder =>
        cases h
        rcases kind_of_orderError? horder with hk | hk <;> simp [hk, Image.errorKinds]
      · split at h
        · cases h
          simp [LinkTableError.kind, Image.errorKinds]
        · cases h

/-- A header that is reserved announces no more entries than there are records left. -/
theorem count_le_of_reserve {b c : LinkTableBuilder} {bs : List LinkBlock} (h : Lays b bs)
    {header : LinkRecord} {rest : List LinkRecord} {i : Nat}
    (hroom : b.records.length = extent (bs.map LinkBlock.header) + (header :: rest).length)
    (hc : b.reserve header.address header.port header.kind header.count = .ok (i, c)) :
    header.count.toNat ≤ rest.length := by
  obtain ⟨-, -, -, hfits, -⟩ := (b.reserve_ok_iff c _ _ _ _ _).1 hc
  rw [hroom, h.cursor, List.length_cons] at hfits
  omega

/-- **One block.** With just enough room for the records that are left, a header and the records
behind it are taken if they are a sound block that may come next, and refused if they are not. -/
theorem layDown_cases {b : LinkTableBuilder} {bs : List LinkBlock} (h : Lays b bs)
    {header : LinkRecord} {rest : List LinkRecord}
    (hroom : b.records.length = extent (bs.map LinkBlock.header) + (header :: rest).length) :
    (∃ c, (LinkBlock.mk header (rest.take header.count.toNat)).Sound ∧
        layDown b (header, rest.take header.count.toNat) = .ok c ∧
        c.records.length = b.records.length ∧ c.nodes = b.nodes ∧
        Lays c (bs ++ [(LinkBlock.mk header (rest.take header.count.toNat)).cleared])) ∨
      ∃ e, ¬ ((LinkBlock.mk header (rest.take header.count.toNat)).Sound ∧
          Continues bs header.address header.port) ∧
        layDown b (header, rest.take header.count.toNat) = .error e ∧
        e.kind ∈ Image.errorKinds := by
  cases hr : b.reserve header.address header.port header.kind header.count with
  | error e =>
      refine .inr ⟨e, ?_, by rw [layDown, hr]; rfl, kind_of_reserve hr⟩
      rintro ⟨hsound, hcontinues⟩
      -- A sound block that may come next is reserved.
      have hpositive : header.count ≠ 0 := by
        intro hzero
        have hlt := hsound.positive
        rw [hzero] at hlt
        exact absurd hlt (by decide)
      have hlength : (rest.take header.count.toNat).length = header.count.toNat := hsound.length
      rw [List.length_take] at hlength
      have hreserve := (b.reserve_ok_iff _ header.address header.port header.kind header.count _).2
        ⟨hsound.valid, hpositive, h.orderError?_eq_none hcontinues,
          by rw [hroom, h.cursor, List.length_cons]; omega, rfl, rfl⟩
      rw [hr] at hreserve
      cases hreserve
  | ok r =>
      obtain ⟨first, d⟩ := r
      have hle := count_le_of_reserve h hroom hr
      obtain ⟨hvalid, hpositive, -, -, hfirst, hd⟩ := (b.reserve_ok_iff d _ _ _ _ _).1 hr
      have hrecords : d.records.length = b.records.length := by
        rw [hd]
        exact List.length_set
      have hsame : d.nodes = b.nodes := by rw [hd]
      have hcount : (rest.take header.count.toNat).length = header.count.toNat := by
        rw [List.length_take]
        omega
      have hlays := h.reserve hr
      have hheader := (hlays.full (LinkTableBuilder.reserved header) (by simp)).positive
      have hblank : LinkTableBuilder.reserved header
          = ⟨header, [] ++ List.replicate
              ((rest.take header.count.toNat).map LinkRecord.toEntry).length .unwritten⟩ := by
        rw [LinkTableBuilder.reserved, List.length_map, hcount, List.nil_append]
      rw [hblank] at hlays
      have hcases := hlays.writeAll_cases
      rw [List.length_nil, Nat.add_zero, LinkBlock.length_flatten h.full, ← h.cursor, ← hfirst]
        at hcases
      rcases hcases with ⟨c, hentries, hc, hlength, hnodes, hdone⟩ | ⟨e, he, hbad, hc⟩
      · have hdown : layDown b (header, rest.take header.count.toNat) = .ok c := by
          rw [layDown, hr]
          show (d.writeAll first _ >>= _) = _
          exact Except.bind_eq_ok.2 ⟨c, hc, if_neg (by omega)⟩
        rw [List.nil_append, List.map_map] at hdone
        exact .inl ⟨c, ⟨⟨hvalid, hheader, hcount⟩, fun x hx =>
          hentries x.toEntry (List.mem_map_of_mem hx)⟩, hdown, hlength.trans hrecords,
          hnodes.trans hsame, hdone⟩
      · have hdown : layDown b (header, rest.take header.count.toNat)
            = .error (.invalidAddress e.address) := by
          rw [layDown, hr]
          show (d.writeAll first _ >>= _) = _
          rw [hc]
          rfl
        refine .inr ⟨_, ?_, hdown, by simp [LinkTableError.kind, Image.errorKinds]⟩
        rintro ⟨hsound, -⟩
        obtain ⟨x, hx, rfl⟩ := List.mem_map.1 he
        have hgood := hsound.entries x hx
        rw [show x.address.isValid = false from hbad] at hgood
        cases hgood

/-! ### A row of blocks -/

/-- **A row of blocks.** With just enough room for them, records are taken if they are a row of
sound blocks, and refused if there is no such row with headers in order. -/
theorem foldlM_layDown_cases {records : List LinkRecord} {b : LinkTableBuilder}
    {bs : List LinkBlock} (h : Lays b bs)
    (hroom : b.records.length = extent (bs.map LinkBlock.header) + records.length) :
    (∃ cs c, records = LinkBlock.flatten cs ∧ (∀ x ∈ cs, x.Sound) ∧
        (blocks records).foldlM layDown b = .ok c ∧ c.records.length = b.records.length ∧
        c.nodes = b.nodes ∧ Lays c (bs ++ cs.map LinkBlock.cleared)) ∨
      ∃ e, (∀ cs, records = LinkBlock.flatten cs → (∀ x ∈ cs, x.Sound) →
          ¬ Grouped ((bs ++ cs).map LinkBlock.header)) ∧
        (blocks records).foldlM layDown b = .error e ∧ e.kind ∈ Image.errorKinds := by
  induction records using blocks.induct generalizing b bs with
  | case1 =>
      rw [blocks]
      exact .inl ⟨[], b, rfl, by simp, rfl, rfl, rfl, by simpa using h⟩
  | case2 header rest ih =>
      rw [blocks, List.foldlM_cons]
      -- A row of blocks that makes up these records starts with the block that was just laid down.
      have hsplit : ∀ cs, header :: rest = LinkBlock.flatten cs → (∀ x ∈ cs, x.Sound) →
          ∃ cs', cs = ⟨header, rest.take header.count.toNat⟩ :: cs' ∧
            rest.drop header.count.toNat = LinkBlock.flatten cs' := by
        intro cs hcs hsound
        cases cs with
        | nil => cases hcs
        | cons x cs =>
            rw [LinkBlock.flatten, List.cons.injEq] at hcs
            obtain ⟨rfl, rfl⟩ := hcs
            have hlength := (hsound x (by simp)).length
            rw [← hlength, List.take_left, List.drop_left]
            exact ⟨cs, rfl, rfl⟩
      rcases layDown_cases h hroom with
        ⟨c, hsound, hc, hlength, hnodes, hlays⟩ | ⟨e, hbad, he, hkind⟩
      · have hcount : (rest.take header.count.toNat).length = header.count.toNat := hsound.length
        have hroom' : c.records.length
            = extent ((bs ++ [(LinkBlock.mk header (rest.take header.count.toNat)).cleared]).map
                LinkBlock.header) + (rest.drop header.count.toNat).length := by
          rw [List.length_take] at hcount
          rw [hlength, hroom, List.map_append, extent_append, List.map_singleton, extent_cons,
            extent_nil, List.length_cons, List.length_drop]
          simp only [LinkBlock.cleared, LinkRecord.blockLength]
          omega
        rcases ih hlays hroom' with
          ⟨cs, d, hrest, hcs, hd, hlength', hnodes', hlays'⟩ | ⟨e, hbad, he, hkind⟩
        · refine .inl ⟨⟨header, rest.take header.count.toNat⟩ :: cs, d, ?_, ?_, ?_,
            hlength'.trans hlength, hnodes'.trans hnodes, ?_⟩
          · rw [LinkBlock.flatten, ← hrest, List.take_append_drop]
          · exact List.forall_mem_cons.2 ⟨hsound, hcs⟩
          · exact Except.bind_eq_ok.2 ⟨c, hc, hd⟩
          · rw [List.map_cons]
            simpa only [List.append_assoc, List.singleton_append] using hlays'
        · refine .inr ⟨e, fun cs hcs hs hgrouped => ?_, ?_, hkind⟩
          · obtain ⟨cs', rfl, hrest⟩ := hsplit cs hcs hs
            refine hbad cs' hrest (fun x hx => hs x (by simp [hx])) ?_
            simpa [LinkBlock.cleared] using hgrouped
          · rw [hc]
            exact he
      · refine .inr ⟨e, fun cs hcs hs hgrouped => ?_, ?_, hkind⟩
        · obtain ⟨cs', rfl, -⟩ := hsplit cs hcs hs
          rw [List.map_append, List.map_cons] at hgrouped
          exact hbad ⟨hs _ (by simp), LinkTableBuilder.continues_of_grouped hgrouped⟩
        · rw [he]
          rfl

/-! ### The image -/

/-- What a node is refused with is an error that an image can meet. -/
theorem kind_of_pushNodes {as : List PackedAddress} {b : LinkTableBuilder} {e : LinkTableError}
    (h : b.pushNodes as = .error e) : e.kind ∈ Image.errorKinds := by
  induction as generalizing b with
  | nil => cases h
  | cons a as ih =>
      rw [LinkTableBuilder.pushNodes] at h
      cases hd : b.pushNode a with
      | ok d =>
          rw [hd] at h
          exact ih h
      | error e' =>
          rw [hd] at h
          cases h
          unfold LinkTableBuilder.pushNode at hd
          split at hd
          · cases hd
            simp [LinkTableError.kind, Image.errorKinds]
          · split at hd
            · cases hd
              simp [LinkTableError.kind, Image.errorKinds]
            · cases hd

/-- Once the nodes are taken, the blocks decide. -/
theorem ofImage_of_pushed {i : Image} {b : LinkTableBuilder}
    (hb : (LinkTableBuilder.withCapacity i.nodes.length i.records.length).pushNodes i.nodes
      = .ok b) :
    ofImage i = match (blocks i.records).foldlM layDown b with
      | Except.error e => pure (Except.error e)
      | Except.ok c => c.finish := by
  unfold ofImage
  rw [hb]
  rfl

/-- Without the nodes, nothing is laid down. -/
theorem ofImage_of_refused {i : Image} {e : LinkTableError}
    (he : (LinkTableBuilder.withCapacity i.nodes.length i.records.length).pushNodes i.nodes
      = .error e) : ofImage i = pure (.error e) := by
  unfold ofImage
  rw [he]
  rfl

/-- An image becomes the table of its blocks if it consists of blocks, and is refused if not. -/
theorem ofImage_cases (i : Image) :
    (∃ bs t, i.ConsistsOf bs ∧ ofImage i = pure (.ok t) ∧ t.nodes = i.nodes ∧
        t.records = LinkBlock.flatten (bs.map LinkBlock.cleared)) ∨
      ∃ e, (∀ bs, ¬ i.ConsistsOf bs) ∧ ofImage i = pure (.error e) ∧
        e.kind ∈ Image.errorKinds := by
  cases hb : (LinkTableBuilder.withCapacity i.nodes.length i.records.length).pushNodes i.nodes with
  | error e =>
      refine .inr ⟨e, fun bs hbs => ?_, ofImage_of_refused hb, kind_of_pushNodes hb⟩
      obtain ⟨c, hc, -⟩ := LinkTableBuilder.pushNodes_ok
        (LinkTableBuilder.lays_withCapacity i.nodes.length i.records.length) hbs.nodes
        (Nat.le_of_eq (Nat.zero_add _))
      rw [hb] at hc
      cases hc
  | ok b =>
      have hvalid := LinkTableBuilder.valid_of_pushNodes hb
      obtain ⟨b', hb', hlays, hnodes, hlength⟩ := LinkTableBuilder.pushNodes_ok
        (LinkTableBuilder.lays_withCapacity i.nodes.length i.records.length) hvalid
        (Nat.le_of_eq (Nat.zero_add _))
      obtain rfl : b = b' := Except.ok.inj (hb.symm.trans hb')
      have hroom : b.records.length = extent (([] : List LinkBlock).map LinkBlock.header)
          + i.records.length := by
        rw [hlength, List.map_nil, extent_nil, Nat.zero_add]
        exact List.length_replicate
      rcases foldlM_layDown_cases hlays hroom with
        ⟨cs, c, hrecords, hsound, hc, hlength', hnodes', hdone⟩ | ⟨e, hbad, he, hkind⟩
      · rw [List.nil_append] at hdone
        have hfilled : ∀ x ∈ cs.map LinkBlock.cleared, ∀ r ∈ x.entries, r ≠ .unwritten := by
          intro x hx r hr
          obtain ⟨y, hy, rfl⟩ := List.mem_map.1 hx
          obtain ⟨r', hr', rfl⟩ := List.mem_map.1 hr
          exact LinkTableBuilder.ne_unwritten_of_valid ((hsound y hy).entries r' hr')
        have hspace : c.records.length
            = extent ((cs.map LinkBlock.cleared).map LinkBlock.header) := by
          rw [hlength', hroom, hrecords, LinkBlock.length_flatten fun x hx => (hsound x hx).toFull,
            List.map_nil, extent_nil, Nat.zero_add, List.map_map]
          rfl
        obtain ⟨-, hfinish⟩ := hdone.finish_ok hfilled hspace
        have hholds := (hdone.finish (t := ⟨c.nodes, c.records, c.spans⟩) (by rw [hfinish]; rfl)).1
        refine .inl ⟨cs, ⟨c.nodes, c.records, c.spans⟩, ⟨hvalid, hrecords, hsound, ?_⟩, ?_, ?_,
          hholds.records⟩
        · have hgrouped := grouped_of_spanned fun a => ⟨_, hdone.spans a⟩
          rwa [List.map_map] at hgrouped
        · rw [ofImage_of_pushed hb, hc]
          exact hfinish
        · exact hnodes'.trans hnodes
      · refine .inr ⟨e, fun bs hbs => hbad bs hbs.records hbs.sound hbs.grouped, ?_, hkind⟩
        rw [ofImage_of_pushed hb, he]

/-! ### Loading by places -/

/-- Fill entries with the records from a place on. Nothing at all if a place behind the last record
would have to be read. -/
def fillFrom? (records : List LinkRecord) (b : LinkTableBuilder) (first index : Nat) :
    Nat → Option (Except LinkTableError LinkTableBuilder)
  | 0 => some (.ok b)
  | n + 1 =>
    match records[index]? with
    | none => none
    | some r =>
      match b.write first r.toEntry with
      | .error e => some (.error e)
      | .ok c => fillFrom? records c (first + 1) (index + 1) n

/-- Lay down a header and the entries behind its place. -/
def layDownFrom? (records : List LinkRecord) (b : LinkTableBuilder) (index : Nat)
    (header : LinkRecord) : Option (Except LinkTableError LinkTableBuilder) :=
  match b.reserve header.address header.port header.kind header.count with
  | .error e => some (.error e)
  | .ok (first, c) => fillFrom? records c first (index + 1) header.count.toNat

/-- Walk from header to header, the first at a place, and have each laid down with what follows it.
Nothing at all if a place behind the last record would have to be read. -/
def walkFrom? (records : List LinkRecord)
    (lay : LinkTableBuilder → Nat → LinkRecord → Option (Except LinkTableError LinkTableBuilder))
    (b : LinkTableBuilder) (index : Nat) : Option (Except LinkTableError LinkTableBuilder) :=
  if index < records.length then
    match records[index]? with
    | none => none
    | some header =>
      match lay b index header with
      | some (.ok c) => walkFrom? records lay c (index + header.blockLength)
      | stopped => stopped
  else some (.ok b)
termination_by records.length - index
decreasing_by simp only [LinkRecord.blockLength]; omega

/-- A table from its persisted form, every record being read by its place. -/
def Image.loadByPlaces? (i : Image) : Option (Noted (Except LinkTableError LinkTable)) :=
  match (LinkTableBuilder.withCapacity i.nodes.length i.records.length).pushNodes i.nodes with
  | .error e => some (pure (.error e))
  | .ok b =>
    (walkFrom? i.records (layDownFrom? i.records) b 0).map fun
      | .error e => pure (.error e)
      | .ok c => c.finish

/-- Entries whose places all lie among the records are read without a miss. -/
theorem fillFrom?_eq {records : List LinkRecord} {b : LinkTableBuilder} {first index n : Nat}
    (h : index + n ≤ records.length) :
    fillFrom? records b first index n
      = some (b.writeAll first (((records.drop index).take n).map LinkRecord.toEntry)) := by
  induction n generalizing b first index with
  | zero =>
      rw [List.take_zero]
      rfl
  | succ n ih =>
      have hlt : index < records.length := by omega
      rw [List.drop_eq_getElem_cons hlt, List.take_succ_cons, List.map_cons,
        LinkTableBuilder.writeAll, fillFrom?, List.getElem?_eq_getElem hlt]
      simp only
      cases hw : b.write first records[index].toEntry with
      | error e => rfl
      | ok c => exact ih (by omega)

/-- A block is laid down from its place as it is from its records. -/
theorem layDownFrom?_eq {records rest : List LinkRecord} {b : LinkTableBuilder}
    {bs : List LinkBlock} (h : Lays b bs) {index : Nat} {header : LinkRecord}
    (hrest : records.drop index = header :: rest)
    (hroom : b.records.length = extent (bs.map LinkBlock.header) + (header :: rest).length) :
    layDownFrom? records b index header
      = some (layDown b (header, rest.take header.count.toNat)) := by
  rw [layDownFrom?, layDown]
  cases hr : b.reserve header.address header.port header.kind header.count with
  | error e => rfl
  | ok r =>
      obtain ⟨first, c⟩ := r
      have hle := count_le_of_reserve h hroom hr
      have hlength := congrArg List.length hrest
      rw [List.length_drop, List.length_cons] at hlength
      have hbehind : records.drop (index + 1) = rest := by
        rw [← List.drop_drop, hrest, List.drop_succ_cons, List.drop_zero]
      simp only
      rw [fillFrom?_eq (by omega), hbehind]
      show _ = some (c.writeAll first _ >>= _)
      cases c.writeAll first ((rest.take header.count.toNat).map LinkRecord.toEntry) with
      | error e => rfl
      | ok d =>
          have hcount : ¬ (rest.take header.count.toNat).length < header.count.toNat := by
            rw [List.length_take]
            omega
          exact congrArg some (if_neg hcount).symm

/-- **In step.** While the builder has just enough room for the records that are left, no place
behind the last record is read, and the blocks are laid down one after the other. -/
theorem walkFrom?_eq {records rest : List LinkRecord} {b : LinkTableBuilder} {bs : List LinkBlock}
    (h : Lays b bs) {index : Nat} (hrest : records.drop index = rest)
    (hroom : b.records.length = extent (bs.map LinkBlock.header) + rest.length) :
    walkFrom? records (layDownFrom? records) b index = some ((blocks rest).foldlM layDown b) := by
  induction rest using blocks.induct generalizing b bs index with
  | case1 =>
      have hle := List.drop_eq_nil_iff.1 hrest
      rw [walkFrom?, if_neg (by omega), blocks]
      rfl
  | case2 header rest ih =>
      have hfirst : records[index]? = some header := by
        rw [← List.head?_drop, hrest]
        rfl
      obtain ⟨hlt, -⟩ := List.getElem?_eq_some_iff.1 hfirst
      rw [walkFrom?, if_pos hlt, hfirst, blocks, List.foldlM_cons]
      simp only
      rw [layDownFrom?_eq h hrest hroom]
      rcases layDown_cases h hroom with ⟨c, hsound, hc, hlength, -, hlays⟩ | ⟨e, -, he, -⟩
      · have hcount : (rest.take header.count.toNat).length = header.count.toNat := hsound.length
        rw [List.length_take] at hcount
        rw [hc]
        refine ih hlays ?_ ?_
        · rw [LinkRecord.blockLength, ← List.drop_drop, hrest]
          rfl
        · rw [hlength, hroom, List.map_append, extent_append, List.map_singleton, extent_cons,
            extent_nil, List.length_cons, List.length_drop]
          simp only [LinkBlock.cleared, LinkRecord.blockLength]
          omega
      · rw [he]
        rfl

/-- Loading by places never misses, and comes to what loading comes to. -/
theorem Image.loadByPlaces?_eq (i : Image) : i.loadByPlaces? = some (ofImage i) := by
  rw [Image.loadByPlaces?]
  cases hb : (LinkTableBuilder.withCapacity i.nodes.length i.records.length).pushNodes i.nodes with
  | error e => exact congrArg some (ofImage_of_refused hb).symm
  | ok b =>
      obtain ⟨b', hb', hlays, -, hlength⟩ := LinkTableBuilder.pushNodes_ok
        (LinkTableBuilder.lays_withCapacity i.nodes.length i.records.length)
        (LinkTableBuilder.valid_of_pushNodes hb) (Nat.le_of_eq (Nat.zero_add _))
      obtain rfl : b = b' := Except.ok.inj (hb.symm.trans hb')
      have hroom : b.records.length = extent (([] : List LinkBlock).map LinkBlock.header)
          + i.records.length := by
        rw [hlength, List.map_nil, extent_nil, Nat.zero_add]
        exact List.length_replicate
      simp only
      rw [walkFrom?_eq hlays (List.drop_zero) hroom, ofImage_of_pushed hb]
      cases (blocks i.records).foldlM layDown b with
      | error e => rfl
      | ok c => rfl

/-! ### What is loaded -/

/-- **Loading accepts exactly the rows of blocks.** An image becomes a table if and only if it
consists of blocks. The table then has the image's nodes and its records, with the counts of
entries set to zero; any other image is refused with an error that tells of a node, a header or the
room. No record is looked for behind the last one. -/
theorem Image.loads_exactly (i : Image) :
    ((∃ t, (ofImage i).value = .ok t) ↔ ∃ bs, i.ConsistsOf bs) ∧
      (∀ t bs, (ofImage i).value = .ok t → i.ConsistsOf bs →
        t.nodes = i.nodes ∧ t.records = LinkBlock.flatten (bs.map LinkBlock.cleared)) ∧
      (∀ e, (ofImage i).value = .error e → e.kind ∈ Image.errorKinds) ∧
      i.loadByPlaces? = some (ofImage i) := by
  refine ⟨?_, ?_, ?_, i.loadByPlaces?_eq⟩
  all_goals rcases ofImage_cases i with ⟨bs, t, hbs, ht, hnodes, hrecords⟩ | ⟨e, hbad, he, hkind⟩
  · exact iff_of_true ⟨t, by rw [ht]; rfl⟩ ⟨bs, hbs⟩
  · refine iff_of_false (fun h => ?_) fun h => ?_
    · obtain ⟨t, ht⟩ := h
      rw [he] at ht
      cases ht
    · obtain ⟨bs, hbs⟩ := h
      exact hbad bs hbs
  · intro u cs hu hcs
    rw [ht] at hu
    cases hu
    have hsame := LinkBlock.flatten_injective (fun x hx => (hbs.sound x hx).toFull)
      (fun x hx => (hcs.sound x hx).toFull) (hbs.records.symm.trans hcs.records)
    exact ⟨hnodes, hsame ▸ hrecords⟩
  · intro u cs hu hcs
    exact absurd hcs (hbad cs)
  · intro e he
    rw [ht] at he
    cases he
  · intro e' he'
    rw [he] at he'
    cases he'
    exact hkind

end LinkTable

end FlowGraph
