import FlowGraph.Demo.Sample
import FlowGraph.Program.Compile
import FlowGraph.Proofs.Json.RoundTrip
import FlowGraph.Proofs.Link.Loading

/-!
# Saving and loading a link table

A table is saved as its two lists, without its index. Whatever calls it was built with, the records
are a row of blocks in the order that loading asks for, so loading takes them, leaves each as it is
and finds the index anew.

* `LinkTable.Image.decode?_encode` — the two lists as JSON and back.
* `LinkTable.Built.nodes_valid`, `LinkTable.Built.consistsOf` — what is saved can be loaded.
* `Graph.built_compile` — compiled tables come about like any others.
* `LinkTable.Built.reloads` — the table that comes back is as good as the one that was saved.
-/

namespace FlowGraph

/-! ### Images as JSON -/

namespace Json

/-- A 64-bit number is read back. -/
theorem uint64?_int (n : UInt64) : (int n.toNat).uint64? = some n := by
  rw [uint64?, natBelow?_int n.toNat_lt]
  simp

/-- A field that was found is read. -/
theorem Record.required_eq {α : Type} {r : Record} {i : Nat} {j : Json} (read : Json → Option α)
    (h : r.found[i]? = some (some j)) : r.required i read = read j := by
  rw [required, raw?, h]
  rfl

/-- A list is read back if its items are. -/
theorem listOf?_array_map {α : Type} {write : α → Json} {read : Json → Option α}
    (h : ∀ x, read (write x) = some x) (xs : List α) :
    (array (xs.map write)).listOf? read = some xs := by
  show (xs.map write).mapM read = some xs
  induction xs with
  | nil => rfl
  | cons x xs ih =>
      rw [List.map_cons, List.mapM_cons, h, ih]
      rfl

theorem plain_uint64 (n : UInt64) : Plain (int n.toNat) := by
  have hlt := n.toNat_lt
  exact .int (by omega) (by omega)

theorem plain_uint32 (n : UInt32) : Plain (int n.toNat) := by
  have hlt := n.toNat_lt
  exact .int (by omega) (by omega)

end Json

theorem PortKind.ofName?_name (k : PortKind) : ofName? k.name = some k := by
  cases k <;> decide

namespace LinkRecord

/-- The fields that a written record is found to have. -/
def fields (r : LinkRecord) : Json.Record where
  found := [some (.int r.address.raw.toNat), some (.int r.port.raw.toNat),
    some (.text r.kind.name), some (.int r.count.toNat)]
  positional := false
  repeated := false
  excess := false

theorem ofJson?_encode (r : LinkRecord) :
    Json.Record.ofJson? ["address", "port", "kind", "count"] r.encode = some r.fields := by
  rw [encode, Json.Record.ofJson?, fields]
  simp

/-- A record is read back. -/
theorem decode?_encode (r : LinkRecord) : decode? r.encode = some r := by
  have haddress : r.fields.required 0 Json.uint64? = some r.address.raw :=
    (Json.Record.required_eq _ rfl).trans (Json.uint64?_int _)
  have hport : r.fields.required 1 Json.uint32? = some r.port.raw :=
    (Json.Record.required_eq _ rfl).trans (Json.uint32?_int _)
  have hkind : r.fields.required 2 (Json.oneOf? PortKind.ofName?) = some r.kind :=
    (Json.Record.required_eq (j := .text r.kind.name) _ rfl).trans (PortKind.ofName?_name _)
  have hcount : r.fields.required 3 Json.uint32? = some r.count :=
    (Json.Record.required_eq _ rfl).trans (Json.uint32?_int _)
  unfold decode?
  rw [ofJson?_encode, Option.bind_eq_bind, Option.bind_some]
  simp only [Option.bind_eq_bind, Option.bind_some, haddress, hport, hkind, hcount]
  exact if_pos rfl

theorem plain_encode (r : LinkRecord) : r.encode.Plain := by
  refine .object fun m hm => ?_
  simp only [List.mem_cons, List.not_mem_nil, or_false] at hm
  rcases hm with rfl | rfl | rfl | rfl
  · exact Json.plain_uint64 _
  · exact Json.plain_uint32 _
  · exact .text _
  · exact Json.plain_uint32 _

end LinkRecord

namespace LinkTable

/-- The fields that a written image is found to have. -/
def Image.fields (i : Image) : Json.Record where
  found := [some (.array (i.nodes.map fun a => .int a.raw.toNat)),
    some (.array (i.records.map LinkRecord.encode))]
  positional := false
  repeated := false
  excess := false

theorem Image.ofJson?_encode (i : Image) :
    Json.Record.ofJson? ["nodes", "records"] i.encode = some i.fields := by
  rw [encode, Json.Record.ofJson?, fields]
  simp

/-- An image is read back. -/
theorem Image.decode?_encode (i : Image) : Image.decode? i.encode = some i := by
  have hnodes : i.fields.required 0 (Json.listOf? fun j => j.uint64?.map PackedAddress.mk)
      = some i.nodes :=
    (Json.Record.required_eq _ rfl).trans
      (Json.listOf?_array_map (fun a => by rw [Json.uint64?_int]; rfl) i.nodes)
  have hrecords : i.fields.required 1 (Json.listOf? LinkRecord.decode?) = some i.records :=
    (Json.Record.required_eq _ rfl).trans
      (Json.listOf?_array_map LinkRecord.decode?_encode i.records)
  unfold Image.decode?
  rw [Image.ofJson?_encode, Option.bind_eq_bind, Option.bind_some]
  simp only [Option.bind_eq_bind, Option.bind_some, hnodes, hrecords]
  exact if_pos rfl

theorem Image.plain_encode (i : Image) : i.encode.Plain := by
  refine .object fun m hm => ?_
  simp only [List.mem_cons, List.not_mem_nil, or_false] at hm
  rcases hm with rfl | rfl
  · refine .array fun j hj => ?_
    obtain ⟨a, -, rfl⟩ := List.mem_map.1 hj
    exact Json.plain_uint64 _
  · refine .array fun j hj => ?_
    obtain ⟨r, -, rfl⟩ := List.mem_map.1 hj
    exact r.plain_encode

/-- A text that was written for a table says what its image says. -/
theorem parse_toJson {t u : LinkTable} (h : ofImage t.image = pure (.ok u)) :
    parse t.toJson = pure (.ok u) := by
  unfold parse
  rw [toJson, t.image.plain_encode.parsePrefix?_pretty]
  simp only [Image.decode?_encode, h]
  rfl

/-! ### Tables that come about -/

open LinkTableBuilder (Call)

/-- Accepted or not, a call leaves only nodes with valid addresses. -/
theorem nodes_attempt {b : LinkTableBuilder} (h : ∀ a ∈ b.nodes, a.isValid = true) (call : Call) :
    ∀ a ∈ (b.attempt call).nodes, a.isValid = true := by
  cases call with
  | pushNode a =>
      show ∀ x ∈ ((b.pushNode a).toOption.getD b).nodes, x.isValid = true
      cases hc : b.pushNode a with
      | error e => exact h
      | ok c =>
          obtain ⟨hvalid, -, rfl⟩ := (b.pushNode_ok_iff c a).1 hc
          exact List.forall_mem_append.2 ⟨h, List.forall_mem_singleton.2 hvalid⟩
  | reserve a port kind count =>
      show ∀ x ∈ (((b.reserve a port kind count).toOption.map Prod.snd).getD b).nodes, _
      cases hc : b.reserve a port kind count with
      | error e => exact h
      | ok r =>
          obtain ⟨-, -, -, -, -, hr⟩ := (b.reserve_ok_iff r.2 a port kind count r.1).1 hc
          show ∀ x ∈ r.2.nodes, _
          rw [hr]
          exact h
  | write i e =>
      show ∀ x ∈ ((b.write i e).toOption.getD b).nodes, x.isValid = true
      cases hc : b.write i e with
      | error e => exact h
      | ok c =>
          obtain ⟨-, -, -, rfl⟩ := (b.write_ok_iff c i e).1 hc
          exact h

theorem nodes_foldl_attempt (calls : List Call) {b : LinkTableBuilder}
    (h : ∀ a ∈ b.nodes, a.isValid = true) :
    ∀ a ∈ (calls.foldl LinkTableBuilder.attempt b).nodes, a.isValid = true := by
  induction calls generalizing b with
  | nil => exact h
  | cons call calls ih => exact ih (nodes_attempt h call)

/-- The nodes of a table have valid addresses. -/
theorem Built.nodes_valid {t : LinkTable} (h : t.Built) : ∀ a ∈ t.nodes, a.isValid = true := by
  cases h with
  | sealed nodes records calls done =>
      obtain ⟨bs, hbs⟩ := LinkTableBuilder.lays_foldl_attempt nodes records calls
      rw [(hbs.finish done).2]
      exact nodes_foldl_attempt calls fun a ha => absurd ha List.not_mem_nil
  | loaded i done =>
      rcases ofImage_cases i with ⟨bs, u, hbs, hu, hnodes, -⟩ | ⟨e, -, he, -⟩
      · rw [hu] at done
        cases done
        rw [hnodes]
        exact hbs.nodes
      · rw [he] at done
        cases done

/-- Blocks of a table are not changed by clearing them: their entries count nothing. -/
theorem Holds.cleared {t : LinkTable} {bs : List LinkBlock} (h : t.Holds bs) :
    bs.map LinkBlock.cleared = bs := by
  refine (List.map_congr_left fun x hx => ?_).trans (List.map_id bs)
  have hentries : x.entries.map (fun r => { r with count := 0 }) = x.entries := by
    refine (List.map_congr_left fun r hr => ?_).trans (List.map_id x.entries)
    obtain ⟨-, hcount⟩ := h.entries x hx r hr
    cases r
    cases hcount
    rfl
  rw [LinkBlock.cleared, hentries]
  rfl

/-- **What is saved can be loaded.** The image of a table consists of the table's blocks. -/
theorem Built.consistsOf {t : LinkTable} (h : t.Built) {bs : List LinkBlock} (hbs : t.Holds bs) :
    t.image.ConsistsOf bs where
  nodes := h.nodes_valid
  records := hbs.records
  sound x hx := ⟨hbs.full x hx, fun r hr => (hbs.entries x hx r hr).1⟩
  grouped := grouped_of_spanned fun a => ⟨_, hbs.spans a⟩

/-- Lookups depend on the records only: whatever the index, it leads to the same headers. -/
theorem Holds.getLinks_congr {t u : LinkTable} {bs cs : List LinkBlock} (ht : t.Holds bs)
    (hu : u.Holds cs) (h : u.records = t.records) (a : PackedAddress) (port : PortIndex) :
    u.getLinks a port = t.getLinks a port := by
  rw [hu.getLinks_eq, ht.getLinks_eq, header?, header?, headers, headers, h]

end LinkTable

/-! ### Compiled tables -/

namespace LinkTableBuilder

/-- Some calls lead from one builder to another. -/
def Reaches (b c : LinkTableBuilder) : Prop := ∃ calls : List Call, calls.foldl attempt b = c

theorem Reaches.refl (b : LinkTableBuilder) : Reaches b b := ⟨[], rfl⟩

theorem Reaches.trans {b c d : LinkTableBuilder} (h : Reaches b c) (h' : Reaches c d) :
    Reaches b d := by
  obtain ⟨calls, rfl⟩ := h
  obtain ⟨calls', rfl⟩ := h'
  exact ⟨calls ++ calls', List.foldl_append⟩

theorem Reaches.attempt (b : LinkTableBuilder) (call : Call) : Reaches b (b.attempt call) :=
  ⟨[call], rfl⟩

theorem Reaches.pushNodes {as : List PackedAddress} {b c : LinkTableBuilder}
    (h : b.pushNodes as = .ok c) : Reaches b c := by
  induction as generalizing b with
  | nil =>
      cases h
      exact .refl _
  | cons a as ih =>
      obtain ⟨d, hd, hrest⟩ := Except.bind_eq_ok.1 h
      have hcall := Reaches.attempt b (.pushNode a)
      rw [LinkTableBuilder.attempt, hd] at hcall
      exact hcall.trans (ih hrest)

theorem Reaches.writeAll {es : List LinkEntry} {b c : LinkTableBuilder} {i : Nat}
    (h : b.writeAll i es = .ok c) : Reaches b c := by
  induction es generalizing b i with
  | nil =>
      cases h
      exact .refl _
  | cons e es ih =>
      obtain ⟨d, hd, hrest⟩ := Except.bind_eq_ok.1 h
      have hcall := Reaches.attempt b (.write i e)
      rw [LinkTableBuilder.attempt, hd] at hcall
      exact hcall.trans (ih hrest)

/-- A planned port is laid down by calls of the builder, and so are all. -/
theorem Reaches.layDown_all {plan : List PortPlan} {b c : LinkTableBuilder}
    (h : plan.foldlM PortPlan.layDown b = .ok c) : Reaches b c := by
  induction plan generalizing b with
  | nil =>
      cases h
      exact .refl _
  | cons p plan ih =>
      rw [List.foldlM_cons] at h
      obtain ⟨d, hd, hrest⟩ := Except.bind_eq_ok.1 h
      obtain ⟨⟨first, e⟩, he, hentries⟩ := Except.bind_eq_ok.1 hd
      have hcall := Reaches.attempt b
        (.reserve p.address p.near.port p.kind p.targets.length.toUInt32)
      rw [LinkTableBuilder.attempt, he] at hcall
      exact (hcall.trans (.writeAll hentries)).trans (ih hrest)

end LinkTableBuilder

namespace LinkTable

open LinkTableBuilder (Reaches)

theorem Built.of_reaches {nodes records : Nat} {b : LinkTableBuilder} {t : LinkTable}
    (h : Reaches (.withCapacity nodes records) b) (ht : b.finish.value = .ok t) : t.Built := by
  obtain ⟨calls, rfl⟩ := h
  exact .sealed nodes records calls ht

/-- The table of a plan is sealed after calls of the builder. -/
theorem built_ofPlan {nodes : List PackedAddress} {plan : List PortPlan} {stats : CompileStats}
    {t : LinkTable} (h : (ofPlan nodes plan stats).value.1 = .ok t) : t.Built := by
  unfold ofPlan at h
  split at h
  · cases h
  · next b hb =>
    obtain ⟨c, hc, hrest⟩ := Except.bind_eq_ok.1 hb
    exact .of_reaches ((Reaches.pushNodes hc).trans (.layDown_all hrest)) h

/-- The table without links is what the builder makes of nodes alone: it passes over those that it
does not take. -/
theorem built_ofNodes (nodes : List PackedAddress) : (ofNodes nodes).Built := by
  have hpush : ∀ (as : List PackedAddress) (b : LinkTableBuilder),
      b.nodes.length + as.length ≤ b.nodeCapacity →
      Reaches b { b with nodes := b.nodes ++ as.filter PackedAddress.isValid } := by
    intro as
    induction as with
    | nil =>
        intro b _
        rw [List.filter_nil, List.append_nil]
        exact .refl b
    | cons a as ih =>
        intro b hroom
        rw [List.length_cons] at hroom
        have hcall := Reaches.attempt b (.pushNode a)
        by_cases hvalid : a.isValid = true
        · have hok := (b.pushNode_ok_iff _ a).2 ⟨hvalid, by omega, rfl⟩
          rw [LinkTableBuilder.attempt, hok] at hcall
          have hleft : (b.nodes ++ [a]).length + as.length ≤ b.nodeCapacity := by
            rw [List.length_append, List.length_singleton]
            omega
          have hrest := ih { b with nodes := b.nodes ++ [a] } hleft
          rw [List.filter_cons_of_pos hvalid]
          simpa only [List.append_assoc, List.singleton_append] using hcall.trans hrest
        · rw [List.filter_cons_of_neg hvalid]
          exact ih b (by omega)
  have hreach := hpush nodes (.withCapacity nodes.length 0) (Nat.le_of_eq (Nat.zero_add _))
  exact .of_reaches hreach rfl

end LinkTable

namespace Graph

/-- The table of a program comes about, if what is made of an objection does. -/
theorem built_compileWith {ε : Type} {g : Graph} {config : PoolConfig}
    {recover : LinkTableError → List PackedAddress → Noted (Except ε LinkTable)}
    (hrecover : ∀ e nodes t, (recover e nodes).value = .ok t → t.Built) {P : Program}
    (h : (g.compileWith config recover).value = .ok P) : P.links.Built := by
  unfold compileWith at h
  simp only [Noted.value_bind] at h
  split at h
  · next t ht =>
    cases h
    exact LinkTable.built_ofPlan ht
  · next e _ =>
    simp only [Noted.value_bind] at h
    split at h
    · cases h
    · next t ht =>
      cases h
      exact hrecover _ _ t ht

/-- **Compiled tables come about** by calls of the builder, whatever the graph. -/
theorem built_compile (g : Graph) (config : PoolConfig) :
    (g.compile config).value.links.Built := by
  unfold compile
  simp only [Noted.value_bind]
  split
  next P hP =>
    refine built_compileWith (fun e nodes t ht => ?_) hP
    cases ht
    exact LinkTable.built_ofNodes nodes

/-- Strictly compiled ones do, too. -/
theorem built_tryCompile {g : Graph} {config : PoolConfig} {P : Program}
    (h : (g.tryCompile config).value = .ok P) : P.links.Built :=
  built_compileWith (fun _ _ _ ht => by cases ht) h

end Graph

/-! ### What comes back -/

namespace LinkTable

/-- A table that is saved and loaded, as its image or as text, comes back without a notice: the same
nodes and records, counted the same, and the same answer to every lookup. -/
def Reloads (t : LinkTable) : Prop :=
  ∃ u, ofImage t.image = pure (.ok u) ∧ parse t.toJson = pure (.ok u) ∧
    u.nodes = t.nodes ∧ u.records = t.records ∧
    u.headerCount = t.headerCount ∧ u.linkCount = t.linkCount ∧
    ∀ a port, u.getLinks a port = t.getLinks a port

/-- **Saving and loading loses nothing**, whatever calls the table was built with. -/
theorem Built.reloads {t : LinkTable} (h : t.Built) : t.Reloads := by
  obtain ⟨bs, hbs⟩ := h.holds
  rcases ofImage_cases t.image with ⟨cs, u, hcs, hu, hnodes, hrecords⟩ | ⟨e, hbad, -, -⟩
  · have hblocks : cs = bs := LinkBlock.flatten_injective (fun x hx => (hcs.sound x hx).toFull)
      hbs.full (hcs.records.symm.trans hbs.records)
    have hsame : u.records = t.records := by
      rw [hrecords, hblocks, hbs.cleared, hbs.records]
    obtain ⟨ds, hds⟩ := (Built.loaded t.image (congrArg Noted.value hu)).holds
    refine ⟨u, hu, parse_toJson hu, hnodes, hsame, ?_, ?_, fun a port => ?_⟩
    · rw [headerCount, headerCount, hsame]
    · rw [linkCount, linkCount, headerCount, headerCount, hsame]
    · exact hbs.getLinks_congr hds hsame a port
  · exact absurd (h.consistsOf hbs) (hbad bs)

/-- A table with room to spare whose entries were not all accepted, and the table of the sample. -/
theorem Built.reloads_stray_sample :
    (∃ t : LinkTable, t.Built ∧ t.Reloads ∧ t.linkCount = 2) ∧
      (Sample.graph.value.compile .standard).value.links.Reloads ∧
      (Sample.graph.value.compile .standard).value.links.linkCount = 22 := by
  have hstray := Built.sealed 1 8 strayCalls rfl
  have hsample := Graph.built_compile Sample.graph.value .standard
  exact ⟨⟨_, hstray, hstray.reloads, by decide +kernel⟩, hsample.reloads, by decide +kernel⟩

end LinkTable

end FlowGraph
