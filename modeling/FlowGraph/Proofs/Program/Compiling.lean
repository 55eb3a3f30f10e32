import FlowGraph.Proofs.Graph.Connections
import FlowGraph.Proofs.Program.Plan

/-!
# Compiling meets no objection

The builder of a table is strict: it takes valid addresses only, headers that are not empty and come
node by node with ascending ports, and no more records than there is room for; and it seals a table
only if every entry was written. Whatever graph is compiled, all of this is the case, so the strict
and the lenient way of compiling give one program, and the table without links is never asked for.

* `Graph.CompilesCleanly` — no call to the builder is refused, and its room is used up.
* `Graph.Reachable.compiles_cleanly` — so it is for every graph that edits lead to.
-/

namespace FlowGraph.Graph

/-- A header and its entries are counted together. -/
theorem sum_recordCount (ps : List PortPlan) :
    (ps.map PortPlan.recordCount).sum = ps.length + (ps.map (·.targets.length)).sum := by
  induction ps with
  | nil => rfl
  | cons p ps ih =>
      rw [List.map_cons, List.sum_cons, List.map_cons, List.sum_cons, List.length_cons, ih,
        PortPlan.recordCount]
      omega

section

variable [Repertoire]

/-- A graph compiles to a program without an objection of the table's builder. -/
structure CompilesCleanly (g : Graph) (config : PoolConfig) (P : Program) : Prop where
  compiled : (g.compile config).value = P
  /-- The builder takes every placed node and every port with far ends, and its room, which is
  computed beforehand, is used up to the last record. -/
  built : ∃ b c, LinkTable.LaidDown P.placement.addresses
    ((g.plan P.placement).filter fun p => !p.targets.isEmpty) b c P.links
  /-- What was set aside are the headers and links that the statistics tell of. -/
  counted : P.links.records.length = P.stats.headers + P.stats.links
  /-- Compiling strictly gives the same program, with the same notices. -/
  tried : g.tryCompile config = .ok <$> g.compile config
  /-- Whatever would be done about an objection, it is not done. -/
  undegraded : ∀ {ε : Type} (recover : LinkTableError → List PackedAddress →
    Noted (Except ε LinkTable)), g.compileWith config recover = .ok <$> g.compile config

/-- **No objections.** Every graph that edits lead to compiles without a refusal of the builder,
whatever the settings of its pools: the records set aside are exactly those written, and compiling
strictly, leniently or in any other way comes to one program. -/
theorem Reachable.compiles_cleanly {g : Graph} (hg : g.Reachable) (config : PoolConfig) :
    g.CompilesCleanly config (g.compile config).value := by
  obtain ⟨b, c, t, hlaid, -⟩ := hg.wellFormed.laidDown config
  have heq := compile_eq hlaid
  have hwith : ∀ {ε : Type} (recover : LinkTableError → List PackedAddress →
      Noted (Except ε LinkTable)), g.compileWith config recover = .ok <$> g.compile config := by
    intro ε recover
    rw [compileWith_eq hlaid, heq]
    exact Noted.ext rfl (List.append_nil _).symm
  have hvalue : (g.compile config).value = g.programWith config t := by rw [heq]
  refine
    { compiled := rfl, built := ⟨b, c, ?_⟩, counted := ?_
      tried := hwith fun e _ => pure (.error e), undegraded := hwith }
  · rw [hvalue, filter_plan]
    exact hlaid
  · rw [hvalue]
    show t.records.length = _
    rw [hlaid.records, hlaid.capacity, sum_recordCount]
    rfl

end

/-- The sample's eleven connections are laid down at both of their ends. -/
theorem Reachable.compiles_cleanly_sample :
    Sample.graph.value.Reachable ∧
      Sample.graph.value.CompilesCleanly .standard (Sample.graph.value.compile .standard).value ∧
      (Sample.graph.value.compile .standard).value.stats.links = 22 :=
  ⟨Sample.graph_reachable, Reachable.compiles_cleanly Sample.graph_reachable .standard,
    by decide +kernel⟩

end FlowGraph.Graph
