import FlowGraph.Logging.Directive

/-!
# Log filters

A filter is written as directives between commas. Of the directives that speak of a notice, the one
that says most about it decides; a notice of which none speaks does not pass.

* `Filter` — a list of directives.
* `Filter.parse?` — a filter from its text.
* `Filter.admits` — whether a notice passes.
-/

namespace FlowGraph

/-- What is to be logged. -/
structure Filter where
  directives : List Directive
  deriving DecidableEq, Inhabited

namespace Filter

/-- Only errors pass. -/
def errorsOnly : Filter := ⟨[.overall (.atLeast .error)]⟩

/-- Everything from the middle level on passes. -/
def usual : Filter := ⟨[.overall (.atLeast .info)]⟩

/-- A filter from its text; empty directives are passed over, and without any other only errors
pass. -/
def parse? (s : String) : Option Filter := do
  let ds ← ((s.splitOn ",").filter (!·.isEmpty)).mapM Directive.parse?
  return if ds.isEmpty then errorsOnly else ⟨ds⟩

/-- The directive that decides about a notice. -/
def deciding? (f : Filter) (origin : String) (fields : List String) : Option Directive :=
  (f.directives.filter (·.fits origin fields)).foldl
    (fun best d =>
      match best with
      | none => some d
      | some b => if b.yields d then some d else some b)
    none

/-- Whether a notice passes. -/
def admits (f : Filter) (n : Notice) : Bool :=
  match f.deciding? n.origin n.fieldNames with
  | none => false
  | some d => d.threshold.admits n.level

end Filter

end FlowGraph
