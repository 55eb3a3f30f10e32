import FlowGraph.Text.Quoted

/-!
# Records in diagnostics

* `record` — a name and named fields between braces.
* `optional` — something that may be missing.
* `truth` — a truth value.
-/

namespace FlowGraph.Text

/-- A record: its name and its fields. -/
def record (name : String) (fields : List (String × String)) : String :=
  name ++ " \x7b " ++ String.intercalate ", " (fields.map fun f => f.1 ++ ": " ++ f.2) ++ " \x7d"

/-- Something that may be missing. -/
def optional : Option String → String
  | some s => "Some(" ++ s ++ ")"
  | none => "None"

/-- A truth value. -/
def truth (b : Bool) : String := if b then "true" else "false"

example : record "P" [("x", "1"), ("y", "2")] = "P \x7b x: 1, y: 2 \x7d" := by decide

end FlowGraph.Text
