import FlowGraph.Logging.Filter
import FlowGraph.Settings.File

/-!
# Log output

* `LogSetup` — the filter, the form of the lines and the file they go to.
* `LogSetup.ofConfig` — the set-up that settings and the environment ask for, with a complaint if
  the filter cannot be read.
* `LogSetup.lines` — the lines of notices.
* `LogSetup.writeFile` — lines into the log file.
-/

namespace FlowGraph

/-- How notices become lines. -/
structure LogSetup where
  filter : Filter
  /-- Whether lines say where they come from. -/
  withTarget : Bool
  /-- The file that gets the lines, too. -/
  file : Option PathText

namespace LogSetup

/-- The path of a log file: its directory is the working directory if the path names none, and a
path that ends in no name gets the usual one. -/
def filePath (path : PathText) : PathText :=
  let directory : PathText :=
    match path.parent? with
    | some outer => if outer.text.isEmpty then ⟨"."⟩ else outer
    | none => ⟨"."⟩
  directory.child ((path.fileName?).getD "nodegraph.log")

/-- The complaint about a filter that cannot be read. -/
def complaint (filter : String) : String :=
  "Invalid log filter " ++ Text.quoted filter ++ " (invalid filter directive), using 'info'"

/-- The set-up that settings ask for. A filter in the environment comes first if it can be read; if
the settings' filter cannot be read, the usual one is used and a complaint is made. -/
def ofConfig (c : LoggingConfig) (environment : Option String) : LogSetup × List String :=
  let rest (filter : Filter) : LogSetup :=
    ⟨filter, c.withTarget, c.file.map fun path => filePath ⟨path⟩⟩
  match environment.bind Filter.parse? with
  | some f => (rest f, [])
  | none =>
    match Filter.parse? c.filter with
    | some f => (rest f, [])
    | none => (rest .usual, [complaint c.filter])

/-- A notice as logged: its level, perhaps its origin, and its text. -/
def entry (s : LogSetup) (n : Notice) : String :=
  n.level.label ++ " " ++ (if s.withTarget then n.origin ++ ": " else "") ++ n.body

/-- The notices that pass the filter. -/
def passed (s : LogSetup) (ns : List Notice) : List Notice :=
  ns.filter s.filter.admits

/-- The lines of notices; the text of a notice may take several. -/
def lines (s : LogSetup) (ns : List Notice) : List String :=
  (s.passed ns).flatMap fun n => (s.entry n).splitOn "\n"

/-! ### The log file -/

/-- Write at the end of the log file; if that cannot be done, make its directory first. -/
def writeFile (f : Folder) (path : PathText) (text : String) : Except FileError Folder :=
  match f.append path text.toUTF8 with
  | .ok f => .ok f
  | .error _ => do
    (← f.makeDirectories (path.parent?.getD ⟨""⟩)).append path text.toUTF8

end LogSetup

end FlowGraph
