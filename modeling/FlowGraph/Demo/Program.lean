import FlowGraph.Demo.Sample
import FlowGraph.Logging.Output

/-!
# The demonstration program

The program reads its settings, sets up logging, and takes the sample graph through the life of an
engine. All that it shows is lines of its log.

* `Demo.Surroundings` — what the program finds: arguments, environment and files.
* `Demo.Outcome`, `Demo.run` — what it shows.
* `Demo.runIn` — the program in a folder, with what it leaves there.
-/

namespace FlowGraph.Demo

/-- What the program finds about its settings and its log. -/
structure Surroundings where
  /-- The path of the settings file, if one is known. -/
  settingsPath : Option PathText
  /-- Whether there is anything at that path. -/
  settingsExist : Bool
  /-- What reading it gives. -/
  settings : Except FileError String
  /-- The filter that the environment asks for. -/
  filter : Option String

/-- What the program shows. -/
structure Outcome where
  code : Nat
  output : List String
  complaints : List String
  /-- The log file that gets the output, too, if there is one. -/
  logFile : Option PathText

/-- The program's settings. The notice about unusable ones comes before logging is set up, so no
line tells of it. -/
def Surroundings.config (s : Surroundings) : EngineConfig :=
  match s.settingsPath with
  | none => .standard
  | some path => (EngineConfig.ofFileOrDefault path s.settingsExist s.settings).value

/-- The whole program. -/
def run (s : Surroundings) : Outcome :=
  let config := s.config
  let (setup, complaints) := LogSetup.ofConfig config.logging s.filter
  let notices :=
    (Sample.run (s.settingsPath.map PathText.text) config.pools
      config.runtime.maxCallDepth.toNat).notices
  ⟨0, setup.lines notices, complaints, setup.file⟩

/-- What the log file gets. -/
def Outcome.text (o : Outcome) : String := String.join (o.output.map (· ++ "\n"))

/-- What becomes of a program whose log file cannot be written: it stops before it has shown
anything. -/
def Outcome.stopped (reason : String) : Outcome :=
  ⟨101, [], ["The log file cannot be written: " ++ reason], none⟩

/-- The whole program with the settings file of a folder, and the folder with the log file in it. -/
def runIn (f : Folder) (settings : PathText) (filter : Option String) : Outcome × Folder :=
  let o := run ⟨some settings, f.exists? settings, f.read settings, filter⟩
  match o.logFile with
  | none => (o, f)
  | some path =>
    match LogSetup.writeFile f path o.text with
    | .ok f => (o, f)
    | .error e => (.stopped e.message, f)

end FlowGraph.Demo
