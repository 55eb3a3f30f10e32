import FlowGraph.Demo.Program

/-!
# Command line

Runs the demonstration program. The first argument names the settings file; without one the usual
place is used.
-/

open FlowGraph

/-- What reading a settings file gives. -/
def readSettings (path : PathText) : IO (Except FileError String) := do
  try
    let bytes ← IO.FS.readBinFile path.text
    match String.fromUTF8? bytes with
    | some text => return .ok text
    | none => return .error .notText
  catch _ => return .error .missing

/-- The path of the settings file, from the arguments or the environment. -/
def settingsPath (arguments : List String) : IO (Option PathText) := do
  match arguments with
  | path :: _ => return some ⟨path⟩
  | [] =>
    match ← IO.getEnv "HOME" with
    | none => return none
    | some home => return some (defaultSettingsPath home (← IO.getEnv "XDG_CONFIG_HOME"))

/-- Write at the end of the log file, whose directory is made first. -/
def appendLog (path : PathText) (text : String) : IO Unit := do
  IO.FS.createDirAll ((path.parent?.getD ⟨"."⟩).text)
  (← IO.FS.Handle.mk path.text .append).putStr text

/-- The outcome once the log file is written. -/
def withLog (outcome : Demo.Outcome) : IO Demo.Outcome := do
  match outcome.logFile with
  | none => return outcome
  | some path =>
    try
      appendLog path outcome.text
      return outcome
    catch e => return .stopped (toString e)

/-- Run the demonstration in its surroundings and show what it has to say. -/
def main (arguments : List String) : IO UInt32 := do
  let path ← settingsPath arguments
  let settings ← match path with
    | some p => readSettings p
    | none => pure (.error .missing)
  let settingsExist := match settings with
    | .error .missing => false
    | _ => true
  let outcome ← withLog (Demo.run
    { settingsPath := path, settingsExist, settings, filter := ← IO.getEnv "RUST_LOG" })
  for complaint in outcome.complaints do IO.eprintln complaint
  for line in outcome.output do IO.println line
  return outcome.code.toUInt32
