import FlowGraph.Settings.Basic
import FlowGraph.Settings.Folder
import FlowGraph.Toml.Quoted
import FlowGraph.Toml.Reader

/-!
# Settings files

* `EngineConfig.parse?`, `EngineConfig.render` — settings as TOML.
* `EngineConfig.load`, `EngineConfig.loadOrDefault` — settings from a file.
* `EngineConfig.save` — settings into a file, whose directories are made.
* `defaultSettingsPath?` — where the file is looked for unless told otherwise.
-/

namespace FlowGraph

namespace EngineConfig

/-! ### Text -/

/-- Settings from the text of a file; sections and keys of other names are passed over. -/
def parse? (text : String) : Option EngineConfig := do read? true (← Toml.parse? text)

/-- A line of a file. -/
def line (key value : String) : String := key ++ " = " ++ value ++ "\n"

/-- Settings as the text of a file. A limit that is no signed 64-bit integer cannot be written. -/
def render (c : EngineConfig) : Except EngineError String :=
  if 2 ^ 63 ≤ c.runtime.maxCallDepth.toNat then
    .error (.config "Failed to serialize config: out-of-range value for u64 type")
  else
    .ok <| String.join
      [ "[runtime]\n"
      , line "max_call_depth" (toString c.runtime.maxCallDepth.toNat)
      , "\n[pools]\n"
      , line "compaction_ratio" (Decimal.floatText .settings c.pools.compactionRatio.toFloat)
      , line "retire_empty_pools" (Text.truth c.pools.retireEmptyPools)
      , "\n[logging]\n"
      , line "filter" (Toml.quote c.logging.filter)
      , match c.logging.file with
        | some path => line "file" (Toml.quote path)
        | none => ""
      , line "with_target" (Text.truth c.logging.withTarget) ]

/-! ### Loading -/

/-- An error of the file system, with what was being done to which path. -/
def fileError (doing : String) (path : PathText) (e : FileError) : EngineError :=
  .withContext (doing ++ " " ++ Text.quoted path.text) (.io e.message)

/-- Settings from what reading a file gave. -/
def ofFile (path : PathText) (content : Except FileError String) :
    Except EngineError EngineConfig :=
  match content with
  | .error e => .error (fileError "Failed to read config file" path e)
  | .ok text =>
    match parse? text with
    | none => .error (.config ("Failed to parse config file " ++ Text.quoted path.text))
    | some c => c.validate.map fun _ => c

/-- Settings from a file. -/
def load (f : Folder) (path : PathText) : Except EngineError EngineConfig :=
  ofFile path (f.read path)

/-- Settings from what reading a file gave, or the default settings, with a notice if there is a
file at all. -/
def ofFileOrDefault (path : PathText) (present : Bool) (content : Except FileError String) :
    Noted EngineConfig :=
  if !present then pure standard
  else
    match ofFile path content with
    | .ok c => pure c
    | .error _ => ⟨standard, [.settingsUnusable]⟩

/-- Settings from a file, or the default settings. -/
def loadOrDefault (f : Folder) (path : PathText) : Noted EngineConfig :=
  ofFileOrDefault path (f.exists? path) (f.read path)

/-! ### Saving -/

/-- Put what the file system answers into words. -/
def orFileError {α : Type} (doing : String) (path : PathText) :
    Except FileError α → Except EngineError α
  | .ok a => .ok a
  | .error e => .error (fileError doing path e)

/-- Make the directory that a path lies in. -/
def makeParent (f : Folder) (path : PathText) : Except EngineError Folder :=
  match path.parent? with
  | none => .ok f
  | some parent =>
    orFileError "Failed to create config directory" parent (f.makeDirectories parent)

/-- Write settings into a file, whose directory is made first. -/
def save (c : EngineConfig) (f : Folder) (path : PathText) : Except EngineError Folder := do
  let f ← makeParent f path
  let text ← c.render
  orFileError "Failed to write config file" path (f.write path text.toUTF8)

end EngineConfig

/-! ### The usual place -/

/-- Where the settings file is looked for: below the directory for settings if one is named by an
absolute path, else below the home directory. -/
def defaultSettingsPath (home : String) (settingsHome : Option String) : PathText :=
  let base : PathText :=
    match settingsHome with
    | some dir => if dir.startsWith "/" then ⟨dir⟩ else (PathText.mk home).child ".config"
    | none => (PathText.mk home).child ".config"
  (base.child "nodegraph-rs").child "engine.toml"

end FlowGraph
