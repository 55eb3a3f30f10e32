import FlowGraph.Codec.Graph
import FlowGraph.Error
import FlowGraph.Pool.Registry

/-!
# Settings

What a program can be told about running graphs, pools and logging. Every part has defaults, so that
settings may be given in part or not at all.

* `RuntimeConfig`, `LoggingConfig`, `EngineConfig` — the settings; `PoolConfig` is with the pools.
* `EngineConfig.validate` — refuses what cannot be worked with.
* `EngineConfig.read?` — settings from a value that was written as JSON or TOML.
-/

namespace FlowGraph

/-! ### Settings and their defaults -/

/-- How calls and reads are dispatched. -/
structure RuntimeConfig where
  /-- The limit on nested calls and reads. -/
  maxCallDepth : UInt64
  deriving DecidableEq

/-- The usual limit on nesting. -/
def RuntimeConfig.standard : RuntimeConfig := ⟨defaultDepth.toUInt64⟩

/-- What is logged, and where. -/
structure LoggingConfig where
  /-- The filter, as text. -/
  filter : String
  /-- A file that gets the lines, too. -/
  file : Option String
  /-- Whether lines say which part of the system they come from. -/
  withTarget : Bool
  deriving DecidableEq

/-- The filter that is used unless told otherwise. -/
def LoggingConfig.defaultFilter : String := "info,nodegraph_rs=debug"

/-- The default filter, no file, and lines that say where they come from. -/
def LoggingConfig.standard : LoggingConfig := ⟨defaultFilter, none, true⟩

/-- All settings. -/
structure EngineConfig where
  runtime : RuntimeConfig
  pools : PoolConfig
  logging : LoggingConfig

/-- The settings of a program about which nothing was said. -/
def EngineConfig.standard : EngineConfig := ⟨.standard, .standard, .standard⟩

instance : Inhabited EngineConfig := ⟨.standard⟩

/-- Whether two pool settings agree; a missing number agrees with nothing. -/
def PoolConfig.agrees (a b : PoolConfig) : Bool :=
  a.compactionRatio == b.compactionRatio && a.retireEmptyPools == b.retireEmptyPools

/-- Whether two settings agree in every part. -/
def EngineConfig.agrees (a b : EngineConfig) : Bool :=
  a.runtime == b.runtime && a.pools.agrees b.pools && a.logging == b.logging

/-! ### Validity -/

/-- The text of a ratio in messages: all places, and no point in whole numbers. -/
def PoolConfig.ratioText (c : PoolConfig) : String := Decimal.float32Text .plain c.compactionRatio

/-- Refuse settings that cannot be worked with: at least one call must be allowed, and the ratio
must be a number that is not negative. -/
def EngineConfig.validate (c : EngineConfig) : Except EngineError Unit :=
  let ratio := c.pools.compactionRatio
  if c.runtime.maxCallDepth = 0 then
    .error (.config "runtime.max_call_depth must be at least 1")
  else if !ratio.isFinite || decide (ratio < 0) then
    .error (.config
      ("pools.compaction_ratio must be a non-negative number, got " ++ c.pools.ratioText))
  else .ok ()

/-! ### Reading

`spare` says whether an array may have more items than a record has fields. -/

/-- Whether a record's fields are acceptable as a whole. -/
def Json.Record.fits (r : Json.Record) (spare : Bool) : Bool :=
  !r.repeated && (spare || !r.excess)

/-- Dispatch settings from a value. -/
def RuntimeConfig.read? (spare : Bool) (j : Json) : Option RuntimeConfig := do
  let r ← Json.Record.ofJson? ["max_call_depth"] j
  let maxCallDepth ← r.withDefault 0 standard.maxCallDepth Json.uint64?
  if r.fits spare then some ⟨maxCallDepth⟩ else none

/-- Pool settings from a value. -/
def PoolConfig.read? (spare : Bool) (j : Json) : Option PoolConfig := do
  let r ← Json.Record.ofJson? ["compaction_ratio", "retire_empty_pools"] j
  let ratio ← r.withDefault 0 standard.compactionRatio Json.float32?
  let retire ← r.withDefault 1 standard.retireEmptyPools Json.bool?
  if r.fits spare then some ⟨ratio, retire⟩ else none

/-- Logging settings from a value. -/
def LoggingConfig.read? (spare : Bool) (j : Json) : Option LoggingConfig := do
  let r ← Json.Record.ofJson? ["filter", "file", "with_target"] j
  let filter ← r.withDefault 0 standard.filter Json.text?
  let file ← r.withDefault 1 standard.file (Json.nullable? Json.text?)
  let withTarget ← r.withDefault 2 standard.withTarget Json.bool?
  if r.fits spare then some ⟨filter, file, withTarget⟩ else none

/-- All settings from a value. -/
def EngineConfig.read? (spare : Bool) (j : Json) : Option EngineConfig := do
  let r ← Json.Record.ofJson? ["runtime", "pools", "logging"] j
  let runtime ← r.withDefault 0 .standard (RuntimeConfig.read? spare)
  let pools ← r.withDefault 1 .standard (PoolConfig.read? spare)
  let logging ← r.withDefault 2 .standard (LoggingConfig.read? spare)
  if r.fits spare then some ⟨runtime, pools, logging⟩ else none

/-! ### Codecs -/

namespace Codec

instance : Codec RuntimeConfig where
  encode c := .object [("max_call_depth", .int c.maxCallDepth.toNat)]
  decode? := RuntimeConfig.read? false
  text c := Text.record "RuntimeConfig" [("max_call_depth", toString c.maxCallDepth.toNat)]

instance : Codec PoolConfig where
  encode c :=
    .object
      [("compaction_ratio", float32Json c.compactionRatio),
        ("retire_empty_pools", .bool c.retireEmptyPools)]
  decode? := PoolConfig.read? false
  text c :=
    Text.record "PoolConfig"
      [("compaction_ratio", float32Text c.compactionRatio),
        ("retire_empty_pools", Text.truth c.retireEmptyPools)]

instance : Codec LoggingConfig where
  encode c :=
    .object
      [("filter", .text c.filter), ("file", (c.file.map Json.text).getD .null),
        ("with_target", .bool c.withTarget)]
  decode? := LoggingConfig.read? false
  text c :=
    Text.record "LoggingConfig"
      [("filter", Text.quoted c.filter), ("file", Text.optional (c.file.map Text.quoted)),
        ("with_target", Text.truth c.withTarget)]

instance : Codec EngineConfig where
  encode c :=
    .object
      [("runtime", encode c.runtime), ("pools", encode c.pools), ("logging", encode c.logging)]
  decode? := EngineConfig.read? false
  text c :=
    Text.record "EngineConfig"
      [("runtime", text c.runtime), ("pools", text c.pools), ("logging", text c.logging)]

end Codec

end FlowGraph
