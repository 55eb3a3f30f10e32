import FlowGraph.Codec.Basic
import FlowGraph.Decimal.Layout
import FlowGraph.Engine.State
import FlowGraph.Graph.Basic
import FlowGraph.Link.Image
import FlowGraph.Text.Record

/-!
# Codecs of the parts of graphs

* `Codec PortKind`, `Codec EngineState` — one of finitely many names.
* `Codec TypeTag`, `Codec Port`, `Codec Position`, `Codec LinkRecord` — the parts of graphs and of
  link tables.
-/

namespace FlowGraph.Codec

instance : Codec PortKind where
  encode k := .text k.name
  decode? := Json.oneOf? PortKind.ofName?
  text := PortKind.name

instance : Codec EngineState where
  encode s := .text s.name
  decode? := Json.oneOf? EngineState.ofName?
  text := EngineState.name

instance : Codec TypeTag where
  encode t := .text t.name
  decode? j := j.text?.map TypeTag.mk
  text := TypeTag.text

instance : Codec Port where
  encode p :=
    .object
      [("name", .text p.name), ("kind", encode p.kind),
        ("declared_type", (p.declaredType.map encode).getD .null),
        ("is_external", .bool p.isExternal)]
  decode? j := do
    let r ← Json.Record.ofJson? ["name", "kind", "declared_type", "is_external"] j
    let name ← r.required 0 Json.text?
    let kind ← r.required 1 decode?
    let declaredType ← r.optional 2 decode?
    let isExternal ← r.required 3 Json.bool?
    if r.isExact then some { name, kind, declaredType, isExternal } else none
  text p :=
    Text.record "Port"
      [("name", Text.quoted p.name), ("kind", text p.kind),
        ("declared_type", Text.optional (p.declaredType.map text)),
        ("is_external", Text.truth p.isExternal)]

/-- The text of a 32-bit number in diagnostics. -/
def float32Text (x : Float32) : String := Decimal.float32Text .debug x

/-- A 32-bit number as JSON: the 64-bit number of the same value. -/
def float32Json (x : Float32) : Json := .float x.toFloat

instance : Codec Position where
  encode p := .object [("x", float32Json p.x), ("y", float32Json p.y)]
  decode? j := do
    let r ← Json.Record.ofJson? ["x", "y"] j
    let x ← r.required 0 Json.float32?
    let y ← r.required 1 Json.float32?
    if r.isExact then some ⟨x, y⟩ else none
  text p := Text.record "Position" [("x", float32Text p.x), ("y", float32Text p.y)]

instance : Codec LinkRecord where
  encode := LinkRecord.encode
  decode? := LinkRecord.decode?
  text r :=
    Text.record "LinkRecord"
      [("address", text r.address), ("port", text r.port), ("kind", text r.kind),
        ("count", toString r.count.toNat)]

end FlowGraph.Codec
