/-!
# Ports

A node is connected through an ordered list of ports. Control enters and leaves through `enter`
and `exit` ports, data through `input` and `output` ports. A data port may declare the type of
value it carries; an undeclared one takes whatever type the reader asks for.

* `PortKind`, `PortKind.counterpart` — the four kinds and which two may be joined.
* `DataType`, `DataType.Carrier`, `Value` — the types of data and their values.
* `Port` and its constructors; `Port.typeCompatible`.
-/

namespace FlowGraph

/-! ### Kinds -/

/-- The four kinds of connection point. -/
inductive PortKind
  /-- Control flows in. -/
  | enter
  /-- Control flows out. -/
  | exit
  /-- Data is read in. -/
  | input
  /-- Data is produced. -/
  | output
  deriving DecidableEq, Inhabited

namespace PortKind

/-- The kind with the given two properties: does it carry data, does it lead out of the node. -/
def ofFlags (isData isExit : Bool) : PortKind :=
  match isData, isExit with
  | false, false => enter
  | false, true => exit
  | true, false => input
  | true, true => output

/-- Whether the port carries data. -/
def isData : PortKind → Bool
  | enter | exit => false
  | input | output => true

/-- Whether the port is the source end of a connection. -/
def isSource : PortKind → Bool
  | exit | output => true
  | enter | input => false

/-- The kind that a port of this kind must be joined with. -/
def counterpart : PortKind → PortKind
  | enter => exit
  | exit => enter
  | input => output
  | output => input

/-- The name of the kind. -/
def name : PortKind → String
  | enter => "Enter"
  | exit => "Exit"
  | input => "Input"
  | output => "Output"

/-- Every kind, in declaration order. -/
def all : List PortKind := [enter, exit, input, output]

/-- The kind of a given name. -/
def ofName? (s : String) : Option PortKind := all.find? (·.name = s)

theorem counterpart_counterpart (k : PortKind) : k.counterpart.counterpart = k := by
  cases k <;> rfl

theorem eq_counterpart {k l : PortKind} (h : k = l.counterpart) : l = k.counterpart := by
  rw [h, counterpart_counterpart]

theorem isSource_counterpart (k : PortKind) : k.counterpart.isSource = !k.isSource := by
  cases k <;> rfl

theorem ofFlags_flags (k : PortKind) : ofFlags k.isData k.isSource = k := by
  cases k <;> rfl

end PortKind

/-! ### Types of data -/

/-- A declared type of data, compared by its name. -/
structure TypeTag where
  name : String
  deriving DecidableEq, Inhabited

/-- `TypeTag(name)`, as diagnostics write it. -/
def TypeTag.text (t : TypeTag) : String := s!"TypeTag({t.name})"

/-- The types of data that a reader can ask for. -/
inductive DataType
  /-- Signed 64-bit integers. -/
  | int
  /-- Text. -/
  | text
  /-- Truth values. -/
  | bool
  /-- Signed 32-bit integers, which no behaviour produces. -/
  | narrow
  deriving DecidableEq, Inhabited

/-- The values of each type. -/
@[reducible] def DataType.Carrier : DataType → Type
  | .int => Int64
  | .text => String
  | .bool => Bool
  | .narrow => Int32

/-- The tag that a port declares for the type. -/
def DataType.tag : DataType → TypeTag
  | .int => ⟨"i64"⟩
  | .text => ⟨"alloc::string::String"⟩
  | .bool => ⟨"bool"⟩
  | .narrow => ⟨"i32"⟩

/-- A value together with its type. -/
structure Value where
  type : DataType
  val : type.Carrier

namespace Value

/-- An integer. -/
def int (n : Int64) : Value := ⟨.int, n⟩

/-- A text. -/
def text (s : String) : Value := ⟨.text, s⟩

/-- A truth value. -/
def bool (b : Bool) : Value := ⟨.bool, b⟩

/-- A narrow integer. -/
def narrow (n : Int32) : Value := ⟨.narrow, n⟩

/-- The value at a wanted type; nothing if it is of another type. -/
def as? (t : DataType) (v : Value) : Option t.Carrier :=
  if h : v.type = t then some (h ▸ v.val) else none

end Value

/-! ### Port descriptors -/

/-- One connection point of a node. -/
structure Port where
  name : String
  kind : PortKind
  /-- Only data ports declare a type; without one the port is typed by each reader. -/
  declaredType : Option TypeTag
  /-- Whether the port is part of the graph's boundary. -/
  isExternal : Bool
  deriving DecidableEq, Inhabited

namespace Port

/-- A port of a kind with no declared type, inside the graph. -/
def plain (name : String) (kind : PortKind) : Port := ⟨name, kind, none, false⟩

/-- Control enters here. -/
def enter (name : String) : Port := plain name .enter

/-- Control leaves here. -/
def exit (name : String) : Port := plain name .exit

/-- Data of a declared type is read here. -/
def input (type : DataType) (name : String) : Port :=
  { plain name .input with declaredType := some type.tag }

/-- Data of a declared type is produced here. -/
def output (type : DataType) (name : String) : Port :=
  { plain name .output with declaredType := some type.tag }

/-- Data is read here at a type chosen by each reader. -/
def dynamicInput (name : String) : Port := plain name .input

/-- Data is produced here at a type chosen by each reader. -/
def dynamicOutput (name : String) : Port := plain name .output

/-- The same port, as part of the graph's boundary. -/
def external (p : Port) : Port := { p with isExternal := true }

/-- Two declared types must be equal; an undeclared type fits any. -/
def typeCompatible (p q : Port) : Bool :=
  match p.declaredType, q.declaredType with
  | some a, some b => a == b
  | _, _ => true

theorem typeCompatible_comm (p q : Port) : p.typeCompatible q = q.typeCompatible p := by
  unfold typeCompatible
  cases p.declaredType <;> cases q.declaredType <;> simp [Bool.beq_comm]

end Port

end FlowGraph
