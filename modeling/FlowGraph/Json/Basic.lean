import FlowGraph.Arithmetic

/-!
# JSON values

Instance data, settings and persisted link tables are exchanged as JSON. Integers are kept apart
from numbers written with a fraction or an exponent, because only the former decode as integers,
and objects keep their members in order, repeated names included, because a repeated field is an
error where a record is expected.

* `Json` — the values.
* `Json.int?` and its companions — a value at a wanted shape.
* `Json.Record` — the fields of a record, read from an object by name or from an array by place.
-/

namespace FlowGraph

/-- A JSON value. -/
inductive Json
  | null
  | bool (b : Bool)
  /-- A number written without fraction and exponent that fits a signed or an unsigned word. -/
  | int (n : Int)
  /-- Any other number. -/
  | float (x : Float)
  | text (s : String)
  | array (items : List Json)
  | object (members : List (String × Json))
  /-- Something of the right form that stands for no value: a number beyond all floating-point
  numbers, or text with half of a surrogate pair. It can be skipped but not decoded. -/
  | void
  deriving Inhabited

namespace Json

/-! ### Shapes -/

/-- A truth value. -/
def bool? : Json → Option Bool
  | bool b => some b
  | _ => none

/-- An integer. -/
def int? : Json → Option Int
  | int n => some n
  | _ => none

/-- An integer from 0 up to but without a bound. -/
def natBelow? (bound : Nat) (j : Json) : Option Nat := do
  let n ← j.int?
  if 0 ≤ n ∧ n < bound then some n.toNat else none

/-- An unsigned 8-bit integer. -/
def uint8? (j : Json) : Option UInt8 := (j.natBelow? (2 ^ 8)).map Nat.toUInt8

/-- An unsigned 32-bit integer. -/
def uint32? (j : Json) : Option UInt32 := (j.natBelow? (2 ^ 32)).map Nat.toUInt32

/-- An unsigned 64-bit integer. -/
def uint64? (j : Json) : Option UInt64 := (j.natBelow? (2 ^ 64)).map Nat.toUInt64

/-- A signed 64-bit integer. -/
def int64? (j : Json) : Option Int64 := do
  let n ← j.int?
  if -2 ^ 63 ≤ n ∧ n < 2 ^ 63 then some (Int64.ofInt n) else none

/-- A 32-bit floating-point number, from an integer or any other number, rounded once. -/
def float32? : Json → Option Float32
  | int n => some (if 0 ≤ n then n.toNat.toUInt64.toFloat32 else (Int64.ofInt n).toFloat32)
  | float x => some x.toFloat32
  | _ => none

/-- A text. -/
def text? : Json → Option String
  | text s => some s
  | _ => none

/-- A list. -/
def array? : Json → Option (List Json)
  | array xs => some xs
  | _ => none

/-- A list whose items can all be read. -/
def listOf? {α : Type} (read : Json → Option α) (j : Json) : Option (List α) := do
  (← j.array?).mapM read

/-- Something that may be missing, in which case it is written as null. -/
def nullable? {α : Type} (read : Json → Option α) : Json → Option (Option α)
  | null => some none
  | j => (read j).map some

/-- One of finitely many names, alone or as the only member of an object with the value null. -/
def oneOf? {α : Type} (ofName? : String → Option α) : Json → Option α
  | text s => ofName? s
  | object [(s, null)] => ofName? s
  | _ => none

/-- A natural number below a bound is read back. -/
theorem natBelow?_int {bound n : Nat} (h : n < bound) : (int n).natBelow? bound = some n := by
  simp [natBelow?, int?, h]

/-- A 32-bit number is read back. -/
theorem uint32?_int (n : UInt32) : (int n.toNat).uint32? = some n := by
  rw [uint32?, natBelow?_int n.toNat_lt]
  simp

/-! ### Records -/

/-- The fields of a record as they were found, in the order in which the record declares them. -/
structure Record where
  found : List (Option Json)
  /-- Whether the fields came from an array, by place. -/
  positional : Bool
  /-- Whether a declared field was given twice. -/
  repeated : Bool
  /-- Whether there were more items than fields. -/
  excess : Bool

namespace Record

/-- The declared fields found in an object or an array. Members of other names are skipped. -/
def ofJson? (names : List String) : Json → Option Record
  | object members =>
    some
      { found := names.map fun n => (members.find? (·.1 = n)).map Prod.snd
        positional := false
        repeated := names.any fun n => decide (1 < (members.filter (·.1 = n)).length)
        excess := false }
  | array items =>
    some
      { found := (List.range names.length).map (items[·]?)
        positional := true
        repeated := false
        excess := decide (names.length < items.length) }
  | _ => none

/-- The raw value of the field at a place. -/
def raw? (r : Record) (i : Nat) : Option Json := (r.found[i]?).join

/-- A field that must be there. -/
def required {α : Type} (r : Record) (i : Nat) (read : Json → Option α) : Option α :=
  r.raw? i >>= read

/-- A field with a value to take when it is missing. -/
def withDefault {α : Type} (r : Record) (i : Nat) (default : α) (read : Json → Option α) :
    Option α :=
  match r.raw? i with
  | none => some default
  | some j => read j

/-- A field that an object may leave out but an array may not. -/
def optional {α : Type} (r : Record) (i : Nat) (read : Json → Option α) : Option (Option α) :=
  match r.raw? i with
  | none => if r.positional then none else some none
  | some j => nullable? read j

/-- Whether nothing was given twice and nothing was left over. -/
def isExact (r : Record) : Bool := !r.repeated && !r.excess

end Record

end Json

end FlowGraph
