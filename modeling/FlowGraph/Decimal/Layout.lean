import FlowGraph.Decimal.Shortest

/-!
# Layouts of decimal text

A shortest decimal can be written with all its places or with an exponent. A `Layout` fixes which,
and how whole numbers, infinities and the missing number are spelled.

* `Layout.write` — the text of a floating-point number in a layout.
* `Layout.plain` — every place written, whole numbers without a point.
* `Layout.debug` — a point always, an exponent outside `1e-4 … 1e16`.
* `Layout.json` — as `debug`, with one place more below.
* `Layout.settings` — every place written and a point always.
-/

namespace FlowGraph.Decimal

/-- How decimals are spelled. -/
structure Layout where
  /-- The positions of the decimal point that are written out; outside, an exponent is used. -/
  positional : Option (Int × Int)
  /-- What follows a whole number. -/
  wholeSuffix : String
  notANumber : String
  infinite : String

namespace Layout

/-- Every place is written; whole numbers have no point. -/
def plain : Layout := ⟨none, "", "NaN", "inf"⟩

/-- Sizes from `1e-4` up to but without `1e16` are written out, with a point. -/
def debug : Layout := ⟨some (-3, 16), ".0", "NaN", "inf"⟩

/-- Sizes from `1e-5` up to but without `1e16` are written out, with a point. -/
def json : Layout := ⟨some (-4, 16), ".0", "null", "null"⟩

/-- Every place is written, with a point. -/
def settings : Layout := ⟨none, ".0", "nan", "inf"⟩

/-- The digits of a number, most significant first. -/
def digitChars (n : Nat) : List Char := Nat.toDigits 10 n

/-- Digits with the point after the first `point` of them, padded with zeros where needed. -/
def placed (suffix : String) (digits : List Char) (point : Int) : String :=
  if point ≤ 0 then
    "0." ++ String.ofList (List.replicate (-point).toNat '0' ++ digits)
  else if (digits.length : Int) ≤ point then
    String.ofList (digits ++ List.replicate (point.toNat - digits.length) '0') ++ suffix
  else
    String.ofList (digits.take point.toNat) ++ "." ++ String.ofList (digits.drop point.toNat)

/-- Digits with the point after the first, and the exponent that restores the size. -/
def scaled (digits : List Char) (point : Int) : String :=
  let exponent := "e" ++ toString (point - 1)
  match digits with
  | [] => "0" ++ exponent
  | [d] => String.ofList [d] ++ exponent
  | d :: ds => String.ofList [d] ++ "." ++ String.ofList ds ++ exponent

/-- The text of a positive decimal. -/
def writeScientific (l : Layout) (d : Scientific) : String :=
  let digits := digitChars d.digits
  let point : Int := digits.length + d.exponent
  match l.positional with
  | none => placed l.wholeSuffix digits point
  | some (low, high) =>
    if low ≤ point ∧ point ≤ high then placed l.wholeSuffix digits point else scaled digits point

/-- The text of a floating-point number; the missing number has no sign. -/
def write (l : Layout) (x : Signed) : String :=
  let sign := if x.negative then "-" else ""
  match x.magnitude with
  | .notANumber => l.notANumber
  | .infinite => sign ++ l.infinite
  | .zero => sign ++ "0" ++ l.wholeSuffix
  | .finite b => sign ++ l.writeScientific b.shortest

end Layout

/-- A 64-bit number in a layout. -/
def floatText (l : Layout) (x : Float) : String := l.write (ofFloat x)

/-- A 32-bit number in a layout. -/
def float32Text (l : Layout) (x : Float32) : String := l.write (ofFloat32 x)

example : Layout.plain.writeScientific ⟨5, -1⟩ = "0.5" := by decide
example : Layout.plain.writeScientific ⟨12, 3⟩ = "12000" := by decide
example : Layout.debug.writeScientific ⟨12, 30⟩ = "1.2e31" := by decide

end FlowGraph.Decimal
