import FlowGraph.Arithmetic

/-!
# The shortest decimal of a binary number

A finite floating-point number is `mantissa · 2 ^ exponent`. Every real number nearer to it than to
its neighbours rounds to it, the two midpoints included when the mantissa is even. Its shortest
decimal is the decimal with the fewest digits in that interval, of those the nearest, and of two
equally near the greater.

* `Binary` — a positive finite number with the data that fixes its interval.
* `Binary.shortest` — its shortest decimal, found by trying 1, 2, … digits in exact arithmetic.
* `Magnitude`, `ofFloat`, `ofFloat32` — floating-point numbers taken apart.
-/

namespace FlowGraph.Decimal

/-! ### Numbers taken apart -/

/-- The positive number `mantissa · 2 ^ exponent`. -/
structure Binary where
  mantissa : Nat
  exponent : Int
  /-- Whether the next number below is only half a step away, as it is at a power of two. -/
  narrowBelow : Bool

/-- The size of a floating-point number, without its sign. -/
inductive Magnitude
  | notANumber
  | infinite
  | zero
  | finite (b : Binary)

/-- A sign and a size. -/
structure Signed where
  negative : Bool
  magnitude : Magnitude

/-- Take a word apart into sign, exponent and fraction, for a format of the given widths. -/
def ofBits (fractionBits exponentBits : Nat) (bits : Nat) : Signed :=
  let fraction := bits % 2 ^ fractionBits
  let biased := bits / 2 ^ fractionBits % 2 ^ exponentBits
  let negative := bits / 2 ^ (fractionBits + exponentBits) % 2 == 1
  let shift : Int := 2 ^ (exponentBits - 1) - 1 + fractionBits
  let magnitude :=
    if biased = 2 ^ exponentBits - 1 then
      if fraction = 0 then .infinite else .notANumber
    else if biased = 0 then
      if fraction = 0 then .zero else .finite ⟨fraction, 1 - shift, false⟩
    else .finite ⟨2 ^ fractionBits + fraction, biased - shift, fraction == 0 && biased != 1⟩
  ⟨negative, magnitude⟩

/-- A 64-bit number taken apart. -/
def ofFloat (x : Float) : Signed := ofBits 52 11 x.toBits.toNat

/-- A 32-bit number taken apart. -/
def ofFloat32 (x : Float32) : Signed := ofBits 23 8 x.toBits.toNat

/-! ### Decimals -/

/-- The number `digits · 10 ^ exponent`. -/
structure Scientific where
  digits : Nat
  exponent : Int
  deriving DecidableEq

/-- Drop final zeros, at most as many as given. -/
def Scientific.trim : Nat → Scientific → Scientific
  | 0, d => d
  | n + 1, d =>
    if d.digits ≠ 0 ∧ d.digits % 10 = 0 then Scientific.trim n ⟨d.digits / 10, d.exponent + 1⟩
    else d

/-- The first `j` from `j₀` on with `num · 10 ^ j ≥ den`, searched for `fuel` steps. -/
def leadingShift (num den : Nat) : Nat → Nat → Nat
  | 0, j => j
  | fuel + 1, j => if num * 10 ^ j ≥ den then j else leadingShift num den fuel (j + 1)

/-- The position of the decimal point of `num / den`: the number is below `10 ^ point` and at least
a tenth of that. -/
def pointOf (num den : Nat) : Int :=
  if num ≥ den then (Nat.toDigits 10 (num / den)).length
  else 1 - (leadingShift num den 1100 0 : Int)

/-- The interval that rounds to a number, in quarters of its step, over a common denominator. -/
structure Interval where
  low : Nat
  value : Nat
  high : Nat
  den : Nat
  closed : Bool

/-- The numbers that round to `b`. -/
def Binary.interval (b : Binary) : Interval :=
  let q := b.exponent - 2
  let scale := 2 ^ q.toNat
  let below := if b.narrowBelow then 1 else 2
  { low := (4 * b.mantissa - below) * scale
    value := 4 * b.mantissa * scale
    high := (4 * b.mantissa + 2) * scale
    den := 2 ^ (-q).toNat
    closed := b.mantissa % 2 == 0 }

/-- Whether `d · 10 ^ e` lies in the interval. -/
def Interval.contains (i : Interval) (d : Nat) (e : Int) : Bool :=
  let x := d * 10 ^ e.toNat * i.den
  let s := 10 ^ (-e).toNat
  if i.closed then i.low * s ≤ x && x ≤ i.high * s else i.low * s < x && x < i.high * s

/-- Of the two points of the grid `10 ^ e` around the value, the one that lies in the interval;
if both do, the nearer, and the greater of two equally near. -/
def Interval.onGrid (i : Interval) (e : Int) : Option Nat :=
  let num := i.value * 10 ^ (-e).toNat
  let den := i.den * 10 ^ e.toNat
  let d := num / den
  let r := num % den
  match i.contains d e, i.contains (d + 1) e with
  | false, false => none
  | true, false => some d
  | false, true => some (d + 1)
  | true, true => if 2 * r < den then some d else some (d + 1)

/-- Try grids of more and more digits, `fuel` of them. -/
def Interval.search (i : Interval) (point : Int) : Nat → Nat → Scientific
  | 0, n => ⟨i.value * 10 ^ (n - point).toNat / (i.den * 10 ^ (point - n).toNat), point - n⟩
  | fuel + 1, n =>
    match i.onGrid (point - n) with
    | some d => if d = 0 then Interval.search i point fuel (n + 1) else ⟨d, point - n⟩
    | none => Interval.search i point fuel (n + 1)

/-- The shortest decimal that rounds to the number. -/
def Binary.shortest (b : Binary) : Scientific :=
  let i := b.interval
  (i.search (pointOf i.value i.den) 17 1).trim 20

example : (Binary.mk 1 0 false).shortest = ⟨1, 0⟩ := by decide
example : (Binary.mk 13421773 (-27) false).shortest = ⟨1, -1⟩ := by decide +kernel
example : (Binary.mk 8388609 (-2) false).shortest = ⟨20971523, -1⟩ := by decide +kernel

end FlowGraph.Decimal
