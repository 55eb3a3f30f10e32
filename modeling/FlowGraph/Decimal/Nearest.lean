import FlowGraph.Arithmetic

/-!
# The nearest binary number to a fraction

Reading a decimal rounds it to the nearest number of a floating-point format, a tie going to the
even mantissa, values past the largest number going to infinity.

* `roundHalfEven` — a quotient rounded to the nearest integer.
* `bitsOfFraction` — the word of the nearest number to `num / den`.
* `floatOfDecimal` — the nearest 64-bit number to `digits · 10 ^ exponent`.
-/

namespace FlowGraph.Decimal

/-- The integer nearest to `num / den`, the even one of two equally near. -/
def roundHalfEven (num den : Nat) : Nat :=
  let d := num / den
  let r := num % den
  if 2 * r < den then d
  else if 2 * r > den then d + 1
  else if d % 2 = 0 then d else d + 1

/-- The exponent `q` at which `num / den` has about `width` bits before the point. -/
def binaryExponent (width : Nat) (num den : Nat) : Int :=
  let q : Int := (Nat.log2 num : Int) - Nat.log2 den - width + 1
  -- the estimate is at most one too large
  if num * 2 ^ (-q).toNat < 2 ^ (width - 1) * (den * 2 ^ q.toNat) then q - 1 else q

/-- The word of the nearest number to `num / den` in a format with the given widths. -/
def bitsOfFraction (fractionBits exponentBits : Nat) (num den : Nat) : Nat :=
  if num = 0 then 0
  else
    let least : Int := 2 - 2 ^ (exponentBits - 1) - fractionBits
    let q := max (binaryExponent (fractionBits + 1) num den) least
    let m := roundHalfEven (num * 2 ^ (-q).toNat) (den * 2 ^ q.toNat)
    -- the hidden bit and a carry out of the fraction both count the exponent up by themselves
    let word := (q - least).toNat * 2 ^ fractionBits + m
    min word ((2 ^ exponentBits - 1) * 2 ^ fractionBits)

/-- The nearest 64-bit number to `digits · 10 ^ exponent`. Exponents so large or small that every
nonzero number overflows or vanishes are cut first. -/
def floatOfDecimal (digits : Nat) (exponent : Int) : Float :=
  if digits = 0 then 0.0
  else
    let size : Int := (Nat.toDigits 10 digits).length + exponent
    if size > 400 then Float.ofBits 0x7FF0000000000000
    else if size < -400 then 0.0
    else
      Float.ofBits (bitsOfFraction 52 11 (digits * 10 ^ exponent.toNat)
        (10 ^ (-exponent).toNat)).toUInt64

example : bitsOfFraction 52 11 1 1 = 0x3FF0000000000000 := by decide
example : bitsOfFraction 52 11 1 10 = 0x3FB999999999999A := by decide
example : bitsOfFraction 23 8 16777217 1 = 0x4B800000 := by decide

end FlowGraph.Decimal
