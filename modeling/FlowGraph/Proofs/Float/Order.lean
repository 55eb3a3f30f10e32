import FlowGraph.Proofs.Float.Rounding
import Mathlib

/-!
# Single precision in order

A number in single precision that is not negative is known by its word: the words go up with the
numbers, from zero to infinity. Read that way, a conversion from whole numbers, a product with a
fixed number and a comparison are what they are on numbers, but for rounding, and rounding is
monotone.

* `worth`, `word_worth` — the number that a word stands for.
* `Digits`, `Reads` — mantissas and exponents in normal form, and the word of a float.
* `reads_rounded` — what rounding and packing make of a positive number.
* `Reads.lt_iff`, `Reads.mul`, `reads_toFloat32` — comparison, product and conversion by words.
-/

namespace FlowGraph.Binary32

open FlowGraph.Decimal (roundHalfEven)
open Float.Model (Format UnpackedFloat totalExponent)
open Float.Model.UnpackedFloat

/-! ### Mantissas and exponents -/

/-- A mantissa of full length, or a shorter one at the smallest exponent. Exponents are counted
from the smallest one. -/
structure Digits (m w : Nat) : Prop where
  lt : m < 2 ^ 24
  normal : w = 0 ∨ 2 ^ 23 ≤ m

/-- The word of infinity, behind those of all numbers. -/
def top : Nat := 255 * 2 ^ 23

/-- The word of a float that is neither negative nor undefined. -/
inductive Reads : UnpackedFloat → Nat → Prop
  | zero (s : Sign) : Reads (.zero s) 0
  | finite {m w : Nat} {e : Int} (hm : 0 < m) (he : e = w - 149) (digits : Digits m w)
      (hw : w ≤ 253) : Reads (.finite .positive m e hm) (w * 2 ^ 23 + m)
  | infinity : Reads (.infinity .positive) top

theorem Digits.log2 {m w : Nat} (h : Digits m w) (hm : 0 < m) :
    m.log2 ≤ 23 ∧ (m.log2 = 23 ↔ 2 ^ 23 ≤ m) := by
  have hne : m ≠ 0 := Nat.ne_of_gt hm
  have hlt : m.log2 < 24 := (Nat.log2_lt hne).2 h.lt
  have hge : 23 ≤ m.log2 ↔ 2 ^ 23 ≤ m := Nat.le_log2 hne
  omega

/-! ### Comparison -/

/-- **Comparison.** Floats compare as their words do. -/
theorem Reads.lt_iff {a b : UnpackedFloat} {i j : Nat} (ha : Reads a i) (hb : Reads b j) :
    a.lt b = true ↔ i < j := by
  cases ha with
  | zero s =>
      cases hb with
      | zero t => simp [UnpackedFloat.lt, UnpackedFloat.compare]
      | finite hn hf digits' hv => simp [UnpackedFloat.lt, UnpackedFloat.compare]; omega
      | infinity => simp [UnpackedFloat.lt, UnpackedFloat.compare, top]
  | @finite m w e hm he digits hw =>
      have hlt := digits.lt
      cases hb with
      | zero t => simp [UnpackedFloat.lt, UnpackedFloat.compare]
      | @finite n v f hn hf digits' hv =>
          have hlt' := digits'.lt
          have hcompare : (UnpackedFloat.lt (.finite .positive m e hm) (.finite .positive n f hn)
              = true) ↔ e < f ∨ e = f ∧ m < n := by
            simp [UnpackedFloat.lt, UnpackedFloat.compare, Ordering.then_eq_lt, Int.compare_eq_lt,
              Nat.compare_eq_lt]
          rw [hcompare]
          have hnormal := digits.normal
          have hnormal' := digits'.normal
          omega
      | infinity =>
          simp [UnpackedFloat.lt, UnpackedFloat.compare, top]
          omega
  | infinity =>
      cases hb with
      | zero t => simp [UnpackedFloat.lt, UnpackedFloat.compare]
      | finite hn hf digits' hv =>
          have hlt' := digits'.lt
          simp [UnpackedFloat.lt, UnpackedFloat.compare, top]
          omega
      | infinity => simp [UnpackedFloat.lt, UnpackedFloat.compare, top]

theorem Reads.eq_infinity {a : UnpackedFloat} (h : Reads a top) : a = .infinity .positive := by
  generalize hn : top = n at h
  cases h with
  | zero s => exact absurd hn (by decide)
  | finite hm he digits hw =>
      have hlt := digits.lt
      rw [top] at hn
      omega
  | infinity => rfl

theorem Reads.eq_zero {a : UnpackedFloat} (h : Reads a 0) : ∃ s, a = .zero s := by
  generalize hn : 0 = n at h
  cases h with
  | zero s => exact ⟨s, rfl⟩
  | finite hm he digits hw => omega
  | infinity => exact absurd hn (by decide)

/-- Nothing is more than what is undefined, and nothing is less. -/
theorem notANumber_lt (b : UnpackedFloat) : UnpackedFloat.lt .notANumber b = false := by
  cases b <;> rfl

/-! ### Packing -/

theorem unpack_pack_zero (s : Sign) :
    unpack Format.binary32 (pack Format.binary32 (.zero s)) = .zero s :=
  unpack_packedZero

theorem unpack_pack_infinity (s : Sign) :
    unpack Format.binary32 (pack Format.binary32 (.infinity s)) = .infinity s := by
  cases s <;> rfl

theorem unpack_pack_notANumber :
    unpack Format.binary32 (pack Format.binary32 .notANumber) = .notANumber :=
  unpack_packedNaN

/-- The bit in front of a full mantissa is not written. -/
theorem toNat_leading (m : BitVec 23) : (1#1 ++ m).toNat = 2 ^ 23 + m.toNat := by
  rw [BitVec.toNat_append, ← Nat.shiftLeft_add_eq_or_of_lt m.isLt]
  rfl

/-- The word of a positive number is made of its exponent and its mantissa. -/
theorem reads_components (e : BitVec 8) (m : BitVec 23) (he : e.toNat ≤ 254) :
    Reads (unpack Format.binary32 (packComponents Format.binary32 .positive e m))
      (e.toNat * 2 ^ 23 + m.toNat) := by
  have hne : e ≠ -1#8 := by
    rintro rfl
    exact absurd he (by decide)
  have hm := m.isLt
  have hbias : Format.binary32.exponentBias = 127 := rfl
  rw [unpack]
  simp only [unpackExponent_packComponents, unpackMantissa_packComponents,
    unpackSign_packComponents, Sign.ofBitVec_toBitVec, hbias]
  rw [if_neg hne]
  split
  · next hzero =>
    have he0 : e.toNat = 0 := by rw [hzero]; rfl
    split
    · next hnone =>
      have hm0 : m.toNat = 0 := by rw [hnone]; rfl
      rw [he0, hm0]
      exact .zero _
    · next hsome =>
      have hpos : 0 < m.toNat := BitVec.toNat_pos_of_ne_zero hsome
      have hword : e.toNat * 2 ^ 23 + m.toNat = 0 * 2 ^ 23 + m.toNat := by rw [he0]
      rw [hword]
      exact .finite hpos (by omega) ⟨by omega, .inl rfl⟩ (by omega)
  · next hsome =>
    have hpos : 0 < e.toNat := by
      refine Nat.pos_of_ne_zero fun hzero => hsome (BitVec.eq_of_toNat_eq ?_)
      rw [hzero]
      rfl
    have hfull := toNat_leading m
    have hword : e.toNat * 2 ^ 23 + m.toNat = (e.toNat - 1) * 2 ^ 23 + (1#1 ++ m).toNat := by
      omega
    rw [hword]
    exact .finite _ (by omega) ⟨by omega, .inr (by omega)⟩ (by omega)

/-- What is packed in normal form comes back as it was, or as infinity if it is too large. -/
theorem reads_packed {m w : Nat} {e : Int} (hm : 0 < m) (he : e = w - 149) (digits : Digits m w) :
    Reads (unpack Format.binary32 (pack Format.binary32 (.finite .positive m e hm)))
      (min top (w * 2 ^ 23 + m)) := by
  have hlt := digits.lt
  have hnormal := digits.normal
  obtain ⟨hlog, hfull⟩ := digits.log2 hm
  have hbiased : (e + (127 : Nat) + (23 : Nat)).toNat = w + 1 := by omega
  have hbias : Format.binary32.exponentBias = 127 := rfl
  have hbits : Format.binary32.mantissaBits = 24 := rfl
  have hmantissa : (BitVec.ofNat 23 m).toNat = m % 2 ^ 23 := BitVec.toNat_ofNat _ _
  rw [pack]
  simp only [hbias, hbits, hbiased]
  split
  · next hlarge =>
    have hword : min top (w * 2 ^ 23 + m) = top := by
      rw [top]
      omega
    have hpacked := unpack_pack_infinity .positive
    rw [pack] at hpacked
    rw [hword, hpacked]
    exact .infinity
  · next hsmall =>
    have hword : min top (w * 2 ^ 23 + m) = w * 2 ^ 23 + m := by
      rw [top]
      omega
    rw [hword]
    split
    · next hfull' =>
      have hexponent : (BitVec.ofNat 8 (w + 1)).toNat = w + 1 := by
        rw [BitVec.toNat_ofNat, Nat.mod_eq_of_lt (by omega)]
      have hread := reads_components (BitVec.ofNat 8 (w + 1)) (BitVec.ofNat 23 m) (by omega)
      rw [hexponent, hmantissa] at hread
      have heq : (w + 1) * 2 ^ 23 + m % 2 ^ 23 = w * 2 ^ 23 + m := by omega
      rw [← heq]
      exact hread
    · next hshort =>
      have hread := reads_components 0#8 (BitVec.ofNat 23 m) (by decide)
      rw [hmantissa] at hread
      have heq : (0#8).toNat * 2 ^ 23 + m % 2 ^ 23 = w * 2 ^ 23 + m := by
        have hzero : (0#8).toNat = 0 := rfl
        omega
      rw [← heq]
      exact hread

/-- A finite float has a word below that of infinity, unless it is negative. -/
theorem reads_or_negative {b : BitVec 32} (hfinite : (unpack Format.binary32 b).isFinite = true) :
    (∃ i, i < top ∧ Reads (unpack Format.binary32 b) i) ∨
      ∃ m e hm, unpack Format.binary32 b = .finite .negative m e hm := by
  obtain ⟨s, e, m, rfl⟩ : ∃ s e m, packComponents Format.binary32 s e m = b :=
    ⟨_, _, _, @packComponents_unpackSign_unpackExponent_unpackMantissa Format.binary32 b⟩
  have hm : m.toNat < 2 ^ 23 := m.isLt
  have he : e.toNat < 2 ^ 8 := e.isLt
  by_cases htop : e = -1#8
  · rw [unpack] at hfinite
    simp only [unpackExponent_packComponents, htop, if_true] at hfinite
    split at hfinite <;> cases hfinite
  · have hle : e.toNat ≤ 254 := by
      refine Nat.le_of_lt_succ (Nat.lt_of_le_of_ne (by omega) fun heq => htop ?_)
      exact BitVec.eq_of_toNat_eq heq
    cases s with
    | positive => exact .inl ⟨_, by rw [top]; omega, reads_components e m hle⟩
    | negative =>
        rw [unpack]
        simp only [unpackExponent_packComponents, unpackMantissa_packComponents,
          unpackSign_packComponents, Sign.ofBitVec_toBitVec]
        rw [if_neg htop]
        split
        · split
          · exact .inl ⟨0, by decide, .zero _⟩
          · next hsome => exact .inr ⟨_, _, BitVec.toNat_pos_of_ne_zero hsome, rfl⟩
        · have hfull := toNat_leading m
          exact .inr ⟨_, _, by omega, rfl⟩

/-! ### Rounding -/

theorem targetExponent_eq (m : Nat) (e : Int) :
    Format.binary32.targetExponent (totalExponent m e) = max (m.log2 + 1 + e - 24) (-149) := rfl

/-- Bits are dropped until the exponent is the one wanted, and none if it is large enough. -/
theorem shiftToTargetExponent_eq {m k : Nat} {e : Int}
    (hk : k = (max (m.log2 + 1 + e - 24) (-149) - e).toNat) :
    shiftToTargetExponent Format.binary32 m e .exact
      = ((⟨m, false, false⟩ : ExtendedMantissa) >>> k, e + k) := by
  rw [shiftToTargetExponent, shiftToExponent, targetExponent_eq, hk]
  rfl

/-- The float of a mantissa and an exponent, where nothing may be left of the mantissa. -/
def ofRounded (x : ExtendedMantissa × Int) : UnpackedFloat :=
  if h : x.1.mantissa = 0 then .zero .positive
  else .finite .positive x.1.mantissa x.2 (Nat.pos_of_ne_zero h)

theorem roundWithAccuracy_eq (m : Nat) (e : Int) :
    roundWithAccuracy Format.binary32 .positive m e .exact
      = ofRounded (shiftToTargetExponent Format.binary32
          (shiftToTargetExponent Format.binary32 m e .exact).1.roundedMantissa
          (shiftToTargetExponent Format.binary32 m e .exact).2 .exact) := rfl

theorem reads_ofRounded {x : ExtendedMantissa × Int} {w : Nat} (he : x.2 = w - 149)
    (digits : Digits x.1.mantissa w) :
    Reads (unpack Format.binary32 (pack Format.binary32 (ofRounded x)))
      (min top (w * 2 ^ 23 + x.1.mantissa)) := by
  rw [ofRounded]
  split
  · next hnone =>
    have hnormal := digits.normal
    have hword : min top (w * 2 ^ 23 + x.1.mantissa) = 0 := by omega
    rw [hword, unpack_pack_zero]
    exact .zero _
  · exact reads_packed _ he digits

/-- **Rounding.** A positive number is rounded to the one whose word is that of the nearest, or to
infinity if it is too large. -/
theorem reads_rounded {m s j : Nat} {e : Int} (hm : 0 < m) (he : e + (149 + s) = j)
    (hfit : e ≤ max (m.log2 + 1 + e - 24) (-149)) :
    Reads (unpack Format.binary32
        (pack Format.binary32 (roundWithAccuracy Format.binary32 .positive m e .exact)))
      (min top (word s (m * 2 ^ j))) := by
  have hne : m ≠ 0 := Nat.ne_of_gt hm
  have hlog := log2_mul_two_pow hne j
  obtain ⟨p, hp⟩ : ∃ p, p = (m * 2 ^ j).log2 - (s + 23) := ⟨_, rfl⟩
  obtain ⟨k, hk⟩ : ∃ k, k = (max (m.log2 + 1 + e - 24) (-149) - e).toNat := ⟨_, rfl⟩
  have hplaces : p + s = k + j := by omega
  have hexponent : e + k = p - 149 := by omega
  obtain ⟨M, hM⟩ : ∃ M, M = roundHalfEven (m * 2 ^ j) (2 ^ (p + s)) := ⟨_, rfl⟩
  have hword : word s (m * 2 ^ j) = p * 2 ^ 23 + M := by rw [word, ← hp, hM]
  have hcarry : M ≤ 2 ^ 24 := by
    rw [hM, hp]
    exact roundHalfEven_le_carry
  have hnormal : p = 0 ∨ 2 ^ 23 ≤ M := by
    rcases Nat.eq_zero_or_pos p with h0 | hpos
    · exact .inl h0
    · right
      rw [hM, hp]
      exact le_roundHalfEven_of_normal (by omega)
  have hrounded : ((⟨m, false, false⟩ : ExtendedMantissa) >>> k).roundedMantissa = M := by
    rw [(shifted_shiftRight m k).roundedMantissa, hM, hplaces, Nat.pow_add,
      roundHalfEven_mul _ _ (Nat.two_pow_pos j)]
  rw [roundWithAccuracy_eq, shiftToTargetExponent_eq hk, hrounded, hexponent, hword]
  rcases Nat.lt_or_eq_of_le hcarry with hlt | hfull
  · -- Rounding has not carried, and no more bits are dropped.
    have hstill : 0 = (max ((M.log2 : Int) + 1 + (p - 149) - 24) (-149) - (p - 149)).toNat := by
      have hle : M.log2 ≤ 23 := by
        rcases Nat.eq_zero_or_pos M with h0 | hpos
        · rw [h0, Nat.log2_zero]
          exact Nat.zero_le _
        · exact ((Digits.mk hlt hnormal).log2 hpos).1
      omega
    rw [shiftToTargetExponent_eq hstill]
    exact reads_ofRounded (by simp) (Digits.mk hlt hnormal)
  · -- Rounding has carried into one bit more, and the last one is dropped.
    have hone : 1 = (max ((M.log2 : Int) + 1 + (p - 149) - 24) (-149) - (p - 149)).toNat := by
      have h24 : M.log2 = 24 := by rw [hfull]; exact Nat.log2_two_pow
      omega
    have hhalf : ((⟨M, false, false⟩ : ExtendedMantissa) >>> 1).mantissa = 2 ^ 23 := by
      rw [hfull]
      rfl
    have digits : Digits ((⟨M, false, false⟩ : ExtendedMantissa) >>> 1).mantissa (p + 1) := by
      rw [hhalf]
      exact ⟨by decide, .inr (Nat.le_refl _)⟩
    have hcarried : p * 2 ^ 23 + M
        = (p + 1) * 2 ^ 23 + ((⟨M, false, false⟩ : ExtendedMantissa) >>> 1).mantissa := by
      omega
    rw [shiftToTargetExponent_eq hone, hcarried]
    exact reads_ofRounded (by simp; omega) digits

/-! ### Words and numbers -/

/-- The number that a word stands for, counted in the smallest positive number. -/
def worth (n : Nat) : Nat :=
  if n < 2 ^ 23 then n else (2 ^ 23 + n % 2 ^ 23) * 2 ^ (n / 2 ^ 23 - 1)

theorem Digits.worth {m w : Nat} (h : Digits m w) : worth (w * 2 ^ 23 + m) = m * 2 ^ w := by
  have hlt := h.lt
  have hnormal := h.normal
  rw [Binary32.worth]
  split
  · next hsmall =>
    obtain rfl : w = 0 := by omega
    rw [Nat.zero_mul, Nat.zero_add, Nat.pow_zero, Nat.mul_one]
  · next hlarge =>
    have hfull : 2 ^ 23 + (w * 2 ^ 23 + m) % 2 ^ 23 = m := by omega
    have hplace : (w * 2 ^ 23 + m) / 2 ^ 23 - 1 = w := by omega
    rw [hfull, hplace]

theorem exists_digits (n : Nat) : ∃ m w, Digits m w ∧ n = w * 2 ^ 23 + m := by
  rcases Nat.lt_or_ge n (2 ^ 23) with hlt | hge
  · exact ⟨n, 0, ⟨by omega, .inl rfl⟩, by omega⟩
  · exact ⟨2 ^ 23 + n % 2 ^ 23, n / 2 ^ 23 - 1, ⟨by omega, .inr (by omega)⟩, by omega⟩

theorem Digits.word {m w : Nat} (h : Digits m w) : word 0 (m * 2 ^ w) = w * 2 ^ 23 + m := by
  rcases Nat.eq_zero_or_pos m with rfl | hm
  · obtain rfl : w = 0 := by have hnormal := h.normal; omega
    rfl
  have hlog := log2_mul_two_pow (Nat.ne_of_gt hm) w
  obtain ⟨hle, hfull⟩ := h.log2 hm
  have hnormal := h.normal
  have hplace : (m * 2 ^ w).log2 - (0 + 23) = w := by omega
  have hexact := roundHalfEven_mul m 1 (Nat.two_pow_pos w)
  rw [Nat.one_mul, roundHalfEven_one] at hexact
  rw [Binary32.word, hplace, Nat.add_zero, hexact]

/-- The number of a word is rounded to the word it has. -/
theorem word_worth (n : Nat) : word 0 (worth n) = n := by
  obtain ⟨m, w, digits, rfl⟩ := exists_digits n
  rw [digits.worth, digits.word]

/-- **The words are in order.** -/
theorem worth_mono {i j : Nat} (h : i ≤ j) : worth i ≤ worth j := by
  refine Nat.le_of_not_lt fun hlt => ?_
  have hle := word_mono 0 (Nat.le_of_lt hlt)
  rw [word_worth, word_worth] at hle
  rw [Nat.le_antisymm h hle] at hlt
  exact Nat.lt_irrefl _ hlt

/-! ### Products -/

/-- **Products** of numbers go by what their words stand for. -/
theorem Reads.mul {a b : UnpackedFloat} {i j : Nat} (ha : Reads a i) (hb : Reads b j)
    (hi : i < top) (hj : j < top) :
    Reads (unpack Format.binary32 (pack Format.binary32 (UnpackedFloat.mul Format.binary32 a b)))
      (min top (word 149 (worth i * worth j))) := by
  have hzero : worth 0 = 0 := rfl
  have hnone : min top (word 149 0) = 0 := by rw [word_zero, Nat.min_zero]
  cases ha with
  | zero s =>
      rw [hzero, Nat.zero_mul, hnone]
      cases hb with
      | zero t =>
          rw [UnpackedFloat.mul, unpack_pack_zero]
          exact .zero _
      | finite hn hf digits' hv =>
          rw [UnpackedFloat.mul, unpack_pack_zero]
          exact .zero _
      | infinity => exact absurd hj (Nat.lt_irrefl _)
  | @finite m w e hm he digits hw =>
      cases hb with
      | zero t =>
          rw [hzero, Nat.mul_zero, hnone, UnpackedFloat.mul, unpack_pack_zero]
          exact .zero _
      | @finite n v f hn hf digits' hv =>
          have hunits : (m * 2 ^ w) * (n * 2 ^ v) = m * n * 2 ^ (w + v) := by
            rw [Nat.pow_add, Nat.mul_mul_mul_comm]
          rw [digits.worth, digits'.worth, hunits, UnpackedFloat.mul]
          refine reads_rounded (Nat.mul_pos hm hn) (by omega) ?_
          -- Either factor of full length makes the product long enough.
          have hlong : (2 ^ 23 ≤ m ∨ 2 ^ 23 ≤ n) → 23 ≤ (m * n).log2 := by
            intro hfull
            refine (Nat.le_log2 (Nat.ne_of_gt (Nat.mul_pos hm hn))).2 ?_
            rcases hfull with hfull | hfull
            · exact Nat.le_trans hfull (Nat.le_mul_of_pos_right m hn)
            · exact Nat.le_trans hfull (Nat.le_mul_of_pos_left n hm)
          have hnormal := digits.normal
          have hnormal' := digits'.normal
          omega
      | infinity => exact absurd hj (Nat.lt_irrefl _)
  | infinity => exact absurd hi (Nat.lt_irrefl _)

/-- Infinity times a number is infinity, or undefined if the number is zero. -/
theorem mul_infinity {b : UnpackedFloat} {j : Nat} (hb : Reads b j) (hj : j < top) :
    (j = 0 ∧ UnpackedFloat.mul Format.binary32 (.infinity .positive) b = .notANumber) ∨
    (0 < j ∧ UnpackedFloat.mul Format.binary32 (.infinity .positive) b = .infinity .positive) := by
  cases hb with
  | zero t => exact .inl ⟨rfl, rfl⟩
  | finite hn hf digits' hv => exact .inr ⟨by omega, rfl⟩
  | infinity => exact absurd hj (Nat.lt_irrefl _)

/-! ### Whole numbers -/

/-- Small whole numbers are written with a full mantissa first. -/
theorem reads_ofNat (n : Nat) :
    Reads (unpack Format.binary32 (pack Format.binary32 (ofNat Format.binary32 n)))
      (min top (word 0 (n * 2 ^ 149))) := by
  rcases Nat.eq_zero_or_pos n with rfl | hn
  · have hnone : min top (word 0 (0 * 2 ^ 149)) = 0 := by
      rw [Nat.zero_mul, word_zero, Nat.min_zero]
    rw [hnone]
    exact (unpack_pack_zero .positive) ▸ .zero .positive
  · obtain ⟨k, hk⟩ : ∃ k, k = (0 - max ((n.log2 : Int) + 1 + 0 - 24) (-149)).toNat := ⟨_, rfl⟩
    have hround : ofNat Format.binary32 n
        = roundWithAccuracy Format.binary32 .positive (n <<< k) (0 - k) .exact := by
      have hsign : compare (n : Int) 0 = .gt := Int.compare_eq_gt.2 (by omega)
      rw [ofNat, ofInt, UnpackedFloat.normalize, hsign, hk]
      rfl
    have hlog := log2_mul_two_pow (Nat.ne_of_gt hn) k
    have hunits : n * 2 ^ 149 = n * 2 ^ k * 2 ^ (149 - k) := by
      rw [Nat.mul_assoc, ← Nat.pow_add]
      congr 2
      omega
    rw [hround, Nat.shiftLeft_eq, hunits]
    exact reads_rounded (Nat.mul_pos hn (Nat.two_pow_pos k)) (by omega) (by omega)

/-- A product with one changes nothing. -/
theorem Reads.mul_one {a b : UnpackedFloat} {i : Nat} (ha : Reads a i) (hi : i < top)
    (hb : Reads b (127 * 2 ^ 23)) :
    Reads (unpack Format.binary32 (pack Format.binary32 (UnpackedFloat.mul Format.binary32 a b)))
      i := by
  have hone : worth (127 * 2 ^ 23) = 2 ^ 149 := by decide
  have hread := ha.mul hb hi (by decide)
  have hsame : word (0 + 149) (worth i * 2 ^ 149) = i := by rw [word_mul, word_worth]
  rw [hone, ← Nat.zero_add 149, hsame, Nat.min_eq_right (Nat.le_of_lt hi)] at hread
  exact hread

theorem reads_one : Reads (Float32.ofBits 0x3F800000).toModel.unpack (127 * 2 ^ 23) := by
  have hone : (Float32.ofBits 0x3F800000).toModel.unpack
      = .finite .positive (2 ^ 23) (-23) (by decide) := rfl
  rw [hone]
  exact .finite (w := 126) (by decide) (by decide) ⟨by decide, .inr (by decide)⟩ (by decide)

theorem word_lt_top {n : Nat} (hn : n < 2 ^ 23) : min top (word 0 (n * 2 ^ 149)) < top := by
  have hle := word_mono 0 (Nat.mul_le_mul_right (2 ^ 149) (Nat.le_of_lt hn))
  have hdigits : Digits (2 ^ 23) 149 := ⟨by decide, .inr (Nat.le_refl _)⟩
  rw [hdigits.word] at hle
  exact Nat.lt_of_le_of_lt (Nat.min_le_right _ _) (Nat.lt_of_le_of_lt hle (by decide))

/-- **Conversion.** A whole number is read as the nearest number. -/
theorem reads_toFloat32 (n : Nat) :
    Reads n.toFloat32.toModel.unpack (min top (word 0 (n * 2 ^ 149))) := by
  rw [Nat.toFloat32, Float32.ofNat]
  show Reads (Float32.ofScientific n false 0).toModel.unpack _
  rw [Float32.ofScientific]
  split
  · next hsmall =>
    -- A small one is converted as a word of the machine, and then multiplied by one.
    have hn : n.toUInt64.toNat = n := by
      rw [Nat.toUInt64, UInt64.toNat_ofNat', Nat.mod_eq_of_lt]
      omega
    have hread := reads_ofNat n.toUInt64.toNat
    show Reads (unpack Format.binary32 (pack Format.binary32 (UnpackedFloat.mul Format.binary32
      (unpack Format.binary32 (pack Format.binary32 (ofNat Format.binary32 n.toUInt64.toNat)))
      (Float32.ofBits 0x3F800000).toModel.unpack))) _
    rw [hn] at hread ⊢
    exact hread.mul_one (word_lt_top hsmall.1) reads_one
  · next hlarge =>
    have hn : 0 < n := by omega
    have hne : n ≠ 0 := Nat.ne_of_gt hn
    have hproduct : ofScientific Format.binary32 n (Int.ofNat 0)
        = roundWithAccuracy Format.binary32 .positive ((n <<< 24) * 1) (-24 + 0) .exact := by
      have hlow : ¬ Int.ofNat 0 < -((2 ^ 8 : Int) + n.log2) := by
        show ¬ (0 : Int) < _
        omega
      rw [ofScientific, dif_neg hne, if_neg (by decide), if_neg hlow, if_pos (by decide)]
      rfl
    have hlog := log2_mul_two_pow hne 24
    have hunits : n * 2 ^ 149 = n * 2 ^ 24 * 2 ^ 125 := by
      rw [Nat.mul_assoc, ← Nat.pow_add]
    show Reads (unpack Format.binary32 (pack Format.binary32
      (ofScientific Format.binary32 n (Int.ofNat 0)))) _
    rw [hproduct, Nat.mul_one, Nat.shiftLeft_eq, hunits]
    exact reads_rounded (Nat.mul_pos hn (Nat.two_pow_pos 24)) (by omega) (by omega)

/-! ### Shares of whole numbers -/

/-- The word of a whole number. -/
def whole (n : Nat) : Nat := min top (word 0 (n * 2 ^ 149))

/-- The word of a share of a whole number. -/
def share (i n : Nat) : Nat :=
  if whole n < top then min top (word 149 (worth (whole n) * worth i)) else top

theorem whole_le_top (n : Nat) : whole n ≤ top := Nat.min_le_left _ _

theorem whole_mono {m n : Nat} (h : m ≤ n) : whole m ≤ whole n := by
  have hword := word_mono 0 (Nat.mul_le_mul_right (2 ^ 149) h)
  rw [whole, whole]
  omega

theorem share_le_top (i n : Nat) : share i n ≤ top := by
  rw [share]
  split
  · exact Nat.min_le_left _ _
  · exact Nat.le_refl _

/-- A share goes up with what it is a share of. -/
theorem share_mono (i : Nat) {m n : Nat} (h : m ≤ n) : share i m ≤ share i n := by
  have hwhole := whole_mono h
  by_cases hn : whole n < top
  · rw [share, share, if_pos hn, if_pos (Nat.lt_of_le_of_lt hwhole hn)]
    have hword := word_mono 149 (Nat.mul_le_mul_right (worth i) (worth_mono hwhole))
    omega
  · have htop : share i n = top := if_neg hn
    rw [htop]
    exact share_le_top i m

theorem whole_zero : whole 0 = 0 := by
  rw [whole, Nat.zero_mul, word_zero, Nat.min_zero]

theorem share_zero (i : Nat) : share i 0 = 0 := by
  have hzero : worth 0 = 0 := rfl
  rw [share, whole_zero, if_pos (by decide), hzero, Nat.zero_mul, word_zero, Nat.min_zero]

theorem whole_pos {n : Nat} (hn : 0 < n) : 0 < whole n := by
  have hone : 0 < whole 1 := by decide
  exact Nat.lt_of_lt_of_le hone (whole_mono hn)

/-- **Shares in order.** That a share of one whole number is less than another is a matter of their
words, if the share is taken by a finite number that is not negative. -/
theorem mul_lt_iff {r : Float32} {i : Nat} (hr : Reads r.toModel.unpack i) (hi : i < top)
    (m n : Nat) : m.toFloat32 * r < n.toFloat32 ↔ share i m < whole n := by
  have hm := reads_toFloat32 m
  have hn := reads_toFloat32 n
  rw [← whole] at hm hn
  show (decide ((unpack Format.binary32 (pack Format.binary32 (UnpackedFloat.mul Format.binary32
    m.toFloat32.toModel.unpack r.toModel.unpack))).lt n.toFloat32.toModel.unpack = true)) = true ↔ _
  rw [decide_eq_true_iff, share]
  split
  · next hfinite => exact (hm.mul hr hfinite hi).lt_iff hn
  · next hinfinite =>
    -- A share of infinity is infinite or undefined, and less than nothing.
    have htop : whole m = top := Nat.le_antisymm (whole_le_top m) (Nat.le_of_not_lt hinfinite)
    have hle := whole_le_top n
    rw [htop] at hm
    have hinfinity : m.toFloat32.toModel.unpack = .infinity .positive := hm.eq_infinity
    rw [hinfinity]
    rcases mul_infinity hr hi with ⟨-, hmul⟩ | ⟨-, hmul⟩
    · rw [hmul, unpack_pack_notANumber, notANumber_lt]
      exact iff_of_false Bool.false_ne_true (Nat.not_lt_of_le hle)
    · rw [hmul, unpack_pack_infinity]
      exact Reads.infinity.lt_iff hn

/-- What is finite and not less than zero has a word. -/
theorem exists_reads {r : Float32} (hfinite : r.isFinite = true) (hpos : ¬ r < 0) :
    ∃ i, i < top ∧ Reads r.toModel.unpack i := by
  refine (reads_or_negative hfinite).resolve_right fun hneg => ?_
  obtain ⟨m, e, hm, hneg⟩ := hneg
  have hnone := reads_toFloat32 0
  rw [← whole, whole_zero] at hnone
  obtain ⟨s, hzero⟩ := hnone.eq_zero
  have hunpack : r.toModel.unpack = .finite .negative m e hm := hneg
  refine hpos ?_
  show (decide (r.toModel.unpack.lt (Nat.toFloat32 0).toModel.unpack = true)) = true
  rw [hunpack, hzero]
  rfl

end FlowGraph.Binary32
