import FlowGraph.Decimal.Nearest

/-!
# Rounding to single precision

A positive number is a whole multiple of some small power of two. Rounding it to single precision
drops bits at the end, one after the other, and keeps track of two things: the last bit dropped, and
whether any other was set. That is enough to tell the nearest number. What comes out is written as
the word that the number would have if exponents had no end: the places of the words are those of
the numbers, so that rounding is monotone because the nearest whole number is, except where the
exponent changes, and there the words leave no gap.

* `roundHalfEven_mono`, `roundHalfEven_mul` — the nearest whole number.
* `Shifted`, `Shifted.shiftRightOne` — what bits dropped leave behind.
* `Shifted.roundedMantissa` — bits dropped make the nearest whole number.
* `word`, `word_mono` — the word of the nearest number, and that it goes up with the number.
-/

namespace FlowGraph.Binary32

open FlowGraph.Decimal (roundHalfEven)
open Float.Model.UnpackedFloat

/-! ### The nearest whole number -/

theorem roundHalfEven_eq (m d : Nat) :
    roundHalfEven m d
      = if 2 * (m % d) < d then m / d
        else if d < 2 * (m % d) then m / d + 1
        else if m / d % 2 = 0 then m / d else m / d + 1 := rfl

theorem div_le_roundHalfEven (m d : Nat) : m / d ≤ roundHalfEven m d := by
  rw [roundHalfEven_eq]
  split
  · exact Nat.le_refl _
  · split
    · exact Nat.le_succ _
    · split
      · exact Nat.le_refl _
      · exact Nat.le_succ _

theorem roundHalfEven_le (m d : Nat) : roundHalfEven m d ≤ m / d + 1 := by
  rw [roundHalfEven_eq]
  split
  · exact Nat.le_succ _
  · split
    · exact Nat.le_refl _
    · split
      · exact Nat.le_succ _
      · exact Nat.le_refl _

/-- A larger number has no smaller nearest number. -/
theorem roundHalfEven_mono {m n : Nat} (d : Nat) (h : m ≤ n) :
    roundHalfEven m d ≤ roundHalfEven n d := by
  rcases Nat.lt_or_eq_of_le (Nat.div_le_div_right (c := d) h) with hlt | heq
  · exact Nat.le_trans (roundHalfEven_le m d) (Nat.le_trans hlt (div_le_roundHalfEven n d))
  · have hm := Nat.div_add_mod m d
    have hn := Nat.div_add_mod n d
    rw [heq] at hm
    by_cases hup : d < 2 * (n % d)
    · have hrounded : roundHalfEven n d = n / d + 1 := by
        rw [roundHalfEven_eq, if_neg (by omega), if_pos hup]
      rw [hrounded, ← heq]
      exact roundHalfEven_le m d
    · by_cases hsame : m % d = n % d
      · obtain rfl : m = n := by omega
        exact Nat.le_refl _
      · have hrounded : roundHalfEven m d = m / d := by
          rw [roundHalfEven_eq, if_pos (by omega)]
        rw [hrounded, heq]
        exact div_le_roundHalfEven n d

/-- A common factor does not matter. -/
theorem roundHalfEven_mul (m d : Nat) {c : Nat} (hc : 0 < c) :
    roundHalfEven (m * c) (d * c) = roundHalfEven m d := by
  rw [roundHalfEven_eq, roundHalfEven_eq, Nat.mul_div_mul_right _ _ hc, Nat.mul_mod_mul_right,
    ← Nat.mul_assoc]
  simp only [Nat.mul_lt_mul_right hc]

theorem roundHalfEven_one (m : Nat) : roundHalfEven m 1 = m := by
  rw [roundHalfEven_eq, Nat.mod_one, Nat.div_one]
  rfl

theorem roundHalfEven_zero {d : Nat} (hd : 0 < d) : roundHalfEven 0 d = 0 := by
  rw [roundHalfEven_eq, Nat.zero_mod, Nat.zero_div]
  exact if_pos hd

/-! ### Dropping bits -/

/-- A number without its last bits: what remains, whether the bits make half a unit, and whether
they make anything but nothing or half a unit. -/
structure Shifted (em : ExtendedMantissa) (m k : Nat) : Prop where
  mantissa : em.mantissa = m / 2 ^ k
  roundBit : em.roundBit = true ↔ 2 ^ k ≤ 2 * (m % 2 ^ k)
  stickyBit : em.stickyBit = true ↔ 2 * (m % 2 ^ k) ≠ 0 ∧ 2 * (m % 2 ^ k) ≠ 2 ^ k

theorem shifted_zero (m : Nat) : Shifted ⟨m, false, false⟩ m 0 where
  mantissa := (Nat.div_one m).symm
  roundBit := by simp [Nat.mod_one]
  stickyBit := by simp [Nat.mod_one]

/-- **Step.** One bit more is dropped. -/
theorem Shifted.shiftRightOne {em : ExtendedMantissa} {m k : Nat} (h : Shifted em m k) :
    Shifted em.shiftRightOne m (k + 1) := by
  have hpow : 2 ^ (k + 1) = 2 ^ k * 2 := Nat.pow_succ _ _
  have hsplit : m % (2 ^ k * 2) = m % 2 ^ k + 2 ^ k * (m / 2 ^ k % 2) := Nat.mod_mul
  have hlt : m % 2 ^ k < 2 ^ k := Nat.mod_lt _ (Nat.two_pow_pos k)
  have hmantissa := h.mantissa
  have hround := h.roundBit
  have hsticky := h.stickyBit
  refine { mantissa := ?_, roundBit := ?_, stickyBit := ?_ }
  · rw [ExtendedMantissa.shiftRightOne, hmantissa, hpow, Nat.div_div_eq_div_mul]
  · rw [ExtendedMantissa.shiftRightOne, bne_iff_ne, hmantissa, hpow, hsplit]
    rcases Nat.mod_two_eq_zero_or_one (m / 2 ^ k) with hbit | hbit <;> rw [hbit] <;> omega
  · rw [ExtendedMantissa.shiftRightOne, Bool.or_eq_true, hround, hsticky, hpow, hsplit]
    rcases Nat.mod_two_eq_zero_or_one (m / 2 ^ k) with hbit | hbit <;> rw [hbit] <;> omega

/-- **All steps**, by induction on the bits dropped. -/
theorem shifted_shiftRight (m k : Nat) :
    Shifted ((⟨m, false, false⟩ : ExtendedMantissa) >>> k) m k := by
  induction k with
  | zero => exact shifted_zero m
  | succ k ih => exact ih.shiftRightOne

/-- The two bits kept in mind are enough to round. -/
theorem Shifted.roundedMantissa {em : ExtendedMantissa} {m k : Nat} (h : Shifted em m k) :
    em.roundedMantissa = roundHalfEven m (2 ^ k) := by
  obtain ⟨mantissa, round, sticky⟩ := em
  have hround := h.roundBit
  have hsticky := h.stickyBit
  have hmantissa : mantissa = m / 2 ^ k := h.mantissa
  have hlt : m % 2 ^ k < 2 ^ k := Nat.mod_lt _ (Nat.two_pow_pos k)
  rw [roundHalfEven_eq, ExtendedMantissa.roundedMantissa, hmantissa]
  cases round <;> cases sticky <;>
    simp only [ExtendedMantissa.accuracy, Accuracy.roundToNearestEven] <;>
    simp only [Bool.false_eq_true, false_iff, true_iff] at hround hsticky
  · rw [if_pos (by omega)]
  · rw [if_pos (by omega)]
  · rw [if_neg (by omega), if_neg (by omega)]
    split <;> omega
  · rw [if_neg (by omega), if_pos (by omega)]

/-! ### The word of the nearest number -/

/-- The word of the nearest number to `m · 2 ^ -(149 + s)`, were there no end of exponents: the
exponent counts from the smallest one, and what rounding carries goes into it. -/
def word (s m : Nat) : Nat :=
  (m.log2 - (s + 23)) * 2 ^ 23 + roundHalfEven m (2 ^ (m.log2 - (s + 23) + s))

theorem word_zero (s : Nat) : word s 0 = 0 := by
  rw [word, Nat.log2_zero, Nat.zero_sub, Nat.zero_mul, roundHalfEven_zero (Nat.two_pow_pos _)]

/-- No rounded mantissa takes more bits than there are, but for one carry. -/
theorem roundHalfEven_le_carry {s m : Nat} :
    roundHalfEven m (2 ^ (m.log2 - (s + 23) + s)) ≤ 2 ^ 24 := by
  refine Nat.le_trans (roundHalfEven_le _ _) (Nat.succ_le_of_lt ?_)
  refine (Nat.div_lt_iff_lt_mul (Nat.two_pow_pos _)).2 ?_
  rw [← Nat.pow_add]
  exact Nat.lt_of_lt_of_le Nat.lt_log2_self (Nat.pow_le_pow_right (by decide) (by omega))

/-- Above the smallest exponent, rounded mantissas begin with a set bit. -/
theorem le_roundHalfEven_of_normal {s m : Nat} (hnormal : s + 23 < m.log2) :
    2 ^ 23 ≤ roundHalfEven m (2 ^ (m.log2 - (s + 23) + s)) := by
  have hm : m ≠ 0 := by
    rintro rfl
    rw [Nat.log2_zero] at hnormal
    exact Nat.not_lt_zero _ hnormal
  refine Nat.le_trans ((Nat.le_div_iff_mul_le (Nat.two_pow_pos _)).2 ?_) (div_le_roundHalfEven _ _)
  rw [← Nat.pow_add]
  exact Nat.le_trans (Nat.pow_le_pow_right (by decide) (by omega)) (Nat.log2_self_le hm)

/-- **Monotony.** The word of the nearest number goes up with the number. -/
theorem word_mono (s : Nat) {m n : Nat} (h : m ≤ n) : word s m ≤ word s n := by
  rcases Nat.eq_zero_or_pos m with rfl | hm
  · rw [word_zero]
    exact Nat.zero_le _
  have hlog : m.log2 ≤ n.log2 :=
    (Nat.le_log2 (by omega)).2 (Nat.le_trans (Nat.log2_self_le (by omega)) h)
  unfold word
  rcases Nat.lt_or_eq_of_le (Nat.sub_le_sub_right hlog (s + 23)) with hlt | heq
  · -- Where the exponent changes, the lower word is carried up to the higher at most.
    have hupper := roundHalfEven_le_carry (s := s) (m := m)
    have hlower := le_roundHalfEven_of_normal (s := s) (m := n) (by omega)
    omega
  · rw [heq]
    exact Nat.add_le_add_left (roundHalfEven_mono _ h) _

theorem log2_mul_two_pow {m : Nat} (hm : m ≠ 0) (j : Nat) : (m * 2 ^ j).log2 = m.log2 + j := by
  induction j with
  | zero => rw [Nat.pow_zero, Nat.mul_one, Nat.add_zero]
  | succ j ih =>
      have hne : m * 2 ^ j ≠ 0 := Nat.mul_ne_zero hm (Nat.ne_of_gt (Nat.two_pow_pos j))
      rw [Nat.pow_succ, ← Nat.mul_assoc, Nat.mul_comm, Nat.log2_two_mul hne, ih]
      rfl

/-- The unit in which a number is given does not matter. -/
theorem word_mul (s m j : Nat) : word (s + j) (m * 2 ^ j) = word s m := by
  rcases Nat.eq_zero_or_pos m with rfl | hm
  · rw [Nat.zero_mul, word_zero, word_zero]
  have hlog := log2_mul_two_pow (Nat.ne_of_gt hm) j
  have hplace : (m * 2 ^ j).log2 - (s + j + 23) = m.log2 - (s + 23) := by omega
  rw [word, word, hplace, ← Nat.add_assoc, Nat.pow_add,
    roundHalfEven_mul _ _ (Nat.two_pow_pos j)]

end FlowGraph.Binary32
