import FlowGraph.Arithmetic

/-!
# Counters of ids

Ids of all kinds are 32-bit numbers that a counter gives out in turn. Only the step from the last
number back to the first is one at which two ids could meet, so the laws of fresh ids speak of
counters that have not made it.

* `toNat_next`, `lt_next` — the next number, while there is one.
* `Ticks` — a counter that stands still or moves on by one.
* `length_le_of_ascending` — how many ids a counter can have given out.
-/

namespace FlowGraph

namespace Counter

/-- While there are numbers left, the next one is one further. -/
theorem toNat_next {n : UInt32} (h : n.toNat + 1 < 2 ^ 32) : (n + 1).toNat = n.toNat + 1 := by
  have h1 : (1 : UInt32).toNat = 1 := rfl
  rw [UInt32.toNat_add]
  omega

/-- A counter that does not start over has a number left. -/
theorem room_of_le_next {n : UInt32} (h : n ≤ n + 1) : n.toNat + 1 < 2 ^ 32 := by
  have h1 : (1 : UInt32).toNat = 1 := rfl
  have hn := n.toNat_lt
  rw [UInt32.le_iff_toNat_le, UInt32.toNat_add] at h
  omega

/-- A counter that does not start over moves up. -/
theorem lt_next {n : UInt32} (h : n ≤ n + 1) : n < n + 1 := by
  rw [UInt32.lt_iff_toNat_lt, toNat_next (room_of_le_next h)]
  exact Nat.lt_succ_self _

/-- A counter that stands still or moves on by one. -/
def Ticks (n m : UInt32) : Prop := m = n ∨ m = n + 1

/-- A counter below a bound that fits its word takes its next step without starting over. -/
theorem Ticks.bound {n m : UInt32} (h : Ticks n m) {k : Nat} (hn : n.toNat ≤ k)
    (hk : k + 1 < 2 ^ 32) : n ≤ m ∧ m.toNat ≤ k + 1 := by
  rw [UInt32.le_iff_toNat_le]
  rcases h with rfl | rfl
  · omega
  · rw [toNat_next (by omega)]
    omega

/-- Numbers that ascend from one number and stay below another are no more than lie between. -/
theorem length_le_of_ascending {l : List UInt32} {bound : UInt32} {low : Nat}
    (hasc : l.Pairwise fun m n => m < n) (hlow : ∀ n ∈ l, low ≤ n.toNat)
    (hbelow : ∀ n ∈ l, n < bound) (hbound : low ≤ bound.toNat) :
    low + l.length ≤ bound.toNat := by
  induction l generalizing low with
  | nil => exact hbound
  | cons n l ih =>
      rw [List.pairwise_cons] at hasc
      have hn := hlow n (by simp)
      have hnb := UInt32.lt_iff_toNat_lt.1 (hbelow n (by simp))
      have hnext : ∀ m ∈ l, low + 1 ≤ m.toNat := by
        intro m hm
        have hlt := UInt32.lt_iff_toNat_lt.1 (hasc.1 m hm)
        omega
      have hrest := ih hasc.2 hnext (fun m hm => hbelow m (by simp [hm])) (by omega)
      rw [List.length_cons]
      omega

/-- Positive numbers that ascend below a bound are fewer than the bound. -/
theorem length_lt_of_ascending {l : List UInt32} {bound : UInt32}
    (hasc : l.Pairwise fun m n => m < n) (hpos : ∀ n ∈ l, 0 < n) (hbelow : ∀ n ∈ l, n < bound)
    (hbound : 0 < bound) : l.length < bound.toNat := by
  have hone : ∀ n : UInt32, 0 < n → 1 ≤ n.toNat := by
    intro n hn
    rw [UInt32.lt_iff_toNat_lt] at hn
    exact hn
  have hlength := length_le_of_ascending hasc (fun n hn => hone n (hpos n hn)) hbelow
    (hone bound hbound)
  omega

end Counter

end FlowGraph
