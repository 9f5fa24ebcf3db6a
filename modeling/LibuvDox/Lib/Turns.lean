import Mathlib.Algebra.Order.Floor.Div
import Mathlib.Data.Int.CardIntervalMod
import Mathlib.Tactic

/-!
# Taking turns

The items `0, 1, 2, …` are dealt to `k` receivers in turn, so that item `t` goes to the receiver
`t % k`.  How many of the first `n` items a receiver has been dealt, and that no receiver is ahead
of another by more than one.
-/

namespace LibuvDox.Turns

/-- How many of the first `n` items go to the receiver `i` of `k`. -/
def dealt (k i n : ℕ) : ℕ := Nat.count (fun t => t % k = i) n

@[simp] theorem dealt_zero (k i : ℕ) : dealt k i 0 = 0 := Nat.count_zero _

theorem dealt_succ (k i n : ℕ) :
    dealt k i (n + 1) = dealt k i n + if n % k = i then 1 else 0 := Nat.count_succ _ _

variable {k i j : ℕ}

/-- The full rounds, and the one that is under way if `i` has had its turn in it. -/
theorem dealt_eq_div (hi : i < k) (n : ℕ) :
    dealt k i n = n / k + if i < n % k then 1 else 0 := by
  have hpred : ∀ t, t % k = i ↔ t ≡ i [MOD k] := fun t => by
    rw [Nat.ModEq, Nat.mod_eq_of_lt hi]
  have hk : 0 < k := by omega
  simp only [dealt, hpred, Nat.count_modEq_card n hk i, Nat.mod_eq_of_lt hi]

theorem dealt_eq_ceilDiv (hi : i < k) (n : ℕ) :
    dealt k i n = if i < n then (n - i) ⌈/⌉ k else 0 := by
  have hk : 0 < k := by omega
  have hn := Nat.div_add_mod n k
  have hmod := Nat.mod_lt n hk
  rw [dealt_eq_div hi, Nat.ceilDiv_eq_add_pred_div]
  by_cases hlt : i < n % k
  · -- the turn of `i` in the last round has come
    have hsum : n - i + k - 1 = k * (n / k + 1) + (n % k - i - 1) := by
      rw [Nat.mul_succ]
      omega
    rw [if_pos hlt, if_pos (by omega), hsum, Nat.mul_add_div hk,
      Nat.div_eq_of_lt (by omega : n % k - i - 1 < k), Nat.add_zero]
  · rw [if_neg hlt, Nat.add_zero]
    by_cases hin : i < n
    · have hsum : n - i + k - 1 = k * (n / k) + (n % k + k - i - 1) := by omega
      rw [if_pos hin, hsum, Nat.mul_add_div hk,
        Nat.div_eq_of_lt (by omega : n % k + k - i - 1 < k), Nat.add_zero]
    · rw [if_neg hin, Nat.div_eq_of_lt (by omega)]

/-- **Balance.** -/
theorem dealt_le_dealt_add_one (hi : i < k) (hj : j < k) (n : ℕ) :
    dealt k i n ≤ dealt k j n + 1 := by
  rw [dealt_eq_div hi, dealt_eq_div hj]
  split <;> split <;> omega

end LibuvDox.Turns
