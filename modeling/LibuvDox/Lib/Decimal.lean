import Mathlib.Tactic

/-!
# Numbers in decimal, as ASCII

* `decimal_length_le_iff`: how long a number is.
* `foldl_decimal`: reading it digit by digit gives it back.
-/

namespace LibuvDox

/-- The digits of a number. -/
def decimal (n : ℕ) : List UInt8 := (Nat.toDigits 10 n).map fun c => c.toNat.toUInt8

/-- What `%d` prints. -/
def decimalInt (x : ℤ) : List UInt8 :=
  if x < 0 then 45 :: decimal x.natAbs else decimal x.natAbs

/-- A character is a digit. -/
def isDigit (c : UInt8) : Bool := 48 ≤ c && c ≤ 57

/-- A number, after one more digit. -/
def addDigit (n : ℕ) (c : UInt8) : ℕ := 10 * n + (c.toNat - 48)

def digit (d : ℕ) : UInt8 := UInt8.ofNat (48 + d)

theorem digitChar_eq {d : ℕ} (hd : d < 10) : d.digitChar.toNat.toUInt8 = digit d := by
  interval_cases d <;> rfl

theorem isDigit_digit {d : ℕ} (hd : d < 10) : isDigit (digit d) = true := by
  interval_cases d <;> rfl

theorem addDigit_digit (n : ℕ) {d : ℕ} (hd : d < 10) : addDigit n (digit d) = 10 * n + d := by
  have hvalue : (digit d).toNat - 48 = d := by interval_cases d <;> rfl
  rw [addDigit, hvalue]

theorem decimal_of_lt {n : ℕ} (hn : n < 10) : decimal n = [digit n] := by
  rw [decimal, Nat.toDigits_of_lt_base hn, List.map_singleton, digitChar_eq hn]

/-- The last digit. -/
theorem decimal_of_le {n : ℕ} (hn : 10 ≤ n) : decimal n = decimal (n / 10) ++ [digit (n % 10)] := by
  rw [decimal, Nat.toDigits_of_base_le (by omega) hn, List.map_append, List.map_singleton,
    digitChar_eq (Nat.mod_lt n (by omega))]
  rfl

theorem decimal_length_le_iff {n k : ℕ} (hk : 0 < k) : (decimal n).length ≤ k ↔ n < 10 ^ k := by
  rw [decimal, List.length_map]
  exact Nat.length_toDigits_le_iff (by omega) hk

theorem isDigit_of_mem_decimal {n : ℕ} : ∀ c ∈ decimal n, isDigit c = true := by
  induction n using Nat.strong_induction_on with
  | _ n ih =>
    rcases Nat.lt_or_ge n 10 with hlt | hge
    · rw [decimal_of_lt hlt]
      simp [isDigit_digit hlt]
    · rw [decimal_of_le hge]
      intro c hc
      rcases List.mem_append.mp hc with hmem | hlast
      · exact ih (n / 10) (by omega) c hmem
      · rw [List.mem_singleton.mp hlast]
        exact isDigit_digit (Nat.mod_lt n (by omega))

/-- **Round trip.** -/
theorem foldl_decimal (n : ℕ) : (decimal n).foldl addDigit 0 = n := by
  induction n using Nat.strong_induction_on with
  | _ n ih =>
    rcases Nat.lt_or_ge n 10 with hlt | hge
    · rw [decimal_of_lt hlt, List.foldl_cons, List.foldl_nil, addDigit_digit 0 hlt]
      omega
    · rw [decimal_of_le hge, List.foldl_append, ih (n / 10) (by omega), List.foldl_cons,
        List.foldl_nil, addDigit_digit _ (Nat.mod_lt n (by omega))]
      omega

theorem decimal_ne_nil (n : ℕ) : decimal n ≠ [] := by
  rw [decimal, ne_eq, List.map_eq_nil_iff]
  exact Nat.toDigits_ne_nil

end LibuvDox
