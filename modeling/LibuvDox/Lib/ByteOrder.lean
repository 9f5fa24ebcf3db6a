import Mathlib.Tactic
import Mathlib.Data.Nat.Digits.Defs

/-!
# Words in memory, in either byte order

A word of `n` bytes is kept with its least significant byte first or last.  `load` is the number
that a run of bytes stands for, `store` the bytes of a number, of any width.

* `store_load`: what was loaded is stored back byte by byte.
* `load_lt`: a run of `n` bytes stands for a number below `256 ^ n`.
* `load_big_shift`: shifting and masking a word that is read with the most significant byte first
  takes its bytes out from the end.
-/

namespace LibuvDox

/-- Which end of a word comes first in memory. -/
inductive ByteOrder where
  | little
  | big
  deriving DecidableEq, Repr

namespace ByteOrder

/-- The number whose digits are these bytes, the least significant one first. -/
def ofBytes (bytes : List UInt8) : ℕ := Nat.ofDigits 256 (bytes.map UInt8.toNat)

/-- The lowest `n` bytes of a number, the least significant one first. -/
def toBytes : ℕ → ℕ → List UInt8
  | 0, _ => []
  | n + 1, x => UInt8.ofNat x :: toBytes n (x / 256)

/-- The order in memory from the order of significance, and back. -/
def arrange : ByteOrder → List UInt8 → List UInt8
  | little, bytes => bytes
  | big, bytes => bytes.reverse

def load (order : ByteOrder) (bytes : List UInt8) : ℕ := ofBytes (order.arrange bytes)

def store (order : ByteOrder) (n x : ℕ) : List UInt8 := order.arrange (toBytes n x)

@[simp] theorem arrange_arrange (order : ByteOrder) (bytes : List UInt8) :
    order.arrange (order.arrange bytes) = bytes := by
  cases order <;> simp [arrange]

@[simp] theorem length_arrange (order : ByteOrder) (bytes : List UInt8) :
    (order.arrange bytes).length = bytes.length := by
  cases order <;> simp [arrange]

theorem ofBytes_cons (b : UInt8) (bytes : List UInt8) :
    ofBytes (b :: bytes) = b.toNat + 256 * ofBytes bytes := by
  simp [ofBytes, Nat.ofDigits_cons]

/-- The lowest byte, and the others. -/
theorem ofBytes_cons_mod_div (b : UInt8) (bytes : List UInt8) :
    UInt8.ofNat (ofBytes (b :: bytes)) = b ∧ ofBytes (b :: bytes) / 256 = ofBytes bytes := by
  have hb : b.toNat < 256 := b.toNat_lt
  rw [ofBytes_cons]
  constructor
  · apply UInt8.toNat_inj.mp
    rw [UInt8.toNat_ofNat']
    omega
  · omega

theorem toBytes_ofBytes (bytes : List UInt8) : toBytes bytes.length (ofBytes bytes) = bytes := by
  induction bytes with
  | nil => rfl
  | cons b bytes ih =>
    obtain ⟨hlow, hrest⟩ := ofBytes_cons_mod_div b bytes
    rw [List.length_cons, toBytes, hlow, hrest, ih]

theorem ofBytes_lt (bytes : List UInt8) : ofBytes bytes < 256 ^ bytes.length := by
  induction bytes with
  | nil => simp [ofBytes]
  | cons b bytes ih =>
    have hb : b.toNat < 256 := b.toNat_lt
    rw [ofBytes_cons, List.length_cons, pow_succ]
    omega

theorem ofNat_and_mask (x : ℕ) : UInt8.ofNat (x &&& 0xff) = UInt8.ofNat x := by
  have hmask : x &&& 0xff = x % 2 ^ 8 := Nat.and_two_pow_sub_one_eq_mod x 8
  apply UInt8.toNat_inj.mp
  simp [hmask]

/-- Byte `i` of a number, shifted down and masked. -/
theorem ofBytes_shift_and (bytes : List UInt8) (i : ℕ) :
    UInt8.ofNat ((ofBytes bytes >>> (i * 8)) &&& 0xff) = bytes.getD i 0 := by
  rw [ofNat_and_mask]
  induction bytes generalizing i with
  | nil => simp [ofBytes]
  | cons b bytes ih =>
    obtain ⟨hlow, hrest⟩ := ofBytes_cons_mod_div b bytes
    cases i with
    | zero => simpa using hlow
    | succ i =>
      have hshift : ofBytes (b :: bytes) >>> ((i + 1) * 8) = ofBytes bytes >>> (i * 8) := by
        rw [Nat.succ_mul, Nat.add_comm, Nat.shiftRight_add, ← hrest,
          Nat.shiftRight_eq_div_pow _ 8, show (2 : ℕ) ^ 8 = 256 by norm_num]
      rw [hshift, ih, List.getD_cons_succ]

theorem load_lt (order : ByteOrder) (bytes : List UInt8) :
    order.load bytes < 256 ^ bytes.length := by
  simpa [load] using ofBytes_lt (order.arrange bytes)

/-- **Round trip.**  A word that was loaded is stored with the bytes it was loaded from. -/
theorem store_load (order : ByteOrder) (bytes : List UInt8) :
    order.store bytes.length (order.load bytes) = bytes := by
  have h := toBytes_ofBytes (order.arrange bytes)
  rw [length_arrange] at h
  rw [store, load, h, arrange_arrange]

/-- **Bytes of a word.**  With the most significant byte first, shifts count from the end. -/
theorem load_big_shift (bytes : List UInt8) (i : ℕ) :
    UInt8.ofNat ((big.load bytes >>> (i * 8)) &&& 0xff) = bytes.reverse.getD i 0 :=
  ofBytes_shift_and bytes.reverse i

end ByteOrder

end LibuvDox
