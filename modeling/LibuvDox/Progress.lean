import LibuvDox.Uv
import Mathlib.Algebra.Order.Floor.Div

/-!
# 13-progress/main.c

`work_cb` simulates a download: in each turn of its loop it publishes a percentage and adds
`(MIN_PERSEC + random()) % MAX_PERSEC` to `downloaded`.  The modulus is taken of the sum, so what a
turn adds may be less than `MIN_PERSEC`, and nothing at all when `random()` is 800.

* `afterTurns_eq`: what the loop has done after `n` turns that were all taken.
* `makesProgress_iff`: the download makes progress exactly if no draw falls into the last 200 of its
  thousand, and the total stays where it can be multiplied by 100.
-/

namespace LibuvDox.Progress

def MIN_PERSEC : ℕ := 200

def MAX_PERSEC : ℕ := 1000

/-- The values that `random()` returns, one call after another. -/
structure Random where
  draw : ℕ → ℕ
  bound : ∀ i, draw i < 2 ^ 31

/-- The variables of `work_cb`; the percentages published so far, and how often `random` was
called. -/
structure Work where
  downloaded : ℤ
  published : List ℤ
  draws : ℕ
  deriving DecidableEq, Repr

/-- `work_cb` before its loop. -/
def start : Work := ⟨0, [], 0⟩

/-- One turn of the loop. -/
def turn (size : ℤ) (random : Random) (w : Work) : Except Stop Work := do
  let product ← mulInt 100 w.downloaded
  .ok {
    downloaded :=
      toInt (w.downloaded + ((MIN_PERSEC + random.draw w.draws) % MAX_PERSEC : ℕ))
    published := w.published ++ [product.tdiv size]
    draws := w.draws + 1 }

/-- The loop `while (downloaded < size)`, cut off after `n` turns. -/
def afterTurns (size : ℤ) (random : Random) : ℕ → Except Stop Work
  | 0 => .ok start
  | n + 1 => do
    let w ← afterTurns size random n
    if w.downloaded < size then turn size random w else .ok w

/-! ### The download -/

/-- What a turn adds. -/
def persec (random : Random) (i : ℕ) : ℕ := (MIN_PERSEC + random.draw i) % MAX_PERSEC

/-- What `n` turns add. -/
def total (random : Random) (n : ℕ) : ℕ := ∑ i ∈ Finset.range n, persec random i

/-- The loop makes progress: nothing overflows, every turn adds what it should, enough turns end the
loop, and the percentages are those of a download. -/
structure MakesProgress (size : ℕ) (random : Random) : Prop where
  noOverflow : ∀ n, ∃ w, afterTurns size random n = .ok w
  adds : ∀ n w w', afterTurns size random n = .ok w → w.downloaded < size →
    afterTurns size random (n + 1) = .ok w' →
    w'.downloaded = w.downloaded + persec random w.draws ∧
      w.downloaded + MIN_PERSEC ≤ w'.downloaded ∧ w'.downloaded ≤ w.downloaded + MAX_PERSEC
  ends : ∀ w, afterTurns size random (size ⌈/⌉ MIN_PERSEC) = .ok w → size ≤ w.downloaded
  percentages : ∀ n w, afterTurns size random n = .ok w →
    w.published.Pairwise (· ≤ ·) ∧ ∀ p ∈ w.published, 0 ≤ p ∧ p ≤ 99

/-- As long as the download lasts, no draw falls into the last 200 of its thousand, and the total
can be multiplied by 100. -/
def KeepsPace (size : ℕ) (random : Random) : Prop :=
  ∀ n, total random n < size → random.draw n % 1000 < 800 ∧ 100 * total random n < 2 ^ 31

section

variable {size n : ℕ} {random : Random}

@[simp] theorem total_succ (random : Random) (n : ℕ) :
    total random (n + 1) = total random n + persec random n := Finset.sum_range_succ _ _

theorem total_mono (random : Random) {m n : ℕ} (h : m ≤ n) : total random m ≤ total random n :=
  Finset.sum_le_sum_of_subset (Finset.range_subset_range.mpr h)

theorem persec_lt (random : Random) (n : ℕ) : persec random n < MAX_PERSEC :=
  Nat.mod_lt _ (by decide)

/-- When the modulus lets `MIN_PERSEC` through. -/
theorem min_le_persec_iff : MIN_PERSEC ≤ persec random n ↔ random.draw n % 1000 < 800 := by
  unfold persec MIN_PERSEC MAX_PERSEC
  omega

/-- The state after `n` turns that were all taken. -/
def after (size : ℕ) (random : Random) (n : ℕ) : Work where
  downloaded := total random n
  published := (List.range n).map fun i => ((100 * total random i / size : ℕ) : ℤ)
  draws := n

/-- One more turn. -/
theorem turn_after (hfits : 100 * total random n < 2 ^ 31) :
    turn size random (after size random n) = .ok (after size random (n + 1)) := by
  have hlt := persec_lt random n
  have hproduct : mulInt 100 (total random n) = .ok ((100 * total random n : ℕ) : ℤ) := by
    rw [mulInt_of_fits (by omega), Nat.cast_mul, Nat.cast_ofNat]
  have hsum : toInt (total random n + persec random n) = (total random (n + 1) : ℕ) := by
    unfold MAX_PERSEC at hlt
    rw [total_succ, Nat.cast_add, toInt_of_fits (by omega) (by omega)]
  have hdiv : ((100 * total random n : ℕ) : ℤ).tdiv size
      = ((100 * total random n / size : ℕ) : ℤ) := by
    rw [Int.tdiv_eq_ediv_of_nonneg (Int.natCast_nonneg _), Int.natCast_ediv]
  have hlist : (List.range (n + 1)).map (fun i => ((100 * total random i / size : ℕ) : ℤ))
      = (List.range n).map (fun i => ((100 * total random i / size : ℕ) : ℤ))
        ++ [((100 * total random n : ℕ) : ℤ).tdiv size] := by
    rw [List.range_succ, List.map_append, List.map_singleton, hdiv]
  unfold turn after
  rw [hproduct, hlist, ← hsum]
  rfl

/-- **The loop.**  What it has done after `n` turns, if all of them were taken and none of them
overflows. -/
theorem afterTurns_eq (h : ∀ i < n, total random i < size ∧ 100 * total random i < 2 ^ 31) :
    afterTurns size random n = .ok (after size random n) := by
  induction n with
  | zero => rfl
  | succ n ih =>
    have hlast := h n (by omega)
    have hlt : (after size random n).downloaded < size := by
      simpa [after] using hlast.1
    rw [afterTurns, ih fun i hi => h i (by omega)]
    show (if (after size random n).downloaded < size then _ else _) = _
    rw [if_pos hlt, turn_after hlast.2]

/-- With draws that keep the pace, the loop has taken some turns and has ended if it could take no
more. -/
theorem afterTurns_of_keepsPace (h : KeepsPace size random) (n : ℕ) :
    ∃ m, m ≤ n ∧ afterTurns size random n = .ok (after size random m) ∧
      (∀ i < m, total random i < size) ∧ (m = n ∨ size ≤ total random m) := by
  induction n with
  | zero => exact ⟨0, le_rfl, rfl, by simp, .inl rfl⟩
  | succ n ih =>
    obtain ⟨m, hm, heq, htaken, hend⟩ := ih
    have hdown : (after size random m).downloaded = total random m := rfl
    rw [afterTurns, heq]
    show ∃ k, k ≤ n + 1 ∧ (if (after size random m).downloaded < size then _ else _) = _ ∧ _
    by_cases hlt : total random m < size
    · obtain rfl : m = n := hend.resolve_right (by omega)
      refine ⟨m + 1, le_rfl, ?_, fun i hi => ?_, .inl rfl⟩
      · rw [if_pos (by omega), turn_after (h m hlt).2]
      · have hle := total_mono random (show i ≤ m by omega)
        omega
    · exact ⟨m, by omega, if_neg (by omega), htaken, .inr (by omega)⟩

/-- Turns that add `MIN_PERSEC` each. -/
theorem mul_le_total (h : ∀ i < n, MIN_PERSEC ≤ persec random i) :
    MIN_PERSEC * n ≤ total random n := by
  induction n with
  | zero => simp
  | succ n ih =>
    have hlast := h n (by omega)
    have hrest := ih fun i hi => h i (by omega)
    rw [total_succ, Nat.mul_succ]
    omega

/-- What is published while the download lasts. -/
theorem published_after (h : ∀ i < n, total random i < size) :
    (after size random n).published.Pairwise (· ≤ ·) ∧
      ∀ p ∈ (after size random n).published, 0 ≤ p ∧ p ≤ 99 := by
  constructor
  · refine List.pairwise_map.mpr (List.pairwise_lt_range.imp fun {i j} hij => ?_)
    have hmono := total_mono random hij.le
    exact_mod_cast Nat.div_le_div_right (Nat.mul_le_mul_left 100 hmono)
  · intro p hp
    obtain ⟨i, hi, rfl⟩ := List.mem_map.mp hp
    have hlt := h i (List.mem_range.mp hi)
    have hle : 100 * total random i / size < 100 :=
      Nat.div_lt_of_lt_mul (by rw [Nat.mul_comm size]; omega)
    exact ⟨Int.natCast_nonneg _, by exact_mod_cast Nat.le_of_lt_succ hle⟩

theorem KeepsPace.makesProgress (h : KeepsPace size random) : MakesProgress size random where
  noOverflow n := by
    obtain ⟨m, -, heq, -⟩ := afterTurns_of_keepsPace h n
    exact ⟨_, heq⟩
  adds n w w' hw hlt hw' := by
    obtain ⟨m, -, heq, -⟩ := afterTurns_of_keepsPace h n
    obtain rfl := Except.ok.inj (heq.symm.trans hw)
    have hm : total random m < size := by simpa [after] using hlt
    rw [afterTurns, heq] at hw'
    have hturn : (if (after size random m).downloaded < size then
        turn size random (after size random m) else .ok (after size random m)) = .ok w' := hw'
    rw [if_pos hlt, turn_after (h m hm).2] at hturn
    obtain rfl := Except.ok.inj hturn
    have hmin := min_le_persec_iff.mpr (h m hm).1
    have hmax := persec_lt random m
    simp only [after, total_succ]
    omega
  ends w hw := by
    obtain ⟨m, -, heq, htaken, hend⟩ := afterTurns_of_keepsPace h (size ⌈/⌉ MIN_PERSEC)
    obtain rfl := Except.ok.inj (heq.symm.trans hw)
    have hpos : 0 < MIN_PERSEC := by decide
    have hceil : size ≤ MIN_PERSEC * (size ⌈/⌉ MIN_PERSEC) := le_smul_ceilDiv hpos
    have hmin : MIN_PERSEC * m ≤ total random m :=
      mul_le_total fun i hi => min_le_persec_iff.mpr (h i (htaken i hi)).1
    simp only [after]
    rcases hend with rfl | hend
    · exact_mod_cast hceil.trans hmin
    · exact_mod_cast hend
  percentages n w hw := by
    obtain ⟨m, -, heq, htaken, -⟩ := afterTurns_of_keepsPace h n
    obtain rfl := Except.ok.inj (heq.symm.trans hw)
    exact published_after htaken

/-- A turn that returns was able to multiply the total by 100. -/
theorem fits_of_turn {w' : Work} (h : turn size random (after size random n) = .ok w') :
    100 * total random n < 2 ^ 31 := by
  obtain ⟨product, hproduct, -⟩ := bind_ok_iff.mp h
  have hfits := (mulInt_ok hproduct).2
  simp only [after] at hfits
  omega

theorem MakesProgress.keepsPace (h : MakesProgress size random) : KeepsPace size random := by
  intro n
  induction n using Nat.strong_induction_on with
  | _ n ih =>
    intro hn
    have hbefore : afterTurns size random n = .ok (after size random n) := by
      refine afterTurns_eq fun i hi => ?_
      have hlt : total random i < size := (total_mono random hi.le).trans_lt hn
      exact ⟨hlt, (ih i hi hlt).2⟩
    have hlt : (after size random n).downloaded < size := by simpa [after] using hn
    obtain ⟨w', hw'⟩ := h.noOverflow (n + 1)
    have hadds := (h.adds n _ w' hbefore hlt hw').2.1
    rw [afterTurns, hbefore] at hw'
    have hturn : (if (after size random n).downloaded < size then
        turn size random (after size random n) else .ok (after size random n)) = .ok w' := hw'
    rw [if_pos hlt] at hturn
    have hfits := fits_of_turn hturn
    rw [turn_after hfits] at hturn
    obtain rfl := Except.ok.inj hturn
    simp only [after, total_succ] at hadds
    exact ⟨min_le_persec_iff.mp (by omega), hfits⟩

end

/-- **Progress.**  For every size, the download makes progress exactly if its draws keep the
pace. -/
theorem makesProgress_iff (size : ℕ) (random : Random) :
    MakesProgress size random ↔ KeepsPace size random :=
  ⟨MakesProgress.keepsPace, KeepsPace.makesProgress⟩

/-- `random()` is 800 in every turn: nothing is ever downloaded. -/
theorem no_progress :
    ¬ ∀ (size : ℕ) (random : Random), 0 < size → size < 2 ^ 31 → MakesProgress size random := by
  intro h
  have hkeeps := (h 1024 ⟨fun _ => 800, fun _ => by decide⟩ (by decide) (by decide)).keepsPace
  have hdraw := (hkeeps 0 (by simp [total])).1
  exact absurd hdraw (by decide)

end LibuvDox.Progress
