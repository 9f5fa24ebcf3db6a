import Mathlib.Tactic

/-!
# C strings in blocks of memory

A string is what a block holds before its first terminator, which is the zero of its characters.
Loops over strings and copies of them go on in memory whether or not the string has ended; `none`
says that they left the block.

* `scan_terminated`: a loop `while (*cp && …) cp++` stops inside a terminated block.
* `strncpy_terminated`, `strncpy_of_le`: what `strncpy` writes, with its padding.
* `text_set_zero`: a block that is terminated by hand.
* `text_set_strncpy`: a copy that is cut off by hand is the beginning of the string.
* `strcpy_isSome_iff`, `text_of_strcpy`: what `strcpy` into the middle of a block leaves there.
-/

namespace LibuvDox.CString

theorem set_takeD {α : Type*} {n : ℕ} {s : List α} (hn : n ≤ s.length) (c : α) :
    (s.takeD (n + 1) c).set n c = s.take n ++ [c] := by
  induction n generalizing s with
  | zero => simp
  | succ n ih =>
    cases s with
    | nil => simp at hn
    | cons d s =>
      have hlen : n ≤ s.length := by simpa using hn
      have hrest := ih hlen
      rw [List.takeD_succ, List.set_cons_succ, List.tail_cons, hrest]
      simp

variable {α : Type*} [DecidableEq α] [Zero α]

/-- The string that a block holds. -/
def text (block : List α) : List α := block.takeWhile fun c => c ≠ 0

/-- How far a loop gets that runs to the end of the string or to a character it looks for. -/
def scan (stop : α → Bool) : List α → Option ℕ
  | [] => none
  | c :: cs => if c ≠ 0 ∧ stop c = false then (scan stop cs).map (· + 1) else some 0

/-- The `n` characters that `strncpy` writes: those of the string, then terminators. -/
def strncpy : ℕ → List α → Option (List α)
  | 0, _ => some []
  | _ + 1, [] => none
  | n + 1, c :: cs =>
    if c = 0 then some (List.replicate (n + 1) 0) else (strncpy n cs).map (c :: ·)

/-- `strlen`. -/
def strlen (block : List α) : Option ℕ := scan (fun _ => false) block

/-- `strcpy(block + i, s)`: the string and its terminator. -/
def strcpy (block : List α) (i : ℕ) (s : List α) : Option (List α) :=
  if i + s.length < block.length then
    some (block.take i ++ (s ++ 0 :: block.drop (i + s.length + 1)))
  else none

@[simp] theorem text_nil : text ([] : List α) = [] := rfl

@[simp] theorem text_zero_cons (s : List α) : text (0 :: s) = [] := by simp [text]

@[simp] theorem text_cons {c : α} (hc : c ≠ 0) (s : List α) : text (c :: s) = c :: text s := by
  simp [text, hc]

theorem ne_zero_of_mem_text {s : List α} {c : α} (h : c ∈ text s) : c ≠ 0 := by
  simpa using List.all_eq_true.mp List.all_takeWhile c h

/-- A string without terminators, and the one that follows it. -/
theorem text_append_zero {s : List α} (hs : ∀ c ∈ s, c ≠ 0) (t : List α) :
    text (s ++ 0 :: t) = s := by
  induction s with
  | nil => simp
  | cons c s ih =>
    rw [List.cons_append, text_cons (hs c List.mem_cons_self),
      ih fun d hd => hs d (List.mem_cons_of_mem c hd)]

/-- A terminator written behind characters that have none: they are the string. -/
theorem text_set_zero {block : List α} {n : ℕ} (hn : n < block.length)
    (hne : ∀ c ∈ block.take n, c ≠ 0) :
    0 ∈ block.set n 0 ∧ text (block.set n 0) = block.take n := by
  have hset : block.set n 0 = block.take n ++ 0 :: block.drop (n + 1) := by
    rw [List.set_eq_take_append_cons_drop, if_pos hn]
  rw [hset]
  exact ⟨by simp, text_append_zero hne _⟩

theorem text_of_forall {s : List α} (hs : ∀ c ∈ s, c ≠ 0) : text s = s := by
  induction s with
  | nil => rfl
  | cons c s ih =>
    rw [text_cons (hs c List.mem_cons_self), ih fun d hd => hs d (List.mem_cons_of_mem c hd)]

theorem scan_terminated (stop : α → Bool) (s : List α) :
    scan stop (s ++ [0]) = some ((text s).takeWhile fun c => !stop c).length := by
  induction s with
  | nil => simp [scan]
  | cons c s ih =>
    by_cases hc : c = 0
    · simp [scan, hc]
    · cases hstop : stop c with
      | true => simp [scan, hc, hstop]
      | false => simp [scan, hc, hstop, ih]

theorem strncpy_terminated (n : ℕ) (s : List α) :
    strncpy n (s ++ [0]) = some ((text s).takeD n 0) := by
  induction s generalizing n with
  | nil => cases n <;> simp [strncpy, List.replicate_succ]
  | cons c s ih =>
    cases n with
    | zero => simp [strncpy]
    | succ n =>
      by_cases hc : c = 0
      · simp [strncpy, hc, List.replicate_succ]
      · simp [strncpy, hc, ih]

/-- A copy of characters that are all there. -/
theorem strncpy_of_le {n : ℕ} {s : List α} (hn : n ≤ s.length) :
    strncpy n s = some ((text (s.take n)).takeD n 0) := by
  induction n generalizing s with
  | zero => simp [strncpy]
  | succ n ih =>
    cases s with
    | nil => simp at hn
    | cons c s =>
      by_cases hc : c = 0
      · simp [strncpy, hc, List.replicate_succ]
      · have hlen : n ≤ s.length := by simpa using hn
        simp [strncpy, hc, ih hlen]

/-- A string that was filled up with terminators, and one more. -/
theorem text_takeD_append {s : List α} (hs : ∀ c ∈ s, c ≠ 0) {n : ℕ} (hn : s.length ≤ n)
    (t : List α) : text (s.takeD n 0 ++ 0 :: t) = s := by
  induction s generalizing n with
  | nil => cases n <;> simp
  | cons c s ih =>
    cases n with
    | zero => simp at hn
    | succ n =>
      have hlen : s.length ≤ n := by simpa using hn
      have hrest := ih (fun d hd => hs d (List.mem_cons_of_mem c hd)) hlen
      simp [hs c List.mem_cons_self, hrest]

/-- **A copy cut off by hand.**  `strncpy` of `n + 1` characters, and a terminator written at
`n`. -/
theorem text_set_strncpy {n : ℕ} {s copy : List α} (hn : n ≤ (text s).length)
    (h : strncpy (n + 1) (s ++ [0]) = some copy) :
    n < copy.length ∧ text (copy.set n 0) = (text s).take n := by
  rw [strncpy_terminated] at h
  obtain rfl := Option.some.inj h
  have hlen : ((text s).takeD (n + 1) 0).length = n + 1 := List.takeD_length _ _ _
  refine ⟨by omega, ?_⟩
  rw [set_takeD hn]
  exact text_append_zero (fun c hc => ne_zero_of_mem_text (List.mem_of_mem_take hc)) []

/-! ### Copies into the middle of a block -/

theorem strlen_append_zero {s : List α} (hs : ∀ c ∈ s, c ≠ 0) (t : List α) :
    strlen (s ++ 0 :: t) = some s.length := by
  induction s with
  | nil => simp [strlen, scan]
  | cons c s ih =>
    have hc : c ≠ 0 := hs c List.mem_cons_self
    have hrest : scan (fun _ => false) (s ++ 0 :: t) = some s.length :=
      ih fun d hd => hs d (List.mem_cons_of_mem c hd)
    simp [strlen, scan, hc, hrest]

omit [DecidableEq α] in
theorem strcpy_isSome_iff (block : List α) (i : ℕ) (s : List α) :
    (strcpy block i s).isSome ↔ i + s.length < block.length := by
  unfold strcpy
  split <;> simp_all

/-- A copy leaves the size of the block as it is, and the string starts with what was in front of
the copy. -/
theorem text_of_strcpy {block u s : List α} {i : ℕ} (h : strcpy block i s = some u)
    (hfront : ∀ c ∈ block.take i, c ≠ 0) (hs : ∀ c ∈ s, c ≠ 0) :
    u.length = block.length ∧ text u = block.take i ++ s := by
  unfold strcpy at h
  split at h
  · rename_i hfits
    obtain rfl := Option.some.inj h
    refine ⟨?_, ?_⟩
    · simp only [List.length_append, List.length_cons, List.length_take, List.length_drop]
      omega
    · rw [← List.append_assoc]
      refine text_append_zero ?_ _
      intro c hc
      rcases List.mem_append.mp hc with hmem | hmem
      · exact hfront c hmem
      · exact hs c hmem
  · cases h

end LibuvDox.CString
