import Mathlib.Tactic

/-!
# Blocks and the variables that own them

Blocks are numbered in the order in which they are allocated.  A variable may own one block: it is
assigned a new one, whatever it owned before, or its block is released.  A block that a variable
owned when it was assigned another one is lost.

* `Owned`: no block is released twice, and what a variable owns is its own.
* `Owned.noneLost_assign_iff`, `Owned.noneLost_release_iff`: an assignment loses a block exactly if
  the variable owned one; a release loses none.
* `Owned.released_once_iff`: where no variable owns a block any more, every block was released once
  exactly if none was lost.
-/

namespace LibuvDox

/-- The blocks allocated so far, those released again, and what each variable owns. -/
structure Blocks (κ : Type*) where
  next : ℕ
  freed : List ℕ
  slot : κ → Option ℕ

namespace Blocks

variable {κ : Type*}

/-- A block was not released, and no other variable owns it. -/
structure Owned (b : Blocks κ) : Prop where
  bound : ∀ i ∈ b.freed, i < b.next
  once : b.freed.Nodup
  live : ∀ k i, b.slot k = some i → i < b.next ∧ i ∉ b.freed
  apart : ∀ k k' i, b.slot k = some i → b.slot k' = some i → k = k'

/-- Every block was released or is owned. -/
def NoneLost (b : Blocks κ) : Prop := ∀ i < b.next, i ∈ b.freed ∨ ∃ k, b.slot k = some i

/-- Nothing is allocated yet. -/
def init : Blocks κ := ⟨0, [], fun _ => none⟩

theorem init_owned : (init : Blocks κ).Owned where
  bound := nofun
  once := List.nodup_nil
  live := nofun
  apart := nofun

theorem init_noneLost : (init : Blocks κ).NoneLost := nofun

variable [DecidableEq κ]

/-- A variable is assigned a new block. -/
def assign (b : Blocks κ) (k : κ) : Blocks κ :=
  { b with next := b.next + 1, slot := Function.update b.slot k (some b.next) }

/-- The block of a variable is released, if it owns one. -/
def release (b : Blocks κ) (k : κ) : Blocks κ :=
  match b.slot k with
  | none => b
  | some i => { b with freed := i :: b.freed, slot := Function.update b.slot k none }

section

variable {b : Blocks κ} {k : κ}

@[simp] theorem assign_slot_self : (b.assign k).slot k = some b.next := Function.update_self _ _ _

theorem assign_slot_of_ne {k' : κ} (h : k' ≠ k) : (b.assign k).slot k' = b.slot k' :=
  Function.update_of_ne h _ _

theorem assign_cases {k' : κ} {i : ℕ} (h : (b.assign k).slot k' = some i) :
    (k' = k ∧ i = b.next) ∨ (k' ≠ k ∧ b.slot k' = some i) := by
  by_cases hk : k' = k
  · subst hk
    rw [assign_slot_self] at h
    exact .inl ⟨rfl, (Option.some.inj h).symm⟩
  · rw [assign_slot_of_ne hk] at h
    exact .inr ⟨hk, h⟩

theorem release_of_none (h : b.slot k = none) : b.release k = b := by
  simp [release, h]

theorem release_of_some {i : ℕ} (h : b.slot k = some i) :
    b.release k = { b with freed := i :: b.freed, slot := Function.update b.slot k none } := by
  simp [release, h]

@[simp] theorem release_next : (b.release k).next = b.next := by
  unfold release
  split <;> rfl

theorem release_freed : (b.release k).freed = (b.slot k).toList ++ b.freed := by
  cases h : b.slot k with
  | none => simp [release_of_none h]
  | some i => simp [release_of_some h]

@[simp] theorem release_slot_self : (b.release k).slot k = none := by
  unfold release
  split
  · assumption
  · exact Function.update_self _ _ _

theorem release_slot_of_ne {k' : κ} (h : k' ≠ k) : (b.release k).slot k' = b.slot k' := by
  unfold release
  split
  · rfl
  · exact Function.update_of_ne h _ _

theorem Owned.assign (h : b.Owned) (k : κ) : (b.assign k).Owned where
  bound i hi := Nat.lt_succ_of_lt (h.bound i hi)
  once := h.once
  live k' i hi := by
    rcases assign_cases hi with ⟨-, rfl⟩ | ⟨-, hi⟩
    · exact ⟨Nat.lt_succ_self _, fun hfreed => lt_irrefl _ (h.bound _ hfreed)⟩
    · exact ⟨Nat.lt_succ_of_lt (h.live k' i hi).1, (h.live k' i hi).2⟩
  apart k' k'' i hi hi' := by
    rcases assign_cases hi with ⟨rfl, rfl⟩ | ⟨-, hold⟩
    · rcases assign_cases hi' with ⟨rfl, -⟩ | ⟨-, hold'⟩
      · rfl
      · exact absurd (h.live k'' _ hold').1 (lt_irrefl _)
    · rcases assign_cases hi' with ⟨rfl, rfl⟩ | ⟨-, hold'⟩
      · exact absurd (h.live k' _ hold).1 (lt_irrefl _)
      · exact h.apart k' k'' i hold hold'

/-- **Assignments.**  The block that the variable owned is lost. -/
theorem Owned.noneLost_assign_iff (h : b.Owned) (k : κ) :
    (b.assign k).NoneLost ↔ b.NoneLost ∧ b.slot k = none := by
  constructor
  · intro hall
    have hslot : b.slot k = none := by
      by_contra hsome
      obtain ⟨j, hj⟩ := Option.ne_none_iff_exists'.mp hsome
      obtain ⟨hlt, hfreed⟩ := h.live k j hj
      rcases hall j (Nat.lt_succ_of_lt hlt) with hmem | ⟨k', hk'⟩
      · exact hfreed hmem
      · rcases assign_cases hk' with ⟨-, rfl⟩ | ⟨hne, hk'⟩
        · exact lt_irrefl _ hlt
        · exact hne (h.apart k' k j hk' hj)
    refine ⟨fun i hi => ?_, hslot⟩
    rcases hall i (Nat.lt_succ_of_lt hi) with hmem | ⟨k', hk'⟩
    · exact .inl hmem
    · rcases assign_cases hk' with ⟨-, rfl⟩ | ⟨-, hk'⟩
      · exact absurd hi (lt_irrefl _)
      · exact .inr ⟨k', hk'⟩
  · intro ⟨hall, hslot⟩ i hi
    by_cases hnew : i = b.next
    · exact .inr ⟨k, by rw [assign_slot_self, hnew]⟩
    · have hlt : i < b.next := Nat.lt_of_le_of_ne (Nat.le_of_lt_succ hi) hnew
      rcases hall i hlt with hmem | ⟨k', hk'⟩
      · exact .inl hmem
      · have hne : k' ≠ k := by
          rintro rfl
          rw [hslot] at hk'
          cases hk'
        exact .inr ⟨k', by rw [assign_slot_of_ne hne, hk']⟩

/-- What is owned after a release was owned before, by another variable. -/
theorem release_cases {k' : κ} {i : ℕ} (h : (b.release k).slot k' = some i) :
    k' ≠ k ∧ b.slot k' = some i := by
  have hne : k' ≠ k := by
    rintro rfl
    rw [release_slot_self] at h
    cases h
  exact ⟨hne, by rwa [release_slot_of_ne hne] at h⟩

theorem mem_release_freed {i : ℕ} :
    i ∈ (b.release k).freed ↔ b.slot k = some i ∨ i ∈ b.freed := by
  simp [release_freed]

theorem Owned.release (h : b.Owned) (k : κ) : (b.release k).Owned where
  bound i hi := by
    rw [release_next]
    rcases mem_release_freed.mp hi with hslot | hmem
    · exact (h.live k i hslot).1
    · exact h.bound i hmem
  once := by
    cases hk : b.slot k with
    | none =>
      rw [release_of_none hk]
      exact h.once
    | some j =>
      rw [release_of_some hk]
      exact List.nodup_cons.mpr ⟨(h.live k j hk).2, h.once⟩
  live k' i hi := by
    obtain ⟨hne, hi⟩ := release_cases hi
    rw [release_next, mem_release_freed]
    refine ⟨(h.live k' i hi).1, ?_⟩
    rintro (hslot | hmem)
    · exact hne (h.apart k' k i hi hslot)
    · exact (h.live k' i hi).2 hmem
  apart k' k'' i hi hi' := h.apart k' k'' i (release_cases hi).2 (release_cases hi').2

/-- **Releases.**  They lose nothing. -/
theorem noneLost_release_iff : (b.release k).NoneLost ↔ b.NoneLost := by
  have hsame : ∀ i, (i ∈ (b.release k).freed ∨ ∃ k', (b.release k).slot k' = some i) ↔
      (i ∈ b.freed ∨ ∃ k', b.slot k' = some i) := by
    intro i
    rw [mem_release_freed]
    constructor
    · rintro ((hslot | hmem) | ⟨k', hk'⟩)
      · exact .inr ⟨k, hslot⟩
      · exact .inl hmem
      · exact .inr ⟨k', (release_cases hk').2⟩
    · rintro (hmem | ⟨k', hk'⟩)
      · exact .inl (.inr hmem)
      · by_cases hk : k' = k
        · exact .inl (.inl (hk ▸ hk'))
        · exact .inr ⟨k', by rwa [release_slot_of_ne hk]⟩
  unfold NoneLost
  rw [release_next]
  exact forall₂_congr fun i _ => hsame i

omit [DecidableEq κ] in
/-- **The end.**  When no variable owns a block any more. -/
theorem Owned.released_once_iff (h : b.Owned) (hnone : ∀ k, b.slot k = none) :
    (∀ i < b.next, b.freed.count i = 1) ↔ b.NoneLost := by
  refine forall₂_congr fun i _ => ?_
  constructor
  · intro hcount
    exact .inl (List.count_pos_iff.mp (by omega))
  · rintro (hmem | ⟨k, hk⟩)
    · exact List.count_eq_one_of_mem h.once hmem
    · rw [hnone k] at hk
      cases hk

end

end Blocks

end LibuvDox
