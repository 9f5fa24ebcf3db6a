import Mathlib.Tactic

/-!
# A heap of blocks of one type

`malloc` hands out addresses one after another and `free` leaves a hole that is never filled
again, so a dangling pointer is an address without a block.  Reading or writing through it is
not defined, which is what `get?` returning `none` says.
-/

namespace LibuvDox

/-- The blocks handed out so far, by address; `none` where the block was freed. -/
structure Heap (α : Type*) where
  cells : List (Option α)
  deriving DecidableEq, Repr

namespace Heap

variable {α : Type*}

def empty : Heap α := ⟨[]⟩

/-- The address the next allocation gets. -/
def next (h : Heap α) : ℕ := h.cells.length

def get? (h : Heap α) (p : ℕ) : Option α := (h.cells[p]?).join

def alloc (h : Heap α) (a : α) : Heap α := ⟨h.cells ++ [some a]⟩

def set (h : Heap α) (p : ℕ) (a : α) : Heap α := ⟨h.cells.set p (some a)⟩

def free (h : Heap α) (p : ℕ) : Heap α := ⟨h.cells.set p none⟩

@[simp] theorem get?_empty (p : ℕ) : (empty : Heap α).get? p = none := by simp [empty, get?]

@[simp] theorem next_empty : (empty : Heap α).next = 0 := rfl

@[simp] theorem next_alloc (h : Heap α) (a : α) : (h.alloc a).next = h.next + 1 := by
  simp [alloc, next]

@[simp] theorem next_set (h : Heap α) (p : ℕ) (a : α) : (h.set p a).next = h.next := by
  simp [set, next]

@[simp] theorem next_free (h : Heap α) (p : ℕ) : (h.free p).next = h.next := by
  simp [free, next]

/-- Only addresses handed out hold blocks. -/
theorem lt_next {h : Heap α} {p : ℕ} {a : α} (hp : h.get? p = some a) : p < h.next := by
  by_contra hlt
  have : h.cells[p]? = none := List.getElem?_eq_none (Nat.le_of_not_lt hlt)
  simp [get?, this] at hp

theorem get?_next (h : Heap α) : h.get? h.next = none := by
  simp [get?, next]

theorem get?_alloc (h : Heap α) (a : α) (q : ℕ) :
    (h.alloc a).get? q = if q = h.next then some a else h.get? q := by
  rcases Nat.lt_trichotomy q h.next with hlt | heq | hgt
  · have hne : q ≠ h.next := by omega
    simp only [get?, alloc, if_neg hne]
    rw [List.getElem?_append_left hlt]
  · subst heq
    simp [get?, alloc, next]
  · have hne : q ≠ h.next := by omega
    have h1 : h.cells[q]? = none := List.getElem?_eq_none (by unfold next at hgt; omega)
    have h2 : (h.cells ++ [some a])[q]? = none :=
      List.getElem?_eq_none (by unfold next at hgt; simp; omega)
    simp [get?, alloc, if_neg hne, h1, h2]

theorem get?_set {h : Heap α} {p : ℕ} {b : α} (hp : h.get? p = some b) (a : α) (q : ℕ) :
    (h.set p a).get? q = if q = p then some a else h.get? q := by
  have hlt : p < h.cells.length := lt_next hp
  by_cases hq : q = p
  · subst hq
    simp [get?, set, hlt]
  · simp [get?, set, hq, List.getElem?_set_ne (Ne.symm hq)]

/-- The later of two writes to a block is what remains. -/
theorem set_set (h : Heap α) (p : ℕ) (a b : α) : (h.set p a).set p b = h.set p b := by
  simp [set]

/-- Writing what is there already changes nothing. -/
theorem set_self {h : Heap α} {p : ℕ} {a : α} (hp : h.get? p = some a) : h.set p a = h := by
  have hcell : h.cells[p]? = some (some a) := Option.join_eq_some_iff.mp hp
  obtain ⟨hlt, hval⟩ := List.getElem?_eq_some_iff.mp hcell
  rw [set, ← hval, List.set_getElem_self]

/-- A block that is freed need not be written first. -/
theorem set_free (h : Heap α) (p : ℕ) (a : α) : (h.set p a).free p = h.free p := by
  simp [set, free]

theorem get?_free (h : Heap α) (p q : ℕ) :
    (h.free p).get? q = if q = p then none else h.get? q := by
  by_cases hq : q = p
  · subst hq
    by_cases hlt : q < h.cells.length
    · simp [get?, free, hlt]
    · have hset : (h.cells.set q none)[q]? = none :=
        List.getElem?_eq_none (by simpa using Nat.le_of_not_lt hlt)
      simp [get?, free, hset]
  · simp [get?, free, hq, List.getElem?_set_ne (Ne.symm hq)]

/-! ### One block and the others -/

section

variable {h : Heap α} {p q : ℕ} {a b c : α}

theorem get?_set_self (hp : h.get? p = some b) (a : α) : (h.set p a).get? p = some a := by
  rw [get?_set hp, if_pos rfl]

theorem get?_set_of_ne (h : Heap α) (a : α) (hne : q ≠ p) : (h.set p a).get? q = h.get? q := by
  simp [get?, set, List.getElem?_set_ne hne.symm]

/-- A block after a write is the one that was written, or another one. -/
theorem set_cases (hp : h.get? p = some b) (hq : (h.set p a).get? q = some c) :
    (q = p ∧ c = a) ∨ (q ≠ p ∧ h.get? q = some c) := by
  rw [get?_set hp] at hq
  split at hq
  · rename_i heq
    exact .inl ⟨heq, (Option.some.inj hq).symm⟩
  · rename_i hne
    exact .inr ⟨hne, hq⟩

/-- What holds of every block holds of every block after a write, if it does of the new one. -/
theorem forall_set {P : ℕ → α → Prop} (hall : ∀ q c, h.get? q = some c → P q c)
    (hp : h.get? p = some b) (ha : P p a) : ∀ q c, (h.set p a).get? q = some c → P q c := by
  intro q c hq
  rcases set_cases hp hq with ⟨rfl, rfl⟩ | ⟨-, hq⟩
  · exact ha
  · exact hall q c hq

/-- A write frees no block. -/
theorem exists_get?_set (hp : h.get? p = some b) (a : α) (hq : ∃ c, h.get? q = some c) :
    ∃ c, (h.set p a).get? q = some c := by
  rw [get?_set hp]
  split
  · exact ⟨a, rfl⟩
  · exact hq

theorem get?_alloc_next (h : Heap α) (a : α) : (h.alloc a).get? h.next = some a := by
  rw [get?_alloc, if_pos rfl]

/-- The blocks that there are stay where they are. -/
theorem get?_alloc_of_live (hq : h.get? q = some c) (a : α) : (h.alloc a).get? q = some c := by
  rw [get?_alloc, if_neg (lt_next hq).ne, hq]

/-- A block after an allocation is the new one, or was there before. -/
theorem alloc_cases (hq : (h.alloc a).get? q = some c) :
    (q = h.next ∧ c = a) ∨ h.get? q = some c := by
  rw [get?_alloc] at hq
  split at hq
  · rename_i heq
    exact .inl ⟨heq, (Option.some.inj hq).symm⟩
  · exact .inr hq

theorem get?_free_self (h : Heap α) (p : ℕ) : (h.free p).get? p = none := by
  rw [get?_free, if_pos rfl]

theorem get?_free_of_ne (h : Heap α) (hne : q ≠ p) : (h.free p).get? q = h.get? q := by
  rw [get?_free, if_neg hne]

/-- A block that is freed again as soon as it was allocated. -/
theorem get?_alloc_free (h : Heap α) (a : α) (q : ℕ) :
    ((h.alloc a).free h.next).get? q = h.get? q := by
  by_cases hq : q = h.next
  · rw [hq, get?_free_self, get?_next]
  · rw [get?_free_of_ne _ hq, get?_alloc, if_neg hq]

/-- A block that is left was not the one that was freed. -/
theorem free_cases (hq : (h.free p).get? q = some c) : q ≠ p ∧ h.get? q = some c := by
  rw [get?_free] at hq
  split at hq
  · cases hq
  · rename_i hne
    exact ⟨hne, hq⟩

end

end Heap

end LibuvDox
