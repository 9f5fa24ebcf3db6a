import Mathlib.Tactic

/-!
# A reader/writer lock

Any number of readers or one writer may hold the lock, and the field `exclusive` keeps it so: a
lock held by both cannot be built.  Taking it is refused while it is not free for that purpose;
giving back what is not held has no meaning, which is what `none` says.
-/

namespace LibuvDox

/-- How many readers hold the lock, and whether a writer does. -/
structure RwLock where
  readers : ℕ
  writer : Bool
  exclusive : writer = true → readers = 0
  deriving DecidableEq, Repr

namespace RwLock

/-- Held by nobody. -/
def free : RwLock := ⟨0, false, by simp⟩

def rdlock (l : RwLock) : Option RwLock :=
  if l.writer = false then some ⟨l.readers + 1, false, by simp⟩ else none

def rdunlock (l : RwLock) : Option RwLock :=
  if 0 < l.readers then
    some ⟨l.readers - 1, l.writer, fun h => by rw [l.exclusive h]⟩
  else none

def wrlock (l : RwLock) : Option RwLock :=
  if l.writer = false ∧ l.readers = 0 then some ⟨0, true, by simp⟩ else none

def wrunlock (l : RwLock) : Option RwLock :=
  if l.writer = true then some ⟨0, false, by simp⟩ else none

variable {l m : RwLock}

theorem rdlock_some (h : l.rdlock = some m) :
    l.writer = false ∧ m.writer = false ∧ m.readers = l.readers + 1 := by
  unfold rdlock at h
  split at h
  · rename_i hw
    cases h
    exact ⟨hw, rfl, rfl⟩
  · cases h

theorem rdunlock_some (h : l.rdunlock = some m) :
    m.writer = l.writer ∧ l.readers = m.readers + 1 := by
  unfold rdunlock at h
  split at h
  · cases h
    refine ⟨rfl, ?_⟩
    show l.readers = l.readers - 1 + 1
    omega
  · cases h

theorem wrlock_some (h : l.wrlock = some m) :
    l.writer = false ∧ l.readers = 0 ∧ m.writer = true ∧ m.readers = 0 := by
  unfold wrlock at h
  split at h
  · rename_i hw
    cases h
    exact ⟨hw.1, hw.2, rfl, rfl⟩
  · cases h

theorem wrunlock_some (h : l.wrunlock = some m) :
    l.writer = true ∧ l.readers = 0 ∧ m.writer = false ∧ m.readers = 0 := by
  unfold wrunlock at h
  split at h
  · rename_i hw
    cases h
    exact ⟨hw, l.exclusive hw, rfl, rfl⟩
  · cases h

end RwLock

end LibuvDox
