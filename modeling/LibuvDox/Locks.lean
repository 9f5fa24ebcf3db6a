import LibuvDox.Lib.RwLock
import LibuvDox.Lib.Simulation
import LibuvDox.Uv

/-!
# 10-locks/main.c and 10-locks-try/main.c

Two readers and a writer share a number under a reader/writer lock, each for a number of rounds,
and meet `main` at a barrier before the lock is destroyed.  In `10-locks` a thread blocks until it
gets the lock; in `10-locks-try` it asks again and again.  What the threads do otherwise is the
same in both programs (`Shared`), and so is the state: a failed attempt goes back to where it
started from.

* `locksTry_simulates`: what is left of a run of `10-locks-try` without the failed attempts is a
  run of `10-locks`.
-/

namespace LibuvDox.Locks

/-- Where a reader is. -/
inductive ReaderPc where
  | notCreated
  | lock
  | print
  | unlock
  | barrier
  | waiting
  | ended
  deriving DecidableEq, Repr

/-- Where the writer is. -/
inductive WriterPc where
  | notCreated
  | lock
  | increment
  | print
  | unlock
  | barrier
  | waiting
  | ended
  deriving DecidableEq, Repr

/-- Where `main` is. -/
inductive MainPc where
  | createFirst
  | createSecond
  | createWriter
  | barrier
  | waiting
  | destroyBarrier
  | destroyLock
  | returned
  deriving DecidableEq, Repr

/-- A reader, in round `i`. -/
structure ReaderThread where
  pc : ReaderPc
  i : ℕ
  deriving DecidableEq, Repr

/-- The writer, in round `i`. -/
structure WriterThread where
  pc : WriterPc
  i : ℕ
  deriving DecidableEq, Repr

/-- `numlock`, `shared_num`, the number of threads that have come to the barrier, and the
threads. -/
structure Threads where
  numlock : RwLock
  sharedNum : ℕ
  arrived : ℕ
  reader : Fin 2 → ReaderThread
  writer : WriterThread
  main : MainPc

/-- The number of threads the barrier is for. -/
def count : ℕ := 4

/-- `main` before it creates the first thread. -/
def init : Threads :=
  ⟨.free, 0, 0, fun _ => ⟨.notCreated, 0⟩, ⟨.notCreated, 0⟩, .createFirst⟩

/-- The threads that meet at the barrier. -/
inductive Party where
  | reader (k : Fin 2)
  | writer
  | main
  deriving DecidableEq, Repr

/-- The steps that both programs have, one thread's at a time: `main` creates a thread, with the
result of that; prints show the number that was read; each thread comes to the barrier and passes
it; `main` destroys what it has initialised. -/
inductive Shared where
  | create (r : ℤ)
  | print (k : Fin 2) (num : ℕ)
  | rdunlock (k : Fin 2)
  | increment
  | printNum (num : ℕ)
  | wrunlock
  | arrive (p : Party)
  | pass (p : Party)
  | destroyBarrier
  | destroyLock
  deriving DecidableEq, Repr

/-- The steps of `10-locks`. -/
inductive LockEvent where
  | rdlock (k : Fin 2)
  | wrlock
  | other (e : Shared)
  deriving DecidableEq, Repr

/-- The steps of `10-locks-try`; an attempt comes with its result. -/
inductive TryEvent where
  | tryrdlock (k : Fin 2) (r : ℤ)
  | trywrlock (r : ℤ)
  | other (e : Shared)
  deriving DecidableEq, Repr

/-- `ERROR(msg, code)`. -/
def errorMacro : Stop := .assertFailed "0"

def EAGAIN : ℤ := 11

def EBUSY : ℤ := 16

namespace Threads

def setReader (s : Threads) (k : Fin 2) (t : ReaderThread) : Threads :=
  { s with reader := Function.update s.reader k t }

def setReaderPc (s : Threads) (k : Fin 2) (pc : ReaderPc) : Threads :=
  s.setReader k ⟨pc, (s.reader k).i⟩

def setWriterPc (s : Threads) (pc : WriterPc) : Threads := { s with writer := ⟨pc, s.writer.i⟩ }

end Threads

/-- The number of readers that are somewhere. -/
def readersAt (f : ReaderPc → Bool) (s : Threads) : ℕ :=
  (f (s.reader 0).pc).toNat + (f (s.reader 1).pc).toNat

theorem readersAt_setReader (f : ReaderPc → Bool) (s : Threads) (k : Fin 2) (t : ReaderThread) :
    readersAt f (s.setReader k t) + (f (s.reader k).pc).toNat = readersAt f s + (f t.pc).toNat := by
  fin_cases k
  · simp [readersAt, Threads.setReader]
    omega
  · simp [readersAt, Threads.setReader]
    omega

/-- The head of the loop of `reader_entry`. -/
def readerLoop (rounds i : ℕ) : ReaderThread := ⟨if i < rounds then .lock else .barrier, i⟩

/-- The head of the loop of `writer_entry`. -/
def writerLoop (rounds i : ℕ) : WriterThread := ⟨if i < rounds then .lock else .barrier, i⟩

/-! ### The steps -/

/-- `uv_thread_create`, for the thread that is next. -/
def createThread (rounds : ℕ) (s : Threads) (r : ℤ) : Except Stop Threads :=
  if r ≠ 0 then .error errorMacro
  else
    match s.main with
    | .createFirst => .ok { s.setReader 0 (readerLoop rounds 0) with main := .createSecond }
    | .createSecond => .ok { s.setReader 1 (readerLoop rounds 0) with main := .createWriter }
    | _ => .ok { s with writer := writerLoop rounds 0, main := .barrier }

/-- `uv_barrier_wait`, up to the point where the thread waits for the others. -/
def arrive (s : Threads) : Party → Threads
  | .reader k => { s.setReaderPc k .waiting with arrived := s.arrived + 1 }
  | .writer => { s.setWriterPc .waiting with arrived := s.arrived + 1 }
  | .main => { s with main := .waiting, arrived := s.arrived + 1 }

/-- `uv_barrier_wait` returns. -/
def pass (s : Threads) : Party → Threads
  | .reader k => s.setReaderPc k .ended
  | .writer => s.setWriterPc .ended
  | .main => { s with main := .destroyBarrier }

def rdunlock (rounds : ℕ) (s : Threads) (k : Fin 2) : Except Stop Threads := do
  let l ← deref s.numlock.rdunlock "uv_rwlock_rdunlock"
  .ok { s.setReader k (readerLoop rounds ((s.reader k).i + 1)) with numlock := l }

def wrunlock (rounds : ℕ) (s : Threads) : Except Stop Threads := do
  let l ← deref s.numlock.wrunlock "uv_rwlock_wrunlock"
  .ok { s with writer := writerLoop rounds (s.writer.i + 1), numlock := l }

def destroyLock (s : Threads) : Except Stop Threads :=
  if s.numlock = .free then .ok { s with main := .returned }
  else .error (.undefined "uv_rwlock_destroy")

def shared (rounds : ℕ) (s : Threads) : Shared → Except Stop Threads
  | .create r => createThread rounds s r
  | .print k _ => .ok (s.setReaderPc k .unlock)
  | .rdunlock k => rdunlock rounds s k
  | .increment => .ok { s.setWriterPc .print with sharedNum := s.sharedNum + 1 }
  | .printNum _ => .ok (s.setWriterPc .unlock)
  | .wrunlock => wrunlock rounds s
  | .arrive p => .ok (arrive s p)
  | .pass p => .ok (pass s p)
  | .destroyBarrier => .ok { s with main := .destroyLock }
  | .destroyLock => destroyLock s

/-- A reader gets the lock. -/
def rdlock (s : Threads) (k : Fin 2) : Except Stop Threads := do
  let l ← deref s.numlock.rdlock "uv_rwlock_rdlock"
  .ok { s.setReaderPc k .print with numlock := l }

/-- The writer gets the lock. -/
def wrlock (s : Threads) : Except Stop Threads := do
  let l ← deref s.numlock.wrlock "uv_rwlock_wrlock"
  .ok { s.setWriterPc .increment with numlock := l }

/-- One turn of the `do` loop around an attempt, which gets the lock by `acquire`. -/
def attempt (s : Threads) (r : ℤ) (acquire : Except Stop Threads) : Except Stop Threads :=
  if r ≠ 0 ∧ r ≠ -EBUSY ∧ r ≠ -EAGAIN then .error errorMacro
  else if r ≠ 0 then .ok s
  else acquire

/-- Whether a thread is at the barrier. -/
def AtBarrier (s : Threads) : Party → Prop
  | .reader k => (s.reader k).pc = .barrier
  | .writer => s.writer.pc = .barrier
  | .main => s.main = .barrier

/-- Whether a thread waits in the barrier. -/
def Waits (s : Threads) : Party → Prop
  | .reader k => (s.reader k).pc = .waiting
  | .writer => s.writer.pc = .waiting
  | .main => s.main = .waiting

/-- The step a thread is at; the barrier lets threads go when all have come. -/
def SharedEnabled (s : Threads) : Shared → Prop
  | .create _ => s.main = .createFirst ∨ s.main = .createSecond ∨ s.main = .createWriter
  | .print k num => (s.reader k).pc = .print ∧ num = s.sharedNum
  | .rdunlock k => (s.reader k).pc = .unlock
  | .increment => s.writer.pc = .increment
  | .printNum num => s.writer.pc = .print ∧ num = s.sharedNum
  | .wrunlock => s.writer.pc = .unlock
  | .arrive p => AtBarrier s p
  | .pass p => Waits s p ∧ s.arrived = count
  | .destroyBarrier => s.main = .destroyBarrier
  | .destroyLock => s.main = .destroyLock

/-- A call that blocks returns when the lock is free for its purpose. -/
def LockEnabled (s : Threads) : LockEvent → Prop
  | .rdlock k => (s.reader k).pc = .lock ∧ s.numlock.writer = false
  | .wrlock => s.writer.pc = .lock ∧ s.numlock.writer = false ∧ s.numlock.readers = 0
  | .other e => SharedEnabled s e

/-- An attempt succeeds only when the lock is free for its purpose, and fails as documented. -/
def TryEnabled (s : Threads) : TryEvent → Prop
  | .tryrdlock k r =>
    (s.reader k).pc = .lock ∧ (r = 0 ∧ s.numlock.writer = false ∨ r = -EBUSY ∨ r = -EAGAIN)
  | .trywrlock r =>
    s.writer.pc = .lock ∧
      (r = 0 ∧ s.numlock.writer = false ∧ s.numlock.readers = 0 ∨ r = -EBUSY ∨ r = -EAGAIN)
  | .other e => SharedEnabled s e

/-- `10-locks`, with any number of rounds for `ROUNDS`. -/
def locks (rounds : ℕ) : EventLoop Threads LockEvent Stop where
  enabled := LockEnabled
  dispatch s
    | .rdlock k => rdlock s k
    | .wrlock => wrlock s
    | .other e => shared rounds s e

/-- `10-locks-try`, with any number of rounds for `ROUNDS`. -/
def locksTry (rounds : ℕ) : EventLoop Threads TryEvent Stop where
  enabled := TryEnabled
  dispatch s
    | .tryrdlock k r => attempt s r (rdlock s k)
    | .trywrlock r => attempt s r (wrlock s)
    | .other e => shared rounds s e

section

variable (s : Threads)

instance (p : Party) : Decidable (AtBarrier s p) := by
  cases p <;> unfold AtBarrier <;> infer_instance

instance (p : Party) : Decidable (Waits s p) := by
  cases p <;> unfold Waits <;> infer_instance

instance (e : Shared) : Decidable (SharedEnabled s e) := by
  cases e <;> unfold SharedEnabled <;> infer_instance

instance (rounds : ℕ) (e : LockEvent) : Decidable ((locks rounds).enabled s e) := by
  cases e <;> unfold locks LockEnabled <;> infer_instance

instance (rounds : ℕ) (e : TryEvent) : Decidable ((locksTry rounds).enabled s e) := by
  cases e <;> unfold locksTry TryEnabled <;> infer_instance

end

/-- Forget the failed attempts. -/
def erase : TryEvent → Option LockEvent
  | .tryrdlock k r => if r = 0 then some (.rdlock k) else none
  | .trywrlock r => if r = 0 then some .wrlock else none
  | .other e => some (.other e)

/-! ### The try version refines the blocking one -/

theorem attempt_zero (s : Threads) (acquire : Except Stop Threads) :
    attempt s 0 acquire = acquire := by
  simp [attempt]

theorem attempt_failed {s u : Threads} {r : ℤ} {acquire : Except Stop Threads} (hr : r ≠ 0)
    (h : attempt s r acquire = .ok u) : u = s := by
  unfold attempt at h
  split at h
  · cases h
  · cases h
    rfl

/-- An attempt that fails as documented goes on. -/
theorem attempt_busy {s : Threads} {r : ℤ} {acquire : Except Stop Threads}
    (hr : r = -EBUSY ∨ r = -EAGAIN) : attempt s r acquire = .ok s := by
  rcases hr with rfl | rfl <;> rfl

/-- **Refinement.**  A failed attempt changes nothing, and every other step of `10-locks-try` is
the same step of `10-locks`. -/
theorem locksTry_simulates (rounds : ℕ) :
    EventLoop.Simulates (locksTry rounds) (locks rounds) Eq erase where
  erased := by
    intro s t e u hR _ hd hf
    subst hR
    cases e with
    | tryrdlock k r =>
      have hr : r ≠ 0 := by
        intro h
        simp [erase, h] at hf
      exact attempt_failed hr hd
    | trywrlock r =>
      have hr : r ≠ 0 := by
        intro h
        simp [erase, h] at hf
      exact attempt_failed hr hd
    | other e => cases hf
  matched := by
    intro s t e u e' hR he hd hf
    subst hR
    cases e with
    | tryrdlock k r =>
      by_cases hr : r = 0
      · subst hr
        cases hf
        have hd' : rdlock s k = .ok u := (attempt_zero s _).symm.trans hd
        refine ⟨⟨he.1, ?_⟩, u, hd', rfl⟩
        rcases he.2 with h | h | h
        · exact h.2
        · exact absurd h (by decide)
        · exact absurd h (by decide)
      · simp [erase, hr] at hf
    | trywrlock r =>
      by_cases hr : r = 0
      · subst hr
        cases hf
        have hd' : wrlock s = .ok u := (attempt_zero s _).symm.trans hd
        refine ⟨⟨he.1, ?_⟩, u, hd', rfl⟩
        rcases he.2 with h | h | h
        · exact h.2
        · exact absurd h (by decide)
        · exact absurd h (by decide)
      · simp [erase, hr] at hf
    | other e =>
      cases hf
      exact ⟨he, u, hd, rfl⟩

end LibuvDox.Locks
