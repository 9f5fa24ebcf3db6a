import LibuvDox.LockDiscipline

/-!
# 10-locks and 10-locks-try come to an end

Nothing is said here about how the threads are scheduled.  Each step takes a thread one step nearer
to its end, so that `10-locks` can only take so many of them; and as long as `main` has not
returned, some thread can go on, whether it holds the lock, is given it, or is one of those that
come to the barrier.  In `10-locks-try` only the failed attempts can put this off.

* `left_step`: how many steps there are ahead, and that each step is one of them.
* `Sound.goesOn`: nobody waits for a thread that waits for him.
* `locks_end`: every run of either program can be brought to its end, and of `10-locks` every run
  comes to it.
-/

namespace LibuvDox.Locks

/-! ### The way ahead -/

/-- The steps a reader has ahead of it; those of a round are taking the lock, the print, and
giving it back. -/
def ReaderThread.left (rounds : ℕ) (t : ReaderThread) : ℕ :=
  match t.pc with
  | .notCreated => 3 * rounds + 2
  | .lock => 3 * (rounds - (t.i + 1)) + 5
  | .print => 3 * (rounds - (t.i + 1)) + 4
  | .unlock => 3 * (rounds - (t.i + 1)) + 3
  | .barrier => 2
  | .waiting => 1
  | .ended => 0

/-- The steps the writer has ahead of it. -/
def WriterThread.left (rounds : ℕ) (t : WriterThread) : ℕ :=
  match t.pc with
  | .notCreated => 4 * rounds + 2
  | .lock => 4 * (rounds - (t.i + 1)) + 6
  | .increment => 4 * (rounds - (t.i + 1)) + 5
  | .print => 4 * (rounds - (t.i + 1)) + 4
  | .unlock => 4 * (rounds - (t.i + 1)) + 3
  | .barrier => 2
  | .waiting => 1
  | .ended => 0

/-- The steps `main` has ahead of it. -/
def MainPc.left : MainPc → ℕ
  | .createFirst => 7
  | .createSecond => 6
  | .createWriter => 5
  | .barrier => 4
  | .waiting => 3
  | .destroyBarrier => 2
  | .destroyLock => 1
  | .returned => 0

/-- The steps all of them have ahead of them. -/
def Threads.left (rounds : ℕ) (s : Threads) : ℕ :=
  ∑ k, (s.reader k).left rounds + s.writer.left rounds + s.main.left

theorem Threads.left_eq (rounds : ℕ) (s : Threads) : s.left rounds =
    (s.reader 0).left rounds + (s.reader 1).left rounds + s.writer.left rounds + s.main.left := by
  rw [Threads.left, Fin.sum_univ_two]

/-- The steps of all threads of a program with that many rounds. -/
def steps (rounds : ℕ) : ℕ := 10 * rounds + 13

theorem init_left (rounds : ℕ) : init.left rounds = steps rounds := by
  simp only [Threads.left_eq, init, ReaderThread.left, WriterThread.left, MainPc.left, steps]
  omega

section

variable {rounds : ℕ} {s u : Threads}

theorem left_setReader (k : Fin 2) (t : ReaderThread) :
    (s.setReader k t).left rounds + (s.reader k).left rounds
      = s.left rounds + t.left rounds := by
  fin_cases k
  · simp [Threads.left_eq, Threads.setReader]
    omega
  · simp [Threads.left_eq, Threads.setReader]
    omega

/-- A reader at the head of its loop, `i` rounds through. -/
theorem left_readerLoop (i : ℕ) : (readerLoop rounds i).left rounds = 3 * (rounds - i) + 2 := by
  unfold readerLoop ReaderThread.left
  by_cases hi : i < rounds
  · rw [if_pos hi]
    show 3 * (rounds - (i + 1)) + 5 = 3 * (rounds - i) + 2
    omega
  · rw [if_neg hi]
    show 2 = 3 * (rounds - i) + 2
    omega

theorem left_writerLoop (i : ℕ) : (writerLoop rounds i).left rounds = 4 * (rounds - i) + 2 := by
  unfold writerLoop WriterThread.left
  by_cases hi : i < rounds
  · rw [if_pos hi]
    show 4 * (rounds - (i + 1)) + 6 = 4 * (rounds - i) + 2
    omega
  · rw [if_neg hi]
    show 2 = 4 * (rounds - i) + 2
    omega

/-- A step of a reader. -/
theorem left_of_reader {k : Fin 2} {t : ReaderThread} {l : RwLock} {n : ℕ}
    (ht : t.left rounds + 1 = (s.reader k).left rounds) :
    Threads.left rounds { s.setReader k t with numlock := l, arrived := n } + 1
      = s.left rounds := by
  have hset : (s.setReader k t).left rounds + (s.reader k).left rounds
      = s.left rounds + t.left rounds := left_setReader k t
  show (s.setReader k t).left rounds + 1 = s.left rounds
  omega

/-- A step of the writer. -/
theorem left_of_writer {t : WriterThread} {l : RwLock} {num n : ℕ}
    (ht : t.left rounds + 1 = s.writer.left rounds) :
    Threads.left rounds { s with writer := t, numlock := l, sharedNum := num, arrived := n } + 1
      = s.left rounds := by
  show ∑ k, (s.reader k).left rounds + t.left rounds + s.main.left + 1 = s.left rounds
  rw [Threads.left]
  omega

/-- A step of `main`. -/
theorem left_of_main {m : MainPc} {n : ℕ} (hm : m.left + 1 = s.main.left) :
    Threads.left rounds { s with main := m, arrived := n } + 1 = s.left rounds := by
  show ∑ k, (s.reader k).left rounds + s.writer.left rounds + m.left + 1 = s.left rounds
  rw [Threads.left]
  omega

theorem left_create {r : ℤ} (hb : Unborn s)
    (hat : s.main = .createFirst ∨ s.main = .createSecond ∨ s.main = .createWriter)
    (hok : createThread rounds s r = .ok u) : u.left rounds + 1 = s.left rounds := by
  have hreader : ∀ k, (s.reader k).pc = .notCreated →
      (s.reader k).left rounds = (readerLoop rounds 0).left rounds := by
    intro k hk
    rw [left_readerLoop, ReaderThread.left, hk]
    rfl
  rcases createThread_ok hat hok with ⟨hm, rfl⟩ | ⟨hm, rfl⟩ | ⟨hm, rfl⟩
  · have hk := hreader 0 (hb.reader 0 (by rw [hm]; exact le_rfl))
    rw [Threads.left_eq, Threads.left_eq, hk, hm]
    show (readerLoop rounds 0).left rounds + (s.reader 1).left rounds + s.writer.left rounds + 6 + 1
      = _
    rfl
  · have hk := hreader 1 (hb.reader 1 (by rw [hm]; exact le_rfl))
    rw [Threads.left_eq, Threads.left_eq, hk, hm]
    show (s.reader 0).left rounds + (readerLoop rounds 0).left rounds + s.writer.left rounds + 5 + 1
      = _
    rfl
  · have hw : s.writer.left rounds = (writerLoop rounds 0).left rounds := by
      rw [left_writerLoop, hb.writer (by rw [hm]; exact le_rfl)]
      rfl
    rw [Threads.left_eq, Threads.left_eq, hw, hm]
    rfl

/-- **One step.**  It is one of those that were ahead. -/
theorem left_step {e : LockEvent} (hb : Unborn s) (he : (locks rounds).enabled s e)
    (hok : (locks rounds).dispatch s e = .ok u) : u.left rounds + 1 = s.left rounds := by
  cases e with
  | rdlock k =>
    obtain ⟨l, -, hok⟩ := bind_ok_iff.mp hok
    cases hok
    apply left_of_reader
    rw [ReaderThread.left, ReaderThread.left, he.1]
  | wrlock =>
    obtain ⟨l, -, hok⟩ := bind_ok_iff.mp hok
    cases hok
    refine left_of_writer (s := s) (t := ⟨.increment, s.writer.i⟩) ?_
    rw [WriterThread.left, WriterThread.left, he.1]
  | other e =>
    cases e with
    | create r => exact left_create hb he hok
    | print k num =>
      cases hok
      apply left_of_reader
      rw [ReaderThread.left, ReaderThread.left, he.1]
    | rdunlock k =>
      have hpc : (s.reader k).pc = .unlock := he
      obtain ⟨l, -, hok⟩ := bind_ok_iff.mp hok
      cases hok
      apply left_of_reader
      rw [left_readerLoop, ReaderThread.left, hpc]
    | increment =>
      have hpc : s.writer.pc = .increment := he
      cases hok
      refine left_of_writer (s := s) (t := ⟨.print, s.writer.i⟩) ?_
      rw [WriterThread.left, WriterThread.left, hpc]
    | printNum num =>
      cases hok
      apply left_of_writer
      rw [WriterThread.left, WriterThread.left, he.1]
    | wrunlock =>
      have hpc : s.writer.pc = .unlock := he
      obtain ⟨l, -, hok⟩ := bind_ok_iff.mp hok
      cases hok
      apply left_of_writer
      rw [left_writerLoop, WriterThread.left, hpc]
    | arrive p =>
      cases hok
      cases p with
      | reader k =>
        have hpc : (s.reader k).pc = .barrier := he
        apply left_of_reader
        rw [ReaderThread.left, ReaderThread.left, hpc]
      | writer =>
        have hpc : s.writer.pc = .barrier := he
        refine left_of_writer (s := s) (t := ⟨.waiting, s.writer.i⟩) ?_
        rw [WriterThread.left, WriterThread.left, hpc]
      | main =>
        have hpc : s.main = .barrier := he
        apply left_of_main
        rw [hpc]
        rfl
    | pass p =>
      cases hok
      cases p with
      | reader k =>
        have hpc : (s.reader k).pc = .waiting := he.1
        apply left_of_reader
        rw [ReaderThread.left, ReaderThread.left, hpc]
      | writer =>
        have hpc : s.writer.pc = .waiting := he.1
        apply left_of_writer
        rw [WriterThread.left, WriterThread.left, hpc]
      | main =>
        have hpc : s.main = .waiting := he.1
        apply left_of_main
        rw [hpc]
        rfl
    | destroyBarrier =>
      have hpc : s.main = .destroyBarrier := he
      cases hok
      apply left_of_main
      rw [hpc]
      rfl
    | destroyLock =>
      have hpc : s.main = .destroyLock := he
      obtain rfl := destroyLock_ok hok
      apply left_of_main
      rw [hpc]
      rfl

/-! ### The threads that are there -/

/-- The threads that `main` has created are somewhere. -/
structure Born (s : Threads) : Prop where
  reader : ∀ k : Fin 2, k < s.main.created → (s.reader k).pc ≠ .notCreated
  writer : s.main.created = 3 → s.writer.pc ≠ .notCreated

theorem init_born : Born init where
  reader := nofun
  writer := nofun

theorem readerLoop_created (i : ℕ) : (readerLoop rounds i).pc ≠ .notCreated := by
  unfold readerLoop
  split <;> nofun

theorem writerLoop_created (i : ℕ) : (writerLoop rounds i).pc ≠ .notCreated := by
  unfold writerLoop
  split <;> nofun

/-- A reader moves on. -/
theorem Born.reader_step (h : Born s) (k : Fin 2) {t : ReaderThread} (ht : t.pc ≠ .notCreated)
    (l : RwLock) (n : ℕ) : Born { s.setReader k t with numlock := l, arrived := n } where
  reader j hj := by
    show (Function.update s.reader k t j).pc ≠ .notCreated
    by_cases hjk : j = k
    · rw [hjk, Function.update_self]
      exact ht
    · rw [Function.update_of_ne hjk]
      exact h.reader j hj
  writer := h.writer

/-- The writer moves on. -/
theorem Born.writer_step (h : Born s) {t : WriterThread} (ht : t.pc ≠ .notCreated) (l : RwLock)
    (num n : ℕ) : Born { s with writer := t, numlock := l, sharedNum := num, arrived := n } where
  reader := h.reader
  writer _ := ht

/-- `main` moves on without creating a thread. -/
theorem Born.main_step (h : Born s) {m : MainPc} (hm : m.created = s.main.created) (n : ℕ) :
    Born { s with main := m, arrived := n } where
  reader k hk := h.reader k (hm ▸ hk)
  writer hw := h.writer (hm ▸ hw)

theorem Born.create {r : ℤ} (h : Born s)
    (hat : s.main = .createFirst ∨ s.main = .createSecond ∨ s.main = .createWriter)
    (hok : createThread rounds s r = .ok u) : Born u := by
  have hset : ∀ k, Born (s.setReader k (readerLoop rounds 0)) :=
    fun k => h.reader_step k (readerLoop_created 0) s.numlock s.arrived
  rcases createThread_ok hat hok with ⟨hm, rfl⟩ | ⟨hm, rfl⟩ | ⟨hm, rfl⟩
  · refine ⟨fun k hk => ?_, nofun⟩
    have hlt : (k : ℕ) < 1 := hk
    obtain rfl : k = 0 := by omega
    exact readerLoop_created 0
  · refine ⟨fun k hk => ?_, nofun⟩
    by_cases hk1 : k = 1
    · rw [hk1]
      exact readerLoop_created 0
    · refine (hset 1).reader k ?_
      show (k : ℕ) < s.main.created
      rw [hm]
      show (k : ℕ) < 1
      omega
  · refine ⟨fun k _ => h.reader k ?_, fun _ => writerLoop_created 0⟩
    rw [hm]
    exact k.isLt

theorem Born.step {e : LockEvent} (h : Born s) (he : (locks rounds).enabled s e)
    (hok : (locks rounds).dispatch s e = .ok u) : Born u := by
  cases e with
  | rdlock k =>
    obtain ⟨l, -, hok⟩ := bind_ok_iff.mp hok
    cases hok
    exact h.reader_step k (by nofun) l s.arrived
  | wrlock =>
    obtain ⟨l, -, hok⟩ := bind_ok_iff.mp hok
    cases hok
    exact h.writer_step (by nofun) l s.sharedNum s.arrived
  | other e =>
    cases e with
    | create r => exact h.create he hok
    | print k num =>
      cases hok
      exact h.reader_step k (by nofun) s.numlock s.arrived
    | rdunlock k =>
      obtain ⟨l, -, hok⟩ := bind_ok_iff.mp hok
      cases hok
      exact h.reader_step k (readerLoop_created _) l s.arrived
    | increment =>
      cases hok
      exact h.writer_step (by nofun) s.numlock (s.sharedNum + 1) s.arrived
    | printNum num =>
      cases hok
      exact h.writer_step (by nofun) s.numlock s.sharedNum s.arrived
    | wrunlock =>
      obtain ⟨l, -, hok⟩ := bind_ok_iff.mp hok
      cases hok
      exact h.writer_step (writerLoop_created _) l s.sharedNum s.arrived
    | arrive p =>
      cases hok
      cases p with
      | reader k => exact h.reader_step k (by nofun) s.numlock (s.arrived + 1)
      | writer => exact h.writer_step (by nofun) s.numlock s.sharedNum (s.arrived + 1)
      | main =>
        have hpc : s.main = .barrier := he
        exact h.main_step (by rw [hpc]; rfl) (s.arrived + 1)
    | pass p =>
      cases hok
      cases p with
      | reader k => exact h.reader_step k (by nofun) s.numlock s.arrived
      | writer => exact h.writer_step (by nofun) s.numlock s.sharedNum s.arrived
      | main =>
        have hpc : s.main = .waiting := he.1
        exact h.main_step (by rw [hpc]; rfl) s.arrived
    | destroyBarrier =>
      have hpc : s.main = .destroyBarrier := he
      cases hok
      exact h.main_step (by rw [hpc]; rfl) s.arrived
    | destroyLock =>
      have hpc : s.main = .destroyLock := he
      obtain rfl := destroyLock_ok hok
      exact h.main_step (by rw [hpc]; rfl) s.arrived

/-! ### Somebody can go on -/

/-- No thread fails to be created. -/
def Benign : LockEvent → Prop
  | .other (.create r) => r = 0
  | _ => True

theorem deref_bind_ne {α β : Type} {block : Option α} {what : String} {f : α → β} :
    (deref block what >>= fun a => .ok (f a)) ≠ .error errorMacro := by
  cases block <;> nofun

/-- A step returns, unless a thread could not be created. -/
theorem Sound.returns {e : LockEvent} (h : Sound rounds s) (he : (locks rounds).enabled s e)
    (hb : Benign e) : ∃ u, (locks rounds).dispatch s e = .ok u := by
  cases hd : (locks rounds).dispatch s e with
  | ok u => exact ⟨u, rfl⟩
  | error x =>
    obtain rfl := h.defined he hd
    exfalso
    cases e with
    | rdlock k => exact deref_bind_ne hd
    | wrlock => exact deref_bind_ne hd
    | other e =>
      cases e with
      | create r =>
        obtain rfl : r = 0 := hb
        have hd' : createThread rounds s 0 = .error errorMacro := hd
        unfold createThread at hd'
        rw [if_neg (by decide)] at hd'
        split at hd' <;> cases hd'
      | rdunlock k => exact deref_bind_ne hd
      | wrunlock => exact deref_bind_ne hd
      | destroyLock =>
        have hd' : Locks.destroyLock s = .error errorMacro := hd
        unfold Locks.destroyLock at hd'
        split at hd' <;> cases hd'
      | print k num => cases hd
      | increment => cases hd
      | printNum num => cases hd
      | arrive p => cases hd
      | pass p => cases hd
      | destroyBarrier => cases hd

/-- Some thread can take its next step. -/
def GoesOn (rounds : ℕ) (s : Threads) : Prop := ∃ e, (locks rounds).enabled s e ∧ Benign e

theorem goesOn_of_reader {k : Fin 2} (hk : (s.reader k).pc.holds = true) : GoesOn rounds s := by
  cases hpc : (s.reader k).pc with
  | print => exact ⟨.other (.print k s.sharedNum), ⟨hpc, rfl⟩, trivial⟩
  | unlock => exact ⟨.other (.rdunlock k), hpc, trivial⟩
  | _ =>
    rw [hpc] at hk
    cases hk

theorem goesOn_of_writer (hw : s.writer.pc.holds = true) : GoesOn rounds s := by
  cases hpc : s.writer.pc with
  | increment => exact ⟨.other .increment, hpc, trivial⟩
  | print => exact ⟨.other (.printNum s.sharedNum), ⟨hpc, rfl⟩, trivial⟩
  | unlock => exact ⟨.other .wrunlock, hpc, trivial⟩
  | _ =>
    rw [hpc] at hw
    cases hw

/-- Some reader is inside its section when readers hold the lock. -/
theorem Sound.exists_reader (h : Sound rounds s) (hne : s.numlock.readers ≠ 0) :
    ∃ k, (s.reader k).pc.holds = true := by
  by_contra hnone
  have hfalse : ∀ k, (s.reader k).pc.holds = false :=
    fun k => Bool.eq_false_iff.mpr fun hk => hnone ⟨k, hk⟩
  apply hne
  rw [h.readers, readersAt, hfalse 0, hfalse 1]
  rfl

/-- A reader that has not come to the barrier goes on, or waits for a writer that does. -/
theorem Sound.reader_goesOn (h : Sound rounds s) {k : Fin 2} (hk : (s.reader k).pc ≠ .notCreated)
    (harrived : (s.reader k).pc.arrived = false) : GoesOn rounds s := by
  cases hpc : (s.reader k).pc with
  | notCreated => exact absurd hpc hk
  | lock =>
    cases hw : s.numlock.writer with
    | false => exact ⟨.rdlock k, ⟨hpc, hw⟩, trivial⟩
    | true => exact goesOn_of_writer (h.writer ▸ hw)
  | barrier => exact ⟨.other (.arrive (.reader k)), hpc, trivial⟩
  | print => exact goesOn_of_reader (k := k) (by rw [hpc]; rfl)
  | unlock => exact goesOn_of_reader (k := k) (by rw [hpc]; rfl)
  | waiting =>
    rw [hpc] at harrived
    cases harrived
  | ended =>
    rw [hpc] at harrived
    cases harrived

/-- The writer goes on, or waits for a reader that does. -/
theorem Sound.writer_goesOn (h : Sound rounds s) (hw : s.writer.pc ≠ .notCreated)
    (harrived : s.writer.pc.arrived = false) : GoesOn rounds s := by
  cases hpc : s.writer.pc with
  | notCreated => exact absurd hpc hw
  | lock =>
    by_cases hnone : s.numlock.readers = 0
    · have hfree : s.numlock.writer = false := by
        rw [h.writer, hpc]
        rfl
      exact ⟨.wrlock, ⟨hpc, hfree, hnone⟩, trivial⟩
    · obtain ⟨k, hk⟩ := h.exists_reader hnone
      exact goesOn_of_reader hk
  | barrier => exact ⟨.other (.arrive .writer), hpc, trivial⟩
  | increment => exact goesOn_of_writer (by rw [hpc]; rfl)
  | print => exact goesOn_of_writer (by rw [hpc]; rfl)
  | unlock => exact goesOn_of_writer (by rw [hpc]; rfl)
  | waiting =>
    rw [hpc] at harrived
    cases harrived
  | ended =>
    rw [hpc] at harrived
    cases harrived

/-- If `main` waits in vain, another thread has not come to the barrier yet. -/
theorem Sound.waits_goesOn (h : Sound rounds s) (hb : Born s) (hmain : s.main = .waiting) :
    GoesOn rounds s := by
  by_cases hcount : s.arrived = count
  · exact ⟨.other (.pass .main), ⟨hmain, hcount⟩, trivial⟩
  · have hcreated : s.main.created = 3 := by
      rw [hmain]
      rfl
    have hreader : ∀ k, (s.reader k).pc.arrived = false → GoesOn rounds s :=
      fun k => h.reader_goesOn (hb.reader k (by omega))
    cases h0 : (s.reader 0).pc.arrived with
    | false => exact hreader 0 h0
    | true =>
      cases h1 : (s.reader 1).pc.arrived with
      | false => exact hreader 1 h1
      | true =>
        cases hw : s.writer.pc.arrived with
        | false => exact h.writer_goesOn (hb.writer hcreated) hw
        | true =>
          apply absurd h.arrived
          rw [readersAt, h0, h1, hw, hmain]
          exact hcount

/-- **No deadlock.** -/
theorem Sound.goesOn (h : Sound rounds s) (hb : Born s) (hmain : s.main ≠ .returned) :
    GoesOn rounds s := by
  cases hpc : s.main with
  | createFirst => exact ⟨.other (.create 0), .inl hpc, rfl⟩
  | createSecond => exact ⟨.other (.create 0), .inr (.inl hpc), rfl⟩
  | createWriter => exact ⟨.other (.create 0), .inr (.inr hpc), rfl⟩
  | barrier => exact ⟨.other (.arrive .main), hpc, trivial⟩
  | waiting => exact h.waits_goesOn hb hpc
  | destroyBarrier => exact ⟨.other .destroyBarrier, hpc, trivial⟩
  | destroyLock => exact ⟨.other .destroyLock, hpc, trivial⟩
  | returned => exact absurd hpc hmain

end

/-! ### The end -/

/-- What a run of `10-locks` keeps. -/
structure Going (rounds : ℕ) (s : Threads) : Prop where
  unborn : Unborn s
  born : Born s
  sound : Sound rounds s

theorem Going.step {rounds : ℕ} {s u : Threads} {e : LockEvent} (h : Going rounds s)
    (he : (locks rounds).enabled s e) (hok : (locks rounds).dispatch s e = .ok u) :
    Going rounds u :=
  ⟨h.unborn.step he hok, h.born.step he hok, h.sound.step h.unborn he hok⟩

theorem Going.next {rounds : ℕ} {s : Threads} (h : Going rounds s) (hmain : s.main ≠ .returned) :
    ∃ e u, (locks rounds).enabled s e ∧ Benign e ∧ (locks rounds).dispatch s e = .ok u := by
  obtain ⟨e, he, hbenign⟩ := h.sound.goesOn h.born hmain
  obtain ⟨u, hu⟩ := h.sound.returns he hbenign
  exact ⟨e, u, he, hbenign, hu⟩

theorem going_of_run {rounds : ℕ} {es : List LockEvent} {s : Threads}
    (h : (locks rounds).Run init es s) :
    Going rounds s ∧ es.length + s.left rounds = steps rounds := by
  refine h.history (P := fun es s => Going rounds s ∧ es.length + s.left rounds = steps rounds)
    ⟨⟨init_unborn, init_born, init_sound rounds⟩, ?_⟩ ?_
  · rw [init_left, List.length_nil, Nat.zero_add]
  · intro es s e u ⟨hs, hlen⟩ he hok
    have hstep : u.left rounds + 1 = s.left rounds := left_step hs.unborn he hok
    refine ⟨hs.step he hok, ?_⟩
    rw [List.length_append, List.length_singleton]
    omega

/-- A step of `10-locks` is one of `10-locks-try`, where the first attempt succeeds. -/
def attempted : LockEvent → TryEvent
  | .rdlock k => .tryrdlock k 0
  | .wrlock => .trywrlock 0
  | .other e => .other e

theorem erase_attempted (e : LockEvent) : erase (attempted e) = some e := by
  cases e <;> rfl

theorem locks_simulates (rounds : ℕ) :
    EventLoop.Simulates (locks rounds) (locksTry rounds) Eq fun e => some (attempted e) where
  erased := nofun
  matched := by
    rintro s _ e u _ rfl he hok ⟨⟩
    cases e with
    | rdlock k =>
      exact ⟨⟨he.1, .inl ⟨rfl, he.2⟩⟩, u, (attempt_zero s (rdlock s k)).trans hok, rfl⟩
    | wrlock => exact ⟨⟨he.1, .inl ⟨rfl, he.2⟩⟩, u, (attempt_zero s (wrlock s)).trans hok, rfl⟩
    | other e => exact ⟨he, u, hok, rfl⟩

/-- **Both programs end.**  A run of `10-locks` takes at most as many steps as its threads have, and
unless `main` has returned, some thread can take the next one.  A run of `10-locks-try` takes at
most that many besides its failed attempts, and can be brought to its end without any further one;
the shared number is then the number of rounds. -/
theorem locks_end (rounds : ℕ) :
    (∀ es s, (locks rounds).Run init es s → es.length ≤ steps rounds ∧
        (s.main ≠ .returned →
          ∃ e u, (locks rounds).enabled s e ∧ Benign e ∧ (locks rounds).dispatch s e = .ok u)) ∧
      ∀ es s, (locksTry rounds).Run init es s → (es.filterMap erase).length ≤ steps rounds ∧
        ∃ fs u, (locksTry rounds).Run s fs u ∧ (fs.filterMap erase).length = fs.length ∧
          u.main = .returned ∧ u.sharedNum = rounds := by
  constructor
  · intro es s h
    obtain ⟨hs, hlen⟩ := going_of_run h
    exact ⟨by omega, hs.next⟩
  · intro es s h
    obtain ⟨s', hrun, rfl⟩ := (locksTry_simulates rounds).run rfl h
    obtain ⟨hs, hlen⟩ := going_of_run hrun
    refine ⟨by omega, ?_⟩
    obtain ⟨fs, u, hfs, hu, hmain⟩ := EventLoop.exists_run_to (L := locks rounds)
      (P := Going rounds) (D := fun u => u.main = .returned) (fun u => u.left rounds)
      (fun t ht hmain => by
        obtain ⟨e, u, he, -, hok⟩ := ht.next hmain
        have hstep : u.left rounds + 1 = t.left rounds := left_step ht.unborn he hok
        exact ⟨e, u, he, hok, ht.step he hok, by omega⟩) hs
    obtain ⟨v, hv, rfl⟩ := (locks_simulates rounds).run rfl hfs
    refine ⟨_, u, hv, ?_, hmain, (hu.sound.settled (by rw [hmain]; rfl)).num⟩
    rw [List.filterMap_filterMap]
    simp [erase_attempted]

/-- One round, begun with the writer, which a reader then finds in its section. -/
theorem locks_end_oneRound : ∃ es s, (locksTry 1).Run init es s ∧ .tryrdlock 0 (-EBUSY) ∈ es ∧
    (es.filterMap erase).length ≤ 23 ∧
      ∃ fs u, (locksTry 1).Run s fs u ∧ (fs.filterMap erase).length = fs.length ∧
        u.main = .returned ∧ u.sharedNum = 1 := by
  obtain ⟨s, hrun, -⟩ : ∃ s, (locksTry 1).Run init
      [.other (.create 0), .other (.create 0), .other (.create 0), .trywrlock 0,
        .tryrdlock 0 (-EBUSY)] s ∧ decide (s.main = .barrier) = true :=
    EventLoop.exists_run_of_plays (by decide +kernel)
  obtain ⟨-, htry⟩ := locks_end 1
  obtain ⟨hlen, hend⟩ := htry _ s hrun
  exact ⟨_, s, hrun, by decide, hlen, hend⟩

end LibuvDox.Locks
