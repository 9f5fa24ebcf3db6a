import LibuvDox.Locks

/-!
# The lock discipline of 10-locks and 10-locks-try

Every state of either program, for any number of rounds, is one in which the lock is held by just
the threads that are inside their sections and the shared number counts the sections of the writer.
`10-locks-try` inherits this, step by step, from the run of `10-locks` that is left when its failed
attempts are erased.

* `Sound.step`: one lemma for each thread says what a step of it may do to the lock and at the
  barrier, and every step is an instance of one of them.
* `PrintsCompleted`: what a reader prints is the number of sections completed by then.
* `lockDiscipline`: what this means for every run of either program.
-/

namespace LibuvDox.Locks

/-! ### The invariant -/

/-- Whether a reader is inside its section. -/
def ReaderPc.holds : ReaderPc → Bool
  | .print | .unlock => true
  | _ => false

/-- Whether a reader has come to the barrier. -/
def ReaderPc.arrived : ReaderPc → Bool
  | .waiting | .ended => true
  | _ => false

/-- Whether a reader is past the barrier. -/
def ReaderPc.past : ReaderPc → Bool
  | .ended => true
  | _ => false

def WriterPc.holds : WriterPc → Bool
  | .increment | .print | .unlock => true
  | _ => false

/-- Whether the section the writer is in has counted already. -/
def WriterPc.counted : WriterPc → Bool
  | .print | .unlock => true
  | _ => false

/-- Whether the writer is in a round. -/
def WriterPc.running : WriterPc → Bool
  | .lock | .increment | .print | .unlock => true
  | _ => false

/-- Whether the writer is through with its rounds. -/
def WriterPc.finished : WriterPc → Bool
  | .barrier | .waiting | .ended => true
  | _ => false

def WriterPc.arrived : WriterPc → Bool
  | .waiting | .ended => true
  | _ => false

def WriterPc.past : WriterPc → Bool
  | .ended => true
  | _ => false

def MainPc.arrived : MainPc → Bool
  | .waiting | .destroyBarrier | .destroyLock | .returned => true
  | _ => false

def MainPc.past : MainPc → Bool
  | .destroyBarrier | .destroyLock | .returned => true
  | _ => false

/-- How many threads `main` has created. -/
def MainPc.created : MainPc → ℕ
  | .createFirst => 0
  | .createSecond => 1
  | .createWriter => 2
  | _ => 3

/-- The threads that `main` has not created yet. -/
structure Unborn (s : Threads) : Prop where
  reader : ∀ k : Fin 2, s.main.created ≤ k → (s.reader k).pc = .notCreated
  writer : s.main.created ≤ 2 → s.writer = ⟨.notCreated, 0⟩

/-- **The invariant.**  The lock is held by the threads that are inside their sections, the shared
number counts the sections of the writer, and nobody passes the barrier before all are there. -/
structure Sound (rounds : ℕ) (s : Threads) : Prop where
  readers : s.numlock.readers = readersAt ReaderPc.holds s
  writer : s.numlock.writer = s.writer.pc.holds
  num : s.sharedNum = s.writer.i + s.writer.pc.counted.toNat
  running : s.writer.pc.running = true → s.writer.i < rounds
  finished : s.writer.pc.finished = true → s.writer.i = rounds
  arrived : s.arrived = readersAt ReaderPc.arrived s + s.writer.pc.arrived.toNat
    + s.main.arrived.toNat
  released : s.arrived ≠ count →
    readersAt ReaderPc.past s = 0 ∧ s.writer.pc.past = false ∧ s.main.past = false

theorem init_unborn : Unborn init where
  reader := fun _ _ => rfl
  writer := fun _ => rfl

theorem init_sound (rounds : ℕ) : Sound rounds init where
  readers := rfl
  writer := rfl
  num := rfl
  running := nofun
  finished := nofun
  arrived := rfl
  released := fun _ => ⟨rfl, rfl, rfl⟩

section

variable {rounds : ℕ} {s u : Threads}

/-- A step of a reader, whatever it does to the lock and at the barrier. -/
theorem Sound.reader_step (h : Sound rounds s) (k : Fin 2) (t : ReaderThread) (l : RwLock) (n : ℕ)
    (hreaders : l.readers + (s.reader k).pc.holds.toNat = s.numlock.readers + t.pc.holds.toNat)
    (hwriter : l.writer = s.numlock.writer)
    (harrived : n + (s.reader k).pc.arrived.toNat = s.arrived + t.pc.arrived.toNat)
    (hreleased : n ≠ count → t.pc.past = false ∧ s.arrived ≠ count) :
    Sound rounds { s.setReader k t with numlock := l, arrived := n } where
  readers := by
    have := readersAt_setReader ReaderPc.holds s k t
    have := h.readers
    show l.readers = readersAt ReaderPc.holds (s.setReader k t)
    omega
  writer := hwriter.trans h.writer
  num := h.num
  running := h.running
  finished := h.finished
  arrived := by
    have := readersAt_setReader ReaderPc.arrived s k t
    have := h.arrived
    show n = readersAt ReaderPc.arrived (s.setReader k t) + s.writer.pc.arrived.toNat
      + s.main.arrived.toNat
    omega
  released := by
    intro hn
    obtain ⟨hpast, hs⟩ := hreleased hn
    obtain ⟨hreader, hrest⟩ := h.released hs
    have := readersAt_setReader ReaderPc.past s k t
    rw [hpast, Bool.toNat_false] at this
    refine ⟨?_, hrest⟩
    show readersAt ReaderPc.past (s.setReader k t) = 0
    omega

/-- A step of the writer. -/
theorem Sound.writer_step (h : Sound rounds s) (t : WriterThread) (l : RwLock) (num n : ℕ)
    (hreaders : l.readers = s.numlock.readers) (hwriter : l.writer = t.pc.holds)
    (hnum : num = t.i + t.pc.counted.toNat) (hrunning : t.pc.running = true → t.i < rounds)
    (hfinished : t.pc.finished = true → t.i = rounds)
    (harrived : n + s.writer.pc.arrived.toNat = s.arrived + t.pc.arrived.toNat)
    (hreleased : n ≠ count → t.pc.past = false ∧ s.arrived ≠ count) :
    Sound rounds { s with writer := t, numlock := l, sharedNum := num, arrived := n } where
  readers := hreaders.trans h.readers
  writer := hwriter
  num := hnum
  running := hrunning
  finished := hfinished
  arrived := by
    have := h.arrived
    show n = readersAt ReaderPc.arrived s + t.pc.arrived.toNat + s.main.arrived.toNat
    omega
  released := by
    intro hn
    obtain ⟨hpast, hs⟩ := hreleased hn
    obtain ⟨hreader, -, hmain⟩ := h.released hs
    exact ⟨hreader, hpast, hmain⟩

/-- A step of `main`. -/
theorem Sound.main_step (h : Sound rounds s) (m : MainPc) (n : ℕ)
    (harrived : n + s.main.arrived.toNat = s.arrived + m.arrived.toNat)
    (hreleased : n ≠ count → m.past = false ∧ s.arrived ≠ count) :
    Sound rounds { s with main := m, arrived := n } where
  readers := h.readers
  writer := h.writer
  num := h.num
  running := h.running
  finished := h.finished
  arrived := by
    have := h.arrived
    show n = readersAt ReaderPc.arrived s + s.writer.pc.arrived.toNat + m.arrived.toNat
    omega
  released := by
    intro hn
    obtain ⟨hpast, hs⟩ := hreleased hn
    obtain ⟨hreader, hwriter, -⟩ := h.released hs
    exact ⟨hreader, hwriter, hpast⟩

/-- When all have come to the barrier, everyone is there. -/
theorem Sound.all_arrived (h : Sound rounds s) (hn : s.arrived = count) :
    (∀ k, (s.reader k).pc.arrived = true) ∧ s.writer.pc.arrived = true ∧
      s.main.arrived = true := by
  have hsum := h.arrived
  rw [hn] at hsum
  unfold count readersAt at hsum
  have h0 := Bool.toNat_le (s.reader 0).pc.arrived
  have h1 := Bool.toNat_le (s.reader 1).pc.arrived
  have hw := Bool.toNat_le s.writer.pc.arrived
  have hm := Bool.toNat_le s.main.arrived
  refine ⟨?_, Bool.toNat_eq_one.mp (by omega), Bool.toNat_eq_one.mp (by omega)⟩
  intro k
  fin_cases k
  · exact Bool.toNat_eq_one.mp (by show (s.reader 0).pc.arrived.toNat = 1; omega)
  · exact Bool.toNat_eq_one.mp (by show (s.reader 1).pc.arrived.toNat = 1; omega)

/-! ### The steps keep the invariant -/

/-- A thread that is somewhere has been created. -/
theorem Unborn.created (h : Unborn s) (k : Fin 2) (hk : (s.reader k).pc ≠ .notCreated) :
    k < s.main.created := by
  by_contra hle
  exact hk (h.reader k (by omega))

/-- `main` has created the thread that was next. -/
theorem createThread_ok {r : ℤ}
    (hat : s.main = .createFirst ∨ s.main = .createSecond ∨ s.main = .createWriter)
    (hok : createThread rounds s r = .ok u) :
    (s.main = .createFirst ∧
        u = { s.setReader 0 (readerLoop rounds 0) with main := .createSecond }) ∨
      (s.main = .createSecond ∧
        u = { s.setReader 1 (readerLoop rounds 0) with main := .createWriter }) ∨
      (s.main = .createWriter ∧
        u = { s with writer := writerLoop rounds 0, main := .barrier }) := by
  unfold createThread at hok
  split at hok
  · cases hok
  · rcases hat with hm | hm | hm
    · rw [hm] at hok
      exact .inl ⟨hm, (Except.ok.inj hok).symm⟩
    · rw [hm] at hok
      exact .inr (.inl ⟨hm, (Except.ok.inj hok).symm⟩)
    · rw [hm] at hok
      exact .inr (.inr ⟨hm, (Except.ok.inj hok).symm⟩)

theorem destroyLock_ok (hok : destroyLock s = .ok u) : u = { s with main := .returned } := by
  unfold destroyLock at hok
  split at hok
  · exact (Except.ok.inj hok).symm
  · cases hok

/-- At the head of its loop a reader is before its next section, or before the barrier. -/
theorem readerLoop_pc (rounds i : ℕ) :
    (readerLoop rounds i).pc.holds = false ∧ (readerLoop rounds i).pc.arrived = false ∧
      (readerLoop rounds i).pc.past = false := by
  unfold readerLoop
  split
  · exact ⟨rfl, rfl, rfl⟩
  · exact ⟨rfl, rfl, rfl⟩

/-- A reader comes to the head of its loop, and has given back the lock if it held it. -/
theorem Sound.reader_loop (h : Sound rounds s) {k : Fin 2}
    (harrived : (s.reader k).pc.arrived = false) (i : ℕ) {l : RwLock}
    (hreaders : l.readers + (s.reader k).pc.holds.toNat = s.numlock.readers)
    (hwriter : l.writer = s.numlock.writer) :
    Sound rounds { s.setReader k (readerLoop rounds i) with numlock := l } := by
  obtain ⟨hholds, hat, hpast⟩ := readerLoop_pc rounds i
  refine h.reader_step k _ l s.arrived ?_ hwriter ?_ ?_
  · rw [hholds, hreaders]
    rfl
  · rw [hat, harrived]
  · exact fun hn => ⟨hpast, hn⟩

/-- The writer comes to the head of its loop with `i` sections behind it. -/
theorem Sound.writer_loop (h : Sound rounds s) (harrived : s.writer.pc.arrived = false) {i : ℕ}
    (hle : i ≤ rounds) (hnum : s.sharedNum = i) {l : RwLock}
    (hreaders : l.readers = s.numlock.readers) (hwriter : l.writer = false) :
    Sound rounds { s with writer := writerLoop rounds i, numlock := l } := by
  unfold writerLoop
  split
  · -- there is another round
    rename_i hmore
    refine h.writer_step ⟨.lock, i⟩ l s.sharedNum s.arrived hreaders hwriter hnum (fun _ => hmore)
      nofun ?_ fun hn => ⟨rfl, hn⟩
    rw [harrived]
    rfl
  · rename_i hlast
    have hrounds : i = rounds := by omega
    refine h.writer_step ⟨.barrier, i⟩ l s.sharedNum s.arrived hreaders hwriter hnum nofun
      (fun _ => hrounds) ?_ fun hn => ⟨rfl, hn⟩
    rw [harrived]
    rfl

theorem Sound.rdlock {k : Fin 2} (h : Sound rounds s) (hpc : (s.reader k).pc = .lock)
    (hok : rdlock s k = .ok u) : Sound rounds u := by
  obtain ⟨l, hl, hok⟩ := bind_ok_iff.mp hok
  cases hok
  obtain ⟨hfree, hw, hr⟩ := RwLock.rdlock_some (deref_ok_iff.mp hl)
  refine h.reader_step k ⟨.print, (s.reader k).i⟩ l s.arrived ?_ (hw.trans hfree.symm) ?_ ?_
  · rw [hpc, hr]
    rfl
  · rw [hpc]
    rfl
  · exact fun hn => ⟨rfl, hn⟩

theorem Sound.rdunlock {k : Fin 2} (h : Sound rounds s) (hpc : (s.reader k).pc = .unlock)
    (hok : rdunlock rounds s k = .ok u) : Sound rounds u := by
  obtain ⟨l, hl, hok⟩ := bind_ok_iff.mp hok
  cases hok
  obtain ⟨hw, hr⟩ := RwLock.rdunlock_some (deref_ok_iff.mp hl)
  refine h.reader_loop (by rw [hpc]; rfl) _ ?_ hw
  rw [hpc, hr]
  rfl

theorem Sound.wrlock (h : Sound rounds s) (hpc : s.writer.pc = .lock)
    (hok : wrlock s = .ok u) : Sound rounds u := by
  obtain ⟨l, hl, hok⟩ := bind_ok_iff.mp hok
  cases hok
  obtain ⟨-, hnone, hw, hr⟩ := RwLock.wrlock_some (deref_ok_iff.mp hl)
  refine h.writer_step ⟨.increment, s.writer.i⟩ l s.sharedNum s.arrived (hr.trans hnone.symm) hw
    ?_ ?_ nofun ?_ ?_
  · have hnum := h.num
    rw [hpc] at hnum
    exact hnum
  · exact fun _ => h.running (by rw [hpc]; rfl)
  · rw [hpc]
    rfl
  · exact fun hn => ⟨rfl, hn⟩

theorem Sound.wrunlock (h : Sound rounds s) (hpc : s.writer.pc = .unlock)
    (hok : wrunlock rounds s = .ok u) : Sound rounds u := by
  obtain ⟨l, hl, hok⟩ := bind_ok_iff.mp hok
  cases hok
  obtain ⟨-, hnone, hw, hr⟩ := RwLock.wrunlock_some (deref_ok_iff.mp hl)
  have hlt : s.writer.i < rounds := h.running (by rw [hpc]; rfl)
  have hnum : s.sharedNum = s.writer.i + 1 := by
    have hnum := h.num
    rw [hpc] at hnum
    exact hnum
  exact h.writer_loop (by rw [hpc]; rfl) hlt hnum (hr.trans hnone.symm) hw

theorem Sound.arrive {p : Party} (h : Sound rounds s) (hat : AtBarrier s p) :
    Sound rounds (arrive s p) := by
  have hcount : s.arrived ≠ count := by
    intro hn
    obtain ⟨hr, hw, hm⟩ := h.all_arrived hn
    cases p with
    | reader k =>
      have := hr k
      rw [show (s.reader k).pc = .barrier from hat] at this
      cases this
    | writer =>
      rw [show s.writer.pc = .barrier from hat] at hw
      cases hw
    | main =>
      rw [show s.main = .barrier from hat] at hm
      cases hm
  cases p with
  | reader k =>
    have hpc : (s.reader k).pc = .barrier := hat
    refine h.reader_step k ⟨.waiting, (s.reader k).i⟩ s.numlock (s.arrived + 1) ?_ rfl ?_ ?_
    · rw [hpc]
      rfl
    · rw [hpc]
      rfl
    · exact fun _ => ⟨rfl, hcount⟩
  | writer =>
    have hpc : s.writer.pc = .barrier := hat
    refine h.writer_step ⟨.waiting, s.writer.i⟩ s.numlock s.sharedNum (s.arrived + 1) rfl ?_ ?_
      nofun ?_ ?_ ?_
    · rw [h.writer, hpc]
      rfl
    · rw [h.num, hpc]
      rfl
    · exact fun _ => h.finished (by rw [hpc]; rfl)
    · rw [hpc]
      rfl
    · exact fun _ => ⟨rfl, hcount⟩
  | main =>
    have hpc : s.main = .barrier := hat
    refine h.main_step .waiting (s.arrived + 1) ?_ ?_
    · rw [hpc]
      rfl
    · exact fun _ => ⟨rfl, hcount⟩

theorem Sound.pass {p : Party} (h : Sound rounds s) (hwaits : Waits s p)
    (hcount : s.arrived = count) : Sound rounds (pass s p) := by
  cases p with
  | reader k =>
    have hpc : (s.reader k).pc = .waiting := hwaits
    refine h.reader_step k ⟨.ended, (s.reader k).i⟩ s.numlock s.arrived ?_ rfl ?_ ?_
    · rw [hpc]
      rfl
    · rw [hpc]
      rfl
    · exact fun hn => absurd hcount hn
  | writer =>
    have hpc : s.writer.pc = .waiting := hwaits
    refine h.writer_step ⟨.ended, s.writer.i⟩ s.numlock s.sharedNum s.arrived rfl ?_ ?_ nofun
      ?_ ?_ ?_
    · rw [h.writer, hpc]
      rfl
    · rw [h.num, hpc]
      rfl
    · exact fun _ => h.finished (by rw [hpc]; rfl)
    · rw [hpc]
      rfl
    · exact fun hn => absurd hcount hn
  | main =>
    have hpc : s.main = .waiting := hwaits
    refine h.main_step .destroyBarrier s.arrived ?_ ?_
    · rw [hpc]
      rfl
    · exact fun hn => absurd hcount hn

/-- `main` creates a reader. -/
theorem Sound.create_reader (h : Sound rounds s) {k : Fin 2} (hpc : (s.reader k).pc = .notCreated)
    (m : MainPc) (harrived : m.arrived = s.main.arrived) (hpast : m.past = false) :
    Sound rounds { s.setReader k (readerLoop rounds 0) with main := m } := by
  have hset := h.reader_loop (k := k) (by rw [hpc]; rfl) 0 (l := s.numlock) (by rw [hpc]; rfl) rfl
  exact hset.main_step m s.arrived (by rw [harrived]; rfl) fun hn => ⟨hpast, hn⟩

/-- `main` creates the writer. -/
theorem Sound.create_writer (h : Sound rounds s) (hw : s.writer = ⟨.notCreated, 0⟩)
    (hm : s.main.arrived = false) :
    Sound rounds { s with writer := writerLoop rounds 0, main := .barrier } := by
  have hnum := h.num
  have hwriter := h.writer
  rw [hw] at hnum hwriter
  have hset := h.writer_loop (by rw [hw]; rfl) (Nat.zero_le rounds) hnum (l := s.numlock) rfl
    hwriter
  exact hset.main_step .barrier s.arrived (by rw [show s.main.arrived = false from hm]; rfl)
    fun hn => ⟨rfl, hn⟩

theorem Sound.create {r : ℤ} (h : Sound rounds s) (hb : Unborn s)
    (hat : s.main = .createFirst ∨ s.main = .createSecond ∨ s.main = .createWriter)
    (hok : createThread rounds s r = .ok u) : Sound rounds u := by
  rcases createThread_ok hat hok with ⟨hm, rfl⟩ | ⟨hm, rfl⟩ | ⟨hm, rfl⟩
  · have hpc := hb.reader 0 (by rw [hm]; exact le_rfl)
    exact h.create_reader hpc .createSecond (by rw [hm]; rfl) rfl
  · have hpc := hb.reader 1 (by rw [hm]; exact le_rfl)
    exact h.create_reader hpc .createWriter (by rw [hm]; rfl) rfl
  · exact h.create_writer (hb.writer (by rw [hm]; exact le_rfl)) (by rw [hm]; rfl)

theorem Sound.destroyLock (h : Sound rounds s) (hat : s.main = .destroyLock)
    (hok : destroyLock s = .ok u) : Sound rounds u := by
  obtain rfl := destroyLock_ok hok
  refine h.main_step .returned s.arrived (by rw [hat]; rfl) fun hn => ?_
  have hpast := (h.released hn).2.2
  rw [hat] at hpast
  cases hpast

/-- **One step.** -/
theorem Sound.step {e : LockEvent} (h : Sound rounds s) (hb : Unborn s)
    (he : (locks rounds).enabled s e) (hok : (locks rounds).dispatch s e = .ok u) :
    Sound rounds u := by
  cases e with
  | rdlock k => exact h.rdlock he.1 hok
  | wrlock => exact h.wrlock he.1 hok
  | other e =>
    cases e with
    | create r => exact h.create hb he hok
    | print k num =>
      cases hok
      have hpc : (s.reader k).pc = .print := he.1
      refine h.reader_step k ⟨.unlock, (s.reader k).i⟩ s.numlock s.arrived ?_ rfl ?_ ?_
      · rw [hpc]
        rfl
      · rw [hpc]
        rfl
      · exact fun hn => ⟨rfl, hn⟩
    | rdunlock k => exact h.rdunlock he hok
    | increment =>
      cases hok
      have hpc : s.writer.pc = .increment := he
      refine h.writer_step ⟨.print, s.writer.i⟩ s.numlock (s.sharedNum + 1) s.arrived rfl ?_ ?_ ?_
        nofun ?_ ?_
      · rw [h.writer, hpc]
        rfl
      · rw [h.num, hpc]
        rfl
      · exact fun _ => h.running (by rw [hpc]; rfl)
      · rw [hpc]
        rfl
      · exact fun hn => ⟨rfl, hn⟩
    | printNum num =>
      cases hok
      have hpc : s.writer.pc = .print := he.1
      refine h.writer_step ⟨.unlock, s.writer.i⟩ s.numlock s.sharedNum s.arrived rfl ?_ ?_ ?_ nofun
        ?_ ?_
      · rw [h.writer, hpc]
        rfl
      · rw [h.num, hpc]
        rfl
      · exact fun _ => h.running (by rw [hpc]; rfl)
      · rw [hpc]
        rfl
      · exact fun hn => ⟨rfl, hn⟩
    | wrunlock => exact h.wrunlock he hok
    | arrive p =>
      cases hok
      exact h.arrive he
    | pass p =>
      cases hok
      exact h.pass he.1 he.2
    | destroyBarrier =>
      cases hok
      have hpc : s.main = .destroyBarrier := he
      refine h.main_step .destroyLock s.arrived (by rw [hpc]; rfl) fun hn => ?_
      have hpast := (h.released hn).2.2
      rw [hpc] at hpast
      cases hpast
    | destroyLock => exact h.destroyLock he hok

/-- What is not created stays so in a step that touches only threads that are. -/
theorem Unborn.keep (h : Unborn s) (hmain : u.main = s.main)
    (hreader : ∀ k, (s.reader k).pc = .notCreated → (u.reader k).pc = .notCreated)
    (hwriter : s.writer.pc = .notCreated → u.writer = s.writer) : Unborn u where
  reader k hk := hreader k (h.reader k (hmain ▸ hk))
  writer hw := by
    have hs := h.writer (hmain ▸ hw)
    rw [hwriter (by rw [hs]), hs]

theorem Unborn.of_created (h : u.main.created = 3) : Unborn u where
  reader k hk := by omega
  writer hw := by omega

/-- A reader that is somewhere moves on. -/
theorem Unborn.keep_reader (h : Unborn s) {k : Fin 2} (hk : (s.reader k).pc ≠ .notCreated)
    (t : ReaderThread) (l : RwLock) (n : ℕ) :
    Unborn { s.setReader k t with numlock := l, arrived := n } := by
  refine h.keep rfl (fun j hj => ?_) fun _ => rfl
  have hne : j ≠ k := by
    intro heq
    exact hk (heq ▸ hj)
  show (Function.update s.reader k t j).pc = .notCreated
  rw [Function.update_of_ne hne]
  exact hj

/-- The writer moves on, once it is there. -/
theorem Unborn.keep_writer (h : Unborn s) (hw : s.writer.pc ≠ .notCreated) (t : WriterThread)
    (l : RwLock) (num n : ℕ) :
    Unborn { s with writer := t, numlock := l, sharedNum := num, arrived := n } :=
  h.keep rfl (fun _ hk => hk) fun hpc => absurd hpc hw

theorem Unborn.create {r : ℤ} (h : Unborn s)
    (hat : s.main = .createFirst ∨ s.main = .createSecond ∨ s.main = .createWriter)
    (hok : createThread rounds s r = .ok u) : Unborn u := by
  rcases createThread_ok hat hok with ⟨hm, rfl⟩ | ⟨hm, rfl⟩ | ⟨hm, rfl⟩
  · refine ⟨fun k hk => ?_, fun _ => h.writer (by rw [hm]; exact Nat.zero_le 2)⟩
    have hle : 1 ≤ (k : ℕ) := hk
    obtain rfl : k = 1 := by omega
    exact h.reader 1 (by rw [hm]; exact Nat.zero_le _)
  · refine ⟨fun k hk => ?_, fun _ => h.writer (by rw [hm]; exact Nat.le_succ 1)⟩
    have hle : 2 ≤ (k : ℕ) := hk
    omega
  · exact .of_created rfl

theorem Unborn.step {e : LockEvent} (h : Unborn s) (he : (locks rounds).enabled s e)
    (hok : (locks rounds).dispatch s e = .ok u) : Unborn u := by
  cases e with
  | rdlock k =>
    obtain ⟨l, -, hok⟩ := bind_ok_iff.mp hok
    cases hok
    exact h.keep_reader (by rw [he.1]; nofun) _ l s.arrived
  | wrlock =>
    obtain ⟨l, -, hok⟩ := bind_ok_iff.mp hok
    cases hok
    exact h.keep_writer (by rw [he.1]; nofun) _ l s.sharedNum s.arrived
  | other e =>
    cases e with
    | create r => exact h.create he hok
    | print k num =>
      cases hok
      exact h.keep_reader (by rw [he.1]; nofun) _ s.numlock s.arrived
    | rdunlock k =>
      obtain ⟨l, -, hok⟩ := bind_ok_iff.mp hok
      cases hok
      exact h.keep_reader (by rw [show (s.reader k).pc = .unlock from he]; nofun) _ l s.arrived
    | increment =>
      cases hok
      exact h.keep_writer (by rw [show s.writer.pc = .increment from he]; nofun) _ s.numlock _
        s.arrived
    | printNum num =>
      cases hok
      exact h.keep_writer (by rw [he.1]; nofun) _ s.numlock s.sharedNum s.arrived
    | wrunlock =>
      obtain ⟨l, -, hok⟩ := bind_ok_iff.mp hok
      cases hok
      exact h.keep_writer (by rw [show s.writer.pc = .unlock from he]; nofun) _ l s.sharedNum
        s.arrived
    | arrive p =>
      cases hok
      cases p with
      | reader k =>
        exact h.keep_reader (by rw [show (s.reader k).pc = .barrier from he]; nofun) _ s.numlock _
      | writer =>
        exact h.keep_writer (by rw [show s.writer.pc = .barrier from he]; nofun) _ s.numlock
          s.sharedNum _
      | main => exact .of_created rfl
    | pass p =>
      cases hok
      cases p with
      | reader k =>
        exact h.keep_reader (by rw [show (s.reader k).pc = .waiting from he.1]; nofun) _ s.numlock _
      | writer =>
        exact h.keep_writer (by rw [show s.writer.pc = .waiting from he.1]; nofun) _ s.numlock
          s.sharedNum s.arrived
      | main => exact .of_created rfl
    | destroyBarrier =>
      cases hok
      exact .of_created rfl
    | destroyLock =>
      obtain rfl := destroyLock_ok hok
      exact .of_created rfl

end

/-! ### What the threads print -/

/-- The steps of a trace that both programs have. -/
def sharedOf : LockEvent → Option Shared
  | .other e => some e
  | _ => none

def sharedOfTry : TryEvent → Option Shared
  | .other e => some e
  | _ => none

/-- The failed attempts are not among them. -/
theorem filterMap_erase (es : List TryEvent) :
    (es.filterMap erase).filterMap sharedOf = es.filterMap sharedOfTry := by
  rw [List.filterMap_filterMap]
  refine congrArg (fun f => es.filterMap f) ?_
  funext e
  cases e with
  | tryrdlock k r =>
    simp only [erase]
    split <;> rfl
  | trywrlock r =>
    simp only [erase]
    split <;> rfl
  | other e => rfl

/-- The sections the writer has completed in a trace. -/
def completed (tr : List Shared) : ℕ := tr.count .wrunlock

/-- What a reader prints is the number of sections the writer has completed by then. -/
def PrintsCompleted (tr : List Shared) : Prop :=
  ∀ n k num, tr[n]? = some (.print k num) → num = completed (tr.take n)

/-- What a reader prints does not go down. -/
def PrintsAscend (tr : List Shared) : Prop :=
  ∀ (m n : ℕ) (k : Fin 2) (num num' : ℕ), m ≤ n → tr[m]? = some (Shared.print k num) →
    tr[n]? = some (Shared.print k num') → num ≤ num'

theorem PrintsCompleted.ascend {tr : List Shared} (h : PrintsCompleted tr) : PrintsAscend tr := by
  intro m n k num num' hle hm hn
  rw [h m k num hm, h n k num' hn]
  have hsub : (tr.take m).Sublist (tr.take n) := (List.take_prefix_take_left hle).sublist
  exact hsub.count_le .wrunlock

theorem PrintsCompleted.snoc {tr : List Shared} {e : Shared} (h : PrintsCompleted tr)
    (he : ∀ k num, e = .print k num → num = completed tr) : PrintsCompleted (tr ++ [e]) := by
  intro n k num hn
  rcases Nat.lt_trichotomy n tr.length with hlt | heq | hgt
  · rw [List.getElem?_append_left hlt] at hn
    rw [List.take_append_of_le_length (by omega)]
    exact h n k num hn
  · subst heq
    rw [List.getElem?_concat_length] at hn
    rw [List.take_left' rfl]
    exact he k num (Option.some.inj hn)
  · rw [List.getElem?_eq_none (by rw [List.length_append, List.length_singleton]; omega)] at hn
    cases hn

/-- What a step does to the round of the writer and to the shared number, and that `main` does not
come back from beyond the barrier. -/
structure Effects (s u : Threads) (e : LockEvent) : Prop where
  rounds : u.writer.i = s.writer.i + completed ([e].filterMap sharedOf)
  num : u.sharedNum = s.sharedNum ∨ e = .other .increment
  past : s.main.past = true → u.main.past = true

theorem effects_of_step {rounds : ℕ} {s u : Threads} {e : LockEvent} (hb : Unborn s)
    (he : (locks rounds).enabled s e) (hok : (locks rounds).dispatch s e = .ok u) :
    Effects s u e := by
  cases e with
  | rdlock k =>
    obtain ⟨l, -, hok⟩ := bind_ok_iff.mp hok
    cases hok
    exact ⟨rfl, .inl rfl, id⟩
  | wrlock =>
    obtain ⟨l, -, hok⟩ := bind_ok_iff.mp hok
    cases hok
    exact ⟨rfl, .inl rfl, id⟩
  | other e =>
    cases e with
    | create r =>
      rcases createThread_ok he hok with ⟨hm, rfl⟩ | ⟨hm, rfl⟩ | ⟨hm, rfl⟩
      · exact ⟨rfl, .inl rfl, by rw [hm]; nofun⟩
      · exact ⟨rfl, .inl rfl, by rw [hm]; nofun⟩
      · refine ⟨?_, .inl rfl, by rw [hm]; nofun⟩
        rw [hb.writer (by rw [hm]; exact le_rfl)]
        rfl
    | print k num =>
      cases hok
      exact ⟨rfl, .inl rfl, id⟩
    | rdunlock k =>
      obtain ⟨l, -, hok⟩ := bind_ok_iff.mp hok
      cases hok
      exact ⟨rfl, .inl rfl, id⟩
    | increment =>
      cases hok
      exact ⟨rfl, .inr rfl, id⟩
    | printNum num =>
      cases hok
      exact ⟨rfl, .inl rfl, id⟩
    | wrunlock =>
      obtain ⟨l, -, hok⟩ := bind_ok_iff.mp hok
      cases hok
      exact ⟨rfl, .inl rfl, id⟩
    | arrive p =>
      cases hok
      cases p with
      | reader k => exact ⟨rfl, .inl rfl, id⟩
      | writer => exact ⟨rfl, .inl rfl, id⟩
      | main =>
        refine ⟨rfl, .inl rfl, ?_⟩
        rw [show s.main = .barrier from he]
        nofun
    | pass p =>
      cases hok
      cases p with
      | reader k => exact ⟨rfl, .inl rfl, id⟩
      | writer => exact ⟨rfl, .inl rfl, id⟩
      | main => exact ⟨rfl, .inl rfl, fun _ => rfl⟩
    | destroyBarrier =>
      cases hok
      exact ⟨rfl, .inl rfl, fun _ => rfl⟩
    | destroyLock =>
      obtain rfl := destroyLock_ok hok
      exact ⟨rfl, .inl rfl, fun _ => rfl⟩

/-- A reader that holds the lock is counted. -/
theorem Sound.readers_pos {rounds : ℕ} {s : Threads} (h : Sound rounds s) {k : Fin 2}
    (hk : (s.reader k).pc.holds = true) : 0 < s.numlock.readers := by
  have hr := h.readers
  unfold readersAt at hr
  have hone : (s.reader k).pc.holds.toNat = 1 := Bool.toNat_eq_one.mpr hk
  fin_cases k
  · have h0 : (s.reader 0).pc.holds.toNat = 1 := hone
    omega
  · have h1 : (s.reader 1).pc.holds.toNat = 1 := hone
    omega

/-- A reader inside its section finds the number of sections completed so far. -/
theorem Sound.reader_num {rounds : ℕ} {s : Threads} (h : Sound rounds s) {k : Fin 2}
    (hk : (s.reader k).pc.holds = true) : s.sharedNum = s.writer.i := by
  have hreaders := h.readers_pos hk
  have hwriter : s.writer.pc.holds = false := by
    rw [← h.writer, Bool.eq_false_iff]
    intro hw
    have := s.numlock.exclusive hw
    omega
  have hcounted : s.writer.pc.counted = false := by
    cases hpc : s.writer.pc <;> first | rfl | (rw [hpc] at hwriter; cases hwriter)
  rw [h.num, hcounted]
  rfl

/-- What holds in every run of `10-locks`. -/
theorem locks_run {rounds : ℕ} {es : List LockEvent} {s : Threads}
    (h : (locks rounds).Run init es s) :
    (Unborn s ∧ Sound rounds s) ∧ s.writer.i = completed (es.filterMap sharedOf) ∧
      PrintsCompleted (es.filterMap sharedOf) := by
  refine h.history (P := fun es s => (Unborn s ∧ Sound rounds s) ∧
    s.writer.i = completed (es.filterMap sharedOf) ∧ PrintsCompleted (es.filterMap sharedOf))
    ⟨⟨init_unborn, init_sound rounds⟩, rfl, fun n k num hn => by simp at hn⟩ ?_
  intro es s e u ⟨⟨hb, hs⟩, hi, hprints⟩ he hok
  refine ⟨⟨hb.step he hok, hs.step hb he hok⟩, ?_, ?_⟩
  · rw [(effects_of_step hb he hok).rounds, List.filterMap_append, hi, completed, completed,
      completed, List.count_append]
  · rw [List.filterMap_append]
    cases e with
    | rdlock k =>
      rw [show [LockEvent.rdlock k].filterMap sharedOf = [] from rfl, List.append_nil]
      exact hprints
    | wrlock =>
      rw [show [LockEvent.wrlock].filterMap sharedOf = [] from rfl, List.append_nil]
      exact hprints
    | other e =>
      refine hprints.snoc fun k num heq => ?_
      subst heq
      have hpc : (s.reader k).pc = .print := he.1
      have hnum : num = s.sharedNum := he.2
      rw [hnum, hs.reader_num (by rw [hpc]; rfl), hi]

/-! ### The discipline -/

/-- No thread holds the lock or is about to ask for it, and the number is final. -/
structure Settled (rounds : ℕ) (s : Threads) : Prop where
  num : s.sharedNum = rounds
  free : s.numlock = .free
  readers : ∀ k, (s.reader k).pc.holds = false ∧ (s.reader k).pc ≠ .lock
  writer : s.writer.pc.holds = false ∧ s.writer.pc ≠ .lock

theorem ReaderPc.of_arrived {pc : ReaderPc} (h : pc.arrived = true) :
    pc.holds = false ∧ pc ≠ .lock := by
  cases pc <;> first | exact ⟨rfl, by decide⟩ | cases h

theorem WriterPc.of_arrived {pc : WriterPc} (h : pc.arrived = true) :
    pc.holds = false ∧ pc ≠ .lock ∧ pc.counted = false ∧ pc.finished = true := by
  cases pc <;> first | exact ⟨rfl, by decide, rfl, rfl⟩ | cases h

/-- Once `main` is past the barrier, all is over. -/
theorem Sound.settled {rounds : ℕ} {s : Threads} (h : Sound rounds s) (hmain : s.main.past = true) :
    Settled rounds s := by
  have hcount : s.arrived = count := by
    by_contra hn
    have hpast := (h.released hn).2.2
    rw [hmain] at hpast
    cases hpast
  obtain ⟨hr, hw, -⟩ := h.all_arrived hcount
  have hreaders : ∀ k, (s.reader k).pc.holds = false ∧ (s.reader k).pc ≠ .lock :=
    fun k => ReaderPc.of_arrived (hr k)
  obtain ⟨hholds, hlock, hcounted, hfinished⟩ := WriterPc.of_arrived hw
  refine ⟨?_, ?_, hreaders, hholds, hlock⟩
  · rw [h.num, hcounted, h.finished hfinished]
    rfl
  · have hnone : s.numlock.readers = 0 := by
      rw [h.readers, readersAt, (hreaders 0).1, (hreaders 1).1]
      rfl
    have hnowriter : s.numlock.writer = false := h.writer.trans hholds
    cases hl : s.numlock with
    | mk readers writer exclusive =>
      rw [hl] at hnone hnowriter
      subst hnone hnowriter
      rfl

/-- The shared number changes only while no reader holds the lock. -/
theorem Sound.quiet {rounds : ℕ} {s u : Threads} {e : LockEvent} (h : Sound rounds s)
    (hb : Unborn s) (he : (locks rounds).enabled s e)
    (hok : (locks rounds).dispatch s e = .ok u) (hne : u.sharedNum ≠ s.sharedNum) :
    s.numlock.readers = 0 ∧ ∀ k, (s.reader k).pc.holds = false := by
  rcases (effects_of_step hb he hok).num with hsame | rfl
  · exact absurd hsame hne
  have hpc : s.writer.pc = .increment := he
  have hzero : s.numlock.readers = 0 := s.numlock.exclusive (by rw [h.writer, hpc]; rfl)
  refine ⟨hzero, fun k => ?_⟩
  have hr := h.readers
  rw [hzero, readersAt] at hr
  have hk : (s.reader k).pc.holds.toNat = 0 := by
    fin_cases k
    · show (s.reader 0).pc.holds.toNat = 0
      omega
    · show (s.reader 1).pc.holds.toNat = 0
      omega
  exact Bool.toNat_eq_zero.mp hk

/-- No step of a sound state is undefined: nobody gives back a lock it does not hold, and the lock
is not destroyed while it is held. -/
theorem Sound.defined {rounds : ℕ} {s : Threads} {e : LockEvent} {x : Stop} (h : Sound rounds s)
    (he : (locks rounds).enabled s e) (hx : (locks rounds).dispatch s e = .error x) :
    x = errorMacro := by
  cases e with
  | rdlock k =>
    obtain ⟨l, hl⟩ : ∃ l, s.numlock.rdlock = some l := ⟨_, dif_pos he.2⟩
    have hx' : (deref s.numlock.rdlock "uv_rwlock_rdlock" >>= fun l =>
      .ok { s.setReaderPc k .print with numlock := l }) = .error x := hx
    rw [hl] at hx'
    cases hx'
  | wrlock =>
    obtain ⟨l, hl⟩ : ∃ l, s.numlock.wrlock = some l := ⟨_, if_pos he.2⟩
    have hx' : (deref s.numlock.wrlock "uv_rwlock_wrlock" >>= fun l =>
      .ok { s.setWriterPc .increment with numlock := l }) = .error x := hx
    rw [hl] at hx'
    cases hx'
  | other e =>
    cases e with
    | create r =>
      have hx' : createThread rounds s r = .error x := hx
      unfold createThread at hx'
      split at hx'
      · cases hx'
        rfl
      · split at hx' <;> cases hx'
    | rdunlock k =>
      have hpc : (s.reader k).pc = .unlock := he
      obtain ⟨l, hl⟩ : ∃ l, s.numlock.rdunlock = some l :=
        ⟨_, dif_pos (h.readers_pos (by rw [hpc]; rfl))⟩
      have hx' : (deref s.numlock.rdunlock "uv_rwlock_rdunlock" >>= fun l =>
        .ok { s.setReader k (readerLoop rounds ((s.reader k).i + 1)) with numlock := l })
          = .error x := hx
      rw [hl] at hx'
      cases hx'
    | wrunlock =>
      have hpc : s.writer.pc = .unlock := he
      obtain ⟨l, hl⟩ : ∃ l, s.numlock.wrunlock = some l :=
        ⟨_, if_pos (by rw [h.writer, hpc]; rfl)⟩
      have hx' : (deref s.numlock.wrunlock "uv_rwlock_wrunlock" >>= fun l =>
        .ok { s with writer := writerLoop rounds (s.writer.i + 1), numlock := l })
          = .error x := hx
      rw [hl] at hx'
      cases hx'
    | destroyLock =>
      have hpc : s.main = .destroyLock := he
      have hfree := (h.settled (by rw [hpc]; rfl)).free
      have hx' : Locks.destroyLock s = .error x := hx
      rw [Locks.destroyLock, if_pos hfree] at hx'
      cases hx'
    | print k num => cases hx
    | increment => cases hx
    | printNum num => cases hx
    | arrive p => cases hx
    | pass p => cases hx
    | destroyBarrier => cases hx

/-- **What the lock is for.**  In the state `s` that a run with the events `es` has reached: the
next step changes the number only while no reader holds the lock; what a reader has printed is the
number of sections the writer had completed then, and did not go down; once `main` is past the
barrier the number is final and nobody will hold or ask for the lock again; and no step misuses
the lock. -/
structure Disciplined {ε : Type} (L : EventLoop Threads ε Stop) (shared? : ε → Option Shared)
    (rounds : ℕ) (es : List ε) (s : Threads) : Prop where
  quiet : ∀ e u, L.enabled s e → L.dispatch s e = .ok u → u.sharedNum ≠ s.sharedNum →
    s.numlock.readers = 0 ∧ ∀ k, (s.reader k).pc.holds = false
  prints : PrintsCompleted (es.filterMap shared?)
  ascend : PrintsAscend (es.filterMap shared?)
  settled : s.main.past = true → ∀ fs u, L.Run s fs u → Settled rounds u
  defined : ∀ e x, L.enabled s e → L.dispatch s e = .error x → x = errorMacro

theorem locks_disciplined {rounds : ℕ} {es : List LockEvent} {s : Threads}
    (h : (locks rounds).Run init es s) : Disciplined (locks rounds) sharedOf rounds es s := by
  obtain ⟨⟨hb, hs⟩, -, hprints⟩ := locks_run h
  refine ⟨fun e u he hok hne => hs.quiet hb he hok hne, hprints, hprints.ascend, ?_,
    fun e x he hx => hs.defined he hx⟩
  intro hmain fs u hu
  have hinv := hu.invariant (P := fun u => (Unborn u ∧ Sound rounds u) ∧ u.main.past = true)
    ⟨⟨hb, hs⟩, hmain⟩ fun s e u hs he hok =>
      ⟨⟨hs.1.1.step he hok, hs.1.2.step hs.1.1 he hok⟩,
        (effects_of_step hs.1.1 he hok).past hs.2⟩
  exact hinv.1.2.settled hinv.2

/-- **Lock discipline.**  Every run of `10-locks` and every run of `10-locks-try`, for any number of
rounds, keeps the discipline, and without its failed attempts a run of `10-locks-try` is one of
`10-locks`. -/
theorem lockDiscipline (rounds : ℕ) :
    (∀ es s, (locks rounds).Run init es s → Disciplined (locks rounds) sharedOf rounds es s) ∧
      ∀ es s, (locksTry rounds).Run init es s →
        Disciplined (locksTry rounds) sharedOfTry rounds es s ∧
          (locks rounds).Run init (es.filterMap erase) s := by
  refine ⟨fun es s h => locks_disciplined h, ?_⟩
  intro es s h
  obtain ⟨s', hrun, rfl⟩ := (locksTry_simulates rounds).run rfl h
  have hd := locks_disciplined hrun
  refine ⟨⟨?_, ?_, ?_, ?_, ?_⟩, hrun⟩
  · intro e u he hok hne
    cases hf : erase e with
    | none => exact absurd ((locksTry_simulates rounds).erased rfl he hok hf ▸ rfl) hne
    | some e' =>
      obtain ⟨he', v, hok', rfl⟩ := (locksTry_simulates rounds).matched rfl he hok hf
      exact hd.quiet e' u he' hok' hne
  · rw [← filterMap_erase]
    exact hd.prints
  · rw [← filterMap_erase]
    exact hd.ascend
  · intro hmain fs u hu
    obtain ⟨u', hu', rfl⟩ := (locksTry_simulates rounds).run rfl hu
    exact hd.settled hmain _ u hu'
  · intro e x he hx
    cases e with
    | tryrdlock k r =>
      rcases he.2 with ⟨rfl, hfree⟩ | hr
      · exact hd.defined (.rdlock k) x ⟨he.1, hfree⟩ ((attempt_zero s _).symm.trans hx)
      · have hgo : (locksTry rounds).dispatch s (.tryrdlock k r) = .ok s := attempt_busy hr
        rw [hgo] at hx
        cases hx
    | trywrlock r =>
      rcases he.2 with ⟨rfl, hfree⟩ | hr
      · exact hd.defined .wrlock x ⟨he.1, hfree⟩ ((attempt_zero s _).symm.trans hx)
      · have hgo : (locksTry rounds).dispatch s (.trywrlock r) = .ok s := attempt_busy hr
        rw [hgo] at hx
        cases hx
    | other e => exact hd.defined (.other e) x he hx

/-- One round, in which the first reader finds the writer in its section, and what is left of it
without the failed attempt. -/
theorem lockDiscipline_oneRound :
    (∃ es s, (locksTry 1).Run init es s ∧ .tryrdlock 0 (-EBUSY) ∈ es ∧ s.main = .returned ∧
        Disciplined (locksTry 1) sharedOfTry 1 es s) ∧
      ∃ es s, (locks 1).Run init es s ∧ s.main = .returned ∧
        Disciplined (locks 1) sharedOf 1 es s := by
  obtain ⟨s, hrun, hp⟩ : ∃ s, (locksTry 1).Run init
      ([.other (.create 0), .other (.create 0), .other (.create 0), .trywrlock 0,
        .other .increment, .tryrdlock 0 (-EBUSY), .other (.printNum 1), .other .wrunlock,
        .tryrdlock 0 0, .tryrdlock 1 0, .other (.print 1 1), .other (.print 0 1),
        .other (.rdunlock 0), .other (.rdunlock 1), .other (.arrive .main),
        .other (.arrive .writer), .other (.arrive (.reader 0)), .other (.arrive (.reader 1)),
        .other (.pass .main), .other .destroyBarrier, .other .destroyLock]) s ∧
      decide (s.main = .returned) = true :=
    EventLoop.exists_run_of_plays (by decide +kernel)
  obtain ⟨hlocks, htry⟩ := lockDiscipline 1
  obtain ⟨hd, hrun'⟩ := htry _ s hrun
  have hmain : s.main = .returned := of_decide_eq_true hp
  exact ⟨⟨_, s, hrun, by decide, hmain, hd⟩, ⟨_, s, hrun', hmain, hlocks _ s hrun'⟩⟩

end LibuvDox.Locks
