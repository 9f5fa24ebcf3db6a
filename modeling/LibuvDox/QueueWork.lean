import LibuvDox.Lib.EventLoop
import LibuvDox.Lib.WorkPool
import LibuvDox.Uv
import Mathlib.Tactic.NormNum.NatFib

/-!
# 11-queue-work/main.c and 12-queue-cancel/main.c

Both programs queue the computation of the first 25 Fibonacci numbers and let the thread pool work
on it, while `main` is still queueing and then runs the loop.  The second one cancels what it can
when it gets a SIGINT, one request after another, while the threads go on taking requests.  It
listens with a `uv_signal_t` that is a local of `listen_for_sigint`; what that frame held is taken
to be there still when the signal comes.

* `fib_ok_iff`: the recursion is the Fibonacci sequence as far as the stack and a `long` go.
* `Sound`: the invariant; what was printed about a number says how far its request has come.
* `queueWork_completes`: the first program ends, and has printed everything once and in order.
* `queueCancel_settles`: the second one ends once a SIGINT has come, and each number was either
  computed or cancelled.
-/

namespace LibuvDox.QueueWork

def FIB_UNTIL : ℕ := 25

/-! ### The Fibonacci numbers -/

/-- The addition of two `long`s, which must not overflow. -/
def addLong (x y : ℤ) : Except Stop ℤ :=
  if -2 ^ 63 ≤ x + y ∧ x + y < 2 ^ 63 then .ok (x + y) else .error (.undefined "long overflow")

/-- `fib(n)`, on a stack with room for `frames` calls. -/
def fib : ℕ → ℤ → Except Stop ℤ
  | 0, _ => .error (.undefined "stack overflow")
  | frames + 1, n =>
    if n = 0 ∨ n = 1 then .ok 1
    else do
      let a ← fib frames (n - 1)
      let b ← fib frames (n - 2)
      addLong a b

theorem fib_lt {n : ℕ} (hn : n ≤ 92) : Nat.fib n < 2 ^ 63 := by
  have hbound : Nat.fib 92 < 2 ^ 63 := by norm_num
  exact (Nat.fib_mono hn).trans_lt hbound

theorem addLong_of_lt {m n : ℕ} (h : m + n < 2 ^ 63) : addLong m n = .ok ((m + n : ℕ) : ℤ) := by
  rw [Nat.cast_add]
  exact if_pos (by omega)

/-- The sum is the 93rd number, which is more than a `long` holds. -/
theorem addLong_overflow (r : ℤ) : addLong (Nat.fib 92) (Nat.fib 91) ≠ .ok r := by
  norm_num [addLong]
  exact nofun

/-- A call returns if there is a frame for each call of the longest chain. -/
theorem fib_of_le {frames n : ℕ} (hframes : n ≤ frames) (hpos : 0 < frames) (hn : n ≤ 91) :
    fib frames n = .ok (Nat.fib (n + 1)) := by
  induction frames generalizing n with
  | zero => omega
  | succ frames ih =>
    by_cases hbase : n = 0 ∨ n = 1
    · rcases hbase with rfl | rfl <;> rfl
    · obtain ⟨m, rfl⟩ : ∃ m, n = m + 2 := ⟨n - 2, by omega⟩
      have hne : ¬ (((m + 2 : ℕ) : ℤ) = 0 ∨ ((m + 2 : ℕ) : ℤ) = 1) := by omega
      have hfirst : ((m + 2 : ℕ) : ℤ) - 1 = ((m + 1 : ℕ) : ℤ) := by omega
      have hsecond : ((m + 2 : ℕ) : ℤ) - 2 = (m : ℤ) := by omega
      have hsum : Nat.fib (m + 1 + 1) + Nat.fib (m + 1) = Nat.fib (m + 2 + 1) := by
        rw [Nat.add_comm]
        exact Nat.fib_add_two.symm
      have hlt := fib_lt (show m + 2 + 1 ≤ 92 by omega)
      rw [← hsum] at hlt
      rw [fib, if_neg hne, hfirst, hsecond, ← hsum]
      refine bind_ok_iff.mpr ⟨_, ih (by omega) (by omega) (by omega),
        bind_ok_iff.mpr ⟨_, ih (by omega) (by omega) (by omega), ?_⟩⟩
      exact addLong_of_lt hlt

/-- **The recursion.**  What it returns is the `n`th number of the sequence 1, 1, 2, 3, 5, …; it
does so for `n` from 0 to 91 if the stack has room for the `n` calls of the longest chain, and for
no other `n` however large the stack is. -/
theorem fib_ok_iff (frames : ℕ) (n r : ℤ) :
    fib frames n = .ok r ↔
      0 ≤ n ∧ n ≤ 91 ∧ n ≤ frames ∧ 0 < frames ∧ r = Nat.fib (n.toNat + 1) := by
  constructor
  · intro hok
    induction frames generalizing n r with
    | zero => cases hok
    | succ frames ih =>
      have hwhole := hok
      by_cases hbase : n = 0 ∨ n = 1
      · rw [fib, if_pos hbase] at hok
        cases hok
        rcases hbase with rfl | rfl
        · exact ⟨by omega, by omega, by omega, by omega, rfl⟩
        · exact ⟨by omega, by omega, by omega, by omega, rfl⟩
      · rw [fib, if_neg hbase] at hok
        obtain ⟨a, ha, hok⟩ := bind_ok_iff.mp hok
        obtain ⟨b, hb, hsum⟩ := bind_ok_iff.mp hok
        obtain ⟨hpos, hle, hframes, -, rfl⟩ := ih _ _ ha
        obtain ⟨hpos', -, -, -, rfl⟩ := ih _ _ hb
        obtain ⟨m, rfl⟩ := Int.eq_ofNat_of_zero_le (show 0 ≤ n by omega)
        have hle' : m ≤ 91 := by
          by_contra hlt
          obtain rfl : m = 92 := by omega
          exact addLong_overflow r hsum
        have hret := fib_of_le (show m ≤ frames + 1 by omega) (by omega) hle'
        exact ⟨by omega, by omega, by omega, by omega, Except.ok.inj (hwhole.symm.trans hret)⟩
  · rintro ⟨hpos, hle, hframes, hframe, rfl⟩
    obtain ⟨m, rfl⟩ := Int.eq_ofNat_of_zero_le hpos
    exact fib_of_le (by omega) hframe (by omega)

/-! ### The programs -/

/-- What is printed to stderr: "calculating %dth fibonacci number", "%dth fibonacci is %lu",
"Finished calculating %dth fibonacci number", "Calculation of %d cancelled" and
"Received signal: %d". -/
inductive Line where
  | calculating (n : ℤ)
  | fibonacci (n result : ℤ)
  | finished (n : ℤ)
  | cancelled (n : ℤ)
  | received (signum : ℤ)
  deriving DecidableEq, Repr

/-- The number that a line is about. -/
def Line.about : Line → Option ℤ
  | calculating n | fibonacci n _ | finished n | cancelled n => some n
  | received _ => none

/-- The signal handle: `main` has not got to it; it is active; `signal_cb` is at some turn of its
loop; or it has stopped the handle. -/
inductive Signal where
  | unused
  | started
  | cancelling (i : ℕ)
  | stopped
  deriving DecidableEq, Repr

/-- How many requests `signal_cb` has gone through. -/
def Signal.reached : Signal → ℕ
  | unused | started => 0
  | cancelling i => i
  | stopped => FIB_UNTIL

/-- The thread of the loop is not in `signal_cb`. -/
def Signal.idle : Signal → Bool
  | cancelling _ => false
  | _ => true

/-- How many steps of `signal_cb` may still come. -/
def Signal.due : Signal → ℕ
  | unused | started => FIB_UNTIL + 2
  | cancelling i => FIB_UNTIL + 1 - i
  | stopped => 0

/-- The `i` of `main`, the array `data` and the element of it that the `data` of each request
points to; the thread pool, the requests for which `work_cb` is computing, each with its local `n`;
whether `main` has called `uv_run`, the signal handle, and what was printed. -/
structure State where
  i : ℕ
  data : List ℤ
  reqs : List ℕ
  pool : WorkPool ℕ
  computing : List (ℕ × ℤ)
  running : Bool
  signal : Signal
  stderr : List Line
  deriving DecidableEq, Repr

/-- A turn of the loop of `main`, and what `uv_queue_work` returns; `main` goes on to `uv_run`; a
thread takes a request, `work_cb` begins, `work_cb` goes on to its end; `after_work_cb` is called; a
SIGINT comes; a turn of the loop of `signal_cb`; and `signal_cb` goes on to its end. -/
inductive Event where
  | queue (r : ℤ)
  | run
  | take
  | calculate (i : ℕ)
  | compute (i : ℕ) (n : ℤ)
  | afterWork (i : ℕ) (o : Outcome)
  | sigint (signum : ℤ)
  | cancel (i : ℕ)
  | stop
  deriving DecidableEq, Repr

/-- In what the two programs differ: `after_work_cb`, given the number and the status, and whether
`main` listens for a SIGINT. -/
structure Program where
  afterWorkCb : ℤ → ℤ → Except Stop Line
  listens : Bool

/-- 11-queue-work. -/
def queueWork : Program where
  afterWorkCb n status := do
    ifError status
    .ok (.finished n)
  listens := false

/-- 12-queue-cancel. -/
def queueCancel : Program where
  afterWorkCb n status :=
    if status = UV_ECANCELED then .ok (.cancelled n)
    else do
      ifError status
      .ok (.finished n)
  listens := true

/-- The status that the callback of a request gets. -/
def status : Outcome → ℤ
  | .completed => 0
  | .cancelled => UV_ECANCELED

namespace State

/-- The beginning of `main`. -/
def init : State := ⟨0, [], [], .empty, [], false, .unused, []⟩

def print (s : State) (line : Line) : State := { s with stderr := s.stderr ++ [line] }

/-- `*(int*) req->data`. -/
def number (s : State) (i : ℕ) : Except Stop ℤ := do
  let d ← deref s.reqs[i]? "req->data"
  deref s.data[d]? "*(int*) req->data"

/-- A turn of the loop of `main`. -/
def queue (s : State) (r : ℤ) : Except Stop State := do
  let s := { s with data := s.data ++ [(s.i : ℤ)], reqs := s.reqs ++ [s.i] }
  ifError r
  .ok { s with pool := s.pool.submit s.i, i := s.i + 1 }

/-- `work_cb` up to the `sleep`. -/
def calculate (s : State) (i : ℕ) : Except Stop State := do
  let n ← s.number i
  .ok { s.print (.calculating n) with computing := s.computing ++ [(i, n)] }

/-- `work_cb` from the `sleep` on; the stack of a thread has room for 25 calls of `fib` at least. -/
def compute (s : State) (i : ℕ) (n : ℤ) : Except Stop State := do
  let result ← fib FIB_UNTIL n
  .ok { s.print (.fibonacci n result) with
    computing := s.computing.erase (i, n)
    pool := s.pool.finish i }

def afterWork (prog : Program) (s : State) (i : ℕ) (o : Outcome) : Except Stop State := do
  let n ← s.number i
  let line ← prog.afterWorkCb n (status o)
  .ok { s.print line with pool := s.pool.callBack (i, o) }

/-- `signal_cb` up to its loop. -/
def signalCb (s : State) (signum : ℤ) : State :=
  { s.print (.received signum) with signal := .cancelling 0 }

/-- A turn of the loop of `signal_cb`; what `uv_cancel` returns is ignored. -/
def cancel (s : State) (i : ℕ) : State :=
  { s with pool := s.pool.cancel i, signal := .cancelling (i + 1) }

/-- The pool has `threads` threads, which go on whatever the loop does.  Callbacks are made one
after another, once `uv_run` was called. -/
def Enabled (threads : ℕ) (s : State) : Event → Prop
  | .queue _ => s.i < FIB_UNTIL
  | .run => s.i = FIB_UNTIL ∧ s.running = false
  | .take => s.pool.queue ≠ [] ∧ s.pool.working.length < threads
  | .calculate i => i ∈ s.pool.working ∧ i ∉ s.computing.map Prod.fst
  | .compute i n => (i, n) ∈ s.computing
  | .afterWork i o => s.running = true ∧ s.signal.idle = true ∧ (i, o) ∈ s.pool.due
  | .sigint _ => s.signal = .started
  | .cancel i => s.signal = .cancelling i ∧ i < FIB_UNTIL
  | .stop => s.signal = .cancelling FIB_UNTIL

def decideEnabled (threads : ℕ) (s : State) : ∀ e, Decidable (Enabled threads s e)
  | .queue _ => inferInstanceAs (Decidable (_ < _))
  | .run => inferInstanceAs (Decidable (_ ∧ _))
  | .take => inferInstanceAs (Decidable (_ ∧ _))
  | .calculate _ => inferInstanceAs (Decidable (_ ∧ _))
  | .compute _ _ => inferInstanceAs (Decidable (_ ∈ _))
  | .afterWork _ _ => inferInstanceAs (Decidable (_ ∧ _))
  | .sigint _ => inferInstanceAs (Decidable (_ = _))
  | .cancel _ => inferInstanceAs (Decidable (_ ∧ _))
  | .stop => inferInstanceAs (Decidable (_ = _))

instance (threads : ℕ) (s : State) (e : Event) : Decidable (Enabled threads s e) :=
  decideEnabled threads s e

def dispatch (prog : Program) (s : State) : Event → Except Stop State
  | .queue r => s.queue r
  | .run => .ok { s with running := true, signal := if prog.listens then .started else .unused }
  | .take => .ok { s with pool := s.pool.take }
  | .calculate i => s.calculate i
  | .compute i n => s.compute i n
  | .afterWork i o => s.afterWork prog i o
  | .sigint signum => .ok (s.signalCb signum)
  | .cancel i => .ok (s.cancel i)
  | .stop => .ok { s with signal := .stopped }

end State

/-- A program with a pool of `threads` threads. -/
def loop (prog : Program) (threads : ℕ) : EventLoop State Event Stop :=
  ⟨State.Enabled threads, State.dispatch prog⟩

instance (prog : Program) (threads : ℕ) (s : State) (e : Event) :
    Decidable ((loop prog threads).enabled s e) :=
  inferInstanceAs (Decidable (State.Enabled threads s e))

/-! ### What is printed about a number -/

/-- All that is printed about a number that is computed. -/
def computed (n : ℕ) : List Line := [.calculating n, .fibonacci n (Nat.fib (n + 1)), .finished n]

/-- The line that a request ends with. -/
def lastLine (n : ℤ) : Outcome → Line
  | .completed => .finished n
  | .cancelled => .cancelled n

/-- What `after_work_cb` prints when it returns. -/
def Program.Reports (prog : Program) : Prop :=
  ∀ n o line, prog.afterWorkCb n (status o) = .ok line → line = lastLine n o

theorem queueWork_reports : queueWork.Reports := by
  intro n o line hok
  obtain ⟨_, hstatus, hline⟩ := bind_ok_iff.mp hok
  cases o with
  | completed => exact (Except.ok.inj hline).symm
  | cancelled => exact absurd (ifError_ok_iff.mp hstatus) (by decide)

theorem queueCancel_reports : queueCancel.Reports := by
  intro n o line hok
  cases o with
  | completed => exact (Except.ok.inj hok).symm
  | cancelled => exact (Except.ok.inj hok).symm

namespace State

/-- What was printed about `n`. -/
def linesOf (s : State) (n : ℕ) : List Line := s.stderr.filter fun line => line.about = some (n : ℤ)

/-- What should have been printed about `n`, by where its request is. -/
def told (s : State) (n : ℕ) : List Line :=
  if (n, .cancelled) ∈ s.pool.calledBack then [.cancelled n]
  else if (n, .completed) ∈ s.pool.calledBack then computed n
  else if (n, .completed) ∈ s.pool.settled then
    [.calculating n, .fibonacci n (Nat.fib (n + 1))]
  else if (n, (n : ℤ)) ∈ s.computing then [.calculating n]
  else []

/-- **The invariant.** -/
structure Sound (prog : Program) (threads : ℕ) (s : State) : Prop where
  le : s.i ≤ FIB_UNTIL
  data : s.data = (List.range s.i).map fun i : ℕ => (i : ℤ)
  reqs : s.reqs = List.range s.i
  accounts : s.pool.Accounts (List.range s.i)
  threads : s.pool.working.length ≤ threads
  computing : ∀ x ∈ s.computing, x.1 ∈ s.pool.working ∧ x.2 = x.1
  nodup : s.computing.Nodup
  told : ∀ n, s.linesOf n = s.told n
  ahead : ∀ i ∈ s.pool.queue, s.signal.reached ≤ i
  behind : ∀ i, (i, .cancelled) ∈ s.pool.settled → i < s.signal.reached
  within : s.signal.reached ≤ FIB_UNTIL
  inRun : s.running = true → s.i = FIB_UNTIL
  listening : s.signal ≠ .unused ↔ s.running = true ∧ prog.listens = true

section

variable {prog : Program} {threads : ℕ} {s u : State} {i n : ℕ} {o : Outcome}

theorem init_sound : Sound prog threads init where
  le := Nat.zero_le _
  data := rfl
  reqs := rfl
  accounts := WorkPool.accounts_empty
  threads := Nat.zero_le _
  computing := by simp [init]
  nodup := List.nodup_nil
  told := by simp [init, linesOf, State.told, WorkPool.empty, WorkPool.settled]
  ahead := by simp [init, WorkPool.empty]
  behind := by simp [init, WorkPool.empty, WorkPool.settled]
  within := Nat.zero_le _
  inRun := by simp [init]
  listening := by simp [init]

/-! ### Lines -/

theorem linesOf_print (s : State) (line : Line) (n : ℕ) :
    (s.print line).linesOf n =
      s.linesOf n ++ if line.about = some (n : ℤ) then [line] else [] := by
  by_cases h : line.about = some (n : ℤ) <;> simp [linesOf, print, h]

/-- What should have been printed depends only on where the request is. -/
theorem told_congr (hback : ∀ o, (n, o) ∈ u.pool.calledBack ↔ (n, o) ∈ s.pool.calledBack)
    (hsettled : (n, .completed) ∈ u.pool.settled ↔ (n, .completed) ∈ s.pool.settled)
    (hcomputing : (n, (n : ℤ)) ∈ u.computing ↔ (n, (n : ℤ)) ∈ s.computing) :
    u.told n = s.told n := by
  simp only [State.told, hback, hsettled, hcomputing]

theorem Sound.number (hs : Sound prog threads s) (hi : i < s.i) : s.number i = .ok (i : ℤ) := by
  unfold State.number
  rw [hs.reqs, hs.data]
  exact bind_ok_iff.mpr ⟨i, by simp [hi], by simp [hi]⟩

/-- A request is one of those that were queued. -/
theorem Sound.lt_of_mem_parts (hs : Sound prog threads s) (hi : i ∈ s.pool.parts) : i < s.i :=
  List.mem_range.mp (hs.accounts.parts.mem_iff.mp hi)

theorem Sound.lt_of_working (hs : Sound prog threads s) (hi : i ∈ s.pool.working) : i < s.i :=
  hs.lt_of_mem_parts (List.mem_append_left _ (List.mem_append_right _ hi))

theorem Sound.lt_of_due (hs : Sound prog threads s) (hi : (i, o) ∈ s.pool.due) : i < s.i := by
  refine hs.lt_of_mem_parts (List.mem_append_right _ ?_)
  exact List.mem_map.mpr ⟨_, List.mem_append_left _ hi, rfl⟩

theorem nodup_range (k : ℕ) : (List.range k).Nodup := List.nodup_range

/-- What should have been printed while a thread works on a request. -/
theorem Sound.told_working (hs : Sound prog threads s) (hi : i ∈ s.pool.working) :
    s.told i = if (i, (i : ℤ)) ∈ s.computing then [.calculating i] else [] := by
  have hnot := hs.accounts.not_settled (nodup_range _) hi
  have hback : ∀ o, (i, o) ∉ s.pool.calledBack :=
    fun o hmem => hnot o (List.mem_append_right _ hmem)
  rw [State.told, if_neg (hback _), if_neg (hback _), if_neg (hnot _)]

/-- What should have been printed when the callback of a request is due. -/
theorem Sound.told_due (hs : Sound prog threads s) (hi : (i, o) ∈ s.pool.due) :
    s.told i = if o = .completed then [.calculating i, .fibonacci i (Nat.fib (i + 1))] else [] := by
  have hback := hs.accounts.not_calledBack (nodup_range _) hi
  have hsettled : (i, o) ∈ s.pool.settled := List.mem_append_left _ hi
  rw [State.told, if_neg (hback _), if_neg (hback _)]
  cases o with
  | completed => rw [if_pos hsettled, if_pos rfl]
  | cancelled =>
    have hcompleted : (i, .completed) ∉ s.pool.settled := fun hmem =>
      absurd (hs.accounts.outcome_unique (nodup_range _) hsettled hmem) (by decide)
    have hcomputing : (i, (i : ℤ)) ∉ s.computing := fun hmem =>
      hs.accounts.not_settled (nodup_range _) (hs.computing _ hmem).1 _ hsettled
    rw [if_neg hcompleted, if_neg hcomputing, if_neg (by decide)]

/-- A line about one number is printed, which is what should be printed. -/
theorem Sound.told_print (hs : Sound prog threads s) {line : Line}
    (habout : line.about = some (i : ℤ)) (hlines : u.stderr = s.stderr ++ [line])
    (hi : u.told i = s.told i ++ [line]) (hother : ∀ n, n ≠ i → u.told n = s.told n) (n : ℕ) :
    u.linesOf n = u.told n := by
  have hprint : u.linesOf n = (s.print line).linesOf n := by
    rw [linesOf, linesOf, hlines]
    rfl
  rw [hprint, linesOf_print, hs.told, habout]
  by_cases heq : n = i
  · rw [heq, if_pos rfl, hi]
  · have hne : some (i : ℤ) ≠ some (n : ℤ) := by simpa using Ne.symm heq
    rw [if_neg hne, List.append_nil, hother n heq]

/-! ### One event -/

theorem queue_ok {r : ℤ} (hok : s.queue r = .ok u) :
    r = 0 ∧ u = { s with
      data := s.data ++ [(s.i : ℤ)]
      reqs := s.reqs ++ [s.i]
      pool := s.pool.submit s.i
      i := s.i + 1 } := by
  obtain ⟨_, hr, hu⟩ := bind_ok_iff.mp hok
  exact ⟨ifError_ok_iff.mp hr, (Except.ok.inj hu).symm⟩

/-- The signal handle is not used as long as `main` is queueing. -/
theorem Sound.unused_of_lt (hs : Sound prog threads s) (hi : s.i < FIB_UNTIL) :
    s.signal = .unused := by
  by_contra hused
  have := hs.inRun (hs.listening.mp hused).1
  omega

theorem Sound.queue (hs : Sound prog threads s) (hi' : s.i < FIB_UNTIL) {r : ℤ}
    (hok : s.queue r = .ok u) : Sound prog threads u := by
  obtain ⟨-, rfl⟩ := queue_ok hok
  constructor
  case le => exact hi'
  case data => simp [hs.data, List.range_succ]
  case reqs => simp [hs.reqs, List.range_succ]
  case accounts =>
    rw [List.range_succ]
    exact hs.accounts.submit s.i
  case threads => exact hs.threads
  case computing => exact hs.computing
  case nodup => exact hs.nodup
  case told => exact hs.told
  case ahead =>
    intro i hi
    rcases List.mem_append.mp hi with hold | hnew
    · exact hs.ahead i hold
    · rw [List.mem_singleton.mp hnew, hs.unused_of_lt hi']
      exact Nat.zero_le _
  case behind => exact hs.behind
  case within => exact hs.within
  case inRun =>
    intro hrunning
    have := hs.inRun hrunning
    omega
  case listening => exact hs.listening

theorem Sound.run (hs : Sound prog threads s) (hi : s.i = FIB_UNTIL) (hidle : s.running = false) :
    Sound prog threads
      { s with running := true, signal := if prog.listens then .started else .unused } := by
  have hunused : s.signal = .unused := by
    by_contra hne
    rw [(hs.listening.mp hne).1] at hidle
    cases hidle
  constructor
  case le => exact hs.le
  case data => exact hs.data
  case reqs => exact hs.reqs
  case accounts => exact hs.accounts
  case threads => exact hs.threads
  case computing => exact hs.computing
  case nodup => exact hs.nodup
  case told => exact hs.told
  case ahead =>
    have hahead := hs.ahead
    rw [hunused] at hahead
    cases prog.listens <;> exact hahead
  case behind =>
    have hbehind := hs.behind
    rw [hunused] at hbehind
    cases prog.listens <;> exact hbehind
  case within => cases prog.listens <;> exact Nat.zero_le _
  case inRun => exact fun _ => hi
  case listening => cases prog.listens <;> simp

theorem Sound.take (hs : Sound prog threads s) (hroom : s.pool.working.length < threads) :
    Sound prog threads { s with pool := s.pool.take } := by
  unfold WorkPool.take
  split
  · exact hs
  · rename_i j q hqueue
    have hact := hs.accounts.take
    rw [WorkPool.take, hqueue] at hact
    constructor
    case le => exact hs.le
    case data => exact hs.data
    case reqs => exact hs.reqs
    case accounts => exact hact
    case threads => simpa using hroom
    case computing =>
      intro x hx
      exact (hs.computing x hx).imp_left (List.mem_append_left _)
    case nodup => exact hs.nodup
    case told => exact hs.told
    case ahead =>
      intro i hi
      exact hs.ahead i (hqueue ▸ List.mem_cons_of_mem j hi)
    case behind => exact hs.behind
    case within => exact hs.within
    case inRun => exact hs.inRun
    case listening => exact hs.listening

theorem Sound.calculate (hs : Sound prog threads s) (hi : i ∈ s.pool.working)
    (hfresh : i ∉ s.computing.map Prod.fst) (hok : s.calculate i = .ok u) :
    Sound prog threads u := by
  obtain ⟨n, hn, hu⟩ := bind_ok_iff.mp hok
  rw [hs.number (hs.lt_of_working hi)] at hn
  cases hn
  cases hu
  have hnot : (i, (i : ℤ)) ∉ s.computing := fun hmem => hfresh (List.mem_map_of_mem hmem)
  constructor
  case le => exact hs.le
  case data => exact hs.data
  case reqs => exact hs.reqs
  case accounts => exact hs.accounts
  case threads => exact hs.threads
  case computing =>
    intro x hx
    rcases List.mem_append.mp hx with hold | hnew
    · exact hs.computing x hold
    · rw [List.mem_singleton.mp hnew]
      exact ⟨hi, rfl⟩
  case nodup =>
    refine List.Nodup.append hs.nodup (List.nodup_singleton _) ?_
    simpa using hnot
  case told =>
    refine hs.told_print (i := i) rfl rfl ?_ ?_
    · have hback : ∀ o, (i, o) ∉ s.pool.settled := hs.accounts.not_settled (nodup_range _) hi
      have hback' : ∀ o, (i, o) ∉ s.pool.calledBack :=
        fun o hmem => hback o (List.mem_append_right _ hmem)
      rw [hs.told_working hi, if_neg hnot]
      simp [State.told, print, hback, hback']
    · intro n hne
      refine told_congr (fun o => Iff.rfl) Iff.rfl ?_
      simp [hne]
  case ahead => exact hs.ahead
  case behind => exact hs.behind
  case within => exact hs.within
  case inRun => exact hs.inRun
  case listening => exact hs.listening

theorem Sound.compute (hs : Sound prog threads s) {r : ℤ} (hi : (i, r) ∈ s.computing)
    (hok : s.compute i r = .ok u) : Sound prog threads u := by
  obtain ⟨hworking, hr⟩ := hs.computing _ hi
  obtain rfl : r = (i : ℤ) := hr
  obtain ⟨result, hresult, hu⟩ := bind_ok_iff.mp hok
  obtain ⟨-, -, -, -, rfl⟩ := (fib_ok_iff _ _ _).mp hresult
  cases hu
  have hnot := hs.accounts.not_settled (nodup_range _) hworking
  have hback : ∀ o, (i, o) ∉ s.pool.calledBack :=
    fun o hmem => hnot o (List.mem_append_right _ hmem)
  constructor
  case le => exact hs.le
  case data => exact hs.data
  case reqs => exact hs.reqs
  case accounts => exact hs.accounts.finish hworking
  case threads => exact List.length_erase_le.trans hs.threads
  case computing =>
    intro x hx
    obtain ⟨hne, hmem⟩ := hs.nodup.mem_erase_iff.mp hx
    obtain ⟨hx', hval⟩ := hs.computing x hmem
    refine ⟨?_, hval⟩
    have hfst : x.1 ≠ i := by
      rintro heq
      exact hne (Prod.ext heq (by rw [hval, heq]))
    exact (List.mem_erase_of_ne hfst).mpr hx'
  case nodup => exact hs.nodup.erase _
  case told =>
    refine hs.told_print (i := i) rfl rfl ?_ ?_
    · rw [hs.told_working hworking, if_pos hi]
      simp [State.told, WorkPool.finish, WorkPool.settled, hback]
    · intro n hne
      refine told_congr (fun o => Iff.rfl) ?_ ?_
      · simp [WorkPool.settled, WorkPool.finish, hne]
      · rw [hs.nodup.mem_erase_iff]
        simp [hne]
  case ahead => exact hs.ahead
  case behind =>
    have hbehind := hs.behind
    simpa [WorkPool.settled, WorkPool.finish, print] using hbehind
  case within => exact hs.within
  case inRun => exact hs.inRun
  case listening => exact hs.listening

theorem Sound.afterWork (hs : Sound prog threads s) (hprog : prog.Reports)
    (hi : (i, o) ∈ s.pool.due) (hok : s.afterWork prog i o = .ok u) : Sound prog threads u := by
  obtain ⟨n, hn, hrest⟩ := bind_ok_iff.mp hok
  rw [hs.number (hs.lt_of_due hi)] at hn
  cases hn
  obtain ⟨line, hline, hu⟩ := bind_ok_iff.mp hrest
  obtain rfl := hprog _ _ _ hline
  cases hu
  have hsettled := WorkPool.settled_callBack hi
  have hback := hs.accounts.not_calledBack (nodup_range _) hi
  constructor
  case le => exact hs.le
  case data => exact hs.data
  case reqs => exact hs.reqs
  case accounts => exact hs.accounts.callBack hi
  case threads => exact hs.threads
  case computing => exact hs.computing
  case nodup => exact hs.nodup
  case told =>
    have habout : (lastLine i o).about = some (i : ℤ) := by cases o <;> rfl
    refine hs.told_print habout rfl ?_ ?_
    · rw [hs.told_due hi]
      cases o with
      | completed => simp [State.told, WorkPool.callBack, hback .cancelled, computed, lastLine]
      | cancelled => simp [State.told, WorkPool.callBack, lastLine]
    · intro n hne
      refine told_congr (fun o' => ?_) hsettled.mem_iff Iff.rfl
      simp [WorkPool.callBack, hne]
  case ahead => exact hs.ahead
  case behind => exact fun i hmem => hs.behind i (hsettled.mem_iff.mp hmem)
  case within => exact hs.within
  case inRun => exact hs.inRun
  case listening => exact hs.listening

/-- A SIGINT comes. -/
theorem Sound.sigint (hs : Sound prog threads s) (hsignal : s.signal = .started) (signum : ℤ) :
    Sound prog threads (s.signalCb signum) := by
  have hlist := hs.listening.mp (ne_of_eq_of_ne hsignal (by decide))
  constructor
  case le => exact hs.le
  case data => exact hs.data
  case reqs => exact hs.reqs
  case accounts => exact hs.accounts
  case threads => exact hs.threads
  case computing => exact hs.computing
  case nodup => exact hs.nodup
  case told =>
    intro n
    refine (linesOf_print s (.received signum) n).trans ?_
    rw [if_neg (by simp [Line.about]), List.append_nil, hs.told]
    rfl
  case ahead => exact fun i _ => Nat.zero_le i
  case behind =>
    have hbehind := hs.behind
    rw [hsignal] at hbehind
    exact hbehind
  case within => exact Nat.zero_le _
  case inRun => exact hs.inRun
  case listening => exact iff_of_true (by simp [signalCb]) hlist

/-- `signal_cb` goes on by a request: it is cancelled, or a thread has taken it. -/
theorem Sound.cancel (hs : Sound prog threads s) (hsignal : s.signal = .cancelling i)
    (hi : i < FIB_UNTIL) : Sound prog threads (s.cancel i) := by
  have hlist := hs.listening.mp (by rw [hsignal]; simp)
  have hahead := hs.ahead
  have hbehind := hs.behind
  rw [hsignal] at hahead hbehind
  constructor
  case le => exact hs.le
  case data => exact hs.data
  case reqs => exact hs.reqs
  case accounts => exact hs.accounts.cancel i
  case threads => simpa [State.cancel] using hs.threads
  case computing => simpa [State.cancel] using hs.computing
  case nodup => exact hs.nodup
  case told =>
    intro n
    refine (hs.told n).trans ?_
    symm
    refine told_congr (fun o => ?_) ?_ Iff.rfl
    · simp [State.cancel]
    · rw [State.cancel, WorkPool.mem_settled_cancel]
      simp
  case ahead =>
    intro j hj
    obtain ⟨hmem, hne⟩ := (hs.accounts.mem_queue_cancel (nodup_range _)).mp hj
    have hle : i ≤ j := hahead j hmem
    show i + 1 ≤ j
    omega
  case behind =>
    intro j hj
    show j < i + 1
    rcases WorkPool.mem_settled_cancel.mp hj with hold | ⟨hnew, -⟩
    · have hlt : j < i := hbehind j hold
      omega
    · rw [(Prod.mk.inj hnew).1]
      exact Nat.lt_succ_self i
  case within => exact hi
  case inRun => exact hs.inRun
  case listening => exact iff_of_true (by simp [State.cancel]) hlist

/-- `signal_cb` has gone through all requests. -/
theorem Sound.stop (hs : Sound prog threads s) (hsignal : s.signal = .cancelling FIB_UNTIL) :
    Sound prog threads { s with signal := .stopped } := by
  have hlist := hs.listening.mp (by rw [hsignal]; simp)
  have hahead := hs.ahead
  have hbehind := hs.behind
  rw [hsignal] at hahead hbehind
  constructor
  case le => exact hs.le
  case data => exact hs.data
  case reqs => exact hs.reqs
  case accounts => exact hs.accounts
  case threads => exact hs.threads
  case computing => exact hs.computing
  case nodup => exact hs.nodup
  case told => exact hs.told
  case ahead => exact hahead
  case behind => exact hbehind
  case within => exact le_rfl
  case inRun => exact hs.inRun
  case listening => exact iff_of_true (by simp) hlist

/-- **One event** keeps the invariant. -/
theorem Sound.step (hs : Sound prog threads s) (hprog : prog.Reports) {e : Event}
    (he : (loop prog threads).enabled s e) (hok : (loop prog threads).dispatch s e = .ok u) :
    Sound prog threads u := by
  cases e with
  | queue r => exact hs.queue he hok
  | run =>
    cases hok
    exact hs.run he.1 he.2
  | take =>
    cases hok
    exact hs.take he.2
  | calculate i => exact hs.calculate he.1 he.2 hok
  | compute i n => exact hs.compute he hok
  | afterWork i o => exact hs.afterWork hprog he.2.2 hok
  | sigint signum =>
    cases hok
    exact hs.sigint he signum
  | cancel i =>
    cases hok
    exact hs.cancel he.1 he.2
  | stop =>
    cases hok
    exact hs.stop he

/-- **Every run** keeps the invariant. -/
theorem sound_of_run (hprog : prog.Reports) {es : List Event}
    (hrun : (loop prog threads).Run init es s) : Sound prog threads s :=
  hrun.invariant init_sound fun _ _ _ ht he hok => ht.step hprog he hok

/-- `signal_cb` is called by a SIGINT only. -/
theorem sigint_of_called {es : List Event} (hrun : (loop prog threads).Run init es s)
    (hcalled : s.signal ≠ .unused ∧ s.signal ≠ .started) : ∃ signum, .sigint signum ∈ es := by
  induction hrun with
  | nil => exact absurd rfl hcalled.1
  | @snoc es t e u hrun he hok ih =>
    have hold : t.signal ≠ .unused ∧ t.signal ≠ .started →
        ∃ signum, .sigint signum ∈ es ++ [e] := by
      intro ht
      obtain ⟨signum, hmem⟩ := ih ht
      exact ⟨signum, List.mem_append_left _ hmem⟩
    cases e with
    | queue r =>
      obtain ⟨-, rfl⟩ := queue_ok hok
      exact hold hcalled
    | run =>
      cases hok
      cases hlistens : prog.listens <;> simp [hlistens] at hcalled
    | take =>
      cases hok
      exact hold hcalled
    | calculate i =>
      obtain ⟨n, -, hu⟩ := bind_ok_iff.mp hok
      cases hu
      exact hold hcalled
    | compute i n =>
      obtain ⟨result, -, hu⟩ := bind_ok_iff.mp hok
      cases hu
      exact hold hcalled
    | afterWork i o =>
      obtain ⟨n, -, hu⟩ := bind_ok_iff.mp hok
      obtain ⟨line, -, hu⟩ := bind_ok_iff.mp hu
      cases hu
      exact hold hcalled
    | sigint signum => exact ⟨signum, List.mem_append_right _ (List.mem_singleton_self _)⟩
    | cancel i => exact hold (by rw [he.1]; simp)
    | stop => exact hold (by rw [show t.signal = .cancelling FIB_UNTIL from he]; simp)

/-! ### How far a run can go -/

theorem Sound.computing_length_le (hs : Sound prog threads s) :
    s.computing.length ≤ s.pool.working.length := by
  have hinj : (s.computing.map Prod.fst).Nodup := by
    refine hs.nodup.map_on fun x hx y hy heq => ?_
    rw [Prod.ext_iff, (hs.computing x hx).2, (hs.computing y hy).2, heq]
    exact ⟨rfl, rfl⟩
  have hsub : s.computing.map Prod.fst ⊆ s.pool.working := by
    intro i hi
    obtain ⟨x, hx, rfl⟩ := List.mem_map.mp hi
    exact (hs.computing x hx).1
  simpa using (hinj.subperm hsub).length_le

/-- How many events may still come. -/
def rank (s : State) : ℕ :=
  5 * (FIB_UNTIL - s.i) + (!s.running).toNat + s.signal.due + 4 * s.pool.queue.length +
    (3 * s.pool.working.length - s.computing.length) + s.pool.due.length

theorem Sound.rank_lt (hs : Sound prog threads s) {e : Event}
    (he : (loop prog threads).enabled s e) (hok : (loop prog threads).dispatch s e = .ok u) :
    u.rank < s.rank := by
  have hle := hs.computing_length_le
  unfold rank
  cases e with
  | queue r =>
    obtain ⟨-, rfl⟩ := queue_ok hok
    have hlt : s.i < FIB_UNTIL := he
    simp only [WorkPool.submit, List.length_append, List.length_singleton]
    omega
  | run =>
    cases hok
    obtain ⟨-, hidle⟩ := he
    have hunused : s.signal = .unused := by
      by_contra hused
      rw [(hs.listening.mp hused).1] at hidle
      cases hidle
    rw [hunused, hidle]
    cases prog.listens <;> simp [Signal.due]
  | take =>
    cases hok
    obtain ⟨hqueue, -⟩ := he
    obtain ⟨i, q, hq⟩ := List.exists_cons_of_ne_nil hqueue
    simp only [WorkPool.take, hq, List.length_cons, List.length_append, List.length_nil]
    omega
  | calculate i =>
    obtain ⟨n, -, hu⟩ := bind_ok_iff.mp hok
    cases hu
    have hpos := List.length_pos_of_mem he.1
    simp only [print, List.length_append, List.length_singleton]
    omega
  | compute i n =>
    obtain ⟨result, -, hu⟩ := bind_ok_iff.mp hok
    cases hu
    have hmem : (i, n) ∈ s.computing := he
    have hpos := List.length_pos_of_mem hmem
    simp only [print, WorkPool.finish, List.length_append, List.length_singleton,
      List.length_erase_of_mem hmem, List.length_erase_of_mem (hs.computing _ hmem).1]
    omega
  | afterWork i o =>
    obtain ⟨n, -, hrest⟩ := bind_ok_iff.mp hok
    obtain ⟨line, -, hu⟩ := bind_ok_iff.mp hrest
    cases hu
    have hpos := List.length_pos_of_mem he.2.2
    simp only [print, WorkPool.callBack, List.length_erase_of_mem he.2.2]
    omega
  | sigint signum =>
    cases hok
    have hsignal : s.signal = .started := he
    rw [hsignal]
    simp only [signalCb, print, Signal.due]
    omega
  | cancel i =>
    cases hok
    obtain ⟨hsignal, hi⟩ := he
    rw [hsignal]
    simp only [State.cancel, Signal.due]
    by_cases hmem : i ∈ s.pool.queue
    · have hpos := List.length_pos_of_mem hmem
      rw [WorkPool.cancel, if_pos hmem]
      simp only [List.length_append, List.length_singleton, List.length_erase_of_mem hmem]
      omega
    · rw [WorkPool.cancel, if_neg hmem]
      omega
  | stop =>
    cases hok
    have hsignal : s.signal = .cancelling FIB_UNTIL := he
    rw [hsignal]
    simp only [Signal.due]
    omega

/-- Nothing can happen any more: the loop has ended. -/
def Ended (prog : Program) (threads : ℕ) (s : State) : Prop :=
  ∀ e, ¬ (loop prog threads).enabled s e

/-- At the end every request was called back. -/
theorem Sound.ended (hs : Sound prog threads s) (hthreads : 0 < threads)
    (hend : Ended prog threads s) :
    s.i = FIB_UNTIL ∧ s.running = true ∧ s.signal ≠ .started ∧ s.pool.queue = [] ∧
      s.pool.working = [] ∧ s.pool.due = [] := by
  have hidle : s.signal.idle = true := by
    cases hsignal : s.signal with
    | cancelling i =>
      have hwithin := hs.within
      rw [hsignal] at hwithin
      rcases Nat.lt_or_eq_of_le hwithin with hlt | rfl
      · exact absurd ⟨hsignal, hlt⟩ (hend (.cancel i))
      · exact absurd hsignal (hend .stop)
    | unused => rfl
    | started => rfl
    | stopped => rfl
  have hi : s.i = FIB_UNTIL := le_antisymm hs.le (not_lt.mp (hend (.queue 0)))
  have hrunning : s.running = true := by
    by_contra hidle
    exact hend .run ⟨hi, by simpa using hidle⟩
  have hcomputing : s.computing = [] :=
    List.eq_nil_iff_forall_not_mem.mpr fun x hx => hend (.compute x.1 x.2) hx
  have hworking : s.pool.working = [] := by
    refine List.eq_nil_iff_forall_not_mem.mpr fun i hi => hend (.calculate i) ⟨hi, ?_⟩
    simp [hcomputing]
  refine ⟨hi, hrunning, hend (.sigint 0), ?_, hworking, ?_⟩
  · by_contra hqueue
    exact hend .take ⟨hqueue, by simpa [hworking] using hthreads⟩
  · exact List.eq_nil_iff_forall_not_mem.mpr fun x hx =>
      hend (.afterWork x.1 x.2) ⟨hrunning, hidle, hx⟩

/-- What libuv returns to the programs is no error. -/
def Benign : Event → Prop
  | .queue r => r = 0
  | _ => True

/-- A callback returns exactly if its event is benign. -/
theorem Sound.returns_iff (hs : Sound prog threads s)
    (hdue : ∀ i o, (i, o) ∈ s.pool.due → ∃ line, prog.afterWorkCb i (status o) = .ok line)
    {e : Event} (he : (loop prog threads).enabled s e) :
    (∃ u, (loop prog threads).dispatch s e = .ok u) ↔ Benign e := by
  cases e with
  | queue r =>
    constructor
    · rintro ⟨u, hok⟩
      exact (queue_ok hok).1
    · rintro rfl
      exact ⟨_, rfl⟩
  | run => exact iff_of_true ⟨_, rfl⟩ trivial
  | take => exact iff_of_true ⟨_, rfl⟩ trivial
  | calculate i =>
    refine iff_of_true ⟨_, bind_ok_iff.mpr ⟨i, ?_, rfl⟩⟩ trivial
    exact hs.number (hs.lt_of_working he.1)
  | compute i n =>
    obtain ⟨hworking, hn⟩ := hs.computing _ he
    have hlt := hs.lt_of_working hworking
    have hle := hs.le
    unfold FIB_UNTIL at hle
    simp only at hn hlt
    have hfib : fib FIB_UNTIL n = .ok _ := (fib_ok_iff _ _ _).mpr
      ⟨by omega, by omega, by unfold FIB_UNTIL; omega, by decide, rfl⟩
    exact iff_of_true ⟨_, bind_ok_iff.mpr ⟨_, hfib, rfl⟩⟩ trivial
  | afterWork i o =>
    obtain ⟨line, hline⟩ := hdue i o he.2.2
    have hnumber := hs.number (hs.lt_of_due he.2.2)
    exact iff_of_true
      ⟨_, bind_ok_iff.mpr ⟨i, hnumber, bind_ok_iff.mpr ⟨line, hline, rfl⟩⟩⟩ trivial
  | sigint signum => exact iff_of_true ⟨_, rfl⟩ trivial
  | cancel i => exact iff_of_true ⟨_, rfl⟩ trivial
  | stop => exact iff_of_true ⟨_, rfl⟩ trivial

/-! ### What was printed -/

/-- A request that was not cancelled says what it has done so far. -/
theorem told_prefix_computed (hnot : (n, .cancelled) ∉ s.pool.settled) :
    s.told n <+: computed n := by
  have hback : (n, .cancelled) ∉ s.pool.calledBack :=
    fun hmem => hnot (List.mem_append_right _ hmem)
  rw [State.told, if_neg hback]
  split
  · exact List.prefix_refl _
  · split
    · exact ⟨[.finished n], rfl⟩
    · split
      · exact ⟨[.fibonacci n (Nat.fib (n + 1)), .finished n], rfl⟩
      · exact List.nil_prefix

/-- A request that no thread has taken says nothing, until it is called back as cancelled. -/
theorem Sound.told_prefix_cancelled (hs : Sound prog threads s) (hnot : n ∉ s.pool.taken) :
    s.told n <+: [.cancelled n] := by
  rw [hs.accounts.mem_taken, not_or] at hnot
  have hback : (n, .completed) ∉ s.pool.calledBack :=
    fun hmem => hnot.2 (List.mem_append_right _ hmem)
  have hcomputing : (n, (n : ℤ)) ∉ s.computing := fun hmem => hnot.1 (hs.computing _ hmem).1
  rw [State.told, if_neg hback, if_neg hnot.2, if_neg hcomputing]
  split
  · exact List.prefix_refl _
  · exact List.nil_prefix

/-- A request that is over was taken, or cancelled. -/
theorem Sound.cancelled_of_not_taken (hs : Sound prog threads s) (hi : s.i = FIB_UNTIL)
    (hqueue : s.pool.queue = []) (hworking : s.pool.working = []) (hn : n < FIB_UNTIL)
    (hnot : n ∉ s.pool.taken) : (n, .cancelled) ∈ s.pool.settled := by
  have hmem : n ∈ s.pool.parts := by
    rw [hs.accounts.parts.mem_iff, hi]
    exact List.mem_range.mpr hn
  rw [WorkPool.parts, hqueue, hworking] at hmem
  obtain ⟨⟨n, o⟩, hsettled, rfl⟩ := List.mem_map.mp hmem
  cases o with
  | completed => exact absurd (hs.accounts.mem_taken.mpr (.inr hsettled)) hnot
  | cancelled => exact hsettled

/-- At the end a request was called back, and how it ended is all that was printed. -/
theorem Sound.told_ended (hs : Sound prog threads s) (hi : s.i = FIB_UNTIL)
    (hqueue : s.pool.queue = []) (hworking : s.pool.working = []) (hdue : s.pool.due = [])
    (hn : n < FIB_UNTIL) :
    s.told n = if n ∈ s.pool.taken then computed n else [.cancelled n] := by
  have hsettled : s.pool.settled = s.pool.calledBack := by simp [WorkPool.settled, hdue]
  have htaken := hs.accounts.mem_taken (i := n)
  rw [hworking, hsettled] at htaken
  have hmem : n ∈ s.pool.calledBack.map Prod.fst := by
    rw [(hs.accounts.all_calledBack hqueue hworking hdue).mem_iff, hi]
    exact List.mem_range.mpr hn
  obtain ⟨⟨n, o⟩, hback, rfl⟩ := List.mem_map.mp hmem
  cases o with
  | completed =>
    have hnot : (n, .cancelled) ∉ s.pool.calledBack := by
      intro hcancelled
      rw [← hsettled] at hback hcancelled
      exact absurd (hs.accounts.outcome_unique (nodup_range _) hback hcancelled) (by decide)
    rw [State.told, if_neg hnot, if_pos hback, if_pos (htaken.mpr (.inr hback))]
  | cancelled =>
    rw [← hsettled] at hback
    have hnot := hs.accounts.notBoth (nodup_range _) hback
    rw [hsettled] at hback
    rw [State.told, if_pos hback, if_neg hnot]

end

end State

/-! ### Every run -/

open State

/-- What is known of the first program after a run. -/
structure Completes (threads : ℕ) (es : List Event) (s : State) : Prop where
  /-- No run goes on for ever. -/
  bounded : es.length ≤ 5 * FIB_UNTIL + 1
  /-- No more threads work than there are. -/
  working : s.pool.working.length ≤ threads
  /-- What was printed about a number is the begin of all that is printed about it. -/
  partly : ∀ n < FIB_UNTIL, s.linesOf n <+: computed n
  /-- No callback stops the process. -/
  returns : ∀ e, (loop queueWork threads).enabled s e → Benign e →
    ∃ u, (loop queueWork threads).dispatch s e = .ok u
  /-- If nothing can happen any more, everything was printed. -/
  printed : Ended queueWork threads s → ∀ n < FIB_UNTIL, s.linesOf n = computed n

/-- **11-queue-work** computes and prints all its numbers, each once and in order, whatever the
threads and the loop do when. -/
theorem queueWork_completes {threads : ℕ} {es : List Event} {s : State} (hthreads : 0 < threads)
    (hrun : (loop queueWork threads).Run init es s) : Completes threads es s := by
  have hs := sound_of_run queueWork_reports hrun
  have hsignal : s.signal = .unused := by
    by_contra hused
    exact absurd (hs.listening.mp hused).2 (by decide)
  have hnot : ∀ n, (n, .cancelled) ∉ s.pool.settled := by
    intro n hmem
    have hlt := hs.behind n hmem
    rw [hsignal] at hlt
    exact Nat.not_lt_zero n hlt
  constructor
  case bounded =>
    have hlen := hrun.length_le (P := Sound queueWork threads) rank init_sound
      fun t e u ht he hok => ⟨ht.step queueWork_reports he hok, ht.rank_lt he hok⟩
    have hpos : FIB_UNTIL + 2 ≤ s.rank := by
      rw [rank, hsignal, Signal.due]
      omega
    have hinit : init.rank = 6 * FIB_UNTIL + 3 := by decide
    omega
  case working => exact hs.threads
  case partly =>
    intro n _
    rw [hs.told]
    exact told_prefix_computed (hnot n)
  case returns =>
    intro e he hbenign
    refine (hs.returns_iff (fun i o hdue => ?_) he).mpr hbenign
    cases o with
    | completed => exact ⟨.finished i, rfl⟩
    | cancelled => exact absurd (List.mem_append_left _ hdue) (hnot i)
  case printed =>
    intro hend n hn
    obtain ⟨hi, -, -, hqueue, hworking, hdue⟩ := hs.ended hthreads hend
    have htaken : n ∈ s.pool.taken := by
      by_contra hmem
      exact hnot n (hs.cancelled_of_not_taken hi hqueue hworking hn hmem)
    rw [hs.told, hs.told_ended hi hqueue hworking hdue hn, if_pos htaken]

/-- A thread begins while `main` is still queueing. -/
theorem queueWork_completes_first : ∃ es s, (loop queueWork 4).Run init es s ∧
    s.linesOf 0 = computed 0 ∧ Completes 4 es s := by
  obtain ⟨s, hrun, hlines⟩ := EventLoop.exists_run_of_plays
    (show ((loop queueWork 4).plays init
        ([.queue 0, .take, .calculate 0] ++ List.replicate 24 (.queue 0) ++
          [.run, .compute 0 0, .afterWork 0 .completed])).any
      (fun s => s.linesOf 0 == computed 0) = true by decide +kernel)
  exact ⟨_, s, hrun, eq_of_beq hlines, queueWork_completes (by decide) hrun⟩

/-- All that is printed about `n`: it is computed if a thread has taken its request, and cancelled
otherwise. -/
def State.expected (s : State) (n : ℕ) : List Line :=
  if n ∈ s.pool.taken then computed n else [.cancelled n]

/-- What is known of the second program after a run. -/
structure Settles (threads : ℕ) (es : List Event) (s : State) : Prop where
  /-- No run goes on for ever. -/
  bounded : es.length ≤ 6 * FIB_UNTIL + 3
  /-- The threads take the requests in the order they were queued in, each once. -/
  order : s.pool.taken.Sublist (List.range FIB_UNTIL)
  working : s.pool.working.length ≤ threads
  /-- What was printed about a number is the begin of all that is printed about it. -/
  partly : ∀ n < FIB_UNTIL, s.linesOf n <+: s.expected n
  /-- Requests are cancelled up to the one that `signal_cb` has reached, and wait from there on. -/
  reached : ∀ n, ((n, .cancelled) ∈ s.pool.settled → n < s.signal.reached) ∧
    (n ∈ s.pool.queue → s.signal.reached ≤ n)
  /-- No request waits any more when `signal_cb` has returned. -/
  emptied : s.signal = .stopped → s.pool.queue = []
  /-- No callback stops the process. -/
  returns : ∀ e, (loop queueCancel threads).enabled s e → Benign e →
    ∃ u, (loop queueCancel threads).dispatch s e = .ok u
  /-- If nothing can happen any more, a SIGINT has come, and everything was printed. -/
  ended : Ended queueCancel threads s →
    (∃ signum, .sigint signum ∈ es) ∧ ∀ n < FIB_UNTIL, s.linesOf n = s.expected n

/-- **12-queue-cancel** computes the numbers whose requests the threads have taken and cancels the
others, whenever the SIGINT comes, and whatever the threads do while `signal_cb` cancels one request
after another; no number is both computed and cancelled, and none is forgotten. -/
theorem queueCancel_settles {threads : ℕ} {es : List Event} {s : State} (hthreads : 0 < threads)
    (hrun : (loop queueCancel threads).Run init es s) : Settles threads es s := by
  have hs := sound_of_run queueCancel_reports hrun
  constructor
  case bounded =>
    have hlen := hrun.length_le (P := Sound queueCancel threads) rank init_sound
      fun t e u ht he hok => ⟨ht.step queueCancel_reports he hok, ht.rank_lt he hok⟩
    have hinit : init.rank = 6 * FIB_UNTIL + 3 := by decide
    omega
  case order =>
    exact ((List.sublist_append_left _ _).trans hs.accounts.order).trans
      (List.range_sublist.mpr hs.le)
  case working => exact hs.threads
  case partly =>
    intro n hn
    rw [hs.told, expected]
    by_cases hmem : n ∈ s.pool.taken
    · rw [if_pos hmem]
      exact told_prefix_computed fun hcancelled =>
        hs.accounts.notBoth (nodup_range _) hcancelled hmem
    · rw [if_neg hmem]
      exact hs.told_prefix_cancelled hmem
  case reached => exact fun n => ⟨hs.behind n, hs.ahead n⟩
  case emptied =>
    intro hstopped
    refine List.eq_nil_iff_forall_not_mem.mpr fun i hi => ?_
    have hle := hs.ahead i hi
    have hlt := hs.lt_of_mem_parts (List.mem_append_left _ (List.mem_append_left _ hi))
    have hall := hs.le
    rw [hstopped, Signal.reached] at hle
    omega
  case returns =>
    intro e he hbenign
    exact (hs.returns_iff (fun i o _ => by cases o <;> exact ⟨_, rfl⟩) he).mpr hbenign
  case ended =>
    intro hend
    obtain ⟨hi, hrunning, hsignal, hqueue, hworking, hdue⟩ := hs.ended hthreads hend
    refine ⟨sigint_of_called hrun ⟨hs.listening.mpr ⟨hrunning, rfl⟩, hsignal⟩, fun n hn => ?_⟩
    rw [hs.told, hs.told_ended hi hqueue hworking hdue hn, expected]

/-- A thread takes the third request after `signal_cb` has cancelled the second one. -/
theorem queueCancel_settles_third : ∃ es s, (loop queueCancel 2).Run init es s ∧
    s.linesOf 0 = computed 0 ∧ s.linesOf 1 = [.cancelled 1] ∧ s.linesOf 2 = computed 2 ∧
      Settles 2 es s := by
  obtain ⟨s, hrun, hlines⟩ := EventLoop.exists_run_of_plays
    (show ((loop queueCancel 2).plays init
        (List.replicate 25 (.queue 0) ++ [.run, .take, .calculate 0, .sigint 2, .cancel 0,
          .cancel 1, .take, .calculate 2, .cancel 2, .compute 0 0] ++
          (List.range 22).map (fun i => .cancel (i + 3)) ++ [.stop, .compute 2 2,
          .afterWork 1 .cancelled, .afterWork 2 .completed, .afterWork 0 .completed])).any
      (fun s => s.linesOf 0 == computed 0 && s.linesOf 1 == [.cancelled 1] &&
        s.linesOf 2 == computed 2) = true by decide +kernel)
  simp only [Bool.and_eq_true, beq_iff_eq] at hlines
  exact ⟨_, s, hrun, hlines.1.1, hlines.1.2, hlines.2, queueCancel_settles (by decide) hrun⟩

end LibuvDox.QueueWork
