import LibuvDox.Lib.EventLoop
import LibuvDox.Uv

/-!
# 16-signal/main.c

Two threads wait for a SIGUSR1 with two handles each.  The first one has both on one loop, which it
runs until they have been stopped; the second one has a loop for each and runs them in turns, the
second loop only when nothing is left on the first.  A signal is caught by every handle that listens
at that moment, and kept for it until its loop runs; a process in which none listens is killed.

* `Sound`: the invariant; where the threads are says what their handles do.
* `called_of_run`: each handle is called back at most once, and all are when `main` returns; in the
  second thread the loops take their turns.
* `oneSignal_suffices`: once all handles listen, one signal brings the program to its end.
-/

namespace LibuvDox.Signals

/-- `sig1a` and `sig1b` of the two threads. -/
inductive Handle where
  | firstA
  | firstB
  | secondA
  | secondB
  deriving DecidableEq, Repr

def Handle.all : List Handle := [firstA, firstB, secondA, secondB]

/-- The handles of the second thread. -/
def Handle.isSecond : Handle → Bool
  | secondA | secondB => true
  | firstA | firstB => false

/-- A handle that was not started yet, one that listens and has caught some signals, for which it
has not been called back, or one that was stopped. -/
inductive Watcher where
  | unused
  | started (caught : ℕ)
  | stopped
  deriving DecidableEq, Repr

namespace Watcher

def listens : Watcher → Bool
  | started _ => true
  | unused | stopped => false

/-- It has caught a signal for which it was not called back. -/
def pending : Watcher → Bool
  | started (_ + 1) => true
  | _ => false

/-- A signal comes. -/
def catchSignal : Watcher → Watcher
  | started caught => started (caught + 1)
  | w => w

@[simp] theorem listens_catchSignal (w : Watcher) : w.catchSignal.listens = w.listens := by
  cases w <;> rfl

theorem pending_catchSignal {w : Watcher} (h : w.listens = true) :
    w.catchSignal.pending = true := by
  cases w with
  | started caught => rfl
  | unused => cases h
  | stopped => cases h

theorem listens_of_pending {w : Watcher} (h : w.pending = true) : w.listens = true := by
  cases w with
  | started caught => rfl
  | unused => cases h
  | stopped => cases h

theorem eq_stopped {w : Watcher} (hne : w ≠ .unused) (h : w.listens = false) : w = .stopped := by
  cases w with
  | unused => exact absurd rfl hne
  | started caught => cases h
  | stopped => rfl

theorem ne_unused {w : Watcher} (h : w.listens = true) : w ≠ .unused := by
  rintro rfl
  cases h

@[simp] theorem catchSignal_eq_unused (w : Watcher) : w.catchSignal = .unused ↔ w = .unused := by
  cases w <;> simp [catchSignal]

@[simp] theorem catchSignal_eq_stopped (w : Watcher) :
    w.catchSignal = .stopped ↔ w = .stopped := by
  cases w <;> simp [catchSignal]

end Watcher

/-- Where `thread1_entry` is: before a `uv_signal_start`, or in `uv_run`. -/
inductive FirstPc where
  | notCreated
  | startA
  | startB
  | run
  | ended
  deriving DecidableEq, Repr

/-- Where `thread2_entry` is: before a `uv_signal_start`, or before one of the calls of `uv_run` in
the condition of its loop. -/
inductive SecondPc where
  | notCreated
  | startA
  | startB
  | runLoop1
  | runLoop2
  | ended
  deriving DecidableEq, Repr

inductive MainPc where
  | createFirst
  | createSecond
  | joinFirst
  | joinSecond
  | returned
  deriving DecidableEq, Repr

/-- What is printed to stderr: the two lines of `main`, and "Received signal: %d". -/
inductive Line where
  | listening
  | sendIt
  | received (signum : ℤ)
  deriving DecidableEq, Repr

/-- The handles, where the threads are, the handles that `signal_cb` was called for, and what was
printed. -/
structure Process where
  handle : Handle → Watcher
  first : FirstPc
  second : SecondPc
  main : MainPc
  called : List Handle
  stderr : List Line

/-- The steps of `main` and of the two threads, the callbacks in the loop of the first one, and a
SIGUSR1 for the process. -/
inductive Event where
  | main
  | first
  | callback (h : Handle)
  | second
  | kill
  deriving DecidableEq, Repr

def SIGUSR1 : ℤ := 10

def init : Process :=
  ⟨fun _ => .unused, .notCreated, .notCreated, .createFirst, [], [.listening, .sendIt]⟩

/-! ### The steps -/

def Process.setHandle (s : Process) (h : Handle) (w : Watcher) : Process :=
  { s with handle := Function.update s.handle h w }

/-- `signal_cb`, which stops its handle. -/
def signalCb (s : Process) (h : Handle) : Process :=
  { s.setHandle h .stopped with
    called := s.called ++ [h]
    stderr := s.stderr ++ [.received SIGUSR1] }

/-- The loop gets to the signals that a handle has caught.  The first of them calls its callback;
the others find it stopped. -/
def poll (s : Process) (h : Handle) : Process :=
  if (s.handle h).pending then signalCb s h else s

def mainStep (s : Process) : Process :=
  match s.main with
  | .createFirst => { s with first := .startA, main := .createSecond }
  | .createSecond => { s with second := .startA, main := .joinFirst }
  | .joinFirst => { s with main := .joinSecond }
  | .joinSecond => { s with main := .returned }
  | .returned => s

def thread1Entry (s : Process) : Process :=
  match s.first with
  | .startA => { s.setHandle .firstA (.started 0) with first := .startB }
  | .startB => { s.setHandle .firstB (.started 0) with first := .run }
  | .run => { s with first := .ended }
  | .notCreated | .ended => s

/-- `while (uv_run(loop1, UV_RUN_NOWAIT) || uv_run(loop2, UV_RUN_NOWAIT)) {}`, where a loop is alive
as long as its handle listens. -/
def thread2Entry (s : Process) : Process :=
  match s.second with
  | .startA => { s.setHandle .secondA (.started 0) with second := .startB }
  | .startB => { s.setHandle .secondB (.started 0) with second := .runLoop1 }
  | .runLoop1 =>
    let s := poll s .secondA
    { s with second := if (s.handle .secondA).listens then .runLoop1 else .runLoop2 }
  | .runLoop2 =>
    let s := poll s .secondB
    { s with second := if (s.handle .secondB).listens then .runLoop1 else .ended }
  | .notCreated | .ended => s

def kill (s : Process) : Except Stop Process :=
  if Handle.all.any (fun h => (s.handle h).listens) then
    .ok { s with handle := fun h => (s.handle h).catchSignal }
  else .error (.exit "SIGUSR1")

def dispatch (s : Process) : Event → Except Stop Process
  | .main => .ok (mainStep s)
  | .first => .ok (thread1Entry s)
  | .callback h => .ok (poll s h)
  | .second => .ok (thread2Entry s)
  | .kill => kill s

/-- `main` waits for the threads to end, and the loop of the first thread for both its handles to be
stopped. -/
def enabled (s : Process) : Event → Prop
  | .main =>
    s.main ≠ .returned ∧ (s.main = .joinFirst → s.first = .ended) ∧
      (s.main = .joinSecond → s.second = .ended)
  | .first =>
    s.first ≠ .notCreated ∧ s.first ≠ .ended ∧
      (s.first = .run → (s.handle .firstA).listens = false ∧ (s.handle .firstB).listens = false)
  | .callback h => s.first = .run ∧ h.isSecond = false ∧ (s.handle h).pending = true
  | .second => s.second ≠ .notCreated ∧ s.second ≠ .ended
  | .kill => s.main ≠ .returned

def signals : EventLoop Process Event Stop := ⟨enabled, dispatch⟩

/-- Decides what may come next, for the witnesses. -/
def decideEnabled (s : Process) : (e : Event) → Decidable (signals.enabled s e)
  | .main => inferInstanceAs (Decidable (_ ∧ _ ∧ _))
  | .first => inferInstanceAs (Decidable (_ ∧ _ ∧ _))
  | .callback _ => inferInstanceAs (Decidable (_ ∧ _ ∧ _))
  | .second => inferInstanceAs (Decidable (_ ∧ _))
  | .kill => inferInstanceAs (Decidable (¬ _))

instance (s : Process) (e : Event) : Decidable (signals.enabled s e) := decideEnabled s e

/-! ### The invariant -/

/-- What the handles of the first thread do, by where it is. -/
def FirstPc.Handles (a b : Watcher) : FirstPc → Prop
  | notCreated | startA => a = .unused ∧ b = .unused
  | startB => a.listens = true ∧ b = .unused
  | run => a ≠ .unused ∧ b ≠ .unused
  | ended => a = .stopped ∧ b = .stopped

/-- What the handles of the second thread do. -/
def SecondPc.Handles (a b : Watcher) : SecondPc → Prop
  | notCreated | startA => a = .unused ∧ b = .unused
  | startB => a.listens = true ∧ b = .unused
  | runLoop1 => a ≠ .unused ∧ b.listens = true
  | runLoop2 => a = .stopped ∧ b.listens = true
  | ended => a = .stopped ∧ b = .stopped

/-- Where the threads are, by where `main` is. -/
def MainPc.Threads (p : FirstPc) (q : SecondPc) : MainPc → Prop
  | createFirst => p = .notCreated ∧ q = .notCreated
  | createSecond => p ≠ .notCreated ∧ q = .notCreated
  | joinFirst => p ≠ .notCreated ∧ q ≠ .notCreated
  | joinSecond => p = .ended ∧ q ≠ .notCreated
  | returned => p = .ended ∧ q = .ended

/-- What is known of the callbacks. -/
structure Called (s : Process) : Prop where
  mem : ∀ h, h ∈ s.called ↔ s.handle h = .stopped
  nodup : s.called.Nodup
  inTurn : s.called.filter Handle.isSecond <+: [.secondA, .secondB]
  stderr : s.stderr = .listening :: .sendIt :: s.called.map fun _ => .received SIGUSR1

/-- **The invariant.** -/
structure Sound (s : Process) : Prop where
  main : s.main.Threads s.first s.second
  first : s.first.Handles (s.handle .firstA) (s.handle .firstB)
  second : s.second.Handles (s.handle .secondA) (s.handle .secondB)
  called : Called s

theorem init_sound : Sound init where
  main := ⟨rfl, rfl⟩
  first := ⟨rfl, rfl⟩
  second := ⟨rfl, rfl⟩
  called := ⟨by simp [init], List.nodup_nil, List.nil_prefix, rfl⟩

section

variable {s u : Process} {h : Handle}

@[simp] theorem setHandle_self (w : Watcher) : (s.setHandle h w).handle h = w :=
  Function.update_self _ _ _

@[simp] theorem setHandle_of_ne {k : Handle} (w : Watcher) (hne : k ≠ h) :
    (s.setHandle h w).handle k = s.handle k :=
  Function.update_of_ne hne _ _

/-! ### The callbacks -/

/-- A step that stops no handle. -/
theorem Called.keep (hc : Called s) (hcalled : u.called = s.called) (hstderr : u.stderr = s.stderr)
    (hhandle : ∀ k, u.handle k = .stopped ↔ s.handle k = .stopped) : Called u where
  mem k := by
    rw [hcalled, hhandle]
    exact hc.mem k
  nodup := by
    rw [hcalled]
    exact hc.nodup
  inTurn := by
    rw [hcalled]
    exact hc.inTurn
  stderr := by
    rw [hcalled, hstderr]
    exact hc.stderr

/-- `uv_signal_start`. -/
theorem Called.start (hc : Called s) (hunused : s.handle h = .unused)
    (hcalled : u.called = s.called) (hstderr : u.stderr = s.stderr)
    (hhandle : u.handle = (s.setHandle h (.started 0)).handle) : Called u := by
  refine hc.keep hcalled hstderr fun k => ?_
  rw [hhandle]
  by_cases hk : k = h
  · rw [hk, setHandle_self, hunused]
    simp
  · rw [setHandle_of_ne _ hk]

theorem prefix_pair {α : Type} {l : List α} {a b : α} (hl : l <+: [a, b]) :
    l = [] ∨ l = [a] ∨ l = [a, b] := by
  rcases List.prefix_cons_iff.mp hl with hnil | ⟨m, rfl, hm⟩
  · exact .inl hnil
  · rcases List.prefix_cons_iff.mp hm with rfl | ⟨k, rfl, hk⟩
    · exact .inr (.inl rfl)
    · rw [List.prefix_nil.mp hk]
      exact .inr (.inr rfl)

/-- The callbacks of the second thread so far, when one of its handles is called back. -/
theorem Called.turn (hc : Called s) (hlistens : (s.handle h).listens = true)
    (hturn : h = .secondA → (s.handle .secondB).listens = true)
    (hturn' : h = .secondB → s.handle .secondA = .stopped) :
    (s.called ++ [h]).filter Handle.isSecond <+: [.secondA, .secondB] := by
  have hnot : ∀ {k}, (s.handle k).listens = true → k ∉ s.called.filter Handle.isSecond := by
    intro k hk hmem
    rw [(hc.mem k).mp (List.mem_filter.mp hmem).1] at hk
    cases hk
  have hin := hc.inTurn
  rw [List.filter_append]
  cases h with
  | firstA => simpa [Handle.isSecond] using hin
  | firstB => simpa [Handle.isSecond] using hin
  | secondA =>
    have hA := hnot hlistens
    have hB := hnot (hturn rfl)
    rcases prefix_pair hin with hnil | hone | htwo
    · rw [hnil]
      exact ⟨[.secondB], rfl⟩
    · rw [hone] at hA
      exact absurd List.mem_cons_self hA
    · rw [htwo] at hA
      exact absurd List.mem_cons_self hA
  | secondB =>
    have hA : Handle.secondA ∈ s.called.filter Handle.isSecond :=
      List.mem_filter.mpr ⟨(hc.mem _).mpr (hturn' rfl), rfl⟩
    have hB := hnot hlistens
    rcases prefix_pair hin with hnil | hone | htwo
    · rw [hnil] at hA
      cases hA
    · rw [hone]
      exact List.prefix_rfl
    · rw [htwo] at hB
      simp at hB

theorem Called.signalCb (hc : Called s) (hlistens : (s.handle h).listens = true)
    (hturn : h = .secondA → (s.handle .secondB).listens = true)
    (hturn' : h = .secondB → s.handle .secondA = .stopped) : Called (signalCb s h) where
  mem k := by
    show k ∈ s.called ++ [h] ↔ (s.setHandle h .stopped).handle k = .stopped
    rw [List.mem_append, List.mem_singleton]
    by_cases hk : k = h
    · rw [hk, setHandle_self]
      simp
    · rw [setHandle_of_ne _ hk, ← hc.mem k]
      simp [hk]
  nodup := by
    have hnot : h ∉ s.called := by
      intro hmem
      rw [(hc.mem h).mp hmem] at hlistens
      cases hlistens
    show (s.called ++ [h]).Nodup
    rw [← List.concat_eq_append]
    exact hc.nodup.concat hnot
  inTurn := hc.turn hlistens hturn hturn'
  stderr := by
    show s.stderr ++ [.received SIGUSR1] = _
    rw [hc.stderr]
    simp [Signals.signalCb]

/-! ### The steps keep the invariant -/

theorem Sound.mainStep (hs : Sound s) (he : signals.enabled s .main) : Sound (mainStep s) := by
  have hmain := hs.main
  obtain ⟨hgo, hfirst, hsecond⟩ := he
  unfold Signals.mainStep
  cases hm : s.main with
  | createFirst =>
    rw [hm] at hmain
    have hunused := hs.first
    rw [hmain.1] at hunused
    exact ⟨⟨nofun, hmain.2⟩, hunused, hs.second, hs.called.keep rfl rfl fun _ => Iff.rfl⟩
  | createSecond =>
    rw [hm] at hmain
    have hunused := hs.second
    rw [hmain.2] at hunused
    exact ⟨⟨hmain.1, nofun⟩, hs.first, hunused, hs.called.keep rfl rfl fun _ => Iff.rfl⟩
  | joinFirst =>
    rw [hm] at hmain
    exact ⟨⟨hfirst hm, hmain.2⟩, hs.first, hs.second, hs.called.keep rfl rfl fun _ => Iff.rfl⟩
  | joinSecond =>
    rw [hm] at hmain
    exact ⟨⟨hmain.1, hsecond hm⟩, hs.first, hs.second, hs.called.keep rfl rfl fun _ => Iff.rfl⟩
  | returned => exact absurd hm hgo

theorem Sound.thread1Entry (hs : Sound s) (he : signals.enabled s .first) :
    Sound (thread1Entry s) := by
  have hmain := hs.main
  have hfirst := hs.first
  obtain ⟨hgo, -, hquiet⟩ := he
  have hrest : ∀ {p : FirstPc}, s.first ≠ .ended → p ≠ .notCreated →
      s.main.Threads p s.second := by
    intro p hne hp
    cases hm : s.main with
    | createFirst =>
      rw [hm] at hmain
      exact absurd hmain.1 hgo
    | createSecond =>
      rw [hm] at hmain
      exact ⟨hp, hmain.2⟩
    | joinFirst =>
      rw [hm] at hmain
      exact ⟨hp, hmain.2⟩
    | joinSecond =>
      rw [hm] at hmain
      exact absurd hmain.1 hne
    | returned =>
      rw [hm] at hmain
      exact absurd hmain.1 hne
  unfold Signals.thread1Entry
  cases hp : s.first with
  | startA =>
    rw [hp] at hfirst
    refine ⟨hrest (by rw [hp]; nofun) nofun, ⟨rfl, hfirst.2⟩, hs.second, ?_⟩
    exact hs.called.start hfirst.1 rfl rfl rfl
  | startB =>
    rw [hp] at hfirst
    refine ⟨hrest (by rw [hp]; nofun) nofun, ⟨?_, nofun⟩, hs.second, ?_⟩
    · exact Watcher.ne_unused hfirst.1
    · exact hs.called.start hfirst.2 rfl rfl rfl
  | run =>
    rw [hp] at hfirst
    obtain ⟨hA, hB⟩ := hquiet hp
    exact ⟨hrest (by rw [hp]; nofun) nofun,
      ⟨Watcher.eq_stopped hfirst.1 hA, Watcher.eq_stopped hfirst.2 hB⟩, hs.second,
      hs.called.keep rfl rfl fun _ => Iff.rfl⟩
  | notCreated => exact hs
  | ended => exact hs

theorem Sound.callback (hs : Sound s) (he : signals.enabled s (.callback h)) :
    Sound (poll s h) := by
  obtain ⟨hrun, hfirst, hpending⟩ := he
  have hcalled : Called (Signals.signalCb s h) := by
    refine hs.called.signalCb (Watcher.listens_of_pending hpending) ?_ ?_
    · rintro rfl
      cases hfirst
    · rintro rfl
      cases hfirst
  have hhandles := hs.first
  rw [hrun] at hhandles
  rw [poll, if_pos hpending]
  cases h with
  | firstA =>
    refine ⟨hs.main, ?_, hs.second, hcalled⟩
    show s.first.Handles .stopped (s.handle .firstB)
    rw [hrun]
    exact ⟨nofun, hhandles.2⟩
  | firstB =>
    refine ⟨hs.main, ?_, hs.second, hcalled⟩
    show s.first.Handles (s.handle .firstA) .stopped
    rw [hrun]
    exact ⟨hhandles.1, nofun⟩
  | secondA => cases hfirst
  | secondB => cases hfirst

/-- One turn of a loop of the second thread, which may stop its handle. -/
theorem poll_cases (s : Process) (h : Handle) :
    ((s.handle h).pending = true ∧ poll s h = Signals.signalCb s h ∧
        ((poll s h).handle h).listens = false) ∨
      poll s h = s := by
  by_cases hpending : (s.handle h).pending = true
  · refine .inl ⟨hpending, if_pos hpending, ?_⟩
    rw [poll, if_pos hpending]
    show ((s.setHandle h .stopped).handle h).listens = false
    rw [setHandle_self]
    rfl
  · exact .inr (if_neg hpending)

theorem Sound.thread2Entry (hs : Sound s) (he : signals.enabled s .second) :
    Sound (thread2Entry s) := by
  have hmain := hs.main
  have hsecond := hs.second
  obtain ⟨hgo, hne⟩ := he
  have hrest : ∀ {q : SecondPc}, q ≠ .notCreated → s.main.Threads s.first q := by
    intro q hq
    cases hm : s.main with
    | createFirst =>
      rw [hm] at hmain
      exact absurd hmain.2 hgo
    | createSecond =>
      rw [hm] at hmain
      exact absurd hmain.2 hgo
    | joinFirst =>
      rw [hm] at hmain
      exact ⟨hmain.1, hq⟩
    | joinSecond =>
      rw [hm] at hmain
      exact ⟨hmain.1, hq⟩
    | returned =>
      rw [hm] at hmain
      exact absurd hmain.2 hne
  unfold Signals.thread2Entry
  cases hq : s.second with
  | startA =>
    rw [hq] at hsecond
    exact ⟨hrest nofun, hs.first, ⟨rfl, hsecond.2⟩, hs.called.start hsecond.1 rfl rfl rfl⟩
  | startB =>
    rw [hq] at hsecond
    exact ⟨hrest nofun, hs.first, ⟨Watcher.ne_unused hsecond.1, rfl⟩,
      hs.called.start hsecond.2 rfl rfl rfl⟩
  | runLoop1 =>
    rw [hq] at hsecond
    obtain ⟨hA, hB⟩ := hsecond
    rcases poll_cases s .secondA with ⟨hpending, hpoll, hlistens⟩ | hpoll
    · -- the handle of `loop1` was stopped
      simp only [hlistens]
      rw [hpoll]
      refine ⟨hrest nofun, hs.first, ⟨rfl, hB⟩, ?_⟩
      refine (hs.called.signalCb (h := .secondA) (Watcher.listens_of_pending hpending)
        (fun _ => hB) nofun).keep rfl rfl fun _ => Iff.rfl
    · simp only [hpoll]
      cases hlistens : (s.handle .secondA).listens with
      | true =>
        exact ⟨hrest nofun, hs.first, ⟨hA, hB⟩, hs.called.keep rfl rfl fun _ => Iff.rfl⟩
      | false =>
        exact ⟨hrest nofun, hs.first, ⟨Watcher.eq_stopped hA hlistens, hB⟩,
          hs.called.keep rfl rfl fun _ => Iff.rfl⟩
  | runLoop2 =>
    rw [hq] at hsecond
    obtain ⟨hA, hB⟩ := hsecond
    rcases poll_cases s .secondB with ⟨hpending, hpoll, hlistens⟩ | hpoll
    · simp only [hlistens]
      rw [hpoll]
      refine ⟨hrest nofun, hs.first, ⟨hA, rfl⟩, ?_⟩
      refine (hs.called.signalCb (h := .secondB) hB nofun fun _ => hA).keep rfl rfl
        fun _ => Iff.rfl
    · -- nothing has come for `loop2`, and `loop1` is asked again
      simp only [hpoll, hB]
      refine ⟨hrest nofun, hs.first, ⟨?_, hB⟩, hs.called.keep rfl rfl fun _ => Iff.rfl⟩
      rw [hA]
      nofun
  | notCreated => exact hs
  | ended => exact hs

theorem Sound.kill (hs : Sound s) (hok : kill s = .ok u) : Sound u := by
  unfold Signals.kill at hok
  split at hok
  · cases hok
    refine ⟨hs.main, ?_, ?_, hs.called.keep rfl rfl fun k => Watcher.catchSignal_eq_stopped _⟩
    · have hfirst := hs.first
      show s.first.Handles (s.handle .firstA).catchSignal (s.handle .firstB).catchSignal
      cases hp : s.first <;> rw [hp] at hfirst <;> simpa [FirstPc.Handles] using hfirst
    · have hsecond := hs.second
      show s.second.Handles (s.handle .secondA).catchSignal (s.handle .secondB).catchSignal
      cases hq : s.second <;> rw [hq] at hsecond <;> simpa [SecondPc.Handles] using hsecond
  · cases hok

/-- **One step.** -/
theorem Sound.step {e : Event} (hs : Sound s) (he : signals.enabled s e)
    (hok : signals.dispatch s e = .ok u) : Sound u := by
  cases e with
  | main =>
    cases hok
    exact hs.mainStep he
  | first =>
    cases hok
    exact hs.thread1Entry he
  | callback h =>
    cases hok
    exact hs.callback he
  | second =>
    cases hok
    exact hs.thread2Entry he
  | kill => exact hs.kill hok

theorem sound_of_run {es : List Event} (hrun : signals.Run init es s) : Sound s :=
  hrun.invariant init_sound fun _ _ _ hs he hok => hs.step he hok

/-! ### Nobody is called back without a signal -/

/-- No signal has come. -/
def Quiet (s : Process) : Prop := ∀ h, s.handle h = .unused ∨ s.handle h = .started 0

theorem Quiet.not_pending (hq : Quiet s) (h : Handle) : (s.handle h).pending = false := by
  rcases hq h with hw | hw <;> rw [hw] <;> rfl

theorem Quiet.start (hq : Quiet s) (h : Handle)
    (hhandle : u.handle = (s.setHandle h (.started 0)).handle) : Quiet u := by
  intro k
  rw [hhandle]
  by_cases hk : k = h
  · rw [hk, setHandle_self]
    exact .inr rfl
  · rw [setHandle_of_ne _ hk]
    exact hq k

theorem Quiet.poll (hq : Quiet s) (h : Handle) : poll s h = s :=
  if_neg (by rw [hq.not_pending h]; nofun)

theorem Quiet.step {e : Event} (hq : Quiet s) (hne : e ≠ .kill)
    (hok : signals.dispatch s e = .ok u) : Quiet u := by
  cases e with
  | main =>
    cases hok
    show Quiet (mainStep s)
    unfold mainStep
    split <;> exact hq
  | first =>
    cases hok
    show Quiet (thread1Entry s)
    unfold thread1Entry
    split
    · exact hq.start .firstA rfl
    · exact hq.start .firstB rfl
    all_goals exact hq
  | callback h =>
    cases hok
    show Quiet (Signals.poll s h)
    rw [hq.poll]
    exact hq
  | second =>
    cases hok
    show Quiet (thread2Entry s)
    unfold thread2Entry
    simp only [hq.poll]
    split
    · exact hq.start .secondA rfl
    · exact hq.start .secondB rfl
    all_goals exact hq
  | kill => exact absurd rfl hne

theorem quiet_of_run {es : List Event} (hrun : signals.Run init es s) (hkill : .kill ∉ es) :
    Quiet s := by
  refine hrun.history (P := fun es s => Event.kill ∉ es → Quiet s) (fun _ _ => .inl rfl) ?_ hkill
  intro es s e u hq _ hok hnot
  rw [List.mem_append, not_or] at hnot
  exact (hq hnot.1).step (fun he => hnot.2 (List.mem_singleton.mpr he.symm)) hok

/-! ### One signal for all -/

/-- Every handle has caught a signal, and may have been stopped by it. -/
def Heard (s : Process) : Prop := ∀ h, (s.handle h).pending = true ∨ s.handle h = .stopped

theorem Heard.ne_unused (hh : Heard s) (h : Handle) : s.handle h ≠ .unused := by
  intro hunused
  have := hh h
  rw [hunused] at this
  rcases this with hpending | hstopped
  · cases hpending
  · cases hstopped

theorem Heard.poll (hh : Heard s) (h : Handle) : Heard (poll s h) := by
  rcases poll_cases s h with ⟨-, hpoll, -⟩ | hpoll
  · rw [hpoll]
    intro k
    show ((s.setHandle h .stopped).handle k).pending = true ∨ (s.setHandle h .stopped).handle k = _
    by_cases hk : k = h
    · rw [hk, setHandle_self]
      exact .inr rfl
    · rw [setHandle_of_ne _ hk]
      exact hh k
  · rw [hpoll]
    exact hh

/-- Where the threads are then. -/
theorem Sound.heard (hs : Sound s) (hh : Heard s) :
    (s.first = .run ∨ s.first = .ended) ∧
      (s.second = .runLoop1 ∨ s.second = .runLoop2 ∨ s.second = .ended) := by
  have hfirst := hs.first
  have hsecond := hs.second
  constructor
  · cases hp : s.first with
    | run => exact .inl rfl
    | ended => exact .inr rfl
    | notCreated =>
      rw [hp] at hfirst
      exact absurd hfirst.2 (hh.ne_unused .firstB)
    | startA =>
      rw [hp] at hfirst
      exact absurd hfirst.2 (hh.ne_unused .firstB)
    | startB =>
      rw [hp] at hfirst
      exact absurd hfirst.2 (hh.ne_unused .firstB)
  · cases hq : s.second with
    | runLoop1 => exact .inl rfl
    | runLoop2 => exact .inr (.inl rfl)
    | ended => exact .inr (.inr rfl)
    | notCreated =>
      rw [hq] at hsecond
      exact absurd hsecond.2 (hh.ne_unused .secondB)
    | startA =>
      rw [hq] at hsecond
      exact absurd hsecond.2 (hh.ne_unused .secondB)
    | startB =>
      rw [hq] at hsecond
      exact absurd hsecond.2 (hh.ne_unused .secondB)

theorem Heard.step {e : Event} (hs : Sound s) (hh : Heard s) (hok : signals.dispatch s e = .ok u) :
    Heard u := by
  obtain ⟨hfirst, hsecond⟩ := hs.heard hh
  cases e with
  | main =>
    cases hok
    show Heard (mainStep s)
    unfold mainStep
    split <;> exact hh
  | first =>
    cases hok
    show Heard (thread1Entry s)
    unfold thread1Entry
    rcases hfirst with hp | hp <;> rw [hp] <;> exact hh
  | callback h =>
    cases hok
    exact hh.poll h
  | second =>
    cases hok
    show Heard (thread2Entry s)
    unfold thread2Entry
    rcases hsecond with hq | hq | hq
    · rw [hq]
      exact hh.poll .secondA
    · rw [hq]
      exact hh.poll .secondB
    · rw [hq]
      exact hh
  | kill =>
    have hok' : kill s = .ok u := hok
    unfold kill at hok'
    split at hok'
    · cases hok'
      intro h
      rcases hh h with hpending | hstopped
      · exact .inl (Watcher.pending_catchSignal (Watcher.listens_of_pending hpending))
      · exact .inr ((Watcher.catchSignal_eq_stopped _).mpr hstopped)
    · cases hok'

def FirstPc.left : FirstPc → ℕ
  | ended => 0
  | _ => 1

def SecondPc.left : SecondPc → ℕ
  | ended => 0
  | runLoop2 => 1
  | _ => 2

def MainPc.left : MainPc → ℕ
  | returned => 0
  | joinSecond => 1
  | _ => 2

/-- How many steps there are to the end, once every handle has caught a signal. -/
def Process.left (s : Process) : ℕ :=
  (s.handle .firstA).listens.toNat + (s.handle .firstB).listens.toNat + s.first.left + s.second.left
    + s.main.left

/-- The callbacks of the first thread. -/
theorem left_callback (hpending : (s.handle h).pending = true) (hfirst : h.isSecond = false) :
    (poll s h).left < s.left := by
  have hlistens : (s.handle h).listens = true := Watcher.listens_of_pending hpending
  rw [poll, if_pos hpending]
  cases h with
  | firstA =>
    show (Watcher.stopped).listens.toNat + (s.handle .firstB).listens.toNat + s.first.left
      + s.second.left + s.main.left < s.left
    rw [Process.left, hlistens, Watcher.listens, Bool.toNat_true, Bool.toNat_false]
    omega
  | firstB =>
    show (s.handle .firstA).listens.toNat + (Watcher.stopped).listens.toNat + s.first.left
      + s.second.left + s.main.left < s.left
    rw [Process.left, hlistens, Watcher.listens, Bool.toNat_true, Bool.toNat_false]
    omega
  | secondA => cases hfirst
  | secondB => cases hfirst

/-- A handle that listens is called back when its turn comes. -/
theorem Heard.poll_quiet (hh : Heard s) (h : Handle) :
    ((Signals.poll s h).handle h).listens = false := by
  rcases poll_cases s h with ⟨-, -, hlistens⟩ | hpoll
  · exact hlistens
  · rcases hh h with hpending | hstopped
    · rw [Signals.poll, if_pos hpending]
      show ((s.setHandle h .stopped).handle h).listens = false
      rw [setHandle_self]
      rfl
    · rw [hpoll, hstopped]
      rfl

/-- A turn of the second thread brings it nearer to its end. -/
theorem left_second (hs : Sound s) (hh : Heard s) (hne : s.second ≠ .ended) :
    (thread2Entry s).left < s.left := by
  have hother : ∀ h, h.isSecond = true → ∀ k, k.isSecond = false →
      (Signals.poll s h).handle k = s.handle k := by
    intro h hh k hk
    rcases poll_cases s h with ⟨-, hpoll, -⟩ | hpoll
    · rw [hpoll]
      refine setHandle_of_ne _ ?_
      rintro rfl
      rw [hh] at hk
      cases hk
    · rw [hpoll]
  have hsame : ∀ h, (Signals.poll s h).first = s.first ∧ (Signals.poll s h).main = s.main := by
    intro h
    rcases poll_cases s h with ⟨-, hpoll, -⟩ | hpoll <;> rw [hpoll] <;> exact ⟨rfl, rfl⟩
  rcases (hs.heard hh).2 with hq | hq | hq
  · unfold thread2Entry
    simp only [hq, hh.poll_quiet, Process.left, hother .secondA rfl .firstA rfl,
      hother .secondA rfl .firstB rfl, hsame]
    simp [SecondPc.left]
  · unfold thread2Entry
    simp only [hq, hh.poll_quiet, Process.left, hother .secondB rfl .firstA rfl,
      hother .secondB rfl .firstB rfl, hsame]
    simp [SecondPc.left]
  · exact absurd hq hne

/-- **Progress.**  As long as `main` has not returned, a thread can go on without another signal. -/
theorem Sound.progress (hs : Sound s) (hh : Heard s) (hmain : s.main ≠ .returned) :
    ∃ e u, signals.enabled s e ∧ e ≠ .kill ∧ signals.dispatch s e = .ok u ∧ u.left < s.left := by
  obtain ⟨hfirst, hsecond⟩ := hs.heard hh
  have hcall : ∀ {h}, h.isSecond = false → s.first = .run → (s.handle h).listens = true →
      ∃ e u, signals.enabled s e ∧ e ≠ .kill ∧ signals.dispatch s e = .ok u ∧ u.left < s.left := by
    intro h hsecond hrun hlistens
    rcases hh h with hpending | hstopped
    · exact ⟨.callback h, _, ⟨hrun, hsecond, hpending⟩, nofun, rfl, left_callback hpending hsecond⟩
    · rw [hstopped] at hlistens
      cases hlistens
  rcases hfirst with hrun | hended
  · cases hA : (s.handle .firstA).listens with
    | true => exact hcall rfl hrun hA
    | false =>
      cases hB : (s.handle .firstB).listens with
      | true => exact hcall rfl hrun hB
      | false =>
        refine ⟨.first, _, ⟨by rw [hrun]; nofun, by rw [hrun]; nofun, fun _ => ⟨hA, hB⟩⟩, nofun,
          rfl, ?_⟩
        show (Signals.thread1Entry s).left < s.left
        unfold Signals.thread1Entry
        simp only [hrun, Process.left]
        simp [FirstPc.left]
  · by_cases hq : s.second = .ended
    · have hthreads := hs.main
      cases hm : s.main with
      | returned => exact absurd hm hmain
      | createFirst =>
        rw [hm, hended] at hthreads
        cases hthreads.1
      | createSecond =>
        rw [hm, hq] at hthreads
        cases hthreads.2
      | joinFirst =>
        refine ⟨.main, _, ⟨hmain, fun _ => hended, fun _ => hq⟩, nofun, rfl, ?_⟩
        show (Signals.mainStep s).left < s.left
        unfold Signals.mainStep
        simp only [hm, Process.left]
        simp [MainPc.left]
      | joinSecond =>
        refine ⟨.main, _, ⟨hmain, fun _ => hended, fun _ => hq⟩, nofun, rfl, ?_⟩
        show (Signals.mainStep s).left < s.left
        unfold Signals.mainStep
        simp only [hm, Process.left]
        simp [MainPc.left]
    · refine ⟨.second, _, ⟨?_, hq⟩, nofun, rfl, left_second hs hh hq⟩
      rcases hsecond with hq' | hq' | hq' <;> rw [hq'] <;> nofun

end

/-! ### Every run -/

/-- **The callbacks.**  In every run, whenever signals come and whatever the threads do when: a
handle is called back at most once, and only if a signal has come; the one on `loop2` of the second
thread after the one on `loop1`; and when `main` has returned, all of them have been. -/
theorem called_of_run {es : List Event} {s : Process} (hrun : signals.Run init es s) :
    s.stderr = .listening :: .sendIt :: s.called.map (fun _ => .received SIGUSR1) ∧
      s.called.Nodup ∧ (s.called ≠ [] → .kill ∈ es) ∧
      s.called.filter Handle.isSecond <+: [.secondA, .secondB] ∧
      (s.main = .returned → s.called.Perm Handle.all) := by
  have hs := sound_of_run hrun
  refine ⟨hs.called.stderr, hs.called.nodup, fun hne => ?_, hs.called.inTurn, fun hmain => ?_⟩
  · by_contra hkill
    have hquiet := quiet_of_run hrun hkill
    obtain ⟨h, hmem⟩ := List.exists_mem_of_ne_nil _ hne
    have hstopped := (hs.called.mem h).mp hmem
    rcases hquiet h with hw | hw <;> rw [hw] at hstopped <;> cases hstopped
  · have hthreads := hs.main
    have hfirst := hs.first
    have hsecond := hs.second
    rw [hmain] at hthreads
    rw [hthreads.1] at hfirst
    rw [hthreads.2] at hsecond
    refine (List.perm_ext_iff_of_nodup hs.called.nodup (by decide)).mpr fun h => ?_
    rw [hs.called.mem]
    cases h with
    | firstA => simp [hfirst.1, Handle.all]
    | firstB => simp [hfirst.2, Handle.all]
    | secondA => simp [hsecond.1, Handle.all]
    | secondB => simp [hsecond.2, Handle.all]

/-- The threads start their handles one after the other. -/
def startAll : List Event := [.main, .main, .first, .second, .first, .second]

/-- The second thread has been called back on `loop1` only. -/
theorem called_of_run_loop1 : ∃ es s, signals.Run init es s ∧ s.called = [.firstB, .secondA] ∧
    s.stderr = .listening :: .sendIt :: s.called.map (fun _ => .received SIGUSR1) ∧
      s.called.Nodup ∧ (s.called ≠ [] → .kill ∈ es) ∧
      s.called.filter Handle.isSecond <+: [.secondA, .secondB] ∧
      (s.main = .returned → s.called.Perm Handle.all) := by
  obtain ⟨s, hrun, hcalled⟩ := EventLoop.exists_run_of_plays
    (show (signals.plays init (startAll ++ [.second, .kill, .callback .firstB, .second])).any
      (fun s => s.called == [.firstB, .secondA]) = true by decide +kernel)
  exact ⟨_, s, hrun, eq_of_beq hcalled, called_of_run hrun⟩

/-- **One signal is enough**, once all four handles listen: whatever happens after it, more signals
included, the program can be brought to its end without another one. -/
theorem oneSignal_suffices {es fs : List Event} {s t u : Process}
    (hrun : signals.Run init es s) (hall : ∀ h, (s.handle h).listens = true)
    (hkill : signals.dispatch s .kill = .ok t) (hafter : signals.Run t fs u) :
    ∃ gs v, signals.Run u gs v ∧ .kill ∉ gs ∧ v.main = .returned := by
  have ht : Sound t ∧ Heard t := by
    have hs := sound_of_run hrun
    refine ⟨hs.kill hkill, fun h => ?_⟩
    have hkill' : kill s = .ok t := hkill
    unfold kill at hkill'
    split at hkill'
    · cases hkill'
      exact .inl (Watcher.pending_catchSignal (hall h))
    · cases hkill'
  have hu : Sound u ∧ Heard u :=
    hafter.invariant (P := fun u => Sound u ∧ Heard u) ht
      fun _ _ _ hs he hok => ⟨hs.1.step he hok, hs.2.step hs.1 hok⟩
  obtain ⟨gs, v, hgs, -, hmain⟩ := EventLoop.exists_run_to
    (L := signals.restrict fun _ e => e ≠ .kill) (P := fun u => Sound u ∧ Heard u)
    (D := fun v => v.main = .returned) Process.left (fun t ht hmain => by
      obtain ⟨e, u, he, hne, hok, hlt⟩ := ht.1.progress ht.2 hmain
      exact ⟨e, u, ⟨he, hne⟩, hok, ⟨ht.1.step he hok, ht.2.step ht.1 hok⟩, hlt⟩) hu
  exact ⟨gs, v, hgs.of_restrict, fun hmem => hgs.guards _ hmem rfl, hmain⟩

/-- A signal for four handles that listen. -/
theorem oneSignal_suffices_first : ∃ s t, signals.Run init startAll s ∧
    signals.dispatch s .kill = .ok t ∧
    ∃ gs v, signals.Run t gs v ∧ .kill ∉ gs ∧ v.main = .returned := by
  obtain ⟨s, hrun, hlisten⟩ := EventLoop.exists_run_of_plays
    (show (signals.plays init startAll).any
      (fun s => Handle.all.all fun h => (s.handle h).listens) = true by decide +kernel)
  have hall : ∀ h, (s.handle h).listens = true := by
    intro h
    exact List.all_eq_true.mp hlisten h (by cases h <;> decide)
  have hkill : signals.dispatch s .kill
      = .ok { s with handle := fun h => (s.handle h).catchSignal } :=
    if_pos (List.any_eq_true.mpr ⟨.firstA, by decide, hall _⟩)
  exact ⟨s, _, hrun, hkill, oneSignal_suffices hrun hall hkill .nil⟩

end LibuvDox.Signals
