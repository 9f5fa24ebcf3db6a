import LibuvDox.Lib.CString
import LibuvDox.Lib.EventLoop
import LibuvDox.Uv
import Mathlib.Data.UInt

/-!
# 23-idle-compute/main.c

The program prints what is typed as it comes: a read of stdin fills the one shared buffer, its
callback terminates the buffer where the read ended, prints it as a C string and starts the next
read.  Between two reads an idle callback stands for a long computation.  The read asks for all the
bytes that the buffer has, so a read that gets them leaves no room for the terminator.

* `Sound.stays_iff`: the terminator lands in the buffer exactly if the read did not fill it.
* `keepsPromises_iff`: over whole schedules, what was read is printed, one read after another,
  exactly as long as no read fills the buffer.
* `outstanding_le_one`, `input_ended`: one read is outstanding at a time, until the input ends.
-/

namespace LibuvDox.IdleCompute

/-- `sizeof(buffer)`. -/
def bufferSize : ℕ := 1024

/-- The length that `uv_fs_read` is asked for. -/
def readLen : ℕ := 1024

/-- What is typed: it has no NUL. -/
structure Stdin where
  bytes : Bytes
  noNul : ∀ c ∈ bytes, c ≠ 0

/-- What can be seen from outside: reads begin and end, and texts are printed.  A text comes with
the number of reads that were outstanding when it was printed. -/
inductive Entry where
  | readStarted
  | readDone (result : ℤ)
  | typed (text : Bytes) (outstanding : ℕ)
  | failed (result : ℤ)
  | computing
  deriving DecidableEq, Repr

/-- The position in stdin, the buffer, `stdin_watcher.result`, the reads under way, the finished
ones whose callback is due, whether the idler is active, and what has happened. -/
structure Idle where
  offset : ℕ
  buffer : Bytes
  result : ℤ
  reading : ℕ
  finished : ℕ
  idling : Bool
  log : List Entry
  deriving DecidableEq, Repr

/-- A read ends with a result; its callback runs, and what `uv_fs_read` and `uv_idle_start` return
if it calls them; the idler has its turn. -/
inductive IdleEvent where
  | readDone (result : ℤ)
  | stdinFs (fsRead idleStart : ℤ)
  | idle
  deriving DecidableEq, Repr

/-- `ERROR(msg, code)`. -/
def errorMacro : Stop := .assertFailed "0"

namespace Idle

def add (s : Idle) (x : Entry) : Idle := { s with log := s.log ++ [x] }

/-- The reads that have not been called back. -/
def outstanding (s : Idle) : ℕ := s.reading + s.finished

end Idle

/-- `r` and `r'` are what `uv_fs_read` and `uv_idle_start` return. -/
def waitForNextInput (s : Idle) (r r' : ℤ) : Except Stop Idle :=
  if r ≠ 0 then .error errorMacro
  else
    let s := { s.add .readStarted with reading := s.reading + 1 }
    if r' ≠ 0 then .error errorMacro
    else .ok { s with idling := true }

/-- `buffer[stdin_watcher.result] = '\0'`. -/
def terminate (s : Idle) : Except Stop Idle :=
  if s.result.toNat < s.buffer.length then
    .ok { s with buffer := s.buffer.set s.result.toNat 0 }
  else .error (.undefined "buffer[stdin_watcher.result]")

/-- `%s`. -/
def formatString (block : Bytes) : Except Stop Bytes :=
  if 0 ∈ block then .ok (CString.text block) else .error (.undefined "buffer")

def stdinFsCb (s : Idle) (r r' : ℤ) : Except Stop Idle :=
  if s.result > 0 then do
    let s ← terminate s
    let text ← formatString s.buffer
    waitForNextInput (s.add (.typed text s.outstanding)) r r'
  else .ok (s.add (.failed s.result))

def idleCb (s : Idle) : Idle := { s.add .computing with idling := false }

/-- The globals before `main`. -/
def globals : Idle := ⟨0, List.replicate bufferSize 0, 0, 0, 0, false, []⟩

/-- `main` up to `uv_run`. -/
def main (idleInit r r' : ℤ) : Except Stop Idle :=
  if idleInit ≠ 0 then .error errorMacro else waitForNextInput globals r r'

/-- A read has put bytes of stdin at the front of the buffer. -/
def readDone (stdin : Stdin) (s : Idle) (result : ℤ) : Idle :=
  { s.add (.readDone result) with
    offset := s.offset + result.toNat
    buffer := (stdin.bytes.drop s.offset).take result.toNat ++ s.buffer.drop result.toNat
    result := result
    reading := s.reading - 1
    finished := s.finished + 1 }

def dispatch (stdin : Stdin) (s : Idle) : IdleEvent → Except Stop Idle
  | .readDone result => .ok (readDone stdin s result)
  | .stdinFs r r' => stdinFsCb { s with finished := s.finished - 1 } r r'
  | .idle => .ok (idleCb s)

/-- A read returns some of the bytes that are left, as many as were asked for at most, or 0, or an
error. -/
def Enabled (stdin : Stdin) (s : Idle) : IdleEvent → Prop
  | .readDone result =>
    0 < s.reading ∧ result.toNat ≤ readLen ∧ s.offset + result.toNat ≤ stdin.bytes.length
  | .stdinFs _ _ => 0 < s.finished
  | .idle => s.idling = true

instance (stdin : Stdin) (s : Idle) (e : IdleEvent) : Decidable (Enabled stdin s e) :=
  match e with
  | .readDone result => inferInstanceAs (Decidable (0 < s.reading ∧ result.toNat ≤ readLen ∧
      s.offset + result.toNat ≤ stdin.bytes.length))
  | .stdinFs _ _ => inferInstanceAs (Decidable (0 < s.finished))
  | .idle => inferInstanceAs (Decidable (s.idling = true))

def idleCompute (stdin : Stdin) : EventLoop Idle IdleEvent Stop := ⟨Enabled stdin, dispatch stdin⟩

instance (stdin : Stdin) (s : Idle) (e : IdleEvent) : Decidable ((idleCompute stdin).enabled s e) :=
  inferInstanceAs (Decidable (Enabled stdin s e))

/-- The state when `uv_run` is called. -/
def init : Idle := { globals with reading := 1, idling := true, log := [.readStarted] }

/-- The loop is entered with the first read started, if nothing in `main` fails. -/
theorem main_ok_iff {idleInit r r' : ℤ} {s : Idle} :
    main idleInit r r' = .ok s ↔ idleInit = 0 ∧ r = 0 ∧ r' = 0 ∧ s = init := by
  constructor
  · intro h
    unfold main waitForNextInput at h
    split_ifs at h with h0 h1 h2
    cases h
    exact ⟨by omega, by omega, by omega, rfl⟩
  · rintro ⟨rfl, rfl, rfl, rfl⟩
    rfl

/-! ### The terminator -/

/-- The state in which `stdin_fs_cb` waits for more, with what it has printed. -/
def Idle.printed (s : Idle) : Idle :=
  { s with
    finished := s.finished - 1
    buffer := s.buffer.set s.result.toNat 0
    log := s.log ++ [.typed (s.buffer.take s.result.toNat) (s.reading + (s.finished - 1))] }

section

variable (stdin : Stdin) {s : Idle}

/-- The callback of a read that has left room. -/
theorem dispatch_of_lt (hpos : 0 < s.result) (hroom : s.result.toNat < s.buffer.length)
    (hne : ∀ c ∈ s.buffer.take s.result.toNat, c ≠ 0) (r r' : ℤ) :
    dispatch stdin s (.stdinFs r r') = waitForNextInput s.printed r r' := by
  obtain ⟨hmem, htext⟩ := CString.text_set_zero hroom hne
  simp only [dispatch, stdinFsCb, gt_iff_lt, if_pos hpos, terminate, if_pos hroom, formatString,
    if_pos hmem, htext, bind, Except.bind]
  rfl

/-- The callback of a read that has left no room. -/
theorem dispatch_of_ge (hpos : 0 < s.result) (hfull : s.buffer.length ≤ s.result.toNat)
    (r r' : ℤ) : dispatch stdin s (.stdinFs r r') =
      .error (.undefined "buffer[stdin_watcher.result]") := by
  simp only [dispatch, stdinFsCb, gt_iff_lt, if_pos hpos, terminate, if_neg (not_lt.mpr hfull)]
  rfl

/-- The callback of a read that has failed or has come to the end. -/
theorem dispatch_of_nonpos (hpos : ¬ 0 < s.result) (r r' : ℤ) :
    dispatch stdin s (.stdinFs r r') =
      .ok ({ s with finished := s.finished - 1 }.add (.failed s.result)) := by
  simp only [dispatch, stdinFsCb, gt_iff_lt, if_neg hpos]

end

theorem waitForNextInput_ok {s u : Idle} {r r' : ℤ} (h : waitForNextInput s r r' = .ok u) :
    u = { s.add .readStarted with reading := s.reading + 1, idling := true } := by
  unfold waitForNextInput at h
  split_ifs at h
  cases h
  rfl

theorem waitForNextInput_error {s : Idle} {r r' : ℤ} {x : Stop}
    (h : waitForNextInput s r r' = .error x) : x = errorMacro ∧ (r ≠ 0 ∨ r' ≠ 0) := by
  unfold waitForNextInput at h
  split_ifs at h with hr hr'
  · cases h
    exact ⟨rfl, .inl hr⟩
  · cases h
    exact ⟨rfl, .inr hr'⟩

/-! ### The rounds of the loop -/

/-- The last result there is. -/
def Entry.IsEnd : Entry → Prop
  | .readDone result => result ≤ 0
  | _ => False

/-- All that was printed after `Typed`, one text after another. -/
def typed (log : List Entry) : Bytes :=
  log.flatMap fun
    | .typed text _ => text
    | _ => []

theorem typed_append (log log' : List Entry) : typed (log ++ log') = typed log ++ typed log' :=
  List.flatMap_append

/-- No read has ended the input yet. -/
def Goes (log : List Entry) : Prop := ∀ x ∈ log, ¬ x.IsEnd

/-- No text was printed while a read was outstanding. -/
def Alone (log : List Entry) : Prop := ∀ text n, .typed text n ∈ log → n = 0

/-- No read was started after the last result. -/
def Stopped (log : List Entry) : Prop := log.Pairwise fun x y => x.IsEnd → y ≠ .readStarted

theorem Goes.add {log : List Entry} (h : Goes log) {x : Entry} (hx : ¬ x.IsEnd) :
    Goes (log ++ [x]) := by
  intro y hy
  rcases List.mem_append.mp hy with hold | hnew
  · exact h y hold
  · rw [List.mem_singleton.mp hnew]
    exact hx

theorem Alone.add {log : List Entry} (h : Alone log) {x : Entry}
    (hx : ∀ text n, x = .typed text n → n = 0) : Alone (log ++ [x]) := by
  intro text n hmem
  rcases List.mem_append.mp hmem with hold | hnew
  · exact h text n hold
  · exact hx text n (List.mem_singleton.mp hnew).symm

theorem Stopped.add {log : List Entry} (h : Stopped log) {x : Entry}
    (hx : x = .readStarted → Goes log) : Stopped (log ++ [x]) := by
  refine List.pairwise_append.mpr ⟨h, List.pairwise_singleton _ _, ?_⟩
  intro y hy z hz hend hstart
  rw [List.mem_singleton.mp hz] at hstart
  exact hx hstart y hy hend

/-- Where the loop is: a read is under way, or its callback is due, or there is none any more. -/
inductive Phase (stdin : Stdin) (s : Idle) : Prop
  | reading (hreq : s.reading = 1 ∧ s.finished = 0)
      (htyped : typed s.log = stdin.bytes.take s.offset) (hgoes : Goes s.log)
  | due (hreq : s.reading = 0 ∧ s.finished = 1) (hlen : s.result.toNat ≤ readLen)
      (htyped : typed s.log ++ s.buffer.take s.result.toNat = stdin.bytes.take s.offset)
      (hgoes : 0 < s.result → Goes s.log) (hdone : .readDone s.result ∈ s.log)
  | ended (hreq : s.reading = 0 ∧ s.finished = 0)
      (htyped : typed s.log = stdin.bytes.take s.offset) (hend : ∃ x ∈ s.log, x.IsEnd)

/-- What the input loop is meant to keep to: once no callback is due all that was read has been
printed, no text was printed while a read was outstanding, and no read was started after the last
result. -/
structure Holds (stdin : Stdin) (s : Idle) : Prop where
  printed : s.finished = 0 → typed s.log = stdin.bytes.take s.offset
  alone : Alone s.log
  stopped : Stopped s.log

/-- The invariant. -/
structure Sound (stdin : Stdin) (s : Idle) : Prop where
  phase : Phase stdin s
  size : s.buffer.length = bufferSize
  alone : Alone s.log
  stopped : Stopped s.log

theorem init_sound (stdin : Stdin) : Sound stdin init where
  phase := .reading ⟨rfl, rfl⟩ rfl (by simp [Goes, init, Entry.IsEnd])
  size := List.length_replicate
  alone := by simp [Alone, init]
  stopped := by simp [Stopped, init]

section

variable {stdin : Stdin} {s u : Idle}

theorem Sound.holds (h : Sound stdin s) : Holds stdin s := by
  refine ⟨fun hnone => ?_, h.alone, h.stopped⟩
  cases h.phase with
  | reading hreq htyped => exact htyped
  | due hreq => omega
  | ended hreq htyped => exact htyped

/-- A read is called back by a state whose buffer holds what was read, which has no NUL. -/
theorem noNul_of_typed {n : ℕ} (h : typed s.log ++ s.buffer.take n = stdin.bytes.take s.offset) :
    ∀ c ∈ s.buffer.take n, c ≠ 0 := by
  intro c hc
  have hmem : c ∈ stdin.bytes.take s.offset := h ▸ List.mem_append_right _ hc
  exact stdin.noNul c (List.mem_of_mem_take hmem)

/-- The end of a read. -/
theorem Sound.readDone (h : Sound stdin s) {result : ℤ}
    (he : Enabled stdin s (.readDone result)) : Sound stdin (readDone stdin s result) := by
  obtain ⟨hreading, hlen, hleft⟩ := he
  cases h.phase with
  | reading hreq htyped hgoes =>
    have hnext : ((stdin.bytes.drop s.offset).take result.toNat).length = result.toNat := by
      rw [List.length_take, List.length_drop]
      omega
    have hdone : .readDone result ∈ s.log ++ [.readDone result] := by simp
    refine ⟨.due ?_ hlen ?_ ?_ hdone, ?_, h.alone.add nofun, h.stopped.add nofun⟩
    · exact ⟨by simp [IdleCompute.readDone, hreq], by simp [IdleCompute.readDone, hreq]⟩
    · show typed (s.log ++ [.readDone result]) ++ ((stdin.bytes.drop s.offset).take result.toNat
        ++ s.buffer.drop result.toNat).take result.toNat
          = stdin.bytes.take (s.offset + result.toNat)
      rw [List.take_left' hnext, typed_append, htyped, List.take_add]
      simp [typed]
    · intro hpos
      exact hgoes.add (not_le.mpr hpos)
    · show ((stdin.bytes.drop s.offset).take result.toNat ++ s.buffer.drop result.toNat).length = _
      have hsize := h.size
      unfold bufferSize at hsize ⊢
      unfold readLen at hlen
      rw [List.length_append, hnext, List.length_drop]
      omega
  | due hreq => omega
  | ended hreq => omega

/-- The callback of a read, which finds the buffer filled up to `result`. -/
theorem Sound.stdinFs (h : Sound stdin s) {r r' : ℤ} (he : 0 < s.finished)
    (hok : dispatch stdin s (.stdinFs r r') = .ok u) : Sound stdin u := by
  cases h.phase with
  | reading hreq => omega
  | due hreq hlen htyped hgoes hdone =>
    have hnone : s.reading + (s.finished - 1) = 0 := by omega
    by_cases hpos : 0 < s.result
    · by_cases hroom : s.result.toNat < s.buffer.length
      · rw [dispatch_of_lt stdin hpos hroom (noNul_of_typed htyped)] at hok
        obtain rfl := waitForNextInput_ok hok
        have hprinted : Goes s.printed.log := (hgoes hpos).add id
        have hstopped : Stopped s.printed.log := h.stopped.add nofun
        refine ⟨.reading ?_ ?_ (hprinted.add id), ?_, ?_, hstopped.add fun _ => hprinted⟩
        · exact ⟨by simp [Idle.printed, hreq], by simp [Idle.add, Idle.printed, hreq]⟩
        · show typed (s.log ++ [.typed (s.buffer.take s.result.toNat) _] ++ [.readStarted])
            = stdin.bytes.take s.offset
          rw [typed_append, typed_append]
          simpa [typed] using htyped
        · simpa [Idle.add, Idle.printed] using h.size
        · exact (h.alone.add fun _ n hn => by cases hn; exact hnone).add nofun
      · rw [dispatch_of_ge stdin hpos (not_lt.mp hroom)] at hok
        cases hok
    · rw [dispatch_of_nonpos stdin hpos] at hok
      cases hok
      have hend : ∃ x ∈ s.log ++ [.failed s.result], x.IsEnd :=
        ⟨_, List.mem_append_left _ hdone, not_lt.mp hpos⟩
      refine ⟨.ended ?_ ?_ hend, h.size, h.alone.add nofun, h.stopped.add nofun⟩
      · exact ⟨hreq.1, by simp [Idle.add, hreq]⟩
      · have hzero : s.result.toNat = 0 := by omega
        rw [hzero, List.take_zero, List.append_nil] at htyped
        show typed (s.log ++ [.failed s.result]) = stdin.bytes.take s.offset
        rw [typed_append, htyped]
        simp [typed]
  | ended hreq => omega

theorem Sound.idle (h : Sound stdin s) : Sound stdin (idleCb s) := by
  have htyped : typed (s.log ++ [.computing]) = typed s.log := by simp [typed]
  refine ⟨?_, h.size, h.alone.add nofun, h.stopped.add nofun⟩
  cases h.phase with
  | reading hreq hread hgoes => exact .reading hreq (htyped.trans hread) (hgoes.add id)
  | due hreq hlen hread hgoes hdone =>
    refine .due hreq hlen ?_ (fun hpos => (hgoes hpos).add id) (List.mem_append_left _ hdone)
    show typed (s.log ++ [.computing]) ++ _ = _
    rw [htyped]
    exact hread
  | ended hreq hread hend =>
    obtain ⟨x, hx, hend⟩ := hend
    exact .ended hreq (htyped.trans hread) ⟨x, List.mem_append_left _ hx, hend⟩

/-- **One event.**  It keeps the invariant, if its callback returns. -/
theorem Sound.step {e : IdleEvent} (h : Sound stdin s) (he : (idleCompute stdin).enabled s e)
    (hok : (idleCompute stdin).dispatch s e = .ok u) : Sound stdin u := by
  cases e with
  | readDone result =>
    cases hok
    exact h.readDone he
  | stdinFs r r' => exact h.stdinFs he hok
  | idle =>
    cases hok
    exact h.idle

/-- What the loop is meant to do next: the callback returns, unless libuv refuses what it asks
for. -/
def Stays (stdin : Stdin) (s : Idle) (e : IdleEvent) : Prop :=
  ∀ x, dispatch stdin s e = .error x → x = errorMacro ∧ ∃ r r', e = .stdinFs r r' ∧ (r ≠ 0 ∨ r' ≠ 0)

/-- The callback of a read that has returned all the bytes it asked for. -/
def FillsBuffer (s : Idle) : IdleEvent → Prop
  | .stdinFs _ _ => s.result = readLen
  | _ => False

/-- **The terminator.**  It lands in the buffer exactly if the read has not filled it. -/
theorem Sound.stays_iff (h : Sound stdin s) {e : IdleEvent}
    (he : (idleCompute stdin).enabled s e) : Stays stdin s e ↔ ¬ FillsBuffer s e := by
  cases e with
  | readDone result => exact ⟨fun _ => id, fun _ _ hx => nomatch hx⟩
  | idle => exact ⟨fun _ => id, fun _ _ hx => nomatch hx⟩
  | stdinFs r r' =>
    have hdue : 0 < s.finished := he
    have hsize := h.size
    have hlens : bufferSize = 1024 ∧ readLen = 1024 := ⟨rfl, rfl⟩
    cases h.phase with
    | reading hreq => omega
    | due hreq hlen htyped hgoes =>
      constructor
      · intro hstays hfull
        have hres : s.result = readLen := hfull
        have hpos : 0 < s.result := by omega
        have hundefined := dispatch_of_ge stdin hpos (by omega) r r'
        exact nomatch (hstays _ hundefined).1
      · intro hfull x hx
        have hres : s.result ≠ readLen := hfull
        by_cases hpos : 0 < s.result
        · have hroom : s.result.toNat < s.buffer.length := by omega
          rw [dispatch_of_lt stdin hpos hroom (noNul_of_typed htyped)] at hx
          obtain ⟨rfl, hrefused⟩ := waitForNextInput_error hx
          exact ⟨rfl, r, r', rfl, hrefused⟩
        · rw [dispatch_of_nonpos stdin hpos] at hx
          cases hx
    | ended hreq => omega

end

/-! ### Whole schedules -/

theorem sound_of_run {stdin : Stdin} {es : List IdleEvent} {s : Idle}
    (h : (idleCompute stdin).Run init es s) : Sound stdin s :=
  h.invariant (init_sound stdin) fun _ _ _ hs he hok => hs.step he hok

/-- **One read at a time.**  No more than one read is outstanding in any state. -/
theorem outstanding_le_one {stdin : Stdin} {es : List IdleEvent} {s : Idle}
    (h : (idleCompute stdin).Run init es s) : s.outstanding ≤ 1 := by
  unfold Idle.outstanding
  cases (sound_of_run h).phase with
  | reading hreq => omega
  | due hreq => omega
  | ended hreq => omega

/-- **The end of the input.**  The loop waits for input until a read returns 0 or an error. -/
theorem input_ended {stdin : Stdin} {es : List IdleEvent} {s : Idle}
    (h : (idleCompute stdin).Run init es s) (hnone : s.outstanding = 0) :
    ∃ x ∈ s.log, x.IsEnd := by
  unfold Idle.outstanding at hnone
  cases (sound_of_run h).phase with
  | reading hreq => omega
  | due hreq => omega
  | ended _ _ hend => exact hend

/-- What the input loop is meant to do on a schedule: what it keeps to holds in every state that is
reached, and no callback does anything undefined. -/
def KeepsPromises (stdin : Stdin) (es : List IdleEvent) : Prop :=
  (∀ fs s, fs <+: es → (idleCompute stdin).Run init fs s → Holds stdin s) ∧
    (idleCompute stdin).Throughout init es (Stays stdin)

/-- **The input loop.**  Whatever is typed and however the reads cut it up, the loop keeps its
promises exactly as long as no read comes back with a full buffer. -/
theorem keepsPromises_iff (stdin : Stdin) (es : List IdleEvent) :
    KeepsPromises stdin es ↔
      (idleCompute stdin).Throughout init es fun s e => ¬ FillsBuffer s e := by
  have hiff : (idleCompute stdin).Throughout init es (Stays stdin) ↔
      (idleCompute stdin).Throughout init es fun s e => ¬ FillsBuffer s e :=
    EventLoop.throughout_congr (init_sound stdin) (fun _ _ _ hs he hok => hs.step he hok)
      fun _ _ hs he => hs.stays_iff he
  rw [← hiff]
  constructor
  · intro h
    exact h.2
  · intro h
    exact ⟨fun _ _ _ hrun => (sound_of_run hrun).holds, h⟩

/-- Two reads of one byte each, and the end of the input. -/
example : ∃ s, (idleCompute ⟨ascii "hi", by decide +kernel⟩).Run init
    [.readDone 1, .idle, .stdinFs 0 0, .readDone 1, .stdinFs 0 0, .readDone 0, .stdinFs 0 0] s ∧
      decide (typed s.log = ascii "hi" ∧ s.outstanding = 0) = true :=
  EventLoop.exists_run_of_plays (by decide +kernel)

/-- As many bytes are there at once as a read asks for. -/
def longLine : Stdin where
  bytes := List.replicate readLen 97
  noNul := by
    intro c hc
    rw [List.eq_of_mem_replicate hc]
    decide

/-- A read returns all the bytes it asked for: the terminator is written behind the buffer. -/
theorem full_read_overflows : ¬ ∀ stdin es, KeepsPromises stdin es := by
  intro h
  have hlen : longLine.bytes.length = readLen := List.length_replicate
  have henabled : Enabled longLine init (.readDone readLen) :=
    ⟨Nat.one_pos, le_rfl, by rw [hlen]; exact (Nat.zero_add readLen).le⟩
  have hrun : (idleCompute longLine).Run init ([] ++ [.readDone readLen])
      (readDone longLine init readLen) := .snoc .nil henabled rfl
  have hundefined : dispatch longLine (readDone longLine init readLen) (.stdinFs 0 0)
      = .error (.undefined "buffer[stdin_watcher.result]") :=
    dispatch_of_ge longLine (by decide) (sound_of_run hrun).size.le 0 0
  have hstays := (h longLine [.readDone readLen, .stdinFs 0 0]).2 [.readDone readLen] (.stdinFs 0 0)
    _ List.prefix_rfl hrun Nat.one_pos
  exact nomatch (hstays _ hundefined).1

end LibuvDox.IdleCompute
