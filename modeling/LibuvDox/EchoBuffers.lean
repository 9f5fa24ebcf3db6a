import LibuvDox.Lib.Raises
import LibuvDox.TcpEchoServer

/-!
# Who frees the buffers of the echo servers

`alloc_cb` allocates a buffer for each read.  If it is written back, `write_cb` frees it; of those
that are not, `read_cb` frees only the empty ones of the tcp echo server.  So the buffer of a read
that fails or reports the end of the stream is lost, unless libuv has passed none; and so is each
buffer that the worker of the multi-process server reads from the master, since its `connect_cb`
never looks at it.

* `TcpEchoServer.allUsed_iff`, `PipeEchoServer.tracked_of_run`, `PipeEchoServer.tracked_of_worker`:
  in every run, which reads leave a buffer that no pending write will free.
* `buffersFreed_iff`: no buffer is freed twice; and once nothing is pending, all are free exactly if
  there was no such read.
-/

namespace LibuvDox

/-- libuv has passed no buffer, if the read failed or reported the end of the stream. -/
def BufferRead.NullOnError (e : BufferRead) : Prop := e.nread < 0 → e.buf = none

instance (e : BufferRead) : Decidable e.NullOnError := by
  unfold BufferRead.NullOnError
  infer_instance

theorem BufferRead.nonneg_of_some {e : BufferRead} (h : e.NullOnError) {block : Bytes}
    (hbuf : e.buf = some block) : 0 ≤ e.nread := by
  by_contra hneg
  rw [h (by omega)] at hbuf
  cases hbuf

theorem BufferRead.neg_of_none {e : BufferRead} (hbuf : e.buf = none) : e.nread < 0 := by
  by_contra hneg
  have hsome := e.notNull (by omega)
  rw [hbuf] at hsome
  cases hsome

/-- The callback uses no freed buffer and frees none twice. -/
def MemorySafe {α : Type} (x : Except Stop α) : Prop :=
  Raises (fun e => ∀ what, e = .undefined what → what = "int overflow") x

theorem memorySafe_assertFailed {α : Type} (text : String) :
    MemorySafe (.error (.assertFailed text) : Except Stop α) := by
  refine raises_error fun what h => ?_
  cases h

open WriteQueue

/-! ### 05-tcp-echo-server -/

namespace TcpEchoServer

/-- A read brings no buffer that is lost. -/
def FreesBuffer : EchoEvent → Prop
  | .connect _ _ => True
  | .read _ e => e.NullOnError
  | .written _ _ => True

section

variable {es : List EchoEvent} {s u : TcpEcho} {c : ℕ} {e : EchoEvent}

theorem Sound.allUsed_read_iff {e : BufferRead} (h : Sound es s)
    (hok : echoServer.dispatch s (.read c e) = .ok u) :
    AllUsed u.queue u.heap ↔ AllUsed s.queue s.heap ∧ e.NullOnError := by
  have hdone : ReadDone (allocCb s e.buf).1 c e.nread (allocCb s e.buf).2 u := readCb_ok hok
  cases hbuf : e.buf with
  | none =>
    have hneg := BufferRead.neg_of_none hbuf
    rw [hbuf] at hdone
    refine Iff.trans ?_ (and_iff_left fun _ => hbuf).symm
    cases hdone with
    | eof => exact Iff.rfl
    | data hn => omega
    | nothing => exact Iff.rfl
    | zero hn => omega
    | error => exact Iff.rfl
  | some block =>
    rw [hbuf] at hdone
    have hlost : ¬ AllUsed s.queue (s.heap.alloc block) := h.intact.not_allUsed_alloc block
    have hnull : e.nread < 0 → ¬ e.NullOnError := fun hneg hnull => by
      have hnone := hnull hneg
      rw [hbuf] at hnone
      cases hnone
    have hkept : 0 ≤ e.nread → e.NullOnError := fun hn hneg => by omega
    cases hdone with
    | eof hn =>
      have hneg : e.nread < 0 := by
        rw [hn]
        decide
      exact iff_of_false hlost fun h => hnull hneg h.2
    | @data p b total hn hbase =>
      cases hbase
      rw [and_iff_left (hkept hn.le)]
      exact allUsed_alloc_submit_iff c block _
    | nothing hn hbase => cases hbase
    | zero hn hbase =>
      cases hbase
      rw [and_iff_left (hkept hn.ge)]
      exact allUsed_alloc_free_iff block
    | error hn => exact iff_of_false hlost fun h => hnull hn h.2

/-- **One event.** -/
theorem Sound.allUsed_step_iff (h : Sound es s) (hok : echoServer.dispatch s e = .ok u) :
    AllUsed u.queue u.heap ↔ AllUsed s.queue s.heap ∧ FreesBuffer e := by
  cases e with
  | connect status accept =>
    rw [FreesBuffer, and_true]
    have hconnect : connectionCb s status accept = .ok u := hok
    unfold connectionCb at hconnect
    split at hconnect
    · cases hconnect
    · cases hconnect
      exact Iff.rfl
  | read c e => exact h.allUsed_read_iff hok
  | written c status =>
    rw [FreesBuffer, and_true]
    obtain ⟨-, w, ws, block, total, hpending, -, rfl⟩ := written_ok hok
    exact allUsed_complete_free_iff hpending _

/-- **A run.** -/
theorem allUsed_iff (h : echoServer.Run init es s) :
    AllUsed s.queue s.heap ↔ ∀ e ∈ es, FreesBuffer e := by
  induction h with
  | nil => exact iff_of_true allUsed_empty nofun
  | snoc h he hok ih =>
    have hs := sound_of_run h
    rw [hs.allUsed_step_iff hok, ih, List.forall_mem_append, List.forall_mem_singleton]

theorem free_memorySafe {p : ℕ} {block : Bytes} (hp : s.heap.get? p = some block) :
    MemorySafe (free s (some p)) := by
  rw [free, hp]
  exact raises_ok _

theorem uvWrite_memorySafe {p len : ℕ} {block : Bytes} (hp : s.heap.get? p = some block)
    (hlen : len ≤ block.length) : MemorySafe (uvWrite s c (some p) len) := by
  have hnot : ¬ block.length < len := by omega
  simp only [uvWrite, deref, hp, bind, Except.bind, if_neg hnot]
  exact raises_ok _

theorem readCb_memorySafe {nread : ℤ} {base : Option ℕ} (hnull : base = none → nread < 0)
    (hsome : ∀ p ∈ base, ∃ block, s.heap.get? p = some block ∧ nread ≤ block.length) :
    MemorySafe (readCb s c nread base) := by
  unfold readCb readResult
  refine Raises.bind ?_ fun a ha => Raises.ite (fun hzero => ?_) fun _ => raises_ok _
  · refine Raises.ite (fun _ => raises_ok _) fun _ => ?_
    refine Raises.ite (fun hpos => ?_) fun _ => raises_ok _
    cases base with
    | none =>
      have := hnull rfl
      omega
    | some p =>
      obtain ⟨block, hp, hlen⟩ := hsome p rfl
      exact uvWrite_memorySafe hp (by omega)
  · -- nothing was read
    subst hzero
    obtain rfl : s = a := by simpa [UV_EOF] using ha
    cases base with
    | none => exact raises_ok _
    | some p =>
      obtain ⟨block, hp, -⟩ := hsome p rfl
      exact free_memorySafe hp

theorem addInt_memorySafe (x y : ℤ) : MemorySafe (addInt x y) := by
  unfold addInt
  refine Raises.ite (fun _ => raises_ok _) fun _ => raises_error fun what hwhat => ?_
  exact (Stop.undefined.inj hwhat).symm

theorem written_memorySafe {status : ℤ} (h : Sound es s) (hpend : (s.queue c).pending ≠ []) :
    MemorySafe (written s c status) := by
  unfold written
  split
  · contradiction
  · rename_i w ws hpending
    obtain ⟨block, hblock, -⟩ := h.intact.held c w (by simp [hpending])
    rw [hblock]
    refine Raises.ite (fun _ => memorySafe_assertFailed _) fun _ => ?_
    exact (addInt_memorySafe _ _).bind fun _ _ => free_memorySafe hblock

/-- What comes next uses no freed buffer. -/
theorem Sound.memorySafe (h : Sound es s) (he : echoServer.enabled s e) :
    MemorySafe (echoServer.dispatch s e) := by
  cases e with
  | connect status accept =>
    show MemorySafe (connectionCb s status accept)
    unfold connectionCb
    exact Raises.ite (fun _ => memorySafe_assertFailed _) fun _ => raises_ok _
  | read c e =>
    show MemorySafe (readCb (allocCb s e.buf).1 c e.nread (allocCb s e.buf).2)
    cases hbuf : e.buf with
    | none => exact readCb_memorySafe (fun _ => BufferRead.neg_of_none hbuf) nofun
    | some block =>
      refine readCb_memorySafe nofun fun p hp => ?_
      cases hp
      have hfits := e.fits
      rw [hbuf] at hfits
      exact ⟨block, Heap.get?_alloc_next _ _, hfits⟩
  | written c status => exact written_memorySafe h he.1

end

end TcpEchoServer

/-! ### 19-pipe-echo-server and the worker -/

namespace PipeEchoServer

/-- What the worker is called back for: `connect_cb` gets the buffer of a read from the master. -/
inductive WorkerEvent where
  | connect (queue : BufferRead) (pending pipeInit accept : ℤ)
  | read (c : ℕ) (e : BufferRead) (accepted : Bool)
  | written (c : ℕ) (status : ℤ)
  deriving DecidableEq, Repr

def workerEnabled (s : EchoServer) : WorkerEvent → Prop
  | .connect _ _ _ _ => True
  | .read c e accepted => Enabled s (.read c e accepted)
  | .written c status => Enabled s (.written c status)

instance (s : EchoServer) (e : WorkerEvent) : Decidable (workerEnabled s e) := by
  cases e <;> unfold workerEnabled <;> infer_instance

def workerDispatch (s : EchoServer) : WorkerEvent → Except Stop EchoServer
  | .connect queue pending pipeInit accept =>
    let (s, _) := allocCb s queue.buf
    workerConnectCb s pending pipeInit accept
  | .read c e accepted => dispatch workerConnectCb s (.read c e accepted)
  | .written c status => dispatch workerConnectCb s (.written c status)

/-- The worker, with the buffers that it reads from the master. -/
def queueWorker : EventLoop EchoServer WorkerEvent Stop := ⟨workerEnabled, workerDispatch⟩

instance (s : EchoServer) (e : WorkerEvent) : Decidable (queueWorker.enabled s e) :=
  inferInstanceAs (Decidable (workerEnabled s e))

/-- The buffer of a read is written, or there is none. -/
def WritesBuffer (e : BufferRead) (accepted : Bool) : Prop :=
  e.NullOnError ∧ (0 ≤ e.nread → accepted = true)

/-- The pipe echo server is left no buffer that is lost. -/
def FreesBuffer : EchoEvent → Prop
  | .connect _ _ _ => True
  | .read _ e accepted => WritesBuffer e accepted
  | .written _ _ => True

/-- The worker is left no buffer that is lost. -/
def WorkerFreesBuffer : WorkerEvent → Prop
  | .connect queue _ _ _ => queue.buf = none
  | .read _ e accepted => WritesBuffer e accepted
  | .written _ _ => True

/-- The blocks that the pending writes of client `c` will free. -/
def pendingOf (s : EchoServer) (c : ℕ) : List (Option ℕ) :=
  (s.clients[c]?.map EchoClient.pending).getD []

/-- The pending writes, as streams that blocks are written to. -/
structure Tracked (s : EchoServer) (q : ℕ → WriteQueue UInt8) : Prop where
  pending : ∀ c, pendingOf s c = (q c).pending.map fun w => some w.base
  intact : WriteQueue.Intact q s.buffers

theorem init_tracked : Tracked init fun _ => .empty where
  pending := fun _ => rfl
  intact := WriteQueue.intact_empty _

section

variable {s u : EchoServer} {q : ℕ → WriteQueue UInt8} {c : ℕ}

/-- The state is tracked, and no block is left over if none was in `s` and `kept` holds. -/
def TrackedAfter (s : EchoServer) (q : ℕ → WriteQueue UInt8) (kept : Prop) (u : EchoServer) :
    Prop :=
  ∃ q', Tracked u q' ∧ (AllUsed q' u.buffers ↔ AllUsed q s.buffers ∧ kept)

/-- A client is accepted, or not. -/
theorem Tracked.connect {connect : EchoServer → ℤ → ℤ → ℤ → Except Stop EchoServer}
    (hconn : Accepts connect) (h : Tracked s q) {arg pipeInit accept : ℤ}
    (hok : connect s arg pipeInit accept = .ok u) : Tracked u q ∧ u.buffers = s.buffers := by
  rcases hconn _ _ _ _ _ hok with rfl | ⟨isOpen, rfl⟩
  · exact ⟨h, rfl⟩
  · refine ⟨⟨fun c => ?_, h.intact⟩, rfl⟩
    rw [← h.pending c]
    exact getD_map_append rfl c

/-- The buffer of a read from the master is lost. -/
theorem Tracked.queueRead (h : Tracked s q) (buf : Option Bytes) :
    Tracked (allocCb s buf).1 q ∧
      (AllUsed q (allocCb s buf).1.buffers ↔ AllUsed q s.buffers ∧ buf = none) := by
  cases buf with
  | none => exact ⟨h, (and_iff_left rfl).symm⟩
  | some block =>
    refine ⟨⟨h.pending, h.intact.alloc block⟩, iff_of_false (h.intact.not_allUsed_alloc block) ?_⟩
    rintro ⟨-, hnone⟩
    cases hnone

/-- Which clients have changed when a read returns. -/
theorem readCb_ok {nread : ℤ} {base : Option ℕ} {accepted : Bool}
    (h : readCb s c nread base accepted = .ok u) : ∃ client, s.clients[c]? = some client ∧
      u.buffers = s.buffers ∧ ∀ d, pendingOf u d =
        if d = c ∧ 0 ≤ nread ∧ accepted = true then pendingOf s d ++ [base] else pendingOf s d := by
  obtain ⟨client, hclient, h⟩ := bind_ok_iff.mp h
  have hget := deref_ok_iff.mp hclient
  have hown : pendingOf s c = client.pending := by simp [pendingOf, hget]
  refine ⟨client, hget, ?_⟩
  split at h
  · rename_i hneg
    have hno : ∀ d, ¬ (d = c ∧ 0 ≤ nread ∧ accepted = true) := by
      rintro d ⟨-, hpos, -⟩
      omega
    cases h
    refine ⟨rfl, fun d => ?_⟩
    rw [if_neg (hno d), pendingOf, getD_map_set hget]
    split
    · rename_i hd
      rw [hd, hown]
    · rfl
  · obtain ⟨sent, -, hu⟩ := bind_ok_iff.mp h
    cases hu
    refine ⟨rfl, fun d => ?_⟩
    rw [pendingOf, getD_map_set hget]
    by_cases hd : d = c
    · subst hd
      rw [if_pos rfl, hown]
      cases accepted with
      | false => simp
      | true =>
        have hpos : 0 ≤ nread := by omega
        simp [hpos]
    · rw [if_neg hd, if_neg fun h => hd h.1]
      rfl

theorem Tracked.read {e : BufferRead} {accepted : Bool} (h : Tracked s q)
    (hok : readCb (allocCb s e.buf).1 c e.nread (allocCb s e.buf).2 accepted = .ok u) :
    TrackedAfter s q (WritesBuffer e accepted) u := by
  obtain ⟨client, -, hbuffers, hpending⟩ := readCb_ok hok
  cases hbuf : e.buf with
  | none =>
    have hneg := BufferRead.neg_of_none hbuf
    rw [hbuf] at hbuffers hpending
    have hsame : u.buffers = s.buffers := hbuffers
    refine ⟨q, ⟨fun d => ?_, hsame ▸ h.intact⟩, ?_⟩
    · rw [hpending d, if_neg (by omega)]
      exact h.pending d
    · rw [hsame]
      exact (and_iff_left ⟨fun _ => hbuf, fun _ => by omega⟩).symm
  | some block =>
    rw [hbuf] at hbuffers hpending
    have halloc : u.buffers = s.buffers.alloc block := hbuffers
    by_cases hwritten : 0 ≤ e.nread ∧ accepted = true
    · refine ⟨Function.update q c ((q c).submit ⟨s.buffers.next, block⟩), ⟨fun d => ?_, ?_⟩, ?_⟩
      · rw [hpending d]
        by_cases hd : d = c
        · subst hd
          rw [if_pos ⟨rfl, hwritten⟩, Function.update_self, WriteQueue.submit, List.map_append,
            ← h.pending d]
          rfl
        · rw [if_neg fun h => hd h.1, Function.update_of_ne hd]
          exact h.pending d
      · rw [halloc]
        exact (h.intact.alloc block).submit c h.intact.unused_next (Heap.get?_alloc_next _ _)
          (List.prefix_refl block)
      · rw [halloc, allUsed_alloc_submit_iff]
        exact (and_iff_left ⟨fun hneg => by omega, fun _ => hwritten.2⟩).symm
    · -- nothing points to the buffer any more
      refine ⟨q, ⟨fun d => ?_, halloc ▸ h.intact.alloc block⟩, ?_⟩
      · rw [hpending d, if_neg fun h => hwritten h.2]
        exact h.pending d
      · rw [halloc]
        refine iff_of_false (h.intact.not_allUsed_alloc block) ?_
        rintro ⟨-, hnull, haccepted⟩
        have hpos := BufferRead.nonneg_of_some hnull hbuf
        exact hwritten ⟨hpos, haccepted hpos⟩

/-- The write that is called back, and the block that it frees. -/
theorem Tracked.head (h : Tracked s q) {client : EchoClient} (hget : s.clients[c]? = some client)
    (hpend : client.pending ≠ []) : ∃ w ws, (q c).pending = w :: ws ∧
      client.pending = some w.base :: ws.map fun w => some w.base := by
  have hpending := h.pending c
  rw [pendingOf, hget] at hpending
  cases hq : (q c).pending with
  | nil =>
    rw [hq] at hpending
    exact absurd hpending hpend
  | cons w ws =>
    rw [hq] at hpending
    exact ⟨w, ws, rfl, hpending⟩

theorem Tracked.written {connect : EchoServer → ℤ → ℤ → ℤ → Except Stop EchoServer} {status : ℤ}
    (h : Tracked s q) (he : Enabled s (.written c status))
    (hok : dispatch connect s (.written c status) = .ok u) : TrackedAfter s q True u := by
  obtain ⟨client, hclient, hpend⟩ := he
  have hget : s.clients[c]? = some client := hclient
  obtain ⟨w, ws, hq, hlist⟩ := h.head hget hpend
  obtain ⟨client', hclient', hok⟩ := bind_ok_iff.mp hok
  obtain rfl := Option.some.inj (hget.symm.trans (deref_ok_iff.mp hclient'))
  rw [hlist, List.headD_cons, List.tail_cons, writeCb] at hok
  split at hok
  · cases hok
  · obtain ⟨_, -, hu⟩ := bind_ok_iff.mp hok
    cases hu
    obtain ⟨-, hintact, hunused⟩ := h.intact.complete hq
    refine ⟨_, ⟨fun d => ?_, hintact.free hunused⟩, ?_⟩
    · rw [pendingOf, getD_map_set hget]
      by_cases hd : d = c
      · subst hd
        rw [if_pos rfl, Function.update_self, WriteQueue.complete, hq]
        rfl
      · rw [if_neg hd, Function.update_of_ne hd]
        exact h.pending d
    · rw [and_true]
      exact allUsed_complete_free_iff hq w.sent

/-! ### Runs -/

/-- One more event. -/
theorem TrackedAfter.snoc {ε : Type} {es : List ε} {e : ε} {kept : ε → Prop}
    (hstep : TrackedAfter s q (kept e) u) (hall : AllUsed q s.buffers ↔ ∀ e ∈ es, kept e) :
    ∃ q', Tracked u q' ∧ (AllUsed q' u.buffers ↔ ∀ e' ∈ es ++ [e], kept e') := by
  obtain ⟨q', hq', hkept⟩ := hstep
  refine ⟨q', hq', ?_⟩
  rw [hkept, hall, List.forall_mem_append, List.forall_mem_singleton]

/-- **A run of the pipe echo server.** -/
theorem tracked_of_run {es : List EchoEvent} (h : pipeEchoServer.Run init es s) :
    ∃ q, Tracked s q ∧ (AllUsed q s.buffers ↔ ∀ e ∈ es, FreesBuffer e) := by
  induction h with
  | nil => exact ⟨_, init_tracked, iff_of_true allUsed_empty nofun⟩
  | @snoc es t e u _ he hok ih =>
    obtain ⟨q, hq, hall⟩ := ih
    have hstep : TrackedAfter t q (FreesBuffer e) u := by
      cases e with
      | connect arg pipeInit accept =>
        obtain ⟨hu, hbuffers⟩ := hq.connect connectCb_accepts hok
        exact ⟨q, hu, by rw [hbuffers, FreesBuffer, and_true]⟩
      | read c e accepted => exact hq.read hok
      | written c status =>
        have hwrite : dispatch connectCb t (.written c status) = .ok u := hok
        exact hq.written he hwrite
    exact hstep.snoc hall

/-- **A run of the worker.** -/
theorem tracked_of_worker {es : List WorkerEvent} (h : queueWorker.Run init es s) :
    ∃ q, Tracked s q ∧ (AllUsed q s.buffers ↔ ∀ e ∈ es, WorkerFreesBuffer e) := by
  induction h with
  | nil => exact ⟨_, init_tracked, iff_of_true allUsed_empty nofun⟩
  | @snoc es t e u _ he hok ih =>
    obtain ⟨q, hq, hall⟩ := ih
    have hstep : TrackedAfter t q (WorkerFreesBuffer e) u := by
      cases e with
      | connect queue pending pipeInit accept =>
        obtain ⟨halloc, hkept⟩ := hq.queueRead queue.buf
        obtain ⟨hu, hbuffers⟩ := halloc.connect workerConnectCb_accepts hok
        exact ⟨q, hu, by rw [hbuffers, hkept, WorkerFreesBuffer]⟩
      | read c e accepted => exact hq.read hok
      | written c status =>
        have hwrite : dispatch workerConnectCb t (.written c status) = .ok u := hok
        exact hq.written he hwrite
    exact hstep.snoc hall

/-- No write is pending. -/
def Idle (s : EchoServer) : Prop := ∀ client ∈ s.clients, client.pending = []

instance (s : EchoServer) : Decidable (Idle s) := by
  unfold Idle
  infer_instance

/-- Once nothing is pending, every block that is left is lost. -/
theorem Tracked.allUsed_iff (h : Tracked s q) (hidle : Idle s) :
    AllUsed q s.buffers ↔ ∀ p, s.buffers.get? p = none := by
  refine allUsed_iff_of_idle fun c => ?_
  have hpending := h.pending c
  have hnone : pendingOf s c = [] := by
    unfold pendingOf
    cases hget : s.clients[c]? with
    | none => rfl
    | some client => exact hidle client (List.mem_of_getElem? hget)
  rw [hnone] at hpending
  exact List.map_eq_nil_iff.mp hpending.symm

/-! ### Memory safety -/

theorem acceptClient_memorySafe (s : EchoServer) (pipeInit accept : ℤ) :
    MemorySafe (acceptClient s pipeInit accept) := by
  unfold acceptClient
  exact Raises.ite (fun _ => memorySafe_assertFailed _) fun _ => raises_ok _

theorem connectCb_memorySafe (s : EchoServer) (status pipeInit accept : ℤ) :
    MemorySafe (connectCb s status pipeInit accept) := by
  unfold connectCb
  exact Raises.ite (fun _ => raises_ok _) fun _ => acceptClient_memorySafe s pipeInit accept

theorem workerConnectCb_memorySafe (s : EchoServer) (pending pipeInit accept : ℤ) :
    MemorySafe (workerConnectCb s pending pipeInit accept) := by
  unfold workerConnectCb
  exact Raises.ite (fun _ => raises_ok _) fun _ => acceptClient_memorySafe s pipeInit accept

/-- The callbacks of the clients use no freed buffer, whatever accepts them. -/
theorem Tracked.memorySafe {connect : EchoServer → ℤ → ℤ → ℤ → Except Stop EchoServer}
    (hconn : ∀ s arg pipeInit accept, MemorySafe (connect s arg pipeInit accept))
    (h : Tracked s q) {e : EchoEvent} (he : Enabled s e) : MemorySafe (dispatch connect s e) := by
  cases e with
  | connect arg pipeInit accept => exact hconn s arg pipeInit accept
  | read c e accepted =>
    obtain ⟨client, hget, -⟩ := Option.map_eq_some_iff.mp he
    show MemorySafe (readCb (allocCb s e.buf).1 c e.nread (allocCb s e.buf).2 accepted)
    have hclients : (allocCb s e.buf).1.clients = s.clients := by cases e.buf <;> rfl
    simp only [readCb, hclients, hget, deref, bind, Except.bind]
    refine Raises.ite (fun _ => raises_ok _) fun hpos => ?_
    cases hbuf : e.buf with
    | none => exact absurd (BufferRead.neg_of_none hbuf) hpos
    | some block =>
      simp only [allocCb, Option.bind_some, Heap.get?_alloc_next]
      exact raises_ok _
  | written c status =>
    obtain ⟨client, hclient, hpend⟩ := he
    have hget : s.clients[c]? = some client := hclient
    obtain ⟨w, ws, hq, hlist⟩ := h.head hget hpend
    obtain ⟨block, hblock, -⟩ := h.intact.held c w (by simp [hq])
    simp only [dispatch, hget, hlist, deref, bind, Except.bind, writeCb, List.headD_cons, hblock]
    exact Raises.ite (fun _ => memorySafe_assertFailed _) fun _ => raises_ok _

/-- What the worker is called back for next uses no freed buffer. -/
theorem Tracked.worker_memorySafe (h : Tracked s q) {e : WorkerEvent}
    (he : queueWorker.enabled s e) : MemorySafe (queueWorker.dispatch s e) := by
  cases e with
  | connect queue pending pipeInit accept => exact workerConnectCb_memorySafe _ _ _ _
  | read c e accepted =>
    have hread : Enabled s (.read c e accepted) := he
    exact h.memorySafe workerConnectCb_memorySafe hread
  | written c status =>
    have hwrite : Enabled s (.written c status) := he
    exact h.memorySafe workerConnectCb_memorySafe hwrite

end

end PipeEchoServer

open PipeEchoServer in
/-- **Ownership of the buffers.**  In every run of the three programs the next callback uses no
freed buffer and frees none twice.  Once no write is pending, every buffer that `alloc_cb` has
returned is free exactly if each read that failed or reported the end of the stream came without
one; and, of the pipe echo server and the worker, if each write was accepted; and, of the worker, if
`connect_cb` got none. -/
theorem buffersFreed_iff (es : List TcpEchoServer.EchoEvent) (s : TcpEchoServer.TcpEcho)
    (fs : List EchoEvent) (t : EchoServer) (gs : List WorkerEvent) (u : EchoServer) :
    (TcpEchoServer.echoServer.Run TcpEchoServer.init es s →
      (∀ e, TcpEchoServer.echoServer.enabled s e →
        MemorySafe (TcpEchoServer.echoServer.dispatch s e)) ∧
      ((∀ c, (s.queue c).pending = []) →
        ((∀ p, s.heap.get? p = none) ↔ ∀ e ∈ es, TcpEchoServer.FreesBuffer e))) ∧
    (pipeEchoServer.Run init fs t →
      (∀ e, pipeEchoServer.enabled t e → MemorySafe (pipeEchoServer.dispatch t e)) ∧
      (Idle t → ((∀ p, t.buffers.get? p = none) ↔ ∀ e ∈ fs, FreesBuffer e))) ∧
    (queueWorker.Run init gs u →
      (∀ e, queueWorker.enabled u e → MemorySafe (queueWorker.dispatch u e)) ∧
      (Idle u → ((∀ p, u.buffers.get? p = none) ↔ ∀ e ∈ gs, WorkerFreesBuffer e))) := by
  refine ⟨fun h => ⟨fun e he => ?_, fun hidle => ?_⟩, fun h => ?_, fun h => ?_⟩
  · exact (TcpEchoServer.sound_of_run h).memorySafe he
  · rw [← allUsed_iff_of_idle hidle, TcpEchoServer.allUsed_iff h]
  · obtain ⟨q, hq, hall⟩ := tracked_of_run h
    refine ⟨fun e he => hq.memorySafe connectCb_memorySafe he, fun hidle => ?_⟩
    rw [← hq.allUsed_iff hidle, hall]
  · obtain ⟨q, hq, hall⟩ := tracked_of_worker h
    refine ⟨fun e he => hq.worker_memorySafe he, fun hidle => ?_⟩
    rw [← hq.allUsed_iff hidle, hall]

/-- Once the only client there is has nothing pending, nobody has. -/
theorem TcpEchoServer.idle_of_run {es : List EchoEvent} {s : TcpEcho}
    (h : echoServer.Run init es s) (hclients : s.clients = 1) (hpending : (s.queue 0).pending = [])
    (c : ℕ) : (s.queue c).pending = [] := by
  by_cases hc : c = 0
  · rw [hc, hpending]
  · exact ((sound_of_run h).fresh c (by omega)).1

/-- What the master sends along with a handle. -/
def handedOver : BufferRead := ⟨1, some [46], by decide, by decide⟩

open PipeEchoServer in
open TcpEchoServer (hi endOfFile) in
/-- A client has two bytes echoed and ends its stream; the worker got it with a byte from the master,
in a buffer that is then the only one left. -/
theorem buffersFreed_iff_hi :
    (∃ s, TcpEchoServer.echoServer.Run TcpEchoServer.init [.connect 0 0, .read 0 hi,
        .written 0 0, .read 0 endOfFile] s ∧ ∀ p, s.heap.get? p = none) ∧
    (∃ s, pipeEchoServer.Run init [.connect 0 0 0, .read 0 hi true,
        .written 0 0, .read 0 endOfFile true] s ∧ ∀ p, s.buffers.get? p = none) ∧
    ∃ s, queueWorker.Run init [.connect handedOver 7 0 0,
        .read 0 hi true, .written 0 0, .read 0 endOfFile true] s ∧
      Idle s ∧ ¬ ∀ p, s.buffers.get? p = none := by
  have hnull : hi.NullOnError ∧ endOfFile.NullOnError := by decide
  have hwrites : WritesBuffer hi true ∧ WritesBuffer endOfFile true :=
    ⟨⟨hnull.1, fun _ => rfl⟩, hnull.2, fun _ => rfl⟩
  refine ⟨?_, ?_, ?_⟩
  · obtain ⟨s, hrun, hs⟩ : ∃ s, TcpEchoServer.echoServer.Run TcpEchoServer.init
        [.connect 0 0, .read 0 hi, .written 0 0, .read 0 endOfFile] s ∧
        (s.clients == 1 && (s.queue 0).pending == []) = true :=
      EventLoop.exists_run_of_plays (by decide +kernel)
    rw [Bool.and_eq_true, beq_iff_eq, beq_iff_eq] at hs
    have hfreed := (buffersFreed_iff _ s [] init [] init).1 hrun
    refine ⟨s, hrun, (hfreed.2 (TcpEchoServer.idle_of_run hrun hs.1 hs.2)).mpr ?_⟩
    simp [TcpEchoServer.FreesBuffer, hnull]
  · obtain ⟨s, hrun, hs⟩ : ∃ s, pipeEchoServer.Run init
        [.connect 0 0 0, .read 0 hi true, .written 0 0, .read 0 endOfFile true] s ∧
        decide (Idle s) = true := EventLoop.exists_run_of_plays (by decide +kernel)
    have hfreed := (buffersFreed_iff [] TcpEchoServer.init _ s [] init).2.1 hrun
    refine ⟨s, hrun, (hfreed.2 (of_decide_eq_true hs)).mpr ?_⟩
    simp [FreesBuffer, hwrites]
  · obtain ⟨s, hrun, hs⟩ : ∃ s, queueWorker.Run init
        [.connect handedOver 7 0 0, .read 0 hi true, .written 0 0, .read 0 endOfFile true] s ∧
        decide (Idle s) = true := EventLoop.exists_run_of_plays (by decide +kernel)
    have hfreed := (buffersFreed_iff [] TcpEchoServer.init [] init _ s).2.2 hrun
    refine ⟨s, hrun, of_decide_eq_true hs, fun hnone => ?_⟩
    have hnull := (hfreed.2 (of_decide_eq_true hs)).mp hnone _ List.mem_cons_self
    exact absurd (show handedOver.buf = none from hnull) (by decide)

/-- The end of a stream, in the buffer of `alloc_cb`. -/
def eofInBuffer : BufferRead := ⟨UV_EOF, some [0], by decide, by decide⟩

open PipeEchoServer in
/-- The end of the stream comes in a buffer, which nobody frees. -/
theorem eof_buffer_lost :
    (¬ ∀ es s, TcpEchoServer.echoServer.Run TcpEchoServer.init es s →
      (∀ c, (s.queue c).pending = []) → ∀ p, s.heap.get? p = none) ∧
    (¬ ∀ es s, pipeEchoServer.Run init es s → Idle s → ∀ p, s.buffers.get? p = none) ∧
    ¬ ∀ es s, queueWorker.Run init es s → Idle s → ∀ p, s.buffers.get? p = none := by
  refine ⟨fun h => ?_, fun h => ?_, fun h => ?_⟩
  · obtain ⟨s, hrun, hs⟩ : ∃ s, TcpEchoServer.echoServer.Run TcpEchoServer.init
        [.connect 0 0, .read 0 eofInBuffer] s ∧
        (s.clients == 1 && (s.queue 0).pending == [] && s.heap.get? 0 == some [0]) = true :=
      EventLoop.exists_run_of_plays (by decide +kernel)
    rw [Bool.and_eq_true, Bool.and_eq_true, beq_iff_eq, beq_iff_eq, beq_iff_eq] at hs
    obtain ⟨⟨hclients, hpending⟩, hbuffer⟩ := hs
    rw [h _ s hrun (TcpEchoServer.idle_of_run hrun hclients hpending) 0] at hbuffer
    cases hbuffer
  · obtain ⟨s, hrun, hs⟩ : ∃ s, pipeEchoServer.Run init
        [.connect 0 0 0, .read 0 eofInBuffer true] s ∧
        (decide (Idle s) && s.buffers.get? 0 == some [0]) = true :=
      EventLoop.exists_run_of_plays (by decide +kernel)
    rw [Bool.and_eq_true, decide_eq_true_iff, beq_iff_eq] at hs
    rw [h _ s hrun hs.1 0] at hs
    cases hs.2
  · obtain ⟨s, hrun, hs⟩ : ∃ s, queueWorker.Run init
        [.connect eofInBuffer 7 0 0, .read 0 eofInBuffer true] s ∧
        (decide (Idle s) && s.buffers.get? 0 == some [0]) = true :=
      EventLoop.exists_run_of_plays (by decide +kernel)
    rw [Bool.and_eq_true, decide_eq_true_iff, beq_iff_eq] at hs
    rw [h _ s hrun hs.1 0] at hs
    cases hs.2

end LibuvDox
