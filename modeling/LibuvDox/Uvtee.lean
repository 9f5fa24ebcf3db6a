import LibuvDox.Lib.EventLoop
import LibuvDox.Lib.WriteQueue
import LibuvDox.Uv

/-!
# 03-uvtee, 03-uvtee-reuse-buf and 03-uvtee-all-async

Three versions of one program that copies stdin to stdout and to a file.  Each chunk that is read
is copied twice by `write_data`, once for each sink, into a block that a `write_req_t` points to,
and at the end of the file all three handles are closed.  The plain version gives every read a
buffer of its own; `03-uvtee-reuse-buf` uses one buffer for all of them and frees it at the end;
`03-uvtee-all-async` opens the file asynchronously and starts to read when it is open.

* `Held`: the pending writes find their `write_req_t`s and their copies, which nothing else uses.
* `ReadEffect`: what a read event does to the sinks, in any of the versions.
* `uvtee_read`, `reuseBuf_read`: from a state in which the writes are held every read event is
  dealt with, to this effect.
* `OneBuffer`: the buffer that is reused is the only one, and no write uses it.
-/

namespace LibuvDox.Uvtee

/-- The two streams that are written to. -/
inductive Sink where
  | stdout
  | file
  deriving DecidableEq, Repr

/-- The three handles. -/
inductive Pipe where
  | stdin
  | sink (k : Sink)
  deriving DecidableEq, Repr

/-- `uv_buf_t`. -/
structure UvBuf where
  base : Option ℕ
  len : ℕ
  deriving DecidableEq, Repr

/-- `reusesize` before a buffer was allocated: `(size_t) -1`. -/
def SIZE_MAX : ℕ := 2 ^ 64 - 1

/-- What comes from stdin and how far it was read, whether the file is being opened, whether stdin
is read from, whether the three handles were passed to `uv_close`, and which of these have been
called back; the sinks, and the heap of the buffers and copies; the writes as libuv knows them, by
the addresses of their `write_req_t`s with what it was given to send, and the heap of these, of
which `buf` is kept; `reusebuf` and `reusesize`; and the buffers that `alloc_cb` has taken from the
heap. -/
structure Tee where
  input : Bytes
  offset : ℕ
  opening : Bool
  reading : Bool
  eof : Bool
  closed : Pipe → Bool
  queue : Sink → WriteQueue UInt8
  heap : Heap Bytes
  reqs : Sink → WriteQueue UvBuf
  writeReqs : Heap (List UvBuf)
  reusebuf : Option ℕ
  reusesize : ℕ
  allocs : List ℕ

/-- The open of the file is answered; a read event, with the block a `malloc` in `alloc_cb` would
return, as long as the size libuv suggests, or without a call of `alloc_cb`; the oldest write to a
sink is called back; a handle has been closed. -/
inductive TeeEvent where
  | opened (result : ℤ)
  | read (fresh : Option Bytes) (r : ReadResult)
  | written (k : Sink) (status : ℤ)
  | closed (p : Pipe)
  deriving DecidableEq, Repr

/-- A version of the program: its two callbacks, and whether the file is opened asynchronously. -/
structure TeeProgram where
  allocCb : Tee → Bytes → Tee × UvBuf
  readCb : Tee → ℤ → UvBuf → Except Stop Tee
  async : Bool

/-- `ERROR(msg, code)`. -/
def errorMacro : Stop := .assertFailed "0"

def statusIsZero : Stop := .assertFailed "status == 0"

/-! ### What the versions share -/

/-- `malloc`, of a block with these contents, in `alloc_cb`. -/
def mallocBuf (s : Tee) (fresh : Bytes) : Tee :=
  { s with heap := s.heap.alloc fresh, allocs := s.allocs ++ [s.heap.next] }

/-- `free`. -/
def free (s : Tee) : Option ℕ → Except Stop Tee
  | none => .ok s
  | some p => do
    let _ ← deref (s.heap.get? p) "free"
    .ok { s with heap := s.heap.free p }

/-- `write_data`: a `write_req_t` and a copy of the first `size` bytes of the buffer are allocated,
and the copy is written. -/
def writeData (s : Tee) (k : Sink) (size : ℕ) (buf : UvBuf) : Except Stop Tee := do
  let p ← deref buf.base "buf->base"
  let block ← deref (s.heap.get? p) "buf->base"
  if block.length < size then .error (.undefined "memcpy")
  else
    .ok { s with
      heap := s.heap.alloc (block.take size)
      writeReqs := s.writeReqs.alloc [⟨some s.heap.next, size⟩]
      queue := Function.update s.queue k ((s.queue k).submit ⟨s.heap.next, block.take size⟩)
      reqs := Function.update s.reqs k
        ((s.reqs k).submit ⟨s.writeReqs.next, [⟨some s.heap.next, size⟩]⟩) }

/-- The branch of `read_cb` for data. -/
def writeBoth (s : Tee) (size : ℕ) (buf : UvBuf) : Except Stop Tee := do
  let s ← writeData s .stdout size buf
  writeData s .file size buf

/-- `free_write_req`: the copy, and the `write_req_t` that points to it. -/
def freeWriteReq (s : Tee) (req : ℕ) : Except Stop Tee := do
  let bufs ← deref (s.writeReqs.get? req) "wreq->buf"
  let buf ← deref bufs.head? "wreq->buf"
  let s ← free s buf.base
  .ok { s with writeReqs := s.writeReqs.free req }

/-- `write_cb`. -/
def writeCb (s : Tee) (req : ℕ) (status : ℤ) : Except Stop Tee :=
  if status ≠ 0 then .error statusIsZero else freeWriteReq s req

/-- `open_cb` of `03-uvtee-all-async`. -/
def openCb (s : Tee) (result : ℤ) : Except Stop Tee :=
  if result < 0 then .error errorMacro else .ok { s with opening := false, reading := true }

/-! ### The versions -/

/-- `alloc_cb` of `03-uvtee` and `03-uvtee-all-async`. -/
def allocCb (s : Tee) (fresh : Bytes) : Tee × UvBuf :=
  (mallocBuf s fresh, ⟨some s.heap.next, fresh.length⟩)

/-- `read_cb` of `03-uvtee` and `03-uvtee-all-async`, up to the `free` at its end. -/
def readResult (s : Tee) (nread : ℤ) (buf : UvBuf) : Except Stop Tee :=
  if nread = UV_EOF then .ok { s with eof := true }
  else if nread > 0 then writeBoth s nread.toNat buf
  else .ok s

def readCb (s : Tee) (nread : ℤ) (buf : UvBuf) : Except Stop Tee := do
  let s ← readResult s nread buf
  free s buf.base

namespace ReuseBuf

def allocCb (s : Tee) (fresh : Bytes) : Tee × UvBuf :=
  match s.reusebuf with
  | none =>
    let s' := { mallocBuf s fresh with reusebuf := some s.heap.next, reusesize := fresh.length }
    (s', ⟨s'.reusebuf, s'.reusesize⟩)
  | some _ => (s, ⟨s.reusebuf, s.reusesize⟩)

/-- `read_cb`, up to the `free` at its end; `reusebuf` keeps its value when its block is freed. -/
def readResult (s : Tee) (nread : ℤ) (buf : UvBuf) : Except Stop Tee :=
  if nread = UV_EOF then
    let s := { s with eof := true }
    if s.reusebuf.isSome then do
      let s ← free s s.reusebuf
      .ok { s with reusesize := SIZE_MAX }
    else .ok s
  else if nread > 0 then writeBoth s nread.toNat buf
  else .ok s

def readCb (s : Tee) (nread : ℤ) (buf : UvBuf) : Except Stop Tee := do
  let s ← readResult s nread buf
  if buf.base.isSome ∧ buf.base ≠ s.reusebuf then free s buf.base else .ok s

end ReuseBuf

/-- `03-uvtee`. -/
def uvtee : TeeProgram := ⟨allocCb, readCb, false⟩

/-- `03-uvtee-reuse-buf`. -/
def uvteeReuseBuf : TeeProgram := ⟨ReuseBuf.allocCb, ReuseBuf.readCb, false⟩

/-- `03-uvtee-all-async`. -/
def uvteeAllAsync : TeeProgram := ⟨allocCb, readCb, true⟩

/-! ### The event loop -/

/-- `alloc_cb` is called before each read, except that at the end of the file or on an error there
may be no buffer. -/
def buffer (prog : TeeProgram) (s : Tee) : Option Bytes → Tee × UvBuf
  | none => (s, ⟨none, 0⟩)
  | some fresh => prog.allocCb s fresh

/-- libuv puts what it has read into the buffer. -/
def fill (s : Tee) (buf : UvBuf) (data : Bytes) : Except Stop Tee :=
  match buf.base with
  | none => .ok { s with offset := s.offset + data.length }
  | some p => do
    let block ← deref (s.heap.get? p) "buf->base"
    .ok { s with
      offset := s.offset + data.length
      heap := s.heap.set p (data ++ block.drop data.length) }

/-- The oldest write to a sink is called back; libuv has sent what its block holds. -/
def written (s : Tee) (k : Sink) (status : ℤ) : Except Stop Tee :=
  match (s.queue k).pending, (s.reqs k).pending with
  | w :: _, req :: _ => do
    let block ← deref (s.heap.get? w.base) "req->buf.base"
    let sent := if status = 0 then block.take w.sent.length else []
    writeCb { s with
      queue := Function.update s.queue k ((s.queue k).complete sent)
      reqs := Function.update s.reqs k ((s.reqs k).complete req.sent) } req.base status
  | _, _ => .error (.undefined "no write is due")

/-- The program when `main` enters `uv_run`. -/
def init (prog : TeeProgram) (input : Bytes) : Tee where
  input := input
  offset := 0
  opening := prog.async
  reading := !prog.async
  eof := false
  closed := fun _ => false
  queue := fun _ => .empty
  heap := .empty
  reqs := fun _ => .empty
  writeReqs := .empty
  reusebuf := none
  reusesize := SIZE_MAX
  allocs := []

/-- A read delivers what comes next and fits into the buffer; `uv_close` cancels the writes that are
pending and is called back when these have been. -/
def Enabled (prog : TeeProgram) (s : Tee) : TeeEvent → Prop
  | .opened _ => s.opening = true
  | .read fresh r =>
    s.reading = true ∧ s.eof = false ∧ (0 ≤ r.nread → fresh.isSome) ∧
      r.data.length ≤ (buffer prog s fresh).2.len ∧ r.data <+: s.input.drop s.offset ∧
      (r.nread = UV_EOF → s.offset = s.input.length)
  | .written k status => (s.queue k).pending ≠ [] ∧ (s.eof = true → status = UV_ECANCELED)
  | .closed p =>
    s.eof = true ∧ s.closed p = false ∧ ∀ k, p = .sink k → (s.queue k).pending = []

def dispatch (prog : TeeProgram) (s : Tee) : TeeEvent → Except Stop Tee
  | .opened result => openCb s result
  | .read fresh r => do
    let s' ← fill (buffer prog s fresh).1 (buffer prog s fresh).2 r.data
    prog.readCb s' r.nread (buffer prog s fresh).2
  | .written k status => written s k status
  | .closed p => .ok { s with closed := Function.update s.closed p true }

/-- A version of the program, driven by the event loop. -/
def tee (prog : TeeProgram) : EventLoop Tee TeeEvent Stop := ⟨Enabled prog, dispatch prog⟩

instance (prog : TeeProgram) (s : Tee) (e : TeeEvent) : Decidable ((tee prog).enabled s e) := by
  have hsinks : ∀ p, Decidable (∀ k, p = Pipe.sink k → (s.queue k).pending = []) := by
    intro p
    cases p with
    | stdin => exact .isTrue nofun
    | sink k => exact decidable_of_iff ((s.queue k).pending = []) (by simp)
  show Decidable (Enabled prog s e)
  cases e <;> unfold Enabled <;> infer_instance

/-! ### The pending writes -/

/-- What a `write_req_t` says about a write. -/
def bufOf (w : WriteOut UInt8) : UvBuf := ⟨some w.base, w.sent.length⟩

/-- The copies of the pending writes and their `write_req_t`s are there, each used by one write, and
every `write_req_t` is that of a pending write and points to its copy. -/
structure Held (queue : Sink → WriteQueue UInt8) (heap : Heap Bytes)
    (reqs : Sink → WriteQueue UvBuf) (writeReqs : Heap (List UvBuf)) : Prop where
  copies : WriteQueue.Intact queue heap
  blocks : WriteQueue.Intact reqs writeReqs
  same : ∀ k, (reqs k).pending.map WriteOut.sent = (queue k).pending.map fun w => [bufOf w]
  allUsed : WriteQueue.AllUsed reqs writeReqs

namespace Held

variable {queue : Sink → WriteQueue UInt8} {heap : Heap Bytes} {reqs : Sink → WriteQueue UvBuf}
  {writeReqs : Heap (List UvBuf)} {p : ℕ}

theorem empty : Held (fun _ => .empty) .empty (fun _ => .empty) .empty where
  copies := WriteQueue.intact_empty _
  blocks := WriteQueue.intact_empty _
  same := fun _ => rfl
  allUsed := WriteQueue.allUsed_empty

/-- A buffer is allocated. -/
theorem alloc (h : Held queue heap reqs writeReqs) (block : Bytes) :
    Held queue (heap.alloc block) reqs writeReqs :=
  ⟨h.copies.alloc block, h.blocks, h.same, h.allUsed⟩

/-- A buffer is written. -/
theorem set (h : Held queue heap reqs writeReqs) (hp : WriteQueue.Unused queue p) (block : Bytes) :
    Held queue (heap.set p block) reqs writeReqs :=
  ⟨h.copies.set hp block, h.blocks, h.same, h.allUsed⟩

/-- A buffer is freed. -/
theorem free (h : Held queue heap reqs writeReqs) (hp : WriteQueue.Unused queue p) :
    Held queue (heap.free p) reqs writeReqs :=
  ⟨h.copies.free hp, h.blocks, h.same, h.allUsed⟩

/-- A copy is written, by a new `write_req_t`. -/
theorem submit (h : Held queue heap reqs writeReqs) (k : Sink) (data : Bytes) :
    Held (Function.update queue k ((queue k).submit ⟨heap.next, data⟩)) (heap.alloc data)
      (Function.update reqs k
        ((reqs k).submit ⟨writeReqs.next, [⟨some heap.next, data.length⟩]⟩))
      (writeReqs.alloc [⟨some heap.next, data.length⟩]) where
  copies := (h.copies.alloc data).submit k h.copies.unused_next
    (Heap.get?_alloc_next _ _) List.prefix_rfl
  blocks := (h.blocks.alloc _).submit k h.blocks.unused_next
    (Heap.get?_alloc_next _ _) List.prefix_rfl
  same j := by
    by_cases hj : j = k
    · subst hj
      simp [WriteQueue.submit, h.same j, bufOf]
    · rw [Function.update_of_ne hj, Function.update_of_ne hj]
      exact h.same j
  allUsed := (WriteQueue.allUsed_alloc_submit_iff k _ _).mpr h.allUsed

/-- The oldest write of a sink has a `write_req_t`, which points to its copy. -/
theorem oldest (h : Held queue heap reqs writeReqs) {k : Sink} {w : WriteOut UInt8}
    {ws : List (WriteOut UInt8)} (hw : (queue k).pending = w :: ws) :
    ∃ req rest, (reqs k).pending = req :: rest ∧ req.sent = [bufOf w] ∧
      ∃ more, writeReqs.get? req.base = some (bufOf w :: more) := by
  have hsame := h.same k
  rw [hw, List.map_cons] at hsame
  obtain ⟨req, rest, hreqs, hsent, -⟩ := List.map_eq_cons_iff.mp hsame
  obtain ⟨bufs, hbufs, more, rfl⟩ := h.blocks.held k req (by simp [hreqs])
  rw [hsent] at hbufs
  exact ⟨req, rest, hreqs, hsent, more, hbufs⟩

/-- The oldest write of a sink is called back, and both its blocks are freed. -/
theorem complete (h : Held queue heap reqs writeReqs) {k : Sink} {w : WriteOut UInt8}
    {ws : List (WriteOut UInt8)} {req : WriteOut UvBuf} {rest : List (WriteOut UvBuf)}
    (hw : (queue k).pending = w :: ws) (hreq : (reqs k).pending = req :: rest) :
    Held (Function.update queue k ((queue k).complete w.sent)) (heap.free w.base)
      (Function.update reqs k ((reqs k).complete req.sent)) (writeReqs.free req.base) := by
  obtain ⟨-, hcopies, hunused⟩ := h.copies.complete hw
  obtain ⟨-, hblocks, hunused'⟩ := h.blocks.complete hreq
  refine ⟨hcopies.free hunused, hblocks.free hunused', ?_,
    (WriteQueue.allUsed_complete_free_iff hreq _).mpr h.allUsed⟩
  intro j
  by_cases hj : j = k
  · subst hj
    simp [WriteQueue.complete, List.map_tail, h.same j]
  · rw [Function.update_of_ne hj, Function.update_of_ne hj]
    exact h.same j

end Held

/-! ### What a read event does -/

/-- What a read event does in every version: what was read is handed to both sinks. -/
structure ReadEffect (s : Tee) (r : ReadResult) (u : Tee) : Prop where
  input : u.input = s.input
  offset : u.offset = s.offset + r.data.length
  eof : u.eof = decide (r.nread = UV_EOF)
  closed : u.closed = s.closed
  submitted : ∀ k, (u.queue k).submitted = (s.queue k).submitted ++ r.data
  quiet : r.nread ≤ 0 → u.queue = s.queue

/-- One write of a copy. -/
def copied (s : Tee) (k : Sink) (data : Bytes) : Tee :=
  { s with
    heap := s.heap.alloc data
    writeReqs := s.writeReqs.alloc [⟨some s.heap.next, data.length⟩]
    queue := Function.update s.queue k ((s.queue k).submit ⟨s.heap.next, data⟩)
    reqs := Function.update s.reqs k
      ((s.reqs k).submit ⟨s.writeReqs.next, [⟨some s.heap.next, data.length⟩]⟩) }

/-- Two writes of copies. -/
def teed (s : Tee) (data : Bytes) : Tee := copied (copied s .stdout data) .file data

section

variable {s u : Tee} {r : ReadResult} {data : Bytes} {p : ℕ}

/-- `write_data` of what the front of the buffer holds. -/
theorem writeData_eq {rest : Bytes} {size : ℕ} (hp : s.heap.get? p = some (data ++ rest))
    (hsize : data.length = size) (k : Sink) (len : ℕ) :
    writeData s k size ⟨some p, len⟩ = .ok (copied s k data) := by
  subst hsize
  have hfits : ¬ (data ++ rest).length < data.length := by
    rw [List.length_append]
    omega
  refine bind_ok_iff.mpr ⟨p, rfl, bind_ok_iff.mpr ⟨_, deref_ok_iff.mpr hp, ?_⟩⟩
  rw [if_neg hfits, List.take_left' rfl]
  rfl

theorem writeBoth_eq {rest : Bytes} {size : ℕ} (hp : s.heap.get? p = some (data ++ rest))
    (hsize : data.length = size) (len : ℕ) :
    writeBoth s size ⟨some p, len⟩ = .ok (teed s data) := by
  unfold writeBoth
  rw [writeData_eq hp hsize]
  have hp' : (copied s .stdout data).heap.get? p = some (data ++ rest) :=
    Heap.get?_alloc_of_live hp data
  exact writeData_eq hp' hsize .file len

theorem copied_submitted (s : Tee) (k : Sink) (data : Bytes) (j : Sink) :
    ((copied s k data).queue j).submitted =
      (s.queue j).submitted ++ if j = k then data else [] := by
  by_cases hj : j = k
  · subst hj
    simp [copied, WriteQueue.submit]
  · simp [copied, hj]

theorem teed_submitted (s : Tee) (data : Bytes) (k : Sink) :
    ((teed s data).queue k).submitted = (s.queue k).submitted ++ data := by
  rw [teed, copied_submitted, copied_submitted]
  cases k <;> simp

/-- The pending writes of a state find their blocks. -/
abbrev WritesHeld (s : Tee) : Prop := Held s.queue s.heap s.reqs s.writeReqs

theorem teed_held (h : WritesHeld s) (data : Bytes) : WritesHeld (teed s data) :=
  (h.submit .stdout data).submit .file data

theorem lt_next_copied (k : Sink) (hp : p < s.heap.next) : p < (copied s k data).heap.next := by
  show p < (s.heap.alloc data).next
  rw [Heap.next_alloc]
  omega

/-- Nothing that was there before is touched by a copy. -/
theorem copied_get? (k : Sink) (hp : p < s.heap.next) :
    (copied s k data).heap.get? p = s.heap.get? p :=
  (Heap.get?_alloc _ _ _).trans (if_neg hp.ne)

theorem teed_get? (hp : p < s.heap.next) : (teed s data).heap.get? p = s.heap.get? p :=
  (copied_get? .file (lt_next_copied .stdout hp)).trans (copied_get? .stdout hp)

theorem copied_unused (k : Sink) (hq : WriteQueue.Unused s.queue p) (hp : p < s.heap.next) :
    WriteQueue.Unused (copied s k data).queue p := by
  intro j w hw
  rcases WriteQueue.mem_pending_submit hw with hold | ⟨-, rfl⟩
  · exact hq j w hold
  · exact hp.ne'

theorem teed_unused (hq : WriteQueue.Unused s.queue p) (hp : p < s.heap.next) :
    WriteQueue.Unused (teed s data).queue p :=
  copied_unused .file (copied_unused .stdout hq hp) (lt_next_copied .stdout hp)

theorem free_live {block : Bytes} (hp : s.heap.get? p = some block) :
    free s (some p) = .ok { s with heap := s.heap.free p } := by
  show (do
    let _ ← deref (s.heap.get? p) "free"
    .ok { s with heap := s.heap.free p }) = _
  rw [hp]
  rfl

/-- libuv puts what it has read at the front of a live buffer. -/
theorem fill_live {block : Bytes} (hp : s.heap.get? p = some block) (len : ℕ) (data : Bytes) :
    fill s ⟨some p, len⟩ data = .ok { s with
      offset := s.offset + data.length
      heap := s.heap.set p (data ++ block.drop data.length) } := by
  show (do
    let block ← deref (s.heap.get? p) "buf->base"
    .ok { s with
      offset := s.offset + data.length
      heap := s.heap.set p (data ++ block.drop data.length) }) = _
  rw [hp]
  rfl

/-- The state in which `read_cb` starts, the buffer being the block `p`. -/
def filled (s : Tee) (p : ℕ) (block data : Bytes) : Tee :=
  { s with
    offset := s.offset + data.length
    heap := s.heap.set p (data ++ block.drop data.length) }

theorem filled_get? {block : Bytes} (hp : s.heap.get? p = some block) :
    (filled s p block data).heap.get? p = some (data ++ block.drop data.length) :=
  Heap.get?_set_self hp _

/-- `read_cb` starts in the state `t`: libuv has read, and nothing else has changed. -/
structure Started (s : Tee) (r : ReadResult) (t : Tee) : Prop where
  input : t.input = s.input
  offset : t.offset = s.offset + r.data.length
  closed : t.closed = s.closed
  queue : t.queue = s.queue
  eof : t.eof = false

theorem Started.atEof {t : Tee} (ht : Started s r t) (hn : r.nread = UV_EOF) (heap : Heap Bytes)
    (size : ℕ) : ReadEffect s r { t with eof := true, heap := heap, reusesize := size } where
  input := ht.input
  offset := ht.offset
  eof := (decide_eq_true hn).symm
  closed := ht.closed
  submitted k := by
    have hle : r.nread ≤ 0 := by
      rw [hn]
      decide
    show (t.queue k).submitted = _
    rw [ht.queue, ReadResult.data_of_nonpos hle, List.append_nil]
  quiet _ := ht.queue

/-- A read that brings nothing, and is not the end of the file. -/
theorem Started.atError {t : Tee} (ht : Started s r t) (hn : r.nread ≠ UV_EOF) (hle : r.nread ≤ 0)
    (heap : Heap Bytes) : ReadEffect s r { t with heap := heap } where
  input := ht.input
  offset := ht.offset
  eof := ht.eof.trans (decide_eq_false hn).symm
  closed := ht.closed
  submitted k := by
    show (t.queue k).submitted = _
    rw [ht.queue, ReadResult.data_of_nonpos hle, List.append_nil]
  quiet _ := ht.queue

/-- What was read is copied twice. -/
theorem Started.atData {t : Tee} (ht : Started s r t) (hpos : 0 < r.nread) (heap : Heap Bytes) :
    ReadEffect s r { teed t r.data with heap := heap } where
  input := ht.input
  offset := ht.offset
  eof := by
    have hn : r.nread ≠ UV_EOF := by
      unfold UV_EOF
      omega
    exact ht.eof.trans (decide_eq_false hn).symm
  closed := ht.closed
  submitted k := by
    rw [← ht.queue]
    exact teed_submitted t r.data k
  quiet hle := absurd hle (by omega)

/-! ### The plain version -/

/-- `read_cb` of the plain version without a buffer. -/
theorem readCb_null {t : Tee} (ht : Started s r t) (hneg : r.nread < 0)
    (hheld : WritesHeld t) :
    ∃ u, readCb t r.nread ⟨none, 0⟩ = .ok u ∧ ReadEffect s r u ∧
      WritesHeld u := by
  unfold readCb readResult
  by_cases hn : r.nread = UV_EOF
  · rw [if_pos hn]
    exact ⟨_, rfl, ht.atEof hn t.heap t.reusesize, hheld⟩
  · rw [if_neg hn, if_neg (by omega)]
    exact ⟨_, rfl, ht.atError hn hneg.le t.heap, hheld⟩

/-- `read_cb` of the plain version with a buffer that no write uses, which is freed. -/
theorem readCb_buffer {t : Tee} {rest : Bytes} {len : ℕ} (ht : Started s r t)
    (hblock : t.heap.get? p = some (r.data ++ rest)) (hunused : WriteQueue.Unused t.queue p)
    (hheld : WritesHeld t) :
    ∃ u, readCb t r.nread ⟨some p, len⟩ = .ok u ∧ ReadEffect s r u ∧
      WritesHeld u := by
  have hnext : p < t.heap.next := Heap.lt_next hblock
  unfold readCb readResult
  by_cases hn : r.nread = UV_EOF
  · rw [if_pos hn]
    show ∃ u, free { t with eof := true } (some p) = .ok u ∧ _
    rw [free_live (s := { t with eof := true }) hblock]
    exact ⟨_, rfl, ht.atEof hn _ t.reusesize, hheld.free hunused⟩
  · rw [if_neg hn]
    by_cases hpos : r.nread > 0
    · rw [if_pos hpos, writeBoth_eq hblock r.valid]
      show ∃ u, free (teed t r.data) (some p) = .ok u ∧ _
      rw [free_live (s := teed t r.data) ((teed_get? hnext).trans hblock)]
      exact ⟨_, rfl, ht.atData hpos _,
        (teed_held hheld r.data).free (teed_unused hunused hnext)⟩
    · rw [if_neg hpos]
      show ∃ u, free t (some p) = .ok u ∧ _
      rw [free_live hblock]
      exact ⟨_, rfl, ht.atError hn (by omega) _, hheld.free hunused⟩

/-- **A read event of the plain version**, from any state in which the writes are held: the buffer
is freed again, and both sinks are handed what was read. -/
theorem uvtee_read {fresh : Option Bytes} (async : Bool)
    (h : WritesHeld s) (heof : s.eof = false)
    (hbuf : 0 ≤ r.nread → fresh.isSome) :
    ∃ u, dispatch ⟨allocCb, readCb, async⟩ s (.read fresh r) = .ok u ∧ ReadEffect s r u ∧
      WritesHeld u := by
  cases fresh with
  | none =>
    have hneg : r.nread < 0 := by
      by_contra hpos
      exact absurd (hbuf (by omega)) (by decide)
    exact readCb_null (t := { s with offset := s.offset + r.data.length })
      ⟨rfl, rfl, rfl, rfl, heof⟩ hneg h
  | some fresh =>
    have hnew : (mallocBuf s fresh).heap.get? s.heap.next = some fresh :=
      Heap.get?_alloc_next _ _
    have hunused : WriteQueue.Unused s.queue s.heap.next := h.copies.unused_next
    have hd : dispatch ⟨allocCb, readCb, async⟩ s (.read (some fresh) r)
        = readCb (filled (mallocBuf s fresh) s.heap.next fresh r.data) r.nread
          ⟨some s.heap.next, fresh.length⟩ := by
      show (do
        let s' ← fill (mallocBuf s fresh) ⟨some s.heap.next, fresh.length⟩ r.data
        readCb s' r.nread ⟨some s.heap.next, fresh.length⟩) = _
      rw [fill_live hnew]
      rfl
    rw [hd]
    exact readCb_buffer (t := filled (mallocBuf s fresh) s.heap.next fresh r.data)
      ⟨rfl, rfl, rfl, rfl, heof⟩ (filled_get? hnew) hunused ((h.alloc fresh).set hunused _)

/-! ### The version that reuses its buffer -/

/-- The buffer that is reused: none yet, or the only block that `alloc_cb` ever allocated, which no
write uses, and which lives up to the end of the file. -/
structure OneBuffer (s : Tee) : Prop where
  before : s.reusebuf = none → s.allocs = []
  after : ∀ p, s.reusebuf = some p → s.allocs = [p] ∧ p < s.heap.next ∧
    WriteQueue.Unused s.queue p ∧
    if s.eof then s.heap.get? p = none
    else ∃ block, s.heap.get? p = some block ∧ block.length = s.reusesize

theorem OneBuffer.of_some {s : Tee} {p : ℕ} (hbuf : s.reusebuf = some p) (hallocs : s.allocs = [p])
    (hlt : p < s.heap.next) (hunused : WriteQueue.Unused s.queue p)
    (hlive : if s.eof then s.heap.get? p = none
      else ∃ block, s.heap.get? p = some block ∧ block.length = s.reusesize) : OneBuffer s where
  before hnone := by
    rw [hnone] at hbuf
    cases hbuf
  after q hq := by
    obtain rfl : p = q := Option.some.inj (hbuf.symm.trans hq)
    exact ⟨hallocs, hlt, hunused, hlive⟩

/-- `alloc_cb` hands out the one buffer, allocating it the first time. -/
theorem reuseBuf_alloc (h : WritesHeld s) (hone : OneBuffer s)
    (heof : s.eof = false) (fresh : Bytes) :
    ∃ p s₁, ReuseBuf.allocCb s fresh = (s₁, ⟨some p, s₁.reusesize⟩) ∧ s₁.reusebuf = some p ∧
      OneBuffer s₁ ∧ WritesHeld s₁ ∧ s₁.queue = s.queue ∧
      s₁.input = s.input ∧ s₁.offset = s.offset ∧ s₁.closed = s.closed ∧ s₁.eof = false := by
  cases hbuf : s.reusebuf with
  | some p =>
    have halloc : ReuseBuf.allocCb s fresh = (s, ⟨some p, s.reusesize⟩) := by
      simp [ReuseBuf.allocCb, hbuf]
    exact ⟨p, s, halloc, hbuf, hone, h, rfl, rfl, rfl, rfl, heof⟩
  | none =>
    refine ⟨s.heap.next, { mallocBuf s fresh with
      reusebuf := some s.heap.next, reusesize := fresh.length }, ?_, rfl, ⟨nofun, ?_⟩,
      h.alloc fresh, rfl, rfl, rfl, rfl, heof⟩
    · simp [ReuseBuf.allocCb, hbuf]
    · intro p hp
      cases hp
      refine ⟨?_, ?_, h.copies.unused_next, ?_⟩
      · show s.allocs ++ [s.heap.next] = [s.heap.next]
        rw [hone.before hbuf, List.nil_append]
      · show s.heap.next < (s.heap.alloc fresh).next
        rw [Heap.next_alloc]
        omega
      · rw [if_neg (by rw [show (mallocBuf s fresh).eof = false from heof]; decide)]
        exact ⟨fresh, Heap.get?_alloc_next _ _, rfl⟩

/-- The block of the buffer, before the end of the file. -/
theorem OneBuffer.live (h : OneBuffer s) (hp : s.reusebuf = some p) (heof : s.eof = false) :
    ∃ block, s.heap.get? p = some block ∧ block.length = s.reusesize := by
  have hlive := (h.after p hp).2.2.2
  rwa [if_neg (by rw [heof]; decide)] at hlive

/-- What libuv reads does not change the size of the buffer. -/
theorem OneBuffer.filled (h : OneBuffer s) {block : Bytes} (hbuf : s.reusebuf = some p)
    (hblock : s.heap.get? p = some block) (heof : s.eof = false)
    (hfits : data.length ≤ s.reusesize) : OneBuffer (filled s p block data) := by
  obtain ⟨hallocs, hlt, hunused, -⟩ := h.after p hbuf
  obtain ⟨block', hblock', hsize⟩ := h.live hbuf heof
  obtain rfl : block = block' := Option.some.inj (hblock.symm.trans hblock')
  refine .of_some hbuf hallocs ?_ hunused ?_
  · show p < (s.heap.set p _).next
    rwa [Heap.next_set]
  · rw [if_neg (by rw [show (Uvtee.filled s p block data).eof = false from heof]; decide)]
    refine ⟨_, filled_get? hblock, ?_⟩
    rw [List.length_append, List.length_drop]
    show _ = s.reusesize
    omega

/-- The copies leave the buffer alone. -/
theorem OneBuffer.teed (h : OneBuffer s) (data : Bytes) : OneBuffer (teed s data) where
  before := h.before
  after p hp := by
    obtain ⟨hallocs, hlt, hunused, hlive⟩ := h.after p hp
    refine ⟨hallocs, ?_, teed_unused hunused hlt, ?_⟩
    · show p < ((s.heap.alloc data).alloc data).next
      rw [Heap.next_alloc, Heap.next_alloc]
      omega
    · rw [teed_get? hlt]
      exact hlive

/-- At the end of the file the buffer is freed. -/
theorem OneBuffer.freed (h : OneBuffer s) (hbuf : s.reusebuf = some p) (size : ℕ) :
    OneBuffer { s with eof := true, heap := s.heap.free p, reusesize := size } := by
  obtain ⟨hallocs, hlt, hunused, -⟩ := h.after p hbuf
  refine .of_some hbuf hallocs ?_ hunused ?_
  · show p < (s.heap.free p).next
    rwa [Heap.next_free]
  · rw [if_pos rfl]
    exact Heap.get?_free_self _ _

/-- A buffer that is missing, or the one that is reused, is kept by `read_cb`. -/
theorem reuseBuf_keeps {buf : UvBuf} (hbuf : buf.base = none ∨ buf.base = s.reusebuf) :
    ¬ (buf.base.isSome ∧ buf.base ≠ s.reusebuf) := by
  rintro ⟨hsome, hne⟩
  rcases hbuf with hnone | hsame
  · rw [hnone] at hsome
    cases hsome
  · exact hne hsame

/-- The end of the file in `read_cb`. -/
theorem reuseBuf_eof (hone : OneBuffer s) (heof : s.eof = false) (nread : ℤ) (buf : UvBuf)
    (hn : nread = UV_EOF) (hbuf : buf.base = none ∨ buf.base = s.reusebuf) :
    (s.reusebuf = none ∧ ReuseBuf.readCb s nread buf = .ok { s with eof := true }) ∨
      ∃ p, s.reusebuf = some p ∧ ReuseBuf.readCb s nread buf = .ok { s with
        eof := true, heap := s.heap.free p, reusesize := SIZE_MAX } := by
  have hkeep := reuseBuf_keeps hbuf
  rcases Option.eq_none_or_eq_some s.reusebuf with hreuse | ⟨p, hreuse⟩
  · refine .inl ⟨hreuse, ?_⟩
    have hres : ReuseBuf.readResult s nread buf = .ok { s with eof := true } := by
      unfold ReuseBuf.readResult
      rw [if_pos hn]
      exact if_neg (by show ¬ s.reusebuf.isSome = true; rw [hreuse]; decide)
    unfold ReuseBuf.readCb
    rw [hres]
    exact if_neg hkeep
  · refine .inr ⟨p, hreuse, ?_⟩
    obtain ⟨block, hblock, -⟩ := hone.live hreuse heof
    have hfree : free { s with eof := true } s.reusebuf
        = .ok { s with eof := true, heap := s.heap.free p } :=
      (congrArg (free { s with eof := true }) hreuse).trans
        (free_live (s := { s with eof := true }) hblock)
    have hres : ReuseBuf.readResult s nread buf = .ok { s with
        eof := true, heap := s.heap.free p, reusesize := SIZE_MAX } := by
      unfold ReuseBuf.readResult
      rw [if_pos hn]
      refine (if_pos (by show s.reusebuf.isSome = true; rw [hreuse]; rfl)).trans ?_
      show (do
        let s ← free { s with eof := true } s.reusebuf
        .ok { s with reusesize := SIZE_MAX }) = _
      rw [hfree]
      rfl
    unfold ReuseBuf.readCb
    rw [hres]
    exact if_neg hkeep

/-- `read_cb` on a result that is neither data nor the end of the file. -/
theorem reuseBuf_other {nread : ℤ} {buf : UvBuf} (hn : nread ≠ UV_EOF) (hle : nread ≤ 0)
    (hbuf : buf.base = none ∨ buf.base = s.reusebuf) :
    ReuseBuf.readCb s nread buf = .ok s := by
  have hkeep := reuseBuf_keeps hbuf
  unfold ReuseBuf.readCb ReuseBuf.readResult
  rw [if_neg hn, if_neg (by omega)]
  exact if_neg hkeep

/-- `read_cb` on data. -/
theorem reuseBuf_data {rest : Bytes} {len : ℕ} (hpos : 0 < r.nread)
    (hblock : s.heap.get? p = some (r.data ++ rest)) (hbuf : s.reusebuf = some p) :
    ReuseBuf.readCb s r.nread ⟨some p, len⟩ = .ok (teed s r.data) := by
  have hn : r.nread ≠ UV_EOF := by
    unfold UV_EOF
    omega
  have hkeep : ¬ ((some p).isSome ∧ some p ≠ (teed s r.data).reusebuf) := by
    rintro ⟨-, hne⟩
    exact hne hbuf.symm
  unfold ReuseBuf.readCb ReuseBuf.readResult
  rw [if_neg hn, if_pos hpos, writeBoth_eq hblock r.valid]
  exact if_neg hkeep

/-- **A read event of the version that reuses its buffer**, from any state in which the writes are
held and the buffer is the only one. -/
theorem reuseBuf_read {fresh : Option Bytes} (async : Bool)
    (h : WritesHeld s) (hone : OneBuffer s) (heof : s.eof = false)
    (hbuf : 0 ≤ r.nread → fresh.isSome)
    (hfits : r.data.length ≤ (buffer ⟨ReuseBuf.allocCb, ReuseBuf.readCb, async⟩ s fresh).2.len) :
    ∃ u, dispatch ⟨ReuseBuf.allocCb, ReuseBuf.readCb, async⟩ s (.read fresh r) = .ok u ∧
      ReadEffect s r u ∧ WritesHeld u ∧ OneBuffer u := by
  cases fresh with
  | none =>
    have hneg : r.nread < 0 := by
      by_contra hpos
      exact absurd (hbuf (by omega)) (by decide)
    have hd : dispatch ⟨ReuseBuf.allocCb, ReuseBuf.readCb, async⟩ s (.read none r)
        = ReuseBuf.readCb { s with offset := s.offset + r.data.length } r.nread ⟨none, 0⟩ := rfl
    have hone₁ : OneBuffer { s with offset := s.offset + r.data.length } :=
      ⟨hone.before, hone.after⟩
    have ht : Started s r { s with offset := s.offset + r.data.length } :=
      ⟨rfl, rfl, rfl, rfl, heof⟩
    rw [hd]
    by_cases hn : r.nread = UV_EOF
    · rcases reuseBuf_eof hone₁ heof r.nread ⟨none, 0⟩ hn (.inl rfl)
        with ⟨hnone, hok⟩ | ⟨p, hp, hok⟩
      · refine ⟨_, hok, ht.atEof hn s.heap s.reusesize, h, hone.before, fun q hq => ?_⟩
        rw [show s.reusebuf = some q from hq] at hnone
        cases hnone
      · exact ⟨_, hok, ht.atEof hn _ SIZE_MAX, h.free (hone.after p hp).2.2.1,
          hone₁.freed hp SIZE_MAX⟩
    · exact ⟨_, reuseBuf_other hn hneg.le (.inl rfl), ht.atError hn hneg.le s.heap, h, hone₁⟩
  | some fresh =>
    obtain ⟨p, s₁, halloc, hreuse, hone₁, hheld, hqueue, hinput, hoffset, hclosed, heof₁⟩ :=
      reuseBuf_alloc h hone heof fresh
    have hfits₁ : r.data.length ≤ s₁.reusesize := by
      have hlen : (ReuseBuf.allocCb s fresh).2.len = s₁.reusesize := by rw [halloc]
      rw [← hlen]
      exact hfits
    obtain ⟨block, hblock, -⟩ := hone₁.live hreuse heof₁
    have hd : dispatch ⟨ReuseBuf.allocCb, ReuseBuf.readCb, async⟩ s (.read (some fresh) r)
        = ReuseBuf.readCb (filled s₁ p block r.data) r.nread ⟨some p, s₁.reusesize⟩ := by
      show (do
        let s' ← fill (ReuseBuf.allocCb s fresh).1 (ReuseBuf.allocCb s fresh).2 r.data
        ReuseBuf.readCb s' r.nread (ReuseBuf.allocCb s fresh).2) = _
      rw [halloc]
      show (do
        let s' ← fill s₁ ⟨some p, s₁.reusesize⟩ r.data
        ReuseBuf.readCb s' r.nread ⟨some p, s₁.reusesize⟩) = _
      rw [fill_live hblock]
      rfl
    have hone₂ := hone₁.filled hreuse hblock heof₁ hfits₁
    have hunused := (hone₁.after p hreuse).2.2.1
    have hheld₂ : WritesHeld (filled s₁ p block r.data) :=
      hheld.set hunused _
    have hblock₂ : (filled s₁ p block r.data).heap.get? p = _ := filled_get? hblock
    have ht : Started s r (filled s₁ p block r.data) :=
      ⟨hinput, congrArg (· + r.data.length) hoffset, hclosed, hqueue, heof₁⟩
    rw [hd]
    by_cases hn : r.nread = UV_EOF
    · rcases reuseBuf_eof hone₂ heof₁ r.nread ⟨some p, s₁.reusesize⟩ hn (.inr hreuse.symm)
        with ⟨hnone, -⟩ | ⟨q, hq, hok⟩
      · rw [show s₁.reusebuf = none from hnone] at hreuse
        cases hreuse
      · obtain rfl : p = q := Option.some.inj (hreuse.symm.trans hq)
        exact ⟨_, hok, ht.atEof hn _ SIZE_MAX, hheld₂.free hunused, hone₂.freed hreuse SIZE_MAX⟩
    · by_cases hpos : 0 < r.nread
      · exact ⟨_, reuseBuf_data hpos hblock₂ hreuse, ht.atData hpos _,
          teed_held hheld₂ r.data, hone₂.teed r.data⟩
      · exact ⟨_, reuseBuf_other hn (by omega) (.inr hreuse.symm), ht.atError hn (by omega) _,
          hheld₂, hone₂⟩

end

end LibuvDox.Uvtee
