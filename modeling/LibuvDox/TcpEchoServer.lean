import LibuvDox.Lib.WriteQueue
import LibuvDox.PipeEchoServer

/-!
# 05-tcp-echo-server/main.c

The tcp echo server does not copy what it reads: `read_cb` hands the buffer of `alloc_cb` over to
the write, and `write_cb` frees it.  A client is closed as soon as its end of file is read, whatever
is still to be written to it; libuv then calls the pending writes back with `UV_ECANCELED`, and
`write_cb` takes any error for a reason to abort.

* `echo_intact`: in every run, what is submitted to a client is what was read from it, and every
  pending write finds its bytes where they were.
* `drained_iff`: no closed client has a write pending exactly in the runs in which every end of file
  came to a client without one.
* `losesNothing_iff`: with healthy peers, nothing is lost and no write is cancelled exactly then.
-/

namespace LibuvDox.TcpEchoServer

/-- A client handle: whether it is read from, and whether it was passed to `uv_close`. -/
structure EchoClient where
  reading : Bool
  closing : Bool
  deriving DecidableEq, Repr

/-- The number of clients, the client handles and what is written to them, the buffers, and the
counters. -/
structure TcpEcho where
  clients : ℕ
  client : ℕ → EchoClient
  queue : ℕ → WriteQueue UInt8
  heap : Heap Bytes
  totalRead : ℤ
  totalWritten : ℤ

def init : TcpEcho := ⟨0, fun _ => ⟨false, false⟩, fun _ => .empty, .empty, 0, 0⟩

/-- A connection, with its status and what `uv_accept` returns; a read event; the oldest write of a
client is called back. -/
inductive EchoEvent where
  | connect (status accept : ℤ)
  | read (c : ℕ) (e : BufferRead)
  | written (c : ℕ) (status : ℤ)
  deriving DecidableEq, Repr

/-- `ERROR(msg, code)`. -/
def errorMacro : Stop := .assertFailed "0"

namespace TcpEcho

def setClient (s : TcpEcho) (c : ℕ) (client : EchoClient) : TcpEcho :=
  { s with client := Function.update s.client c client }

def setQueue (s : TcpEcho) (c : ℕ) (q : WriteQueue UInt8) : TcpEcho :=
  { s with queue := Function.update s.queue c q }

/-- `uv_close`. -/
def uvClose (s : TcpEcho) (c : ℕ) : TcpEcho := s.setClient c { s.client c with closing := true }

end TcpEcho

def connectionCb (s : TcpEcho) (status accept : ℤ) : Except Stop TcpEcho :=
  if status ≠ 0 then .error errorMacro
  else
    .ok { s.setClient s.clients ⟨decide (accept = 0), decide (accept ≠ 0)⟩ with
      clients := s.clients + 1 }

/-- `alloc_cb`, and what libuv put into the buffer. -/
def allocCb (s : TcpEcho) : Option Bytes → TcpEcho × Option ℕ
  | none => (s, none)
  | some contents => ({ s with heap := s.heap.alloc contents }, some s.heap.next)

/-- `uv_write` of the first `len` bytes of a buffer. -/
def uvWrite (s : TcpEcho) (c : ℕ) (base : Option ℕ) (len : ℕ) : Except Stop TcpEcho := do
  let p ← deref base "buf->base"
  let block ← deref (s.heap.get? p) "buf->base"
  if block.length < len then .error (.undefined "buf->len")
  else .ok (s.setQueue c ((s.queue c).submit ⟨p, block.take len⟩))

/-- `free`. -/
def free (s : TcpEcho) : Option ℕ → Except Stop TcpEcho
  | none => .ok s
  | some p => do
    let _ ← deref (s.heap.get? p) "free"
    .ok { s with heap := s.heap.free p }

/-- `read_cb`, up to the `free` at its end. -/
def readResult (s : TcpEcho) (c : ℕ) (nread : ℤ) (base : Option ℕ) : Except Stop TcpEcho :=
  if nread = UV_EOF then .ok { s.uvClose c with totalRead := 0, totalWritten := 0 }
  else if nread > 0 then
    uvWrite { s with totalRead := toInt (s.totalRead + nread) } c base nread.toNat
  else .ok s

def readCb (s : TcpEcho) (c : ℕ) (nread : ℤ) (base : Option ℕ) : Except Stop TcpEcho := do
  let s ← readResult s c nread base
  if nread = 0 then free s base else .ok s

def writeCb (s : TcpEcho) (w : WriteOut UInt8) (status : ℤ) : Except Stop TcpEcho :=
  let written := toInt w.sent.length
  if status ≠ 0 then .error errorMacro
  else do
    let total ← addInt s.totalWritten written
    free { s with totalWritten := total } (some w.base)

/-- The oldest write of a client is called back; libuv has sent what its buffer holds. -/
def written (s : TcpEcho) (c : ℕ) (status : ℤ) : Except Stop TcpEcho :=
  match (s.queue c).pending with
  | [] => .error (.undefined "no write is due")
  | w :: _ => do
    let block ← deref (s.heap.get? w.base) "wr->buf.base"
    let sent := if status = 0 then block.take w.sent.length else []
    writeCb (s.setQueue c ((s.queue c).complete sent)) w status

/-- Reads go on until the client is closed; a closing client has its writes cancelled. -/
def Enabled (s : TcpEcho) : EchoEvent → Prop
  | .connect _ _ => True
  | .read c _ => (s.client c).reading = true ∧ (s.client c).closing = false
  | .written c status =>
    (s.queue c).pending ≠ [] ∧ ((s.client c).closing = true → status = UV_ECANCELED)

instance (s : TcpEcho) (e : EchoEvent) : Decidable (Enabled s e) := by
  cases e <;> unfold Enabled <;> infer_instance

def dispatch (s : TcpEcho) : EchoEvent → Except Stop TcpEcho
  | .connect status accept => connectionCb s status accept
  | .read c e =>
    let (s, base) := allocCb s e.buf
    readCb s c e.nread base
  | .written c status => written s c status

def echoServer : EventLoop TcpEcho EchoEvent Stop := ⟨Enabled, dispatch⟩

instance (s : TcpEcho) (e : EchoEvent) : Decidable (echoServer.enabled s e) :=
  inferInstanceAs (Decidable (Enabled s e))

/-- The bytes that a read event brings from client `c`. -/
def bytesOf (c : ℕ) : EchoEvent → Bytes
  | .read c' e => if c' = c ∧ 0 < e.nread then e.received else []
  | _ => []

/-- All that was read from client `c`. -/
def readFrom (c : ℕ) (es : List EchoEvent) : Bytes := es.flatMap (bytesOf c)

theorem readFrom_snoc (c : ℕ) (es : List EchoEvent) (e : EchoEvent) :
    readFrom c (es ++ [e]) = readFrom c es ++ bytesOf c e := by
  rw [readFrom, List.flatMap_append, List.flatMap_cons, List.flatMap_nil, List.append_nil, readFrom]

/-! ### What the callbacks do -/

section

variable {s u : TcpEcho} {c : ℕ}

theorem free_ok {base : Option ℕ} (h : free s base = .ok u) :
    (base = none ∧ u = s) ∨
      ∃ p block, base = some p ∧ s.heap.get? p = some block ∧
        u = { s with heap := s.heap.free p } := by
  cases base with
  | none =>
    cases h
    exact .inl ⟨rfl, rfl⟩
  | some p =>
    obtain ⟨block, hblock, h⟩ := bind_ok_iff.mp h
    cases h
    exact .inr ⟨p, block, rfl, deref_ok_iff.mp hblock, rfl⟩

theorem uvWrite_ok {base : Option ℕ} {len : ℕ} (h : uvWrite s c base len = .ok u) :
    ∃ p block, base = some p ∧ s.heap.get? p = some block ∧ len ≤ block.length ∧
      u = s.setQueue c ((s.queue c).submit ⟨p, block.take len⟩) := by
  obtain ⟨p, hp, h⟩ := bind_ok_iff.mp h
  obtain ⟨block, hblock, h⟩ := bind_ok_iff.mp h
  split at h
  · cases h
  · cases h
    exact ⟨p, block, deref_ok_iff.mp hp, deref_ok_iff.mp hblock, by omega, rfl⟩

/-- What `read_cb` has done when it returns, by the sign of `nread`. -/
inductive ReadDone (s : TcpEcho) (c : ℕ) (nread : ℤ) (base : Option ℕ) : TcpEcho → Prop
  | eof (hn : nread = UV_EOF) :
      ReadDone s c nread base { s.uvClose c with totalRead := 0, totalWritten := 0 }
  | data {p : ℕ} {block : Bytes} {total : ℤ} (hn : 0 < nread) (hbase : base = some p)
      (hblock : s.heap.get? p = some block) (hlen : nread.toNat ≤ block.length) :
      ReadDone s c nread base
        { s.setQueue c ((s.queue c).submit ⟨p, block.take nread.toNat⟩) with totalRead := total }
  | nothing (hn : nread = 0) (hbase : base = none) : ReadDone s c nread base s
  | zero {p : ℕ} (hn : nread = 0) (hbase : base = some p) :
      ReadDone s c nread base { s with heap := s.heap.free p }
  | error (hn : nread < 0) (hne : nread ≠ UV_EOF) : ReadDone s c nread base s

theorem readCb_ok {nread : ℤ} {base : Option ℕ} (h : readCb s c nread base = .ok u) :
    ReadDone s c nread base u := by
  obtain ⟨r, hr, h⟩ := bind_ok_iff.mp h
  unfold readResult at hr
  by_cases heof : nread = UV_EOF
  · rw [if_pos heof] at hr
    cases hr
    have hne : nread ≠ 0 := by
      unfold UV_EOF at heof
      omega
    rw [if_neg hne] at h
    cases h
    exact .eof heof
  · rw [if_neg heof] at hr
    by_cases hpos : nread > 0
    · rw [if_pos hpos] at hr
      obtain ⟨p, block, hbase, hblock, hlen, rfl⟩ := uvWrite_ok hr
      have hne : nread ≠ 0 := by omega
      rw [if_neg hne] at h
      cases h
      exact .data hpos hbase hblock hlen
    · rw [if_neg hpos] at hr
      cases hr
      by_cases hzero : nread = 0
      · rw [if_pos hzero] at h
        rcases free_ok h with ⟨hbase, rfl⟩ | ⟨p, block, hbase, -, rfl⟩
        · exact .nothing hzero hbase
        · exact .zero hzero hbase
      · rw [if_neg hzero] at h
        cases h
        exact .error (by omega) heof

/-- What the callback of a write has done when it returns: the write was successful. -/
theorem written_ok {status : ℤ} (h : written s c status = .ok u) :
    status = 0 ∧ ∃ w ws block total, (s.queue c).pending = w :: ws ∧
      s.heap.get? w.base = some block ∧
      u = { s.setQueue c ((s.queue c).complete (block.take w.sent.length)) with
        heap := s.heap.free w.base, totalWritten := total } := by
  unfold written at h
  split at h
  · cases h
  · rename_i w ws hpending
    obtain ⟨block, hblock, h⟩ := bind_ok_iff.mp h
    unfold writeCb at h
    by_cases hstatus : status = 0
    · subst hstatus
      obtain ⟨total, -, h⟩ := bind_ok_iff.mp h
      rcases free_ok h with ⟨hnone, -⟩ | ⟨p, _, hbase, -, rfl⟩
      · cases hnone
      · cases hbase
        exact ⟨rfl, w, ws, block, total, hpending, deref_ok_iff.mp hblock, rfl⟩
    · have hne : ¬ status = 0 := hstatus
      simp only [ne_eq, hne, not_false_eq_true, if_true] at h
      cases h

end

/-! ### Order and isolation -/

/-- What holds after the events `es`: every write finds its bytes, what is submitted to a client is
what was read from it, and a client that is still to come has no past. -/
structure Sound (es : List EchoEvent) (s : TcpEcho) : Prop where
  intact : WriteQueue.Intact s.queue s.heap
  submitted : ∀ c, (s.queue c).submitted = readFrom c es
  fresh : ∀ c, s.clients ≤ c → (s.queue c).pending = [] ∧ s.client c = ⟨false, false⟩

theorem init_sound : Sound [] init where
  intact := WriteQueue.intact_empty _
  submitted := fun _ => rfl
  fresh := fun _ _ => ⟨rfl, rfl⟩

section

variable {es : List EchoEvent} {s u : TcpEcho} {c : ℕ}

/-- An event that brings nothing to be written, as far as the writes are concerned. -/
theorem Sound.quiet {e : EchoEvent} (h : Sound es s) (hqueue : u.queue = s.queue)
    (hintact : WriteQueue.Intact s.queue u.heap) (hbytes : ∀ c, bytesOf c e = [])
    (hfresh : ∀ c, u.clients ≤ c → s.clients ≤ c ∧ u.client c = s.client c) :
    Sound (es ++ [e]) u where
  intact := hqueue ▸ hintact
  submitted c := by rw [hqueue, h.submitted c, readFrom_snoc, hbytes c, List.append_nil]
  fresh c hc := by
    obtain ⟨hle, hsame⟩ := hfresh c hc
    rw [hqueue, hsame]
    exact h.fresh c hle

theorem Sound.connect {status accept : ℤ} (h : Sound es s)
    (hok : connectionCb s status accept = .ok u) : Sound (es ++ [.connect status accept]) u := by
  unfold connectionCb at hok
  split at hok
  · cases hok
  · cases hok
    refine h.quiet rfl h.intact (fun _ => rfl) fun c hc => ?_
    have hlt : s.clients + 1 ≤ c := hc
    have hne : c ≠ s.clients := by omega
    exact ⟨by omega, Function.update_of_ne hne _ _⟩

/-- A client that is read from has been accepted. -/
theorem Sound.lt_clients (h : Sound es s) (hreading : (s.client c).reading = true) :
    c < s.clients := by
  by_contra hle
  rw [(h.fresh c (by omega)).2] at hreading
  cases hreading

/-- Where a client that is there is set, those to come are not touched. -/
theorem Sound.set_other (h : Sound es s) (hreading : (s.client c).reading = true)
    (client : EchoClient) (d : ℕ) (hd : s.clients ≤ d) :
    Function.update s.client c client d = s.client d := by
  have := h.lt_clients hreading
  exact Function.update_of_ne (by omega) _ _

theorem bytesOf_of_nonpos {e : BufferRead} (hn : ¬ 0 < e.nread) (d : ℕ) :
    bytesOf d (.read c e) = [] := if_neg fun h => hn h.2

/-- A read without a buffer: the end of the file, or an error. -/
theorem Sound.readNull {e : BufferRead} (h : Sound es s) (hreading : (s.client c).reading = true)
    (hneg : e.nread < 0) (hdone : ReadDone s c e.nread none u) : Sound (es ++ [.read c e]) u := by
  have hbytes : ∀ d, bytesOf d (.read c e) = [] := bytesOf_of_nonpos (by omega)
  cases hdone with
  | eof => exact h.quiet rfl h.intact hbytes fun d hd => ⟨hd, h.set_other hreading _ d hd⟩
  | data hn => omega
  | nothing => exact h.quiet rfl h.intact hbytes fun d hd => ⟨hd, rfl⟩
  | zero hn => omega
  | error => exact h.quiet rfl h.intact hbytes fun d hd => ⟨hd, rfl⟩

/-- The buffer is handed over to a write on the client that it was read from. -/
theorem Sound.echo {e : BufferRead} {block : Bytes} (h : Sound es s)
    (hreading : (s.client c).reading = true) (hbuf : e.buf = some block) (hn : 0 < e.nread)
    (total : ℤ) :
    Sound (es ++ [.read c e])
      { s.setQueue c ((s.queue c).submit ⟨s.heap.next, block.take e.nread.toNat⟩) with
        heap := s.heap.alloc block
        totalRead := total } where
  intact := (h.intact.alloc block).submit c h.intact.unused_next (Heap.get?_alloc_next _ _)
    (List.take_prefix _ _)
  submitted d := by
    rw [readFrom_snoc]
    show (Function.update s.queue c _ d).submitted = _
    by_cases hd : d = c
    · subst hd
      have hreceived : e.received = block.take e.nread.toNat := by
        simp [BufferRead.received, BufferRead.contents, hbuf]
      have hbytes : bytesOf d (.read d e) = e.received := if_pos ⟨rfl, hn⟩
      rw [Function.update_self, hbytes, hreceived]
      exact congrArg (· ++ block.take e.nread.toNat) (h.submitted d)
    · have hbytes : bytesOf d (.read c e) = [] := if_neg fun h => hd h.1.symm
      rw [Function.update_of_ne hd, h.submitted d, hbytes, List.append_nil]
  fresh d hd := by
    have hlt := h.lt_clients hreading
    have hle : s.clients ≤ d := hd
    have hne : d ≠ c := by omega
    refine ⟨?_, (h.fresh d hle).2⟩
    show (Function.update s.queue c _ d).pending = []
    rw [Function.update_of_ne hne]
    exact (h.fresh d hle).1

/-- A read into a buffer. -/
theorem Sound.readBuffer {e : BufferRead} {contents : Bytes} (h : Sound es s)
    (hreading : (s.client c).reading = true) (hbuf : e.buf = some contents)
    (hdone : ReadDone { s with heap := s.heap.alloc contents } c e.nread (some s.heap.next) u) :
    Sound (es ++ [.read c e]) u := by
  have halloc := h.intact.alloc contents
  cases hdone with
  | eof hn =>
    have hneg : ¬ 0 < e.nread := by
      rw [hn]
      decide
    exact h.quiet rfl halloc (bytesOf_of_nonpos hneg)
      fun d hd => ⟨hd, h.set_other hreading _ d hd⟩
  | @data p block total hn hbase hblock hlen =>
    cases hbase
    obtain rfl : contents = block :=
      Option.some.inj ((Heap.get?_alloc_next _ _).symm.trans hblock)
    exact h.echo hreading hbuf hn total
  | nothing hn hbase => cases hbase
  | zero hn hbase =>
    cases hbase
    exact h.quiet rfl (halloc.free h.intact.unused_next) (bytesOf_of_nonpos (by omega))
      fun d hd => ⟨hd, rfl⟩
  | error hn =>
    exact h.quiet rfl halloc (bytesOf_of_nonpos (by omega)) fun d hd => ⟨hd, rfl⟩

theorem Sound.read {e : BufferRead} (h : Sound es s)
    (he : echoServer.enabled s (.read c e))
    (hok : echoServer.dispatch s (.read c e) = .ok u) : Sound (es ++ [.read c e]) u := by
  have hread : readCb (allocCb s e.buf).1 c e.nread (allocCb s e.buf).2 = .ok u := hok
  have hdone := readCb_ok hread
  cases hbuf : e.buf with
  | none =>
    have hneg : e.nread < 0 := by
      by_contra hpos
      have := e.notNull (by omega)
      rw [hbuf] at this
      cases this
    rw [hbuf] at hdone
    exact h.readNull he.1 hneg hdone
  | some contents =>
    rw [hbuf] at hdone
    exact h.readBuffer he.1 hbuf hdone

theorem Sound.written {status : ℤ} (h : Sound es s) (hok : written s c status = .ok u) :
    Sound (es ++ [.written c status]) u := by
  obtain ⟨-, w, ws, block, total, hpending, hblock, rfl⟩ := written_ok hok
  obtain ⟨⟨block', hblock', htake⟩, hintact, hunused⟩ := h.intact.complete hpending
  rw [hblock] at hblock'
  obtain rfl := Option.some.inj hblock'
  rw [htake]
  refine ⟨hintact.free hunused, fun d => ?_, fun d hd => ?_⟩
  · rw [readFrom_snoc]
    show (Function.update s.queue c _ d).submitted = readFrom d es ++ []
    rw [List.append_nil, ← h.submitted d]
    by_cases hd : d = c
    · subst hd
      rw [Function.update_self]
      rfl
    · rw [Function.update_of_ne hd]
  · refine ⟨?_, (h.fresh d hd).2⟩
    show (Function.update s.queue c _ d).pending = []
    by_cases hd' : d = c
    · subst hd'
      rw [(h.fresh d hd).1] at hpending
      cases hpending
    · rw [Function.update_of_ne hd']
      exact (h.fresh d hd).1

end

theorem sound_of_run {es : List EchoEvent} {s : TcpEcho} (h : echoServer.Run init es s) :
    Sound es s := by
  refine h.history init_sound fun es s e u hs he hok => ?_
  cases e with
  | connect status accept => exact hs.connect hok
  | read c e => exact hs.read he hok
  | written c status => exact hs.written hok

/-- **Order and isolation.**  In every run and for every client, what was submitted is what was read
from that client, and every pending write finds in its buffer, which is live, the bytes that were
submitted with it. -/
theorem echo_intact (es : List EchoEvent) (s : TcpEcho) (h : echoServer.Run init es s) (c : ℕ) :
    (s.queue c).submitted = readFrom c es ∧
      ∀ w ∈ (s.queue c).pending, ∃ block, s.heap.get? w.base = some block ∧
        block.take w.sent.length = w.sent := by
  have hs := sound_of_run h
  refine ⟨hs.submitted c, fun w hw => ?_⟩
  obtain ⟨block, hblock, hsent⟩ := hs.intact.held c w hw
  exact ⟨block, hblock, (List.prefix_iff_eq_take.mp hsent).symm⟩

/-- Two bytes in a buffer of three, and the end of the file. -/
def hi : BufferRead := ⟨2, some [104, 105, 0], by decide, by decide⟩

def endOfFile : BufferRead := ⟨UV_EOF, none, by decide, by decide⟩

def yo : BufferRead := ⟨2, some [121, 111], by decide, by decide⟩

/-- Two clients send in turn, and the first echo of each has come out when both have sent again. -/
def twoClients : List EchoEvent :=
  [.connect 0 0, .connect 0 0, .read 0 hi, .read 1 yo, .read 0 yo, .read 1 hi, .written 1 0,
    .written 0 0, .read 1 yo]

theorem echo_intact_twoClients : ∃ s, echoServer.Run init twoClients s ∧
    (s.queue 0).submitted = [104, 105, 121, 111] ∧
    (s.queue 1).submitted = [121, 111, 104, 105, 121, 111] ∧
    (s.queue 1).pending = [⟨3, [104, 105]⟩, ⟨4, [121, 111]⟩] ∧
    ∀ w ∈ (s.queue 1).pending, ∃ block, s.heap.get? w.base = some block ∧
      block.take w.sent.length = w.sent := by
  obtain ⟨s, hrun, hpending⟩ : ∃ s, echoServer.Run init twoClients s ∧
      ((s.queue 1).pending == [⟨3, [104, 105]⟩, ⟨4, [121, 111]⟩]) = true :=
    EventLoop.exists_run_of_plays (by decide +kernel)
  obtain ⟨hall, hheld⟩ := echo_intact _ s hrun 1
  exact ⟨s, hrun, (echo_intact _ s hrun 0).1, hall, eq_of_beq hpending, hheld⟩

/-! ### The end of a stream -/

/-- The peers are healthy: a write fails only if its client is closed. -/
def Healthy (s : TcpEcho) : EchoEvent → Prop
  | .written c status => (s.client c).closing = false → status = 0
  | _ => True

/-- The end of file of a client is read only when nothing is being written to that client. -/
def DrainedAtEof (s : TcpEcho) : EchoEvent → Prop
  | .read c e => e.nread = UV_EOF → (s.queue c).pending = []
  | _ => True

instance (s : TcpEcho) (e : EchoEvent) : Decidable (Healthy s e) := by
  cases e <;> unfold Healthy <;> infer_instance

instance (s : TcpEcho) (e : EchoEvent) : Decidable (DrainedAtEof s e) := by
  cases e <;> unfold DrainedAtEof <;> infer_instance

/-- No client that is closed has a write pending. -/
def Drained (s : TcpEcho) : Prop := ∀ c, (s.client c).closing = true → (s.queue c).pending = []

/-- A step that closes nobody, and changes what is pending only for clients that are open. -/
theorem drained_congr {s u : TcpEcho} (hclient : ∀ c, (u.client c).closing = (s.client c).closing)
    (hqueue : ∀ c, (s.client c).closing = true → (u.queue c).pending = (s.queue c).pending) :
    Drained u ↔ Drained s := by
  constructor
  · intro h c hc
    rw [← hqueue c hc]
    exact h c ((hclient c).trans hc)
  · intro h c hc
    have hc' : (s.client c).closing = true := (hclient c).symm.trans hc
    rw [hqueue c hc']
    exact h c hc'

theorem Sound.connect_drained {es : List EchoEvent} {s u : TcpEcho} {status accept : ℤ}
    (h : Sound es s) (hok : connectionCb s status accept = .ok u) : Drained u ↔ Drained s := by
  unfold connectionCb at hok
  split at hok
  · cases hok
  · cases hok
    have hfresh := h.fresh s.clients le_rfl
    constructor
    · intro hu c hc
      have hne : c ≠ s.clients := by
        rintro rfl
        rw [hfresh.2] at hc
        cases hc
      refine hu c ?_
      show (Function.update s.client s.clients _ c).closing = true
      rw [Function.update_of_ne hne]
      exact hc
    · intro hs c hc
      by_cases hne : c = s.clients
      · rw [hne]
        exact hfresh.1
      · refine hs c ?_
        have hc' : (Function.update s.client s.clients _ c).closing = true := hc
        rwa [Function.update_of_ne hne] at hc'

theorem read_drained {s u : TcpEcho} {c : ℕ} {nread : ℤ} {base : Option ℕ}
    (hopen : (s.client c).closing = false) (hok : readCb s c nread base = .ok u) :
    Drained u ↔ Drained s ∧ (nread = UV_EOF → (s.queue c).pending = []) := by
  cases readCb_ok hok with
  | eof hn =>
    constructor
    · intro hu
      have hclosed : ∀ d, d = c ∨ (s.client d).closing = true → (s.queue d).pending = [] := by
        intro d hd
        refine hu d ?_
        show (Function.update s.client c _ d).closing = true
        by_cases hdc : d = c
        · rw [hdc, Function.update_self]
        · rw [Function.update_of_ne hdc]
          exact hd.resolve_left hdc
      exact ⟨fun d hd => hclosed d (.inr hd), fun _ => hclosed c (.inl rfl)⟩
    · intro ⟨hs, hc⟩ d hd
      by_cases hdc : d = c
      · rw [hdc]
        exact hc hn
      · refine hs d ?_
        have hd' : (Function.update s.client c _ d).closing = true := hd
        rwa [Function.update_of_ne hdc] at hd'
  | @data p block total hn hbase hblock hlen =>
    have hne : nread ≠ UV_EOF := by
      unfold UV_EOF
      omega
    rw [and_iff_left fun heq => absurd heq hne]
    refine drained_congr (fun _ => rfl) fun d hd => ?_
    have hdc : d ≠ c := by
      rintro rfl
      rw [hopen] at hd
      cases hd
    show (Function.update s.queue c _ d).pending = _
    rw [Function.update_of_ne hdc]
  | nothing hn =>
    rw [and_iff_left fun heq => by rw [hn] at heq; cases heq]
  | zero hn =>
    rw [and_iff_left fun heq => by rw [hn] at heq; cases heq]
    exact drained_congr (fun _ => rfl) fun _ _ => rfl
  | error hn hne => rw [and_iff_left fun heq => absurd heq hne]

/-- **One step.**  After it no closed client has a write pending exactly if there was none before
and the step is not an end of file that comes too early. -/
theorem Sound.drained_step {es : List EchoEvent} {s u : TcpEcho} {e : EchoEvent} (h : Sound es s)
    (he : echoServer.enabled s e) (hok : echoServer.dispatch s e = .ok u) :
    Drained u ↔ Drained s ∧ DrainedAtEof s e := by
  cases e with
  | connect status accept =>
    have hguard : DrainedAtEof s (.connect status accept) := trivial
    rw [and_iff_left hguard]
    exact h.connect_drained hok
  | read c e =>
    have hok' : readCb (allocCb s e.buf).1 c e.nread (allocCb s e.buf).2 = .ok u := hok
    cases hbuf : e.buf with
    | none =>
      rw [hbuf] at hok'
      exact read_drained he.2 hok'
    | some contents =>
      rw [hbuf] at hok'
      exact read_drained (s := { s with heap := s.heap.alloc contents }) he.2 hok'
  | written c status =>
    obtain ⟨rfl, w, ws, block, total, -, -, rfl⟩ := written_ok hok
    have hguard : DrainedAtEof s (.written c 0) := trivial
    rw [and_iff_left hguard]
    refine drained_congr (fun _ => rfl) fun d hd => ?_
    have hdc : d ≠ c := by
      rintro rfl
      exact absurd (he.2 hd) (by decide)
    show (Function.update s.queue c _ d).pending = _
    rw [Function.update_of_ne hdc]

/-- **Early ends of file.**  No closed client has a write pending exactly in the runs in which every
end of file was read when nothing was being written to its client. -/
theorem drained_iff {es : List EchoEvent} {s : TcpEcho}
    (h : (echoServer.restrict Healthy).Run init es s) :
    ((echoServer.restrict Healthy).restrict DrainedAtEof).Run init es s ↔ Drained s := by
  induction h with
  | nil => exact ⟨fun _ c hc => rfl, fun _ => .nil⟩
  | snoc h he hok ih =>
    rw [h.restrict_snoc_iff he hok, ih, (sound_of_run h.of_restrict).drained_step he.1 hok]

/-- What a client whose stream has ended can expect: everything that was read from it has gone back
to it, and `write_cb` will not be called with `UV_ECANCELED` for it. -/
def LosesNothing (es : List EchoEvent) (s : TcpEcho) : Prop :=
  ∀ c, (s.client c).closing = true → (s.queue c).arrived = readFrom c es ∧
    ∀ status, echoServer.enabled s (.written c status) → status ≠ UV_ECANCELED

/-- **The end of a stream.**  In every run with healthy peers nothing is lost at an end of file, and
no write is cancelled, exactly if every end of file was read when nothing was being written to its
client. -/
theorem losesNothing_iff (es : List EchoEvent) (s : TcpEcho)
    (h : (echoServer.restrict Healthy).Run init es s) :
    LosesNothing es s ↔
      ((echoServer.restrict Healthy).restrict DrainedAtEof).Run init es s := by
  rw [drained_iff h]
  have hs := sound_of_run h.of_restrict
  constructor
  · intro hloses c hc
    by_contra hpending
    exact (hloses c hc).2 UV_ECANCELED ⟨hpending, fun _ => rfl⟩ rfl
  · intro hdrained c hc
    have hpending := hdrained c hc
    refine ⟨?_, fun status he => absurd hpending he.1⟩
    have hall := hs.intact.conserved c
    rw [hpending, List.flatMap_nil, List.append_nil] at hall
    rw [← hall, hs.submitted c]

/-- A client whose two bytes have been written back before it ends its stream. -/
theorem losesNothing_iff_inTime : ∃ es s, (echoServer.restrict Healthy).Run init es s ∧
    (s.client 0).closing = true ∧ LosesNothing es s := by
  obtain ⟨s, hrun, hp⟩ : ∃ s, ((echoServer.restrict Healthy).restrict DrainedAtEof).Run init
      [.connect 0 0, .read 0 hi, .written 0 0, .read 0 endOfFile] s ∧
      (s.client 0).closing = true := EventLoop.exists_run_of_plays (by decide +kernel)
  exact ⟨_, s, hrun.of_restrict, hp, (losesNothing_iff _ s hrun.of_restrict).mpr hrun⟩

/-- A client that ends its stream while its two bytes are still on their way back: they are
cancelled. -/
theorem eof_cancels_writes : ¬ ∀ es s, (echoServer.restrict Healthy).Run init es s →
    LosesNothing es s := by
  intro h
  obtain ⟨s, hrun, hp⟩ : ∃ s, (echoServer.restrict Healthy).Run init
      [.connect 0 0, .read 0 hi, .read 0 endOfFile] s ∧
      ((s.client 0).closing && decide (Enabled s (.written 0 UV_ECANCELED))) = true :=
    EventLoop.exists_run_of_plays (by decide +kernel)
  rw [Bool.and_eq_true, decide_eq_true_eq] at hp
  exact (h _ s hrun 0 hp.1).2 UV_ECANCELED hp.2 rfl

end LibuvDox.TcpEchoServer
