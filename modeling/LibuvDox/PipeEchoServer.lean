import LibuvDox.Lib.EventLoop
import LibuvDox.Lib.Heap
import LibuvDox.Uv

/-!
# 19-pipe-echo-server/main.c and 20-multi-echo-server/worker.c

The pipe echo server and the worker of the multi-process echo server write every buffer they read
back to the client it came from.  Their `alloc_cb`, `read_cb` and `write_cb` are the same; they
differ in how a client is accepted.  `read_cb` hands libuv the buffer it was given, whose `len` is
the capacity that `alloc_cb` chose and not the number of bytes that were read.

* `submittedTo_eq`: what is written back to a client is the whole buffer of every read event.
* `faithfulEcho_iff`: a client gets back what it sent exactly when every read filled its buffer.
-/

namespace LibuvDox

/-- What a read callback gets: `nread`, and the buffer of `alloc_cb` with all that is in it, or
the null buffer, which libuv passes on end of file or an error only. -/
structure BufferRead where
  nread : ℤ
  buf : Option Bytes
  fits : nread ≤ (buf.getD []).length
  notNull : 0 ≤ nread → buf.isSome
  deriving DecidableEq, Repr

namespace BufferRead

/-- All `buf->len` bytes of the buffer. -/
def contents (e : BufferRead) : Bytes := e.buf.getD []

/-- The bytes that the client sent. -/
def received (e : BufferRead) : Bytes := e.contents.take e.nread.toNat

theorem length_received_le (e : BufferRead) : e.received.length ≤ e.contents.length := by
  rw [received, List.length_take]
  omega

/-- What was received is all of the buffer exactly when it was filled. -/
theorem received_eq_contents_iff (e : BufferRead) (h : 0 ≤ e.nread) :
    e.received = e.contents ↔ e.nread = e.contents.length := by
  have hfits : e.nread ≤ e.contents.length := e.fits
  rw [received, List.take_eq_self_iff]
  omega

theorem length_flatMap_received_le (es : List BufferRead) :
    (es.flatMap received).length ≤ (es.flatMap contents).length := by
  induction es with
  | nil => exact le_rfl
  | cons e es ih =>
    have := e.length_received_le
    simp only [List.flatMap_cons, List.length_append]
    omega

/-- The buffers of a list of reads hold what was received, one after another, exactly when each of
them does. -/
theorem flatMap_contents_eq_iff (es : List BufferRead) :
    es.flatMap contents = es.flatMap received ↔ ∀ e ∈ es, e.received = e.contents := by
  induction es with
  | nil => simp
  | cons e es ih =>
    simp only [List.flatMap_cons, List.forall_mem_cons]
    constructor
    · intro heq
      have hrest := length_flatMap_received_le es
      have hle := e.length_received_le
      have hlen := congrArg List.length heq
      simp only [List.length_append] at hlen
      obtain ⟨hhead, htail⟩ := List.append_inj heq (by omega)
      exact ⟨hhead.symm, ih.mp htail⟩
    · intro ⟨hhead, htail⟩
      rw [ih.mpr htail, hhead]

end BufferRead

namespace PipeEchoServer

/-- A client: whether its handle is open, the `req->data` of its pending writes, and all that was
submitted with `uv_write` to it. -/
structure EchoClient where
  isOpen : Bool
  pending : List (Option ℕ)
  submitted : Bytes
  deriving DecidableEq, Repr

/-- The clients accepted so far, and the buffers on the heap. -/
structure EchoServer where
  clients : List EchoClient
  buffers : Heap Bytes
  deriving DecidableEq, Repr

def init : EchoServer := ⟨[], .empty⟩

/-- A new connection, whose meaning for the program and results of `uv_pipe_init` and `uv_accept`
come with it; a read event, and whether a write it leads to is accepted; the oldest write of a
client completes. -/
inductive EchoEvent where
  | connect (arg pipeInit accept : ℤ)
  | read (c : ℕ) (e : BufferRead) (accepted : Bool)
  | written (c : ℕ) (status : ℤ)
  deriving DecidableEq, Repr

/-- `ERROR(msg, code)`. -/
def errorMacro : Stop := .assertFailed "0"

/-- `alloc_cb`, and what libuv put into the buffer. -/
def allocCb (s : EchoServer) : Option Bytes → EchoServer × Option ℕ
  | none => (s, none)
  | some contents => ({ s with buffers := s.buffers.alloc contents }, some s.buffers.next)

/-- `read_cb`; `uv_write` sends all of the buffer. -/
def readCb (s : EchoServer) (c : ℕ) (nread : ℤ) (base : Option ℕ) (accepted : Bool) :
    Except Stop EchoServer := do
  let client ← deref s.clients[c]? "client"
  if nread < 0 then
    .ok { s with clients := s.clients.set c { client with isOpen := false } }
  else
    let sent ← deref (base.bind s.buffers.get?) "buf->base"
    .ok { s with
      clients := s.clients.set c { client with
        pending := if accepted then client.pending ++ [base] else client.pending
        submitted := client.submitted ++ sent } }

/-- `write_cb`; `free` of a null pointer does nothing. -/
def writeCb (s : EchoServer) (reqData : Option ℕ) (status : ℤ) : Except Stop EchoServer :=
  if status < 0 then .error errorMacro
  else
    match reqData with
    | none => .ok s
    | some base => do
      let _ ← deref (s.buffers.get? base) "free(base)"
      .ok { s with buffers := s.buffers.free base }

/-- The part of `connect_cb` that the programs share. -/
def acceptClient (s : EchoServer) (pipeInit accept : ℤ) : Except Stop EchoServer :=
  if pipeInit ≠ 0 then .error errorMacro
  else .ok { s with clients := s.clients ++ [⟨decide (accept = 0), [], []⟩] }

/-- `connect_cb` of the pipe echo server. -/
def connectCb (s : EchoServer) (status pipeInit accept : ℤ) : Except Stop EchoServer :=
  if status ≠ 0 then .ok s else acceptClient s pipeInit accept

def UV_UNKNOWN_HANDLE : ℤ := 0

/-- `connect_cb` of the worker. -/
def workerConnectCb (s : EchoServer) (pending pipeInit accept : ℤ) : Except Stop EchoServer :=
  if pending = UV_UNKNOWN_HANDLE then .ok s else acceptClient s pipeInit accept

/-- Reads go on until the handle is closed. -/
def Enabled (s : EchoServer) : EchoEvent → Prop
  | .connect _ _ _ => True
  | .read c _ _ => (s.clients[c]?.map EchoClient.isOpen) = some true
  | .written c _ => ∃ client ∈ s.clients[c]?, client.pending ≠ []

instance (s : EchoServer) (e : EchoEvent) : Decidable (Enabled s e) := by
  cases e <;> unfold Enabled <;> infer_instance

/-- The callbacks, for either `connect_cb`. -/
def dispatch (connect : EchoServer → ℤ → ℤ → ℤ → Except Stop EchoServer) (s : EchoServer) :
    EchoEvent → Except Stop EchoServer
  | .connect arg pipeInit accept => connect s arg pipeInit accept
  | .read c e accepted =>
    let (s, base) := allocCb s e.buf
    readCb s c e.nread base accepted
  | .written c status => do
    let client ← deref s.clients[c]? "client"
    writeCb { s with clients := s.clients.set c { client with pending := client.pending.tail } }
      (client.pending.headD none) status

def pipeEchoServer : EventLoop EchoServer EchoEvent Stop := ⟨Enabled, dispatch connectCb⟩

def worker : EventLoop EchoServer EchoEvent Stop := ⟨Enabled, dispatch workerConnectCb⟩

instance (s : EchoServer) (e : EchoEvent) : Decidable (pipeEchoServer.enabled s e) :=
  inferInstanceAs (Decidable (Enabled s e))

instance (s : EchoServer) (e : EchoEvent) : Decidable (worker.enabled s e) :=
  inferInstanceAs (Decidable (Enabled s e))

/-- All that was submitted with `uv_write` to client `c`. -/
def submittedTo (s : EchoServer) (c : ℕ) : Bytes :=
  (s.clients[c]?.map EchoClient.submitted).getD []

/-- The reads of client `c` with `nread >= 0`, in order. -/
def readsOf (c : ℕ) (es : List EchoEvent) : List BufferRead :=
  es.filterMap fun
    | .read c' e _ => if c' = c ∧ 0 ≤ e.nread then some e else none
    | _ => none

/-- All that client `c` sent. -/
def sentBy (c : ℕ) (es : List EchoEvent) : Bytes := (readsOf c es).flatMap BufferRead.received

/-! ### What is written back -/

theorem readsOf_append (c : ℕ) (es : List EchoEvent) (e : EchoEvent) :
    readsOf c (es ++ [e]) = readsOf c es ++ readsOf c [e] := List.filterMap_append

section

variable {connect : EchoServer → ℤ → ℤ → ℤ → Except Stop EchoServer} {s u : EchoServer} {c : ℕ}

/-- What both `connect_cb`s do: nothing, or append a client. -/
def Accepts (connect : EchoServer → ℤ → ℤ → ℤ → Except Stop EchoServer) : Prop :=
  ∀ s arg pipeInit accept u, connect s arg pipeInit accept = .ok u →
    u = s ∨ ∃ isOpen, u = { s with clients := s.clients ++ [⟨isOpen, [], []⟩] }

theorem acceptClient_ok {pipeInit accept : ℤ} (h : acceptClient s pipeInit accept = .ok u) :
    ∃ isOpen, u = { s with clients := s.clients ++ [⟨isOpen, [], []⟩] } := by
  unfold acceptClient at h
  split at h
  · cases h
  · cases h
    exact ⟨_, rfl⟩

theorem connectCb_accepts : Accepts connectCb := by
  intro s status pipeInit accept u h
  unfold connectCb at h
  split at h
  · cases h
    exact .inl rfl
  · exact .inr (acceptClient_ok h)

theorem workerConnectCb_accepts : Accepts workerConnectCb := by
  intro s pending pipeInit accept u h
  unfold workerConnectCb at h
  split at h
  · cases h
    exact .inl rfl
  · exact .inr (acceptClient_ok h)

/-- A client that has just been accepted was sent nothing. -/
theorem submittedTo_append (s : EchoServer) (isOpen : Bool) (c : ℕ) :
    submittedTo { s with clients := s.clients ++ [⟨isOpen, [], []⟩] } c = submittedTo s c :=
  getD_map_append rfl c

theorem submittedTo_set {client client' : EchoClient} {c' : ℕ} {buffers : Heap Bytes}
    (h : s.clients[c']? = some client) (c : ℕ) :
    submittedTo ⟨s.clients.set c' client', buffers⟩ c =
      if c = c' then client'.submitted else submittedTo s c :=
  getD_map_set h client' EchoClient.submitted [] c

theorem submittedTo_of_get {client : EchoClient} (h : s.clients[c]? = some client) :
    submittedTo s c = client.submitted := by
  simp only [submittedTo, h]
  rfl

/-- `write_cb` touches no client. -/
theorem writeCb_clients {reqData : Option ℕ} {status : ℤ} (h : writeCb s reqData status = .ok u) :
    u.clients = s.clients := by
  unfold writeCb at h
  split at h
  · cases h
  · cases reqData with
    | none =>
      cases h
      rfl
    | some base =>
      obtain ⟨_, -, hu⟩ := bind_ok_iff.mp h
      cases hu
      rfl

/-- `read_cb` writes the whole buffer back, unless the read failed. -/
theorem readCb_submittedTo {c' : ℕ} {nread : ℤ} {base : Option ℕ} {accepted : Bool}
    (h : readCb s c' nread base accepted = .ok u) (c : ℕ) :
    submittedTo u c = submittedTo s c ++
      if c' = c ∧ 0 ≤ nread then (base.bind s.buffers.get?).getD [] else [] := by
  obtain ⟨client, hclient, h⟩ := bind_ok_iff.mp h
  have hget := deref_ok_iff.mp hclient
  split at h
  · rename_i hneg
    have hno : ¬ (c' = c ∧ 0 ≤ nread) := by omega
    cases h
    rw [submittedTo_set hget, if_neg hno, List.append_nil]
    split
    · rename_i hc
      rw [hc, submittedTo_of_get hget]
    · rfl
  · rename_i hpos
    obtain ⟨sent, hsent, hu⟩ := bind_ok_iff.mp h
    cases hu
    rw [submittedTo_set hget, deref_ok_iff.mp hsent, Option.getD_some]
    by_cases hc : c = c'
    · subst hc
      have hcond : c = c ∧ 0 ≤ nread := ⟨rfl, by omega⟩
      rw [if_pos rfl, if_pos hcond, submittedTo_of_get hget]
    · have hno : ¬ (c' = c ∧ 0 ≤ nread) := fun h => hc h.1.symm
      rw [if_neg hc, if_neg hno, List.append_nil]

/-- One event: a read with `nread >= 0` has its whole buffer written back, nothing else is. -/
theorem submittedTo_dispatch (hconn : Accepts connect) {e : EchoEvent}
    (h : dispatch connect s e = .ok u) (c : ℕ) :
    submittedTo u c = submittedTo s c ++ (readsOf c [e]).flatMap BufferRead.contents := by
  cases e with
  | connect arg pipeInit accept =>
    rw [show (readsOf c [.connect arg pipeInit accept]).flatMap BufferRead.contents = [] from rfl,
      List.append_nil]
    rcases hconn _ _ _ _ _ h with rfl | ⟨isOpen, rfl⟩
    · rfl
    · exact submittedTo_append s isOpen c
  | read c' e accepted =>
    have hread : readCb (allocCb s e.buf).1 c' e.nread (allocCb s e.buf).2 accepted = .ok u := h
    rw [readCb_submittedTo hread c]
    have hbase : submittedTo (allocCb s e.buf).1 c = submittedTo s c := by
      cases e.buf <;> rfl
    rw [hbase]
    congr 1
    by_cases hc : c' = c ∧ 0 ≤ e.nread
    · -- the buffer is the one that was just allocated
      obtain ⟨contents, hbuf⟩ := Option.isSome_iff_exists.mp (e.notNull hc.2)
      simp [readsOf, hc, hbuf, allocCb, Heap.get?_alloc, BufferRead.contents]
    · simp [readsOf, hc]
  | written c' status =>
    obtain ⟨client, hclient, h⟩ := bind_ok_iff.mp h
    have hget := deref_ok_iff.mp hclient
    rw [show (readsOf c [.written c' status]).flatMap BufferRead.contents = [] from rfl,
      List.append_nil]
    have hu : submittedTo u c = submittedTo ⟨s.clients.set c'
        { client with pending := client.pending.tail }, s.buffers⟩ c := by
      simp only [submittedTo, writeCb_clients h]
    rw [hu, submittedTo_set hget]
    split
    · rename_i hc
      rw [hc, submittedTo_of_get hget]
    · rfl

/-- **What is written back.**  In every run the bytes submitted to a client are the buffers of its
reads, each of them whole. -/
theorem submittedTo_eq (hconn : Accepts connect) {es : List EchoEvent}
    (h : EventLoop.Run ⟨Enabled, dispatch connect⟩ init es s) (c : ℕ) :
    submittedTo s c = (readsOf c es).flatMap BufferRead.contents := by
  refine h.history (P := fun es s =>
    submittedTo s c = (readsOf c es).flatMap BufferRead.contents) rfl ?_
  intro es t e u ih _ hd
  rw [submittedTo_dispatch hconn hd c, ih, readsOf_append, List.flatMap_append]

/-- Every read of client `c` with `nread >= 0` has filled the buffer. -/
def FillsBuffers (c : ℕ) (es : List EchoEvent) : Prop :=
  ∀ e accepted, .read c e accepted ∈ es → 0 ≤ e.nread → e.nread = e.contents.length

theorem mem_readsOf_iff {c : ℕ} {es : List EchoEvent} {e : BufferRead} :
    e ∈ readsOf c es ↔ 0 ≤ e.nread ∧ ∃ accepted, .read c e accepted ∈ es := by
  rw [readsOf, List.mem_filterMap]
  constructor
  · intro ⟨ev, hmem, hev⟩
    cases ev with
    | read c' e' accepted =>
      rw [Option.ite_none_right_eq_some] at hev
      obtain ⟨⟨rfl, hpos⟩, heq⟩ := hev
      cases heq
      exact ⟨hpos, accepted, hmem⟩
    | connect arg pipeInit accept => cases hev
    | written c' status => cases hev
  · intro ⟨hpos, accepted, hmem⟩
    exact ⟨_, hmem, if_pos ⟨rfl, hpos⟩⟩

/-- The buffers of a client's reads hold just what it sent exactly when they were all filled. -/
theorem whole_buffers_iff (c : ℕ) (es : List EchoEvent) :
    (readsOf c es).flatMap BufferRead.contents = sentBy c es ↔ FillsBuffers c es := by
  rw [sentBy, BufferRead.flatMap_contents_eq_iff]
  constructor
  · intro h e accepted hmem hpos
    exact (e.received_eq_contents_iff hpos).mp (h e (mem_readsOf_iff.mpr ⟨hpos, accepted, hmem⟩))
  · intro h e hmem
    obtain ⟨hpos, accepted, hread⟩ := mem_readsOf_iff.mp hmem
    exact (e.received_eq_contents_iff hpos).mpr (h e accepted hread hpos)

end

/-- **Faithful echo.**  In every run of either program and for every client, what is submitted to
the client is what it sent exactly when each of its reads filled the buffer. -/
theorem faithfulEcho_iff (es : List EchoEvent) (s : EchoServer) (c : ℕ) :
    (pipeEchoServer.Run init es s → (submittedTo s c = sentBy c es ↔ FillsBuffers c es)) ∧
      (worker.Run init es s → (submittedTo s c = sentBy c es ↔ FillsBuffers c es)) := by
  constructor
  · intro h
    rw [submittedTo_eq connectCb_accepts h c]
    exact whole_buffers_iff c es
  · intro h
    rw [submittedTo_eq workerConnectCb_accepts h c]
    exact whole_buffers_iff c es

/-- A client types two bytes that happen to fill the buffer, and gets them back. -/
theorem faithfulEcho_iff_full : ∃ s,
    (pipeEchoServer.Run init
        [.connect 0 0 0, .read 0 ⟨2, some [104, 105], by decide, by decide⟩ true] s ∧
      submittedTo s 0 = [104, 105]) ∧
    (worker.Run init [.connect 7 0 0, .read 0 ⟨2, some [104, 105], by decide, by decide⟩ true] s ∧
      submittedTo s 0 = [104, 105]) := by
  have hp : pipeEchoServer.Run init
      [.connect 0 0 0, .read 0 ⟨2, some [104, 105], by decide, by decide⟩ true]
      ⟨[⟨true, [some 0], [104, 105]⟩], ⟨[some [104, 105]]⟩⟩ := EventLoop.run_of_plays (by decide)
  have hw : worker.Run init
      [.connect 7 0 0, .read 0 ⟨2, some [104, 105], by decide, by decide⟩ true]
      ⟨[⟨true, [some 0], [104, 105]⟩], ⟨[some [104, 105]]⟩⟩ := EventLoop.run_of_plays (by decide)
  have hfull : ∀ arg, FillsBuffers 0
      [.connect arg 0 0, .read 0 ⟨2, some [104, 105], by decide, by decide⟩ true] := by
    intro arg e accepted hmem _
    simp only [List.mem_cons, List.not_mem_nil, or_false, reduceCtorEq, false_or,
      EchoEvent.read.injEq] at hmem
    obtain ⟨-, rfl, -⟩ := hmem
    rfl
  refine ⟨_, ⟨hp, ?_⟩, ⟨hw, ?_⟩⟩
  · exact ((faithfulEcho_iff _ _ 0).1 hp).mpr (hfull 0)
  · exact ((faithfulEcho_iff _ _ 0).2 hw).mpr (hfull 7)

/-- One byte read into a buffer of four: three bytes the client never sent are written back, by
both programs. -/
theorem garbage_echoed :
    (¬ ∀ es s c, pipeEchoServer.Run init es s → submittedTo s c = sentBy c es) ∧
      ¬ ∀ es s c, worker.Run init es s → submittedTo s c = sentBy c es := by
  constructor
  · intro h
    have hrun : pipeEchoServer.Run init
        [.connect 0 0 0, .read 0 ⟨1, some [104, 1, 2, 3], by decide, by decide⟩ true]
        ⟨[⟨true, [some 0], [104, 1, 2, 3]⟩], ⟨[some [104, 1, 2, 3]]⟩⟩ :=
      EventLoop.run_of_plays (by decide)
    exact absurd (h _ _ 0 hrun) (by decide)
  · intro h
    have hrun : worker.Run init
        [.connect 7 0 0, .read 0 ⟨1, some [104, 1, 2, 3], by decide, by decide⟩ true]
        ⟨[⟨true, [some 0], [104, 1, 2, 3]⟩], ⟨[some [104, 1, 2, 3]]⟩⟩ :=
      EventLoop.run_of_plays (by decide)
    exact absurd (h _ _ 0 hrun) (by decide)

end PipeEchoServer

end LibuvDox
