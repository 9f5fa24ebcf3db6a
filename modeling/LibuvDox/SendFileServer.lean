import LibuvDox.Lib.Heap
import LibuvDox.SendFile

/-!
# The whole of send-file/main.c

The server reads a request without looking at it: each time it gets some bytes it starts a `stat` of
the file, whose completion opens the file, points `tcp->data` to a new `file_tcp_pipe_t`, and queues
the headers; when these have been sent the file is read, and each chunk is queued.  `SendFile` is
one transfer; here are the tcp handles, the file pipes, the blocks and the requests of any number
of connections.

The buffers that `alloc_cb` hands out and the copies that are written are freed by the callback that
gets them, and nothing else points to them; they are not on the heap of this model.
-/

namespace LibuvDox.SendFileServer

open SendFile

/-- `SUCCES_HDRS`. -/
def SUCCES_HDRS : Bytes := ascii
  "HTTP/1.1 200 OK\r\nContent-Type: text/plain\r\nTransfer-Coding: chunked\r\n\r\n"

def BUFSIZE : ℕ := 1024

/-- The callback of a write. -/
inductive WriteCb where
  | onHeadersSent
  | onWriteRes
  deriving DecidableEq, Repr

/-- `write_req_t`, with the bytes of its buffer; `req.data` is a copy of `tcp->data`. -/
structure WriteReq where
  data : Option (Option ℕ)
  buf : Bytes
  cb : WriteCb
  deriving DecidableEq, Repr

/-- The callback given to `uv_close`. -/
inductive CloseCb where
  | null
  | onResEnd
  deriving DecidableEq, Repr

/-- A tcp handle of a client.  `data` is what `malloc` left there until it is set (`none`), then
`NULL` or the address of a block.  `received` counts what was read, `closeCalls` the calls of
`uv_close`, `queued` is all that `uv_write` was given while the handle was open. -/
structure TcpHandle where
  data : Option (Option ℕ)
  reading : Bool
  received : ℕ
  closeCalls : ℕ
  closeCb : CloseCb
  closed : Bool
  pending : List WriteReq
  queued : Bytes
  deriving DecidableEq, Repr

/-- A pipe over the file: its block, whether `uv_fs_open` gave a file to it, whether it is read, and
how far. -/
structure FilePipe where
  data : ℕ
  opened : Bool
  reading : Bool
  offset : ℕ
  deriving DecidableEq, Repr

/-- What the process holds on its heap; and the `uv_fs_stat` requests that are under way, each with
the tcp handle that its `data` points to. -/
structure Server where
  tcps : Heap TcpHandle
  filePipes : Heap FilePipe
  blocks : Heap FileTcpPipe
  stats : List ℕ
  deriving DecidableEq, Repr

/-- A connection is reported, with the result of `uv_accept`; a client handle is read, with what
`uv_fs_stat` would return; a stat request completes, with the size of the file and what `uv_fs_open`
would return; the oldest write of a client completes; a file pipe is read; a client handle has been
closed, and `malloc` had left this pointer in the `file_path` of its block. -/
inductive ServerEvent where
  | connect (status accept : ℤ)
  | reqRead (tcp : ℕ) (nread stat : ℤ)
  | stat (tcp : ℕ) (result : ℤ) (size : ℕ) (fd : ℤ)
  | written (tcp : ℕ) (status : ℤ)
  | fileRead (filePipe : ℕ) (r : ReadResult)
  | closed (tcp : ℕ) (filePath : Option ℕ)
  deriving DecidableEq, Repr

/-! ### libuv -/

/-- `uv_close`; that the handle may be closing already is not looked at. -/
def uvClose (s : Server) (tcp : ℕ) (cb : CloseCb) : Except Stop Server := do
  let c ← deref (s.tcps.get? tcp) "uv_close"
  .ok { s with tcps := s.tcps.set tcp { c with closeCalls := c.closeCalls + 1, closeCb := cb } }

/-- `uv_write`; on a handle that is closing it returns an error, which nobody looks at. -/
def uvWrite (s : Server) (tcp : ℕ) (w : WriteReq) : Except Stop Server := do
  let c ← deref (s.tcps.get? tcp) "uv_write"
  if c.closeCalls = 0 then
    .ok { s with
      tcps := s.tcps.set tcp { c with pending := c.pending ++ [w], queued := c.queued ++ w.buf } }
  else .ok s

/-- `uv_read_start` of a file pipe. -/
def uvReadStart (s : Server) (filePipe : ℕ) : Except Stop Server := do
  let f ← deref (s.filePipes.get? filePipe) "uv_read_start"
  .ok { s with filePipes := s.filePipes.set filePipe { f with reading := true } }

/-! ### The callbacks -/

/-- `on_connect`. -/
def onConnect (s : Server) (status accept : ℤ) : Except Stop Server := do
  check status "connecting"
  if accept ≠ 0 then
    .ok { s with tcps := s.tcps.alloc ⟨some none, false, 0, 1, .onResEnd, false, [], []⟩ }
  else .ok { s with tcps := s.tcps.alloc ⟨none, true, 0, 0, .null, false, [], []⟩ }

def statFile (s : Server) (tcp : ℕ) (stat : ℤ) : Except Stop Server := do
  check stat "starting file stat"
  .ok { s with stats := s.stats ++ [tcp] }

/-- `on_req_read`. -/
def onReqRead (s : Server) (tcp : ℕ) (nread stat : ℤ) : Except Stop Server :=
  if nread = UV_EOF then uvClose s tcp .null
  else if nread > 0 then statFile s tcp stat
  else .ok s

/-- `init_file_tcp_pipe`, which sets every field of the block but `file_path`. -/
def openFile (s : Server) (tcp size : ℕ) (fd : ℤ) : Except Stop Server := do
  let c ← deref (s.tcps.get? tcp) "tcp->data"
  .ok { s with
    tcps := s.tcps.set tcp { c with data := some (some s.blocks.next) }
    filePipes := s.filePipes.alloc ⟨s.blocks.next, decide (0 ≤ fd), false, 0⟩
    blocks := s.blocks.alloc (initFileTcpPipe tcp s.filePipes.next size) }

/-- `write_headers` and `write_data`: a copy of the bytes is written. -/
def writeCopy (s : Server) (tcp : ℕ) (buf : Bytes) (cb : WriteCb) : Except Stop Server := do
  let c ← deref (s.tcps.get? tcp) "tcp->data"
  uvWrite s tcp ⟨c.data, buf, cb⟩

/-- `on_file_stat`; the copy of the path is one byte short, which `malloc` rounds up. -/
def onFileStat (s : Server) (tcp : ℕ) (result : ℤ) (size : ℕ) (fd : ℤ) : Except Stop Server := do
  check result "stat file"
  let s ← openFile s tcp size fd
  writeCopy s tcp SUCCES_HDRS .onHeadersSent

/-- The block that a `data` pointer leads to. -/
def blockAt (s : Server) (data : Option (Option ℕ)) : Except Stop (ℕ × FileTcpPipe) := do
  let data ← deref data "data"
  let p ← deref data "data"
  let block ← deref (s.blocks.get? p) "data"
  .ok (p, block)

def pipeFile (s : Server) (tcp : ℕ) : Except Stop Server := do
  let c ← deref (s.tcps.get? tcp) "tcp->data"
  let (_, block) ← blockAt s c.data
  uvReadStart s block.filePipe

def onHeadersSent (s : Server) (w : WriteReq) (status : ℤ) : Except Stop Server := do
  check status "sent headers"
  let (_, block) ← blockAt s w.data
  pipeFile s block.tcp

/-- What `on_file_read` and `on_write_res` do with the connection of their block. -/
def act (s : Server) (tcp : ℕ) : TransferAction → Except Stop Server
  | .submit data => writeCopy s tcp data .onWriteRes
  | .settle .closeTcp => uvClose s tcp .onResEnd
  | .settle _ => .ok s

/-- `on_file_read`. -/
def onFileRead (s : Server) (filePipe : ℕ) (r : ReadResult) : Except Stop Server := do
  let f ← deref (s.filePipes.get? filePipe) "file_pipe->data"
  let (block, action) ← SendFile.onFileRead (s.blocks.get? f.data) r
  act { s with blocks := s.blocks.set f.data block } block.tcp action

/-- `on_write_res`. -/
def onWriteRes (s : Server) (w : WriteReq) (status : ℤ) : Except Stop Server := do
  check status "writing file data to response"
  let (p, block) ← blockAt s w.data
  let (block, action) ← SendFile.onWriteRes (some block) w.buf.length status
  act { s with blocks := s.blocks.set p block } block.tcp action

/-- `free_file_tcp_pipe`, of a block that has this pointer in its `file_path`. -/
def freeFileTcpPipe (s : Server) (p : ℕ) (filePath : Option ℕ) : Except Stop Server := do
  let block ← deref (s.blocks.get? p) "file_tcp_pipe"
  match filePath with
  | some _ => .error (.undefined "free(file_tcp_pipe->file_path)")
  | none =>
    let _ ← deref (s.filePipes.get? block.filePipe) "free(file_tcp_pipe->file_pipe)"
    let _ ← deref (s.tcps.get? block.tcp) "free(file_tcp_pipe->tcp)"
    .ok { s with
      filePipes := s.filePipes.free block.filePipe
      tcps := s.tcps.free block.tcp
      blocks := s.blocks.free p }

/-- `on_res_end`. -/
def onResEnd (s : Server) (c : TcpHandle) (filePath : Option ℕ) : Except Stop Server := do
  let data ← deref c.data "tcp->data"
  match data with
  | none => .ok s
  | some p => freeFileTcpPipe s p filePath

/-! ### The event loop -/

/-- A read event of a client. -/
def reqRead (s : Server) (tcp : ℕ) (nread stat : ℤ) : Except Stop Server := do
  let c ← deref (s.tcps.get? tcp) "tcp"
  let c := { c with received := c.received + nread.toNat }
  onReqRead { s with tcps := s.tcps.set tcp c } tcp nread stat

/-- The oldest write of a client is called back. -/
def written (s : Server) (tcp : ℕ) (status : ℤ) : Except Stop Server := do
  let c ← deref (s.tcps.get? tcp) "tcp"
  match c.pending with
  | [] => .error (.undefined "no write is due")
  | w :: ws =>
    let s := { s with tcps := s.tcps.set tcp { c with pending := ws } }
    match w.cb with
    | .onHeadersSent => onHeadersSent s w status
    | .onWriteRes => onWriteRes s w status

/-- A read event of a file. -/
def fileRead (s : Server) (filePipe : ℕ) (r : ReadResult) : Except Stop Server := do
  let f ← deref (s.filePipes.get? filePipe) "file_pipe"
  let f := { f with offset := f.offset + r.data.length }
  onFileRead { s with filePipes := s.filePipes.set filePipe f } filePipe r

/-- A client handle has been closed. -/
def closed (s : Server) (tcp : ℕ) (filePath : Option ℕ) : Except Stop Server := do
  let c ← deref (s.tcps.get? tcp) "tcp"
  let s := { s with tcps := s.tcps.set tcp { c with closed := true } }
  match c.closeCb with
  | .null => .ok s
  | .onResEnd => onResEnd s c filePath

/-- What may happen to a client handle: it is read until it is closed, its writes complete, with
`UV_ECANCELED` once it is closing, and then it is closed. -/
def TcpEnabled (c : TcpHandle) : ServerEvent → Prop
  | .reqRead _ nread _ => c.reading = true ∧ c.closeCalls = 0 ∧ nread ≤ BUFSIZE
  | .written _ status => c.pending ≠ [] ∧ (c.closeCalls ≠ 0 → status = UV_ECANCELED)
  | .closed _ _ => c.closeCalls ≠ 0 ∧ c.closed = false ∧ c.pending = []
  | _ => False

/-- What may be read from a file pipe: what comes next in the file; it is not closed when it is
freed, so something may still be read from it then. -/
def FileEnabled (contents : Bytes) (f : Option FilePipe) (r : ReadResult) : Prop :=
  match f with
  | none => True
  | some f => f.opened = true ∧ f.reading = true ∧ r.data.length ≤ BUFSIZE ∧
      r.data <+: contents.drop f.offset ∧ (r.nread = UV_EOF → f.offset = contents.length)

/-- The stat requests complete in any order. -/
def Enabled (contents : Bytes) (s : Server) : ServerEvent → Prop
  | .connect _ _ => True
  | .stat tcp _ _ _ => tcp ∈ s.stats
  | .fileRead filePipe r => filePipe < s.filePipes.next ∧
      FileEnabled contents (s.filePipes.get? filePipe) r
  | .reqRead tcp nread stat => ∃ c ∈ s.tcps.get? tcp, TcpEnabled c (.reqRead tcp nread stat)
  | .written tcp status => ∃ c ∈ s.tcps.get? tcp, TcpEnabled c (.written tcp status)
  | .closed tcp filePath => ∃ c ∈ s.tcps.get? tcp, TcpEnabled c (.closed tcp filePath)

def dispatch (s : Server) : ServerEvent → Except Stop Server
  | .connect status accept => onConnect s status accept
  | .reqRead tcp nread stat => reqRead s tcp nread stat
  | .stat tcp result size fd =>
    onFileStat { s with stats := s.stats.erase tcp } tcp result size fd
  | .written tcp status => written s tcp status
  | .fileRead filePipe r => fileRead s filePipe r
  | .closed tcp filePath => closed s tcp filePath

def init : Server := ⟨.empty, .empty, .empty, []⟩

/-- The server, when the file that it sends has these contents. -/
def sendFileServer (contents : Bytes) : EventLoop Server ServerEvent Stop :=
  ⟨Enabled contents, dispatch⟩

instance (c : TcpHandle) (e : ServerEvent) : Decidable (TcpEnabled c e) := by
  cases e <;> unfold TcpEnabled <;> infer_instance

instance (contents : Bytes) (f : Option FilePipe) (r : ReadResult) :
    Decidable (FileEnabled contents f r) := by
  cases f <;> unfold FileEnabled <;> infer_instance

instance (contents : Bytes) (s : Server) (e : ServerEvent) :
    Decidable ((sendFileServer contents).enabled s e) := by
  show Decidable (Enabled contents s e)
  cases e <;> unfold Enabled <;> infer_instance

end LibuvDox.SendFileServer
