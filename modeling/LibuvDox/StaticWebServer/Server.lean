import LibuvDox.Lib.Heap
import LibuvDox.StaticWebServer.PipeFile
import LibuvDox.StaticWebServer.RequestParser
import LibuvDox.StaticWebServer.ResolutionChain

/-!
# main.c

The static web server as a program of the event loop.  A connection is a `sws_handle_req_t` on
the heap, which begins with its tcp handle, so both have one address; a transfer is a
`file_tcp_pipe_t` and the handle of its file stream, two more blocks.  All that ties them
together are `data` pointers: `parse_req.data` and `resource_info.data` lead back to the
connection, `tcp->data` and `file_pipe->data` lead to the transfer, and a write and a stat carry
the pointer they were issued with.

What libuv keeps for the program is modelled next to it: for each tcp handle whether it is read
from, the writes it has accepted, and the calls of `uv_close`; the stats under way; and the file
streams, which nothing stops.
-/

namespace LibuvDox.StaticWebServer

/-- `sws_handle_req_t`, with the `data` of its tcp handle. -/
structure SwsHandleReq where
  data : Option ℕ
  id : ℕ
  parseReq : ParserState
  resourceInfo : SwsResourceInfo

/-- The callback given to `uv_close`: `NULL`, or `on_res_end`. -/
inductive CloseCb where
  | null
  | onResEnd
  deriving DecidableEq, Repr

/-- A write that libuv has accepted: `req.data`, and the bytes. -/
structure WriteReq where
  data : Option ℕ
  buf : Bytes
  deriving DecidableEq, Repr

/-- A tcp handle: whether reads go on, how often it was passed to `uv_close`, the close callback
that is due, the writes that have not been called back, and all that was accepted. -/
structure TcpHandle where
  reading : Bool
  closeCalls : ℕ
  closeCb : Option CloseCb
  writes : List WriteReq
  queued : Bytes
  deriving DecidableEq, Repr

/-- A stat under way: the connection whose `resource_info` its `data` points to, and the copy of
the path. -/
structure StatReq where
  data : ℕ
  path : Bytes
  deriving DecidableEq, Repr

/-- A file stream: the connection it was opened for, the file, and how far it was read; it is
active until it has reported its end or an error. -/
structure FileStream where
  tcp : ℕ
  path : Bytes
  contents : Bytes
  offset : ℕ
  active : Bool
  deriving DecidableEq, Repr

/-- The heap and the globals of the program, and the state of libuv. -/
structure Server where
  reqs : Heap SwsHandleReq
  pipes : Heap FileTcpPipe
  filePipes : Heap (Option ℕ)
  root : Bytes
  id : ℕ
  tcp : ℕ → TcpHandle
  streams : ℕ → FileStream
  stats : List StatReq

/-- What `on_req_read` is called with: for data, the number of bytes, the callbacks http_parser
makes for them, each with what the environment answers if a resource is looked up in it, and the
number of bytes it parses. -/
inductive ReqRead where
  | eof
  | data (nread : ℕ) (calls : List (ParserCallback × ResolveEnv)) (parsed : ℕ)
  | other (nread : ℤ)
  deriving DecidableEq, Repr

/-- `nread` is positive for data and for nothing else. -/
def ReqRead.Valid : ReqRead → Prop
  | .eof => True
  | .data nread _ _ => 0 < nread
  | .other nread => nread ≤ 0 ∧ nread ≠ UV_EOF

instance (r : ReqRead) : Decidable r.Valid := by
  cases r <;> unfold ReqRead.Valid <;> infer_instance

/-- What may happen next.  A stat is answered together with all that libuv and the file system
answer in its callback. -/
inductive ServerEvent where
  | connect (status accept : ℤ) (junk : Garbage) (info : SwsResourceInfo)
  | reqRead (h : ℕ) (r : ReqRead)
  | stat (i : ℕ) (result : StatResult) (env : ResolveEnv) (pipe : PipeFileEnv) (contents : Bytes)
  | fileRead (f : ℕ) (r : ReadResult)
  | written (h : ℕ) (status : ℤ)
  | closed (h : ℕ)
  deriving DecidableEq, Repr

namespace Server

/-- Before the first connection. -/
def init : Server where
  reqs := .empty
  pipes := .empty
  filePipes := .empty
  root := []
  id := 0
  tcp := fun _ => ⟨false, 0, none, [], []⟩
  streams := fun _ => ⟨0, [], [], 0, false⟩
  stats := []

def setReq (s : Server) (h : ℕ) (hr : SwsHandleReq) : Server :=
  { s with reqs := s.reqs.set h hr }

def setTcp (s : Server) (h : ℕ) (t : TcpHandle) : Server :=
  { s with tcp := Function.update s.tcp h t }

/-- `uv_close`. -/
def uvClose (s : Server) (h : ℕ) (cb : CloseCb) : Except Stop Server := do
  let _ ← deref (s.reqs.get? h) "uv_close of a freed handle"
  .ok (s.setTcp h { s.tcp h with closeCalls := (s.tcp h).closeCalls + 1, closeCb := some cb })

/-- `uv_write`, which refuses a handle that is closing; the program ignores what it returns. -/
def uvWrite (s : Server) (h : ℕ) (w : WriteReq) : Server :=
  if (s.tcp h).closeCalls = 0 then
    s.setTcp h { s.tcp h with
      writes := (s.tcp h).writes ++ [w]
      queued := (s.tcp h).queued ++ w.buf }
  else s

/-! ### Connections -/

/-- `sws_handle_req_init`: what it does not assign is left as `malloc` returned it. -/
def swsHandleReqInit (h id : ℕ) (junk : Garbage) (info : SwsResourceInfo) : SwsHandleReq :=
  let st := swsReqParserInit junk id
  { data := none
    id := id
    parseReq := { st with req := { st.req with data := some h } }
    resourceInfo := { info with data := some h } }

def onConnect (s : Server) (status accept : ℤ) (junk : Garbage) (info : SwsResourceInfo) :
    Except Stop Server := do
  check status "connecting"
  let h := s.reqs.next
  let s := { s with
    reqs := s.reqs.alloc (swsHandleReqInit h s.id junk info)
    id := s.id + 1 }
  if accept ≠ 0 then uvClose s h .null
  else .ok (s.setTcp h { s.tcp h with reading := true })

/-- `sws_resolve_resource_init` and `sws_resolve_resource_start` for the connection `h`. -/
def resolveResource (s : Server) (h : ℕ) (env : ResolveEnv) (urlPath : Bytes) :
    Except Stop Server := do
  let hr ← deref (s.reqs.get? h) "handle_req"
  let (root, info) ←
    swsResolveResourceStart s.root env (swsResolveResourceInit hr.resourceInfo) urlPath
  .ok { s.setReq h { hr with resourceInfo := info } with
    root := root
    stats := s.stats ++ [⟨h, info.fullPath⟩] }

/-- `on_parse_complete`, for the `parse_req` of the block `h`. -/
def onParseComplete (s : Server) (h : ℕ) (env : ResolveEnv) : Except Stop Server := do
  let hr ← deref (s.reqs.get? h) "parse_req"
  let h' ← deref hr.parseReq.req.data "parse_req->data"
  let _ ← swsReqParserResultStr hr.parseReq.req
  let hr' ← deref (s.reqs.get? h') "handle_req"
  let url ← deref hr'.parseReq.req.url.text? "handle_req->parse_req.url"
  resolveResource s h' env url

/-- One callback of http_parser. -/
def parserCallback (h : ℕ) (s : Server) (c : ParserCallback × ResolveEnv) :
    Except Stop Server := do
  let hr ← deref (s.reqs.get? h) "parser->data"
  let st ← onCallback hr.parseReq c.1
  let s := s.setReq h { hr with parseReq := st }
  match c.1 with
  | .messageComplete _ => onParseComplete s h c.2
  | _ => .ok s

def onReqRead (s : Server) (h : ℕ) : ReqRead → Except Stop Server
  | .eof => uvClose s h .null
  | .data nread calls parsed => do
    let _ ← deref (s.reqs.get? h) "handle_req->id"
    let s ← calls.foldlM (parserCallback h) s
    if parsed < nread then uvClose s h .onResEnd
    else .ok s
  | .other _ => .ok s

/-! ### Transfers -/

/-- `sws_pipe_file` for the tcp handle `h`; `contents` is the file that is opened. -/
def swsPipeFile (s : Server) (h : ℕ) (path : Bytes) (size : ℕ) (env : PipeFileEnv)
    (contents : Bytes) : Except Stop (Server × ℤ) := do
  let hr ← deref (s.reqs.get? h) "tcp->data"
  let (block, r) ← StaticWebServer.swsPipeFile hr.data h s.filePipes.next size env
  match block with
  | none => .ok (s, r)
  | some p =>
    .ok ({ s.setReq h { hr with data := some s.pipes.next } with
      pipes := s.pipes.alloc p
      filePipes := s.filePipes.alloc (some s.pipes.next)
      streams := Function.update s.streams s.filePipes.next
        ⟨h, path, contents, 0, decide (r = 0)⟩ }, r)

/-- `on_resolve_resource`. -/
def onResolveResource (s : Server) (info : SwsResourceInfo) (env : ResolveEnv)
    (pipe : PipeFileEnv) (contents : Bytes) : Except Stop Server := do
  let h ← deref info.data "info->data"
  match resolution info with
  | .again => resolveResource s h env NOT_FOUND
  | .pipe path size => do
    let (s, r) ← swsPipeFile s h path size pipe contents
    check r "pipe file"
    .ok s

/-- `fs_stat_cb`, for the stat number `i`. -/
def fsStatCb (s : Server) (i : ℕ) (result : StatResult) (env : ResolveEnv) (pipe : PipeFileEnv)
    (contents : Bytes) : Except Stop Server := do
  let req ← deref s.stats[i]? "fs_req"
  let s := { s with stats := s.stats.eraseIdx i }
  let hr ← deref (s.reqs.get? req.data) "resource_info"
  let info := StaticWebServer.fsStatCb hr.resourceInfo result
  onResolveResource (s.setReq req.data { hr with resourceInfo := info }) info env pipe contents

def onPipeFileComplete (s : Server) (tcp : ℕ) (status : ℤ) : Except Stop Server := do
  check status "pipe file"
  uvClose s tcp .onResEnd

/-- `file_tcp_pipe_end` with `CALLBACK`, for the block at `p`. -/
def fileTcpPipeEnd (s : Server) (p : ℕ) (block : FileTcpPipe) (status : ℤ) :
    Except Stop Server := do
  let s ← onPipeFileComplete s block.tcp status
  .ok { s with pipes := s.pipes.free p, filePipes := s.filePipes.free block.filePipe }

def writeData (s : Server) (tcp : ℕ) (data : Bytes) : Except Stop Server := do
  let hr ← deref (s.reqs.get? tcp) "tcp->data"
  .ok (uvWrite s tcp ⟨hr.data, data⟩)

/-- Store the block at `p`, and do what its callback decided. -/
def act (s : Server) (p : ℕ) (res : FileTcpPipe × TransferAction) : Except Stop Server :=
  let s := { s with pipes := s.pipes.set p res.1 }
  match res.2 with
  | .submit data => writeData s res.1.tcp data
  | .settle .goOn => .ok s
  | .settle (.finish status) => fileTcpPipeEnd s p res.1 status
  | .settle .closeTcp => uvClose s res.1.tcp .onResEnd

/-- `on_file_read`, for the file stream `f`. -/
def onFileRead (s : Server) (f : ℕ) (r : ReadResult) : Except Stop Server := do
  let s := { s with
    streams := Function.update s.streams f { s.streams f with
      offset := (s.streams f).offset + r.data.length
      active := decide (0 ≤ r.nread) } }
  let p ← deref (s.filePipes.get? f).join "file_pipe->data"
  let res ← StaticWebServer.onFileRead (s.pipes.get? p) r
  act s p res

/-- `on_write_res`, for the oldest write on the tcp handle `h`. -/
def onWriteRes (s : Server) (h : ℕ) (status : ℤ) : Except Stop Server :=
  match (s.tcp h).writes with
  | [] => .error (.undefined "no write is due")
  | w :: ws => do
    let s := s.setTcp h { s.tcp h with writes := ws }
    let res ← StaticWebServer.onWriteRes (w.data.bind s.pipes.get?) w.buf.length status
    let p ← deref w.data "write_req->data"
    act s p res

/-- `on_res_end`. -/
def onResEnd (s : Server) (h : ℕ) : Except Stop Server := do
  let hr ← deref (s.reqs.get? h) "handle"
  let _ ← swsCleanupParseReq hr.parseReq
  .ok { s with reqs := s.reqs.free h }

/-- The close callback of the tcp handle `h`. -/
def onClosed (s : Server) (h : ℕ) : Except Stop Server :=
  let s' := s.setTcp h { s.tcp h with closeCb := none }
  match (s.tcp h).closeCb with
  | some .onResEnd => onResEnd s' h
  | _ => .ok s'

/-! ### The event loop -/

/-- libuv's contract: reads go on until the handle is closed, stats complete in any order, a file
stream goes on up to its end or an error, writes complete in order and with an error if the
handle is closing, and a close is called back later. -/
def Enabled (s : Server) : ServerEvent → Prop
  | .connect _ _ _ _ => True
  | .reqRead h r => (s.tcp h).reading = true ∧ (s.tcp h).closeCalls = 0 ∧ r.Valid
  | .stat i _ _ _ _ => i < s.stats.length
  | .fileRead f r =>
    (s.streams f).active = true ∧
      r.data <+: (s.streams f).contents.drop (s.streams f).offset ∧
      (r.nread = UV_EOF → (s.streams f).offset = (s.streams f).contents.length)
  | .written h status =>
    (s.tcp h).writes ≠ [] ∧ status ≤ 0 ∧ (0 < (s.tcp h).closeCalls → status = UV_ECANCELED)
  | .closed h => (s.tcp h).closeCb ≠ none

instance (s : Server) (e : ServerEvent) : Decidable (Enabled s e) := by
  cases e <;> unfold Enabled <;> infer_instance

def dispatch (s : Server) : ServerEvent → Except Stop Server
  | .connect status accept junk info => onConnect s status accept junk info
  | .reqRead h r => onReqRead s h r
  | .stat i result env pipe contents => fsStatCb s i result env pipe contents
  | .fileRead f r => onFileRead s f r
  | .written h status => onWriteRes s h status
  | .closed h => onClosed s h

end Server

/-- The static web server, as a program of the event loop. -/
def server : EventLoop Server ServerEvent Stop := ⟨Server.Enabled, Server.dispatch⟩

instance (s : Server) (e : ServerEvent) : Decidable (server.enabled s e) :=
  inferInstanceAs (Decidable (s.Enabled e))

/-! ### A client -/

/-- A client connects. -/
def clientConnects : ServerEvent := .connect 0 0 zeroed ⟨[], 0, 0, none⟩

/-- The callbacks for a `GET` of a file with one header, if the working directory is `/srv`. -/
def getRequest (file : String) : List (ParserCallback × ResolveEnv) :=
  [.messageBegin, .url (ascii file), .headerField (ascii "Host"), .headerValue (ascii "localhost"),
    .headersComplete, .messageComplete HTTP_GET].map fun c => (c, ⟨.ok (ascii "/srv"), 0⟩)

/-- The oldest stat finds a file with these contents. -/
def fileFound (contents : Bytes) : ServerEvent :=
  .stat 0 (.ok contents.length) ⟨.ok (ascii "/srv"), 0⟩ ⟨0, 0, 0⟩ contents

end LibuvDox.StaticWebServer
