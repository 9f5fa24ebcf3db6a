import LibuvDox.StaticWebServer.Server

/-!
# What the callbacks of the server do

For each function of `main.c`, what it has done when it returns.  The results about whole runs
rest on these and never look into the functions themselves.
-/

namespace LibuvDox.StaticWebServer

/-! ### The callbacks of a transfer -/

theorem onFileRead_ok {block : Option FileTcpPipe} {r : ReadResult}
    {res : FileTcpPipe × TransferAction} (h : onFileRead block r = .ok res) :
    ∃ p, block = some p ∧
      ((0 < r.nread ∧ res = ({ p with nread := p.nread + r.data.length }, .submit r.data)) ∨
        (r.nread ≤ 0 ∧ res = (p, .settle (.finish r.nread)))) := by
  obtain ⟨p, hp, hdata | ⟨hle, s, hs, hres⟩⟩ := TransferProgram.onFileRead_ok h
  · exact ⟨p, hp, .inl hdata⟩
  · rw [pipeFile_atNoData] at hs
    cases hs
    exact ⟨p, hp, .inr ⟨hle, hres⟩⟩

theorem onWriteRes_ok {block : Option FileTcpPipe} {len : ℕ} {status : ℤ}
    {res : FileTcpPipe × TransferAction} (h : onWriteRes block len status = .ok res) :
    status = 0 ∧ ∃ p s, block = some p ∧
      res = ({ p with nwritten := p.nwritten + len }, .settle s) ∧
      ((p.nwritten + len = p.nread ∧ p.size = p.nread ∧ s = .finish 0) ∨
        (p.nwritten + len ≠ p.nread ∧ s = .goOn)) :=
  TransferProgram.onWriteRes_ok h

/-! ### The parser callbacks -/

/-- The parser callbacks never touch the back pointer. -/
theorem onCallback_data {st st' : ParserState} {c : ParserCallback}
    (hok : onCallback st c = .ok st') : st'.req.data = st.req.data := by
  cases c with
  | headerValue hdr => exact (onHeaderValue_same hok).1
  | messageBegin => cases hok; rfl
  | url hdr => cases hok; rfl
  | headerField hdr => cases hok; rfl
  | headersComplete => cases hok; rfl
  | messageComplete method => cases hok; rfl

/-- The callback ends a message. -/
def ParserCallback.completes : ParserCallback → Bool
  | .messageComplete _ => true
  | _ => false

namespace Server

variable {s u : Server} {h : ℕ}

/-! ### What libuv keeps -/

@[simp] theorem setReq_tcp (s : Server) (h : ℕ) (hr : SwsHandleReq) :
    (s.setReq h hr).tcp = s.tcp := rfl

@[simp] theorem setReq_stats (s : Server) (h : ℕ) (hr : SwsHandleReq) :
    (s.setReq h hr).stats = s.stats := rfl

@[simp] theorem setReq_next (s : Server) (h : ℕ) (hr : SwsHandleReq) :
    (s.setReq h hr).reqs.next = s.reqs.next := Heap.next_set _ _ _

theorem setTcp_tcp (s : Server) (h : ℕ) (t : TcpHandle) (h' : ℕ) :
    (s.setTcp h t).tcp h' = if h' = h then t else s.tcp h' := by
  simp only [setTcp, Function.update_apply]

theorem setReq_get? {hr : SwsHandleReq} (hget : s.reqs.get? h = some hr) (hr' : SwsHandleReq)
    (h' : ℕ) : (s.setReq h hr').reqs.get? h' = if h' = h then some hr' else s.reqs.get? h' :=
  Heap.get?_set hget hr' h'

theorem setReq_self {hr : SwsHandleReq} (hget : s.reqs.get? h = some hr) (hr' : SwsHandleReq) :
    (s.setReq h hr').reqs.get? h = some hr' := Heap.get?_set_self hget hr'

theorem setReq_cases {hr hr' hr'' : SwsHandleReq} {h' : ℕ} (hget : s.reqs.get? h = some hr)
    (hget' : (s.setReq h hr').reqs.get? h' = some hr'') :
    (h' = h ∧ hr'' = hr') ∨ (h' ≠ h ∧ s.reqs.get? h' = some hr'') := Heap.set_cases hget hget'

theorem setReq_setReq (s : Server) (h : ℕ) (hr hr' : SwsHandleReq) :
    (s.setReq h hr).setReq h hr' = s.setReq h hr' := by
  unfold setReq
  rw [Heap.set_set]

theorem uvClose_ok {cb : CloseCb} (hok : uvClose s h cb = .ok u) :
    (∃ hr, s.reqs.get? h = some hr) ∧
      u = s.setTcp h
        { s.tcp h with closeCalls := (s.tcp h).closeCalls + 1, closeCb := some cb } := by
  obtain ⟨hr, hget, hu⟩ := bind_ok_iff.mp hok
  cases hu
  exact ⟨⟨hr, deref_ok_iff.mp hget⟩, rfl⟩

/-! ### Connections -/

/-- The block of a new connection is allocated and initialised. -/
def newReq (s : Server) (junk : Garbage) (info : SwsResourceInfo) : Server :=
  { s with
    reqs := s.reqs.alloc (swsHandleReqInit s.reqs.next s.id junk info)
    id := s.id + 1 }

theorem newReq_get? (s : Server) (junk : Garbage) (info : SwsResourceInfo) (h : ℕ) :
    (s.newReq junk info).reqs.get? h =
      if h = s.reqs.next then some (swsHandleReqInit s.reqs.next s.id junk info)
      else s.reqs.get? h := Heap.get?_alloc _ _ _

theorem newReq_cases {junk : Garbage} {info : SwsResourceInfo} {hr : SwsHandleReq}
    (hget : (s.newReq junk info).reqs.get? h = some hr) :
    (h = s.reqs.next ∧ hr = swsHandleReqInit s.reqs.next s.id junk info) ∨
      s.reqs.get? h = some hr := Heap.alloc_cases hget

theorem newReq_next (s : Server) (junk : Garbage) (info : SwsResourceInfo) :
    (s.newReq junk info).reqs.next = s.reqs.next + 1 := Heap.next_alloc _ _

/-- A new connection is read from, or closed right away if it cannot be accepted. -/
theorem onConnect_ok {status accept : ℤ} {junk : Garbage} {info : SwsResourceInfo}
    (hok : onConnect s status accept junk info = .ok u) :
    status = 0 ∧
      ((accept ≠ 0 ∧ uvClose (s.newReq junk info) s.reqs.next .null = .ok u) ∨
        (accept = 0 ∧ u = (s.newReq junk info).setTcp s.reqs.next
          { s.tcp s.reqs.next with reading := true })) := by
  obtain ⟨_, hstatus, hok⟩ := bind_ok_iff.mp hok
  refine ⟨check_ok_iff.mp hstatus, ?_⟩
  by_cases haccept : accept ≠ 0
  · exact .inl ⟨haccept, (if_pos haccept).symm.trans hok⟩
  · replace hok := (if_neg haccept).symm.trans hok
    cases hok
    exact .inr ⟨not_not.mp haccept, rfl⟩

/-- A resolution is started for a live connection: its result is 0 and its path that of the stat
that was issued. -/
theorem resolveResource_ok {env : ResolveEnv} {url : Bytes}
    (hok : resolveResource s h env url = .ok u) :
    ∃ hr root, s.reqs.get? h = some hr ∧ Starts s.root env root url ∧
      u = { s.setReq h { hr with resourceInfo :=
          { hr.resourceInfo with result := 0, fullPath := resolveUrl root url } } with
        root := root
        stats := s.stats ++ [⟨h, resolveUrl root url⟩] } := by
  obtain ⟨hr, hget, hok⟩ := bind_ok_iff.mp hok
  obtain ⟨⟨root, info⟩, hstart, hu⟩ := bind_ok_iff.mp hok
  obtain ⟨hs, rfl⟩ := swsResolveResourceStart_ok_iff.mp hstart
  cases hu
  exact ⟨hr, root, deref_ok_iff.mp hget, hs, rfl⟩

theorem onParseComplete_ok {env : ResolveEnv} (hok : onParseComplete s h env = .ok u) :
    ∃ hr h' hr' url, s.reqs.get? h = some hr ∧ hr.parseReq.req.data = some h' ∧
      s.reqs.get? h' = some hr' ∧ hr'.parseReq.req.url.text? = some url ∧
      resolveResource s h' env url = .ok u := by
  obtain ⟨hr, hget, hok⟩ := bind_ok_iff.mp hok
  obtain ⟨h', hdata, hok⟩ := bind_ok_iff.mp hok
  obtain ⟨_, -, hok⟩ := bind_ok_iff.mp hok
  obtain ⟨hr', hget', hok⟩ := bind_ok_iff.mp hok
  obtain ⟨url, hurl, hok⟩ := bind_ok_iff.mp hok
  exact ⟨hr, h', hr', url, deref_ok_iff.mp hget, deref_ok_iff.mp hdata, deref_ok_iff.mp hget',
    deref_ok_iff.mp hurl, hok⟩

/-- One callback of http_parser stores what it is given; the end of a message starts a resolution
as well. -/
theorem parserCallback_ok {c : ParserCallback × ResolveEnv}
    (hok : parserCallback h s c = .ok u) :
    ∃ hr st, s.reqs.get? h = some hr ∧ onCallback hr.parseReq c.1 = .ok st ∧
      ((c.1.completes = false ∧ u = s.setReq h { hr with parseReq := st }) ∨
        (c.1.completes = true ∧ ∃ h' hr' url, hr.parseReq.req.data = some h' ∧
          (s.setReq h { hr with parseReq := st }).reqs.get? h' = some hr' ∧
          hr'.parseReq.req.url.text? = some url ∧
          resolveResource (s.setReq h { hr with parseReq := st }) h' c.2 url = .ok u)) := by
  obtain ⟨hr, hget, hok⟩ := bind_ok_iff.mp hok
  obtain ⟨st, hst, hok⟩ := bind_ok_iff.mp hok
  have hlive := deref_ok_iff.mp hget
  refine ⟨hr, st, hlive, hst, ?_⟩
  obtain ⟨c, env⟩ := c
  cases c with
  | messageComplete method =>
    obtain ⟨hr', h', hr'', url, hget', hdata, hrest⟩ := onParseComplete_ok hok
    rw [setReq_self hlive] at hget'
    cases hget'
    rw [onCallback_data hst] at hdata
    exact .inr ⟨rfl, h', hr'', url, hdata, hrest⟩
  | messageBegin => cases hok; exact .inl ⟨rfl, rfl⟩
  | url hdr => cases hok; exact .inl ⟨rfl, rfl⟩
  | headerField hdr => cases hok; exact .inl ⟨rfl, rfl⟩
  | headerValue hdr => cases hok; exact .inl ⟨rfl, rfl⟩
  | headersComplete => cases hok; exact .inl ⟨rfl, rfl⟩

/-- What `on_req_read` does with data: http_parser calls back for it, and the connection is closed
if not all of it was parsed. -/
theorem onReqRead_data_ok {nread parsed : ℕ} {calls : List (ParserCallback × ResolveEnv)}
    (hok : onReqRead s h (.data nread calls parsed) = .ok u) :
    ∃ hr v, s.reqs.get? h = some hr ∧ calls.foldlM (parserCallback h) s = .ok v ∧
      ((parsed < nread ∧ uvClose v h .onResEnd = .ok u) ∨ (¬ parsed < nread ∧ u = v)) := by
  obtain ⟨hr, hget, hok⟩ := bind_ok_iff.mp hok
  obtain ⟨v, hcalls, hok⟩ := bind_ok_iff.mp hok
  refine ⟨hr, v, deref_ok_iff.mp hget, hcalls, ?_⟩
  split at hok
  · rename_i herr
    exact .inl ⟨herr, hok⟩
  · rename_i hall
    cases hok
    exact .inr ⟨hall, rfl⟩

/-- No stat is under way for the connection, and no transfer was ever started for it. -/
structure Idle (s : Server) (h : ℕ) : Prop where
  stats : ∀ req ∈ s.stats, req.data ≠ h
  data : ∀ hr, s.reqs.get? h = some hr → hr.data = none

/-- A callback that does not end a message leaves the connection as idle as it was. -/
theorem Idle.parserCallback (hidle : Idle s h) {c : ParserCallback × ResolveEnv}
    (hc : c.1.completes = false) (hok : Server.parserCallback h s c = .ok u) : Idle u h := by
  obtain ⟨hr, st, hget, hst, ⟨-, rfl⟩ | ⟨hcomplete, -⟩⟩ := parserCallback_ok hok
  · refine ⟨hidle.stats, ?_⟩
    intro hr' hget'
    rw [setReq_self hget] at hget'
    cases hget'
    exact hidle.data hr hget
  · rw [hc] at hcomplete
    cases hcomplete

/-! ### Stats -/

/-- A transfer is set up for the connection `h`: its block, its file stream, and `tcp->data`. -/
def piped (s : Server) (h : ℕ) (hr : SwsHandleReq) (size : ℕ) (path contents : Bytes) : Server :=
  { s.setReq h { hr with data := some s.pipes.next } with
    pipes := s.pipes.alloc (.fresh size s.filePipes.next h)
    filePipes := s.filePipes.alloc (some s.pipes.next)
    streams := Function.update s.streams s.filePipes.next ⟨h, path, contents, 0, true⟩ }

section Piped

variable {size : ℕ} {path contents : Bytes} {hr hr' : SwsHandleReq} {h' p f : ℕ} {b : FileTcpPipe}

theorem piped_block_cases (hb : (s.piped h hr size path contents).pipes.get? p = some b) :
    (p = s.pipes.next ∧ b = .fresh size s.filePipes.next h) ∨ s.pipes.get? p = some b :=
  Heap.alloc_cases hb

theorem piped_block (hb : s.pipes.get? p = some b) :
    (s.piped h hr size path contents).pipes.get? p = some b :=
  Heap.get?_alloc_of_live hb _

/-- Nothing changes below the new block, freed blocks included. -/
theorem piped_block_of_lt (hp : p < s.pipes.next) :
    (s.piped h hr size path contents).pipes.get? p = s.pipes.get? p :=
  (Heap.get?_alloc _ _ _).trans (if_neg hp.ne)

theorem piped_pipes_next (s : Server) :
    (s.piped h hr size path contents).pipes.next = s.pipes.next + 1 :=
  Heap.next_alloc _ _

theorem piped_block_next (s : Server) :
    (s.piped h hr size path contents).pipes.get? s.pipes.next =
      some (.fresh size s.filePipes.next h) :=
  Heap.get?_alloc_next _ _

theorem piped_file_cases {d : Option ℕ}
    (hf : (s.piped h hr size path contents).filePipes.get? f = some d) :
    (f = s.filePipes.next ∧ d = some s.pipes.next) ∨ s.filePipes.get? f = some d :=
  Heap.alloc_cases hf

theorem piped_file {d : Option ℕ} (hf : s.filePipes.get? f = some d) :
    (s.piped h hr size path contents).filePipes.get? f = some d :=
  Heap.get?_alloc_of_live hf _

theorem piped_file_next (s : Server) :
    (s.piped h hr size path contents).filePipes.get? s.filePipes.next =
      some (some s.pipes.next) :=
  Heap.get?_alloc_next _ _

theorem piped_streams (s : Server) (f : ℕ) :
    (s.piped h hr size path contents).streams f =
      if f = s.filePipes.next then ⟨h, path, contents, 0, true⟩ else s.streams f :=
  Function.update_apply _ _ _ _

theorem piped_stream_next (s : Server) :
    (s.piped h hr size path contents).streams s.filePipes.next = ⟨h, path, contents, 0, true⟩ :=
  Function.update_self _ _ _

theorem piped_stream_of_lt (hf : f < s.filePipes.next) :
    (s.piped h hr size path contents).streams f = s.streams f :=
  Function.update_of_ne hf.ne _ _

theorem piped_filePipes_next (s : Server) :
    (s.piped h hr size path contents).filePipes.next = s.filePipes.next + 1 :=
  Heap.next_alloc _ _

/-- A file stream is the new one, or was there before. -/
theorem piped_stream_cases (hf : f < (s.piped h hr size path contents).filePipes.next) :
    (f = s.filePipes.next ∧
        (s.piped h hr size path contents).streams f = ⟨h, path, contents, 0, true⟩) ∨
      (f < s.filePipes.next ∧ (s.piped h hr size path contents).streams f = s.streams f) := by
  rw [piped_filePipes_next] at hf
  rw [piped_streams]
  by_cases heq : f = s.filePipes.next
  · exact .inl ⟨heq, if_pos heq⟩
  · exact .inr ⟨by omega, if_neg heq⟩

theorem piped_req_cases (hget : s.reqs.get? h = some hr)
    (hget' : (s.piped h hr size path contents).reqs.get? h' = some hr') :
    (h' = h ∧ hr' = { hr with data := some s.pipes.next }) ∨
      (h' ≠ h ∧ s.reqs.get? h' = some hr') :=
  Heap.set_cases hget hget'

theorem piped_req_of_ne (s : Server) (hne : h' ≠ h) :
    (s.piped h hr size path contents).reqs.get? h' = s.reqs.get? h' :=
  Heap.get?_set_of_ne _ _ hne

theorem piped_reqs_next (s : Server) :
    (s.piped h hr size path contents).reqs.next = s.reqs.next :=
  Heap.next_set _ _ _

end Piped

/-- A call of `sws_pipe_file` that returns 0 found `tcp->data == NULL`, and has set up a block and
an active stream that belong to the connection. -/
theorem swsPipeFile_ok {path : Bytes} {size : ℕ} {env : PipeFileEnv} {contents : Bytes}
    (hok : swsPipeFile s h path size env contents = .ok (u, 0)) :
    ∃ hr, s.reqs.get? h = some hr ∧ hr.data = none ∧ u = s.piped h hr size path contents := by
  obtain ⟨hr, hget, hok⟩ := bind_ok_iff.mp hok
  obtain ⟨⟨block, r⟩, hcall, hok⟩ := bind_ok_iff.mp hok
  obtain ⟨hnull, ⟨rfl, hne⟩ | ⟨rfl, -⟩⟩ := swsPipeFile_cases hcall
  · cases hok
    exact absurd rfl hne
  · cases hok
    exact ⟨hr, deref_ok_iff.mp hget, hnull, rfl⟩

/-- A transfer is set up without an error exactly where `tcp->data == NULL` and libuv opens the file
and reads from it. -/
theorem swsPipeFile_zero_iff {hr : SwsHandleReq} (hget : s.reqs.get? h = some hr) {path : Bytes}
    {size : ℕ} {env : PipeFileEnv} {contents : Bytes} :
    (∃ u, swsPipeFile s h path size env contents = .ok (u, 0)) ↔
      hr.data = none ∧ env = ⟨0, 0, 0⟩ := by
  have hderef : deref (s.reqs.get? h) "tcp->data" = .ok hr := deref_ok_iff.mpr hget
  unfold swsPipeFile
  rw [hderef]
  constructor
  · intro ⟨u, hok⟩
    obtain ⟨_, hlive, hok⟩ := bind_ok_iff.mp hok
    cases hlive
    obtain ⟨⟨block, r⟩, hcall, hu⟩ := bind_ok_iff.mp hok
    have hzero : r = 0 := by
      cases block with
      | none => exact (Prod.mk.inj (Except.ok.inj hu)).2
      | some p => exact (Prod.mk.inj (Except.ok.inj hu)).2
    rw [hzero] at hcall
    exact StaticWebServer.swsPipeFile_zero hcall
  · intro ⟨hnull, henv⟩
    show ∃ u, (StaticWebServer.swsPipeFile hr.data h s.filePipes.next size env >>= _) = .ok (u, 0)
    rw [hnull, henv]
    exact ⟨_, rfl⟩

/-- The file was not found: the 404 page is looked up. -/
theorem onResolveResource_again {info : SwsResourceInfo} {env : ResolveEnv} {pipe : PipeFileEnv}
    {contents : Bytes} (hdata : info.data = some h) (hres : resolution info = .again) :
    onResolveResource s info env pipe contents = resolveResource s h env NOT_FOUND := by
  unfold onResolveResource
  rw [hdata, hres]
  rfl

/-- The file was found: it is piped to the client. -/
theorem onResolveResource_pipe {info : SwsResourceInfo} {env : ResolveEnv} {pipe : PipeFileEnv}
    {contents path : Bytes} {size : ℕ} (hdata : info.data = some h)
    (hres : resolution info = .pipe path size) :
    onResolveResource s info env pipe contents = (do
      let (u, r) ← swsPipeFile s h path size pipe contents
      check r "pipe file"
      .ok u) := by
  unfold onResolveResource
  rw [hdata, hres]
  rfl

/-- The answer to the stat number `i` is stored for the connection `h`. -/
def tell (s : Server) (i h : ℕ) (hr : SwsHandleReq) (result : StatResult) : Server :=
  setReq { s with stats := s.stats.eraseIdx i } h
    { hr with resourceInfo := StaticWebServer.fsStatCb hr.resourceInfo result }

theorem tell_get? {hr : SwsHandleReq} (hget : s.reqs.get? h = some hr) (i : ℕ)
    (result : StatResult) (h' : ℕ) :
    (s.tell i h hr result).reqs.get? h' =
      if h' = h then
        some { hr with resourceInfo := StaticWebServer.fsStatCb hr.resourceInfo result }
      else s.reqs.get? h' :=
  setReq_get? (s := { s with stats := s.stats.eraseIdx i }) hget _ h'

/-- The answer to a stat of a live connection. -/
theorem fsStatCb_eq {i : ℕ} {req : StatReq} {hr : SwsHandleReq} {result : StatResult}
    {env : ResolveEnv} {pipe : PipeFileEnv} {contents : Bytes} (hreq : s.stats[i]? = some req)
    (hget : s.reqs.get? req.data = some hr) :
    fsStatCb s i result env pipe contents =
      onResolveResource (s.tell i req.data hr result)
        (StaticWebServer.fsStatCb hr.resourceInfo result) env pipe contents := by
  have hreq' : deref s.stats[i]? "fs_req" = .ok req := deref_ok_iff.mpr hreq
  have hget' : deref (s.reqs.get? req.data) "resource_info" = .ok hr := deref_ok_iff.mpr hget
  unfold fsStatCb
  rw [hreq']
  show (deref (s.reqs.get? req.data) "resource_info" >>= fun hr => _) = _
  rw [hget']
  rfl

/-- A stat that is answered belongs to a live connection. -/
theorem fsStatCb_ok {i : ℕ} {result : StatResult} {env : ResolveEnv} {pipe : PipeFileEnv}
    {contents : Bytes} (hok : fsStatCb s i result env pipe contents = .ok u) :
    ∃ req hr, s.stats[i]? = some req ∧ s.reqs.get? req.data = some hr := by
  obtain ⟨req, hreq, hok⟩ := bind_ok_iff.mp hok
  obtain ⟨hr, hget, -⟩ := bind_ok_iff.mp hok
  exact ⟨req, hr, deref_ok_iff.mp hreq, deref_ok_iff.mp hget⟩

/-! ### Transfers -/

/-- A transfer that is ended: its status was 0, and its connection is being closed. -/
theorem fileTcpPipeEnd_ok {p : ℕ} {block : FileTcpPipe} {status : ℤ}
    (hok : fileTcpPipeEnd s p block status = .ok u) :
    status = 0 ∧ ∃ v, uvClose s block.tcp .onResEnd = .ok v ∧
      u = { v with pipes := v.pipes.free p, filePipes := v.filePipes.free block.filePipe } := by
  obtain ⟨v, hend, hu⟩ := bind_ok_iff.mp hok
  obtain ⟨_, hstatus, hclose⟩ := bind_ok_iff.mp hend
  cases hu
  exact ⟨check_ok_iff.mp hstatus, v, hclose, rfl⟩

theorem writeData_ok {data : Bytes} (hok : writeData s h data = .ok u) :
    ∃ hr, s.reqs.get? h = some hr ∧ u = uvWrite s h ⟨hr.data, data⟩ := by
  obtain ⟨hr, hget, hu⟩ := bind_ok_iff.mp hok
  cases hu
  exact ⟨hr, deref_ok_iff.mp hget, rfl⟩

/-- The stream of a file after one result. -/
def readOn (s : Server) (f : ℕ) (r : ReadResult) : Server :=
  { s with streams := Function.update s.streams f { s.streams f with
      offset := (s.streams f).offset + r.data.length
      active := decide (0 ≤ r.nread) } }

/-- A result of a file stream: data is counted and written, anything else ends the transfer. -/
theorem onFileRead_ok {f : ℕ} {r : ReadResult} (hok : onFileRead s f r = .ok u) :
    ∃ p block, s.filePipes.get? f = some (some p) ∧ s.pipes.get? p = some block ∧
      ((0 < r.nread ∧
          writeData { readOn s f r with
            pipes := s.pipes.set p { block with nread := block.nread + r.data.length } }
            block.tcp r.data = .ok u) ∨
        (r.nread ≤ 0 ∧
          fileTcpPipeEnd { readOn s f r with pipes := s.pipes.set p block } p block r.nread
            = .ok u)) := by
  obtain ⟨p, hp, hok⟩ := bind_ok_iff.mp hok
  obtain ⟨res, hres, hact⟩ := bind_ok_iff.mp hok
  have hpipe : s.filePipes.get? f = some (some p) := Option.join_eq_some_iff.mp (deref_ok_iff.mp hp)
  obtain ⟨block, hblock, ⟨hpos, rfl⟩ | ⟨hle, rfl⟩⟩ := StaticWebServer.onFileRead_ok hres
  · exact ⟨p, block, hpipe, hblock, .inl ⟨hpos, hact⟩⟩
  · exact ⟨p, block, hpipe, hblock, .inr ⟨hle, hact⟩⟩

/-- A completed write: it was successful, it is counted, and if it has caught up with the reads it
ends the transfer. -/
theorem onWriteRes_ok {status : ℤ} (hok : onWriteRes s h status = .ok u) :
    status = 0 ∧ ∃ w ws p block v, (s.tcp h).writes = w :: ws ∧ w.data = some p ∧
      s.pipes.get? p = some block ∧
      v = { s.setTcp h { s.tcp h with writes := ws } with
        pipes := s.pipes.set p { block with nwritten := block.nwritten + w.buf.length } } ∧
      ((block.nwritten + w.buf.length = block.nread ∧ block.size = block.nread ∧
          fileTcpPipeEnd v p { block with nwritten := block.nwritten + w.buf.length } 0 = .ok u) ∨
        (block.nwritten + w.buf.length ≠ block.nread ∧ u = v)) := by
  unfold onWriteRes at hok
  split at hok
  · cases hok
  · rename_i w ws hw
    obtain ⟨res, hres, hok⟩ := bind_ok_iff.mp hok
    obtain ⟨p, hp, hact⟩ := bind_ok_iff.mp hok
    have hdata := deref_ok_iff.mp hp
    obtain ⟨hstatus, block, settled, hblock, rfl, hcases⟩ := StaticWebServer.onWriteRes_ok hres
    rw [hdata] at hblock
    refine ⟨hstatus, w, ws, p, block, _, hw, hdata, hblock, rfl, ?_⟩
    rcases hcases with ⟨hcaught, hsize, rfl⟩ | ⟨hbehind, rfl⟩
    · exact .inl ⟨hcaught, hsize, hact⟩
    · cases hact
      exact .inr ⟨hbehind, rfl⟩

/-! ### Close callbacks -/

/-- A close callback that returns: `on_res_end` has freed the connection. -/
theorem onClosed_ok (hok : onClosed s h = .ok u) :
    ∃ v, v = s.setTcp h { s.tcp h with closeCb := none } ∧
      (((s.tcp h).closeCb = some .onResEnd ∧ (∃ hr, s.reqs.get? h = some hr) ∧
          u = { v with reqs := v.reqs.free h }) ∨
        ((s.tcp h).closeCb ≠ some .onResEnd ∧ u = v)) := by
  refine ⟨_, rfl, ?_⟩
  unfold onClosed at hok
  split at hok
  · rename_i hcb
    obtain ⟨hr, hget, hok⟩ := bind_ok_iff.mp hok
    obtain ⟨_, -, hu⟩ := bind_ok_iff.mp hok
    cases hu
    exact .inl ⟨hcb, ⟨hr, deref_ok_iff.mp hget⟩, rfl⟩
  · rename_i hcb
    cases hok
    exact .inr ⟨hcb, rfl⟩

end Server

end LibuvDox.StaticWebServer
