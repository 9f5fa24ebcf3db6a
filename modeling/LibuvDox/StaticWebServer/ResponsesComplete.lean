import LibuvDox.StaticWebServer.TransferViews

/-!
# No response waits for another

Each connection has a transfer, a file stream and writes of its own, and the callbacks of a transfer
look at nothing else.  So whatever the other connections are doing, a response that has begun can be
brought to its end without them, and they are found as they were.

* `OpenLive`: a connection that is not closing has not been freed.
* `onFileRead_returns`, `onWriteRes_returns`: what the callbacks of a transfer need to return.
* `InProgress.next`: as long as the response is in progress one of its own callbacks moves it on.
* `response_completes`: from every state that a run reaches.
-/

namespace LibuvDox.StaticWebServer

namespace Server

variable {s t u v : Server} {h p : ℕ} {hr : SwsHandleReq} {b c : FileTcpPipe} {r : ReadResult}

/-! ### Connections that are open -/

/-- A connection that is not closing has not been freed, a close callback is due only where the
handle is closing, and what is still to be accepted is open. -/
structure OpenLive (s : Server) : Prop where
  live : ∀ h < s.reqs.next, (s.tcp h).closeCalls = 0 → s.reqs.get? h ≠ none
  due : ∀ h, (s.tcp h).closeCb ≠ none → (s.tcp h).closeCalls ≠ 0
  fresh : ∀ h, s.reqs.next ≤ h → (s.tcp h).closeCalls = 0

theorem init_openLive : OpenLive init where
  live := by simp [init]
  due := by simp [init]
  fresh := by simp [init]

/-- No connection comes or goes, none is opened again, and only `uv_close` of a live one closes a
handle and makes a close callback due. -/
structure KeepsOpen (s u : Server) : Prop where
  next : u.reqs.next = s.reqs.next
  live : ∀ h, u.reqs.get? h = none ↔ s.reqs.get? h = none
  closing : ∀ h, (s.tcp h).closeCalls ≤ (u.tcp h).closeCalls
  due : ∀ h, (u.tcp h).closeCb ≠ none → (s.tcp h).closeCb ≠ none ∨ (u.tcp h).closeCalls ≠ 0
  freed : ∀ h, s.reqs.get? h = none → (u.tcp h).closeCalls = (s.tcp h).closeCalls

/-- There is no connection yet at an address that has not been handed out. -/
theorem reqs_fresh (hle : s.reqs.next ≤ h) : s.reqs.get? h = none := by
  cases hget : s.reqs.get? h with
  | none => rfl
  | some hr => exact absurd (Heap.lt_next hget) (Nat.not_lt.mpr hle)

theorem OpenLive.keeps (hs : OpenLive s) (hk : KeepsOpen s u) : OpenLive u where
  live h hlt hopen := by
    have hle := hk.closing h
    exact mt (hk.live h).mp (hs.live h (hlt.trans_eq hk.next) (by omega))
  due h hcb := by
    rcases hk.due h hcb with hold | hnew
    · have hclosing := hs.due h hold
      have hle := hk.closing h
      omega
    · exact hnew
  fresh h hle := by
    rw [hk.next] at hle
    rw [hk.freed h (reqs_fresh hle)]
    exact hs.fresh h hle

theorem KeepsOpen.of_same (hreqs : u.reqs = s.reqs) (htcp : u.tcp = s.tcp) : KeepsOpen s u where
  next := by rw [hreqs]
  live h := by rw [hreqs]
  closing h := by rw [htcp]
  due h hcb := .inl (by rwa [htcp] at hcb)
  freed h _ := by rw [htcp]

theorem KeepsOpen.trans (h1 : KeepsOpen s t) (h2 : KeepsOpen t u) : KeepsOpen s u where
  next := h2.next.trans h1.next
  live h := (h2.live h).trans (h1.live h)
  closing h := (h1.closing h).trans (h2.closing h)
  due h hcb := by
    rcases h2.due h hcb with hold | hnew
    · rcases h1.due h hold with hfirst | hclosing
      · exact .inl hfirst
      · have hle := h2.closing h
        exact .inr (by omega)
    · exact .inr hnew
  freed h hfree := (h2.freed h ((h1.live h).mpr hfree)).trans (h1.freed h hfree)

theorem KeepsOpen.setReq (hget : s.reqs.get? h = some hr) (hr' : SwsHandleReq) :
    KeepsOpen s (s.setReq h hr') where
  next := setReq_next s h hr'
  live h' := by
    rw [setReq_get? hget]
    split
    · rename_i heq
      rw [heq, hget]
      exact iff_of_false (Option.some_ne_none _) (Option.some_ne_none _)
    · exact Iff.rfl
  closing _ := le_rfl
  due _ := .inl
  freed _ _ := rfl

theorem KeepsOpen.setTcp {t : TcpHandle} (hclosing : (s.tcp h).closeCalls ≤ t.closeCalls)
    (hdue : t.closeCb ≠ none → (s.tcp h).closeCb ≠ none ∨ t.closeCalls ≠ 0)
    (hfreed : s.reqs.get? h = none → t.closeCalls = (s.tcp h).closeCalls) :
    KeepsOpen s (s.setTcp h t) where
  next := rfl
  live _ := Iff.rfl
  closing h' := by
    rw [setTcp_tcp]
    split
    · rename_i heq
      rw [heq]
      exact hclosing
    · exact le_rfl
  due h' := by
    rw [setTcp_tcp]
    split
    · rename_i heq
      rw [heq]
      exact hdue
    · exact .inl
  freed h' hfree := by
    rw [setTcp_tcp]
    split
    · rename_i heq
      rw [heq] at hfree ⊢
      exact hfreed hfree
    · rfl

/-- The handle is closed as often as before. -/
theorem KeepsOpen.setTcp_same (s : Server) (h : ℕ) {t : TcpHandle}
    (hclosing : t.closeCalls = (s.tcp h).closeCalls)
    (hdue : t.closeCb ≠ none → (s.tcp h).closeCb ≠ none) : KeepsOpen s (s.setTcp h t) :=
  .setTcp hclosing.ge (fun hcb => .inl (hdue hcb)) fun _ => hclosing

theorem KeepsOpen.uvClose {cb : CloseCb} (hok : uvClose s h cb = .ok u) : KeepsOpen s u := by
  obtain ⟨⟨hr, hget⟩, rfl⟩ := uvClose_ok hok
  refine .setTcp (Nat.le_succ _) (fun _ => .inr (Nat.succ_ne_zero _)) ?_
  intro hfree
  rw [hget] at hfree
  cases hfree

theorem KeepsOpen.uvWrite (s : Server) (h : ℕ) (w : WriteReq) : KeepsOpen s (uvWrite s h w) := by
  unfold Server.uvWrite
  split
  · exact .setTcp_same s h rfl fun hcb => hcb
  · exact .of_same rfl rfl

theorem KeepsOpen.finish {status : ℤ} (hok : fileTcpPipeEnd s p b status = .ok u) :
    KeepsOpen s u := by
  obtain ⟨-, v, hclose, rfl⟩ := fileTcpPipeEnd_ok hok
  exact (KeepsOpen.uvClose hclose).trans (.of_same rfl rfl)

theorem KeepsOpen.resolve {env : ResolveEnv} {url : Bytes}
    (hok : resolveResource s h env url = .ok u) : KeepsOpen s u := by
  obtain ⟨hr, root, hget, -, rfl⟩ := resolveResource_ok hok
  exact (KeepsOpen.setReq hget _).trans (.of_same rfl rfl)

theorem KeepsOpen.parserCallback {c : ParserCallback × ResolveEnv}
    (hok : parserCallback h s c = .ok u) : KeepsOpen s u := by
  obtain ⟨hr, st, hget, -, ⟨-, rfl⟩ | ⟨-, h', -, url, -, -, -, hstart⟩⟩ := parserCallback_ok hok
  · exact .setReq hget _
  · exact (KeepsOpen.setReq hget _).trans (.resolve hstart)

theorem KeepsOpen.reqRead {r : ReqRead} (hok : onReqRead s h r = .ok u) : KeepsOpen s u := by
  cases r with
  | eof => exact .uvClose hok
  | other nread =>
    cases hok
    exact .of_same rfl rfl
  | data nread calls parsed =>
    obtain ⟨-, v, -, hcalls, hend⟩ := onReqRead_data_ok hok
    have hv : KeepsOpen s v := foldlM_ok_invariant hcalls (.of_same rfl rfl)
      fun _ _ _ _ hb hc => hb.trans (.parserCallback hc)
    rcases hend with ⟨-, hclose⟩ | ⟨-, rfl⟩
    · exact hv.trans (.uvClose hclose)
    · exact hv

theorem KeepsOpen.stat (hl : Linked s) {i : ℕ} {result : StatResult} {env : ResolveEnv}
    {pipe : PipeFileEnv} {contents : Bytes}
    (hok : fsStatCb s i result env pipe contents = .ok u) : KeepsOpen s u := by
  obtain ⟨req, hr, -, hget, hcases⟩ := hl.fsStatCb_ok hok
  let t := { s with stats := s.stats.eraseIdx i }
  have hdrop : KeepsOpen s t := .of_same rfl rfl
  have htold : KeepsOpen s (s.tell i req.data hr result) := hdrop.trans (.setReq (s := t) hget _)
  rcases hcases with ⟨e, -, hagain⟩ | ⟨size, -, hpipe⟩
  · exact htold.trans (.resolve hagain)
  · obtain ⟨hr', hget', -, rfl⟩ := swsPipeFile_ok hpipe
    exact (htold.trans (.setReq hget' _)).trans (.of_same rfl rfl)

theorem KeepsOpen.fileRead {f : ℕ} (hok : onFileRead s f r = .ok u) : KeepsOpen s u := by
  have hread : ∀ pipes, KeepsOpen s { s.readOn f r with pipes := pipes } :=
    fun _ => .of_same rfl rfl
  obtain ⟨p, b, -, -, ⟨-, hwrite⟩ | ⟨-, hend⟩⟩ := onFileRead_ok hok
  · obtain ⟨hr, -, rfl⟩ := writeData_ok hwrite
    exact (hread _).trans (.uvWrite _ _ _)
  · exact (hread _).trans (.finish hend)

theorem KeepsOpen.written {status : ℤ} (hok : onWriteRes s h status = .ok u) : KeepsOpen s u := by
  obtain ⟨-, w, ws, p, b, v, -, -, -, rfl, hcases⟩ := onWriteRes_ok hok
  have hpop : KeepsOpen s (s.setTcp h { s.tcp h with writes := ws }) :=
    .setTcp_same s h rfl fun hcb => hcb
  have hv : KeepsOpen s { s.setTcp h { s.tcp h with writes := ws } with
      pipes := s.pipes.set p { b with nwritten := b.nwritten + w.buf.length } } :=
    hpop.trans (.of_same rfl rfl)
  rcases hcases with ⟨-, -, hend⟩ | ⟨-, rfl⟩
  · exact hv.trans (.finish hend)
  · exact hv

/-- A new connection is live. -/
theorem OpenLive.newReq (hs : OpenLive s) (junk : Garbage) (info : SwsResourceInfo) :
    OpenLive (s.newReq junk info) where
  live h hlt hopen := by
    rw [newReq_next] at hlt
    rw [newReq_get?]
    split
    · exact Option.some_ne_none _
    · rename_i hne
      exact hs.live h (by omega) hopen
  due := hs.due
  fresh h hle := by
    rw [newReq_next] at hle
    exact hs.fresh h (by omega)

theorem OpenLive.connect (hs : OpenLive s) {status accept : ℤ} {junk : Garbage}
    {info : SwsResourceInfo} (hok : onConnect s status accept junk info = .ok u) : OpenLive u := by
  have hnew := hs.newReq junk info
  obtain ⟨-, ⟨-, hclose⟩ | ⟨-, rfl⟩⟩ := onConnect_ok hok
  · exact hnew.keeps (.uvClose hclose)
  · exact hnew.keeps (.setTcp_same _ _ rfl fun hcb => hcb)

/-- `on_res_end` frees a connection that is closing. -/
theorem OpenLive.closed (hs : OpenLive s) (hok : onClosed s h = .ok u) : OpenLive u := by
  obtain ⟨v, rfl, hcases⟩ := onClosed_ok hok
  have hv : OpenLive (s.setTcp h { s.tcp h with closeCb := none }) :=
    hs.keeps (.setTcp_same s h rfl fun hcb => absurd rfl hcb)
  rcases hcases with ⟨hcb, -, rfl⟩ | ⟨-, rfl⟩
  · refine ⟨fun h' hlt hopen => ?_, hv.due, fun h' hle => ?_⟩
    · have hne : h' ≠ h := by
        rintro rfl
        have hclosing := hs.due h' (by rw [hcb]; exact Option.some_ne_none _)
        rw [setTcp_tcp, if_pos rfl] at hopen
        exact hclosing hopen
      show (s.reqs.free h).get? h' ≠ none
      rw [Heap.get?_free_of_ne _ hne]
      exact hv.live h' (hlt.trans_eq (Heap.next_free _ _)) hopen
    · exact hv.fresh h' ((Heap.next_free _ _).symm.trans_le hle)
  · exact hv

theorem OpenLive.step (hs : OpenLive s) (hl : Linked s) {e : ServerEvent}
    (hok : server.dispatch s e = .ok u) : OpenLive u := by
  cases e with
  | connect status accept junk info => exact hs.connect hok
  | reqRead h r => exact hs.keeps (.reqRead hok)
  | stat i result env pipe contents => exact hs.keeps (.stat hl hok)
  | fileRead f r => exact hs.keeps (.fileRead hok)
  | written h status => exact hs.keeps (.written hok)
  | closed h => exact hs.closed hok

/-- **Every run** frees no connection that is open. -/
theorem openLive_of_run {es : List ServerEvent} (hrun : server.Run init es s) : OpenLive s :=
  (hrun.invariant (P := fun s => OpenLive s ∧ Linked s) ⟨init_openLive, init_linked⟩
    fun _ _ _ hs _ hok => ⟨hs.1.step hs.2 hok, hs.2.step hok⟩).1

/-! ### Callbacks that return -/

/-- A chunk of the file of a live transfer. -/
theorem onFileRead_returns (hs : TransferLinks s) (hb : s.pipes.get? p = some b)
    (hget : s.reqs.get? b.tcp = some hr) (hpos : 0 < r.nread) :
    ∃ u, onFileRead s b.filePipe r = .ok u := by
  have hfile : (s.filePipes.get? b.filePipe).join = some p := by
    rw [(hs.block p b hb).1]
    rfl
  have hread : StaticWebServer.onFileRead (s.pipes.get? p) r =
      .ok ({ b with nread := b.nread + r.data.length }, .submit r.data) := by
    rw [hb]
    exact pipeFileProgram.onFileRead_data b hpos
  exact ⟨_, bind_ok_iff.mpr ⟨p, deref_ok_iff.mpr hfile, bind_ok_iff.mpr ⟨_, hread,
    bind_ok_iff.mpr ⟨hr, deref_ok_iff.mpr hget, rfl⟩⟩⟩⟩

/-- The end of a transfer. -/
theorem fileTcpPipeEnd_returns (hlive : ∃ hr, s.reqs.get? b.tcp = some hr) (p : ℕ) :
    ∃ u, fileTcpPipeEnd s p b 0 = .ok u := by
  obtain ⟨hr, hget⟩ := hlive
  exact ⟨_, bind_ok_iff.mpr ⟨_, bind_ok_iff.mpr ⟨(), check_ok_iff.mpr rfl,
    bind_ok_iff.mpr ⟨hr, deref_ok_iff.mpr hget, rfl⟩⟩, rfl⟩⟩

/-- A write of a live transfer, unless it catches up with the reads too early. -/
theorem onWriteRes_returns {w : WriteReq} {ws : List WriteReq} (hw : (s.tcp h).writes = w :: ws)
    (hdata : w.data = some p) (hb : s.pipes.get? p = some b)
    (hget : s.reqs.get? b.tcp = some hr)
    (hlate : b.nwritten + w.buf.length = b.nread → b.size = b.nread) :
    ∃ u, onWriteRes s h 0 = .ok u := by
  have hlive : w.data.bind s.pipes.get? = some b := by
    rw [hdata]
    exact hb
  unfold onWriteRes
  rw [hw]
  by_cases hcaught : b.nwritten + w.buf.length = b.nread
  · have hres : StaticWebServer.onWriteRes (w.data.bind s.pipes.get?) w.buf.length 0 =
        .ok ({ b with nwritten := b.nwritten + w.buf.length }, .settle (.finish 0)) := by
      rw [hlive]
      refine (pipeFileProgram.onWriteRes_live b _).trans ?_
      rw [if_pos hcaught, if_pos (hlate hcaught)]
      rfl
    obtain ⟨u, hend⟩ : ∃ u, fileTcpPipeEnd { s.setTcp h { s.tcp h with writes := ws } with
        pipes := s.pipes.set p { b with nwritten := b.nwritten + w.buf.length } } p
        { b with nwritten := b.nwritten + w.buf.length } 0 = .ok u := by
      refine fileTcpPipeEnd_returns ?_ p
      exact ⟨hr, hget⟩
    exact ⟨u, bind_ok_iff.mpr ⟨_, hres, bind_ok_iff.mpr ⟨p, deref_ok_iff.mpr hdata, hend⟩⟩⟩
  · have hres : StaticWebServer.onWriteRes (w.data.bind s.pipes.get?) w.buf.length 0 =
        .ok ({ b with nwritten := b.nwritten + w.buf.length }, .settle .goOn) := by
      rw [hlive]
      refine (pipeFileProgram.onWriteRes_live b _).trans ?_
      rw [if_neg hcaught]
    exact ⟨_, bind_ok_iff.mpr ⟨_, hres, bind_ok_iff.mpr ⟨p, deref_ok_iff.mpr hdata, rfl⟩⟩⟩

/-! ### A response in progress -/

/-- The events of the transfer with the block `b`. -/
def OwnEvent (b : FileTcpPipe) : ServerEvent → Prop
  | .fileRead f _ => f = b.filePipe
  | .written h _ => h = b.tcp
  | _ => False

/-- The response that began with the block `b` is in progress, and its block is now `c`. -/
structure InProgress (contents : Bytes) (s : Server) (p : ℕ) (b c : FileTcpPipe) : Prop where
  block : s.pipes.get? p = some c
  filePipe : c.filePipe = b.filePipe
  tcp : c.tcp = b.tcp
  opened : (s.tcp c.tcp).closeCalls = 0
  sound : (s.view c).Sound contents contents.length
  stands : PipeStands (s.view c)

/-- All of the file was sent, the transfer is gone and its connection is being closed. -/
structure Completed (contents : Bytes) (s : Server) (p h : ℕ) : Prop where
  block : s.pipes.get? p = none
  queued : (s.tcp h).queued = contents
  writes : (s.tcp h).writes = []
  closing : (s.tcp h).closeCalls = 1 ∧ (s.tcp h).closeCb = some .onResEnd

/-- What holds in every run, of all transfers and connections. -/
structure Running (s : Server) : Prop where
  transfers : Transfers s
  linked : Linked s
  opens : OpenLive s

theorem running_of_run {es : List ServerEvent} (hrun : server.Run init es s) : Running s where
  transfers := (transfers_of_run hrun).1
  linked := (transfers_of_run hrun).2
  opens := openLive_of_run hrun

theorem Running.step (hs : Running s) {e : ServerEvent} (he : server.enabled s e)
    (hok : server.dispatch s e = .ok u) : Running u where
  transfers := hs.transfers.step hs.linked he hok
  linked := hs.linked.step hok
  opens := hs.opens.step hs.linked hok

variable {contents : Bytes}

/-- The connection of a response in progress has not been freed. -/
theorem InProgress.connection (hi : InProgress contents s p b c) (hs : Running s) :
    ∃ hr, s.reqs.get? c.tcp = some hr := by
  have hlt := hs.transfers.tcp_lt hi.block
  exact Option.ne_none_iff_exists'.mp (hs.opens.live _ hlt hi.opened)

/-- No write of it was refused. -/
theorem InProgress.refused (hi : InProgress contents s p b c) (hs : Running s) :
    (s.view c).refused = 0 := by
  have hall := hs.transfers.all p c hi.block hi.opened
  have hread := hi.sound.nread c rfl
  have hbound : c.nread ≤ (s.streams c.filePipe).contents.length :=
    (hi.sound.balanced c rfl).bound
  show (s.streams c.filePipe).offset - (s.tcp c.tcp).queued.length = 0
  replace hread : c.nread = (s.streams c.filePipe).offset := hread
  rw [hall, List.length_take]
  omega

/-- Where the transfer goes on, so does the response. -/
theorem InProgress.goesOn {d : FileTcpPipe} (hi : InProgress contents s p b c)
    (hgoes : GoesOn s u p c d) {e : TransferEvent} (he : pipeFileLoop.enabled (s.view c) e)
    (hd : pipeFileLoop.dispatch (s.view c) e = .ok (u.view d)) : InProgress contents u p b d where
  block := hgoes.block
  filePipe := hgoes.filePipe.trans hi.filePipe
  tcp := hgoes.tcp.trans hi.tcp
  opened := by
    rw [hgoes.tcp, hgoes.closing]
    exact hi.opened
  sound := hi.sound.step he hd
  stands := hi.stands.step he hd (Transfer.dispatch_cases hi.sound he hd)

/-- Where the transfer is ended by a write, all was sent. -/
theorem InProgress.completes (hi : InProgress contents s p b c) {t : Transfer}
    (hresponded : Responded s u c.tcp p t) {e : TransferEvent}
    (he : pipeFileLoop.enabled (s.view c) e) (hd : pipeFileLoop.dispatch (s.view c) e = .ok t)
    (hend : t.block = none) (hwrite : ∀ r accepted, e ≠ .fileRead r accepted)
    (hclosed : e ≠ .closed) : Completed contents u p c.tcp := by
  have hsound := hi.sound.step he hd
  have hdelivered : t.Delivered := by
    cases Transfer.dispatch_cases hi.sound he hd with
    | moved _ _ hlive _ => exact absurd hend hlive
    | noData _ _ _ _ _ _ => exact absurd rfl (hwrite _ _)
    | last _ hafter _ _ => exact hafter
    | closed _ _ => exact absurd rfl hclosed
  refine ⟨hresponded.block, ?_, ?_, ?_, hresponded.closing.2⟩
  · rw [hresponded.queued, hdelivered.sent.submitted, hsound.contents]
  · have hwrites := hresponded.writes
    rw [hdelivered.sent.written] at hwrites
    exact List.map_eq_nil_iff.mp hwrites
  · rw [hresponded.closing.1, hi.opened]

theorem OnlyTransfer.of_block (honly : OnlyTransfer s u p c) (hfile : c.filePipe = b.filePipe)
    (htcp : c.tcp = b.tcp) : OnlyTransfer s u p b :=
  ⟨honly.reqs, honly.stats, honly.globals, honly.next, honly.pipes, hfile ▸ honly.filePipes,
    hfile ▸ honly.streams, htcp ▸ honly.tcp⟩

/-- **Progress.**  One of the callbacks of the transfer can be called, returns, touches nothing else
and brings the response nearer to its end. -/
theorem InProgress.next (hi : InProgress contents s p b c) (hs : Running s) (hne : contents ≠ []) :
    ∃ e u, (server.enabled s e ∧ OwnEvent b e) ∧ server.dispatch s e = .ok u ∧
      OnlyTransfer s u p b ∧
      ((∃ d, InProgress contents u p b d ∧ (u.view d).due < (s.view c).due) ∨
        (Completed contents u p b.tcp ∧ 0 < (s.view c).due)) := by
  have hlive : (s.view c).block ≠ none := Option.some_ne_none _
  obtain ⟨hr, hget⟩ := hi.connection hs
  obtain ⟨e, t, he, hd, hlt, -, hdata, hclosed⟩ := Transfer.exists_next hi.sound rfl
    (hi.stands.open_ hlive) (hi.refused hs) hne (hi.stands.live hlive)
  replace he : pipeFileLoop.enabled (s.view c) e := he
  cases e with
  | fileRead r accepted =>
    obtain ⟨hpos, rfl⟩ := hdata r accepted rfl
    obtain ⟨u, hok⟩ := onFileRead_returns hs.transfers.toTransferLinks hi.block hget hpos
    have honly := OnlyTransfer.fileRead hs.transfers.toTransferLinks hi.block hok
    have hactive : (s.streams c.filePipe).active = true := by
      simpa [view] using he.1
    refine ⟨.fileRead c.filePipe r, u, ⟨⟨hactive, he.2.1, he.2.2⟩, hi.filePipe⟩, hok,
      honly.of_block hi.filePipe hi.tcp, ?_⟩
    rcases view_fileRead hs.transfers hi.block hok with ⟨-, d, hgoes, hmove⟩ | ⟨hle, -⟩
    · rw [decide_eq_true hi.opened] at hmove
      obtain rfl : t = u.view d := Except.ok.inj (hd.symm.trans hmove)
      exact .inl ⟨d, hi.goesOn hgoes he hmove, hlt⟩
    · omega
  | written status =>
    obtain ⟨rfl, q, settled, hq, -, hcases⟩ := Transfer.dispatch_written hd
    cases hq
    obtain ⟨w, ws, hw⟩ : ∃ w ws, (s.tcp c.tcp).writes = w :: ws :=
      List.exists_cons_of_ne_nil fun hnil => he (by simp [view, hnil])
    have hlen : ((s.view c).pending.headD []).length = w.buf.length := by
      simp [view, hw]
    obtain ⟨q, hown⟩ := hs.transfers.writes c.tcp w (hw ▸ List.mem_cons_self)
    obtain rfl : q = p := by
      obtain ⟨d, hd, htcp⟩ | ⟨-, hclosing⟩ := hown.live
      · exact hs.transfers.inj hi.block hd (.inr htcp)
      · exact absurd hi.opened hclosing
    obtain ⟨u, hok⟩ := onWriteRes_returns hw hown.data hi.block hget (by
      intro hcaught
      rcases hcases with ⟨-, hsize, -⟩ | ⟨hbehind, -⟩
      · exact hsize
      · rw [hlen] at hbehind
        exact absurd hcaught hbehind)
    have honly := OnlyTransfer.written hs.transfers hi.block hok
    have henabled : server.enabled s (.written c.tcp 0) := by
      refine ⟨hw ▸ List.cons_ne_nil _ _, le_rfl, ?_⟩
      intro hclosing
      rw [hi.opened] at hclosing
      exact absurd hclosing (Nat.lt_irrefl 0)
    refine ⟨.written c.tcp 0, u, ⟨henabled, hi.tcp⟩, hok, honly.of_block hi.filePipe hi.tcp, ?_⟩
    obtain ⟨-, ⟨d, hgoes, hmove⟩ | ⟨t', hmove, hend, hresponded⟩⟩ :=
      view_written hs.transfers hi.block hok
    · obtain rfl : t = u.view d := Except.ok.inj (hd.symm.trans hmove)
      exact .inl ⟨d, hi.goesOn hgoes he hmove, hlt⟩
    · have hcompleted := hi.completes hresponded he hmove hend
        (fun _ _ heq => TransferEvent.noConfusion heq) (fun heq => TransferEvent.noConfusion heq)
      rw [hi.tcp] at hcompleted
      exact .inr ⟨hcompleted, by omega⟩
  | closed => exact absurd rfl hclosed

end Server

open Server

/-- **No response waits for another.**  In every state that a run of the server reaches, whatever is
going on, a response whose connection is open can be completed by the callbacks of its own transfer
alone, if there is something in its file and the file has the size that the stat has returned; and
then nothing has changed but this transfer and its connection. -/
theorem response_completes {es : List ServerEvent} {s : Server} {p : ℕ} {b : FileTcpPipe}
    (hrun : server.Run init es s) (hb : s.pipes.get? p = some b)
    (hopen : (s.tcp b.tcp).closeCalls = 0)
    (hsize : b.size = (s.streams b.filePipe).contents.length)
    (hne : (s.streams b.filePipe).contents ≠ []) :
    ∃ fs u, server.Run s fs u ∧ (∀ e ∈ fs, OwnEvent b e) ∧ OnlyTransfer s u p b ∧
      Completed (s.streams b.filePipe).contents u p b.tcp := by
  have hview := transfer_of_run hrun hb
  rw [hsize] at hview
  obtain ⟨hsound, hstands⟩ := pipeStands_of_run hview
  obtain ⟨fs, u, hown, ⟨-, honly, -⟩, hdone⟩ := EventLoop.exists_run_to
    (L := server.restrict fun _ e => OwnEvent b e)
    (P := fun u => Running u ∧ OnlyTransfer s u p b ∧
      ((∃ c, InProgress (s.streams b.filePipe).contents u p b c) ∨
        Completed (s.streams b.filePipe).contents u p b.tcp))
    (D := fun u => Completed (s.streams b.filePipe).contents u p b.tcp)
    (fun u => ((u.pipes.get? p).map fun c => (u.view c).due).getD 0)
    (fun t ⟨ht, honly, hcase⟩ hnot => by
      obtain ⟨c, hi⟩ | hdone := hcase
      · obtain ⟨e, u, he, hok, hmore, hnext⟩ := hi.next ht hne
        refine ⟨e, u, he, hok, ?_⟩
        have hu := ht.step he.1 hok
        rw [hi.block]
        rcases hnext with ⟨d, hd, hlt⟩ | ⟨hdone, hlt⟩
        · rw [hd.block]
          exact ⟨⟨hu, honly.trans hmore, .inl ⟨d, hd⟩⟩, hlt⟩
        · rw [hdone.block]
          exact ⟨⟨hu, honly.trans hmore, .inr hdone⟩, hlt⟩
      · exact absurd hdone hnot)
    ⟨running_of_run hrun, .refl s p b, .inl ⟨b, hb, rfl, rfl, hopen, hsound, hstands⟩⟩
  exact ⟨fs, u, hown.of_restrict, hown.guards, honly, hdone⟩

/-- Two connections: the response on the second one is completed while the first one has read one of
its two bytes. -/
theorem response_completes_second : ∃ es s b, server.Run init es s ∧ s.pipes.get? 1 = some b ∧
    ∃ fs u, server.Run s fs u ∧ (∀ e ∈ fs, OwnEvent b e) ∧ OnlyTransfer s u 1 b ∧
      Completed [67, 68] u 1 b.tcp := by
  obtain ⟨s, hrun, hends⟩ := EventLoop.exists_run_of_plays
    (show (server.plays init
        [clientConnects, clientConnects, .reqRead 0 (.data 36 (getRequest "/a") 36),
          .reqRead 1 (.data 36 (getRequest "/b") 36), fileFound [65, 66], fileFound [67, 68],
          .fileRead 0 (.chunk [65])]).any
      (fun s => (s.pipes.get? 1).any fun b => decide ((s.tcp b.tcp).closeCalls = 0) &&
        decide (b.size = 2) && decide ((s.streams b.filePipe).contents = [67, 68])) = true by
      decide +kernel)
  obtain ⟨b, hb, hends⟩ := (Option.any_eq_true _ _).mp hends
  simp only [Bool.and_eq_true, decide_eq_true_eq] at hends
  obtain ⟨⟨hopen, hsize⟩, hcontents⟩ := hends
  have hcompletes := response_completes hrun hb hopen (by rw [hsize, hcontents]; rfl)
    (by rw [hcontents]; exact List.cons_ne_nil _ _)
  rw [hcontents] at hcompletes
  exact ⟨_, s, b, hrun, hb, hcompletes⟩

end LibuvDox.StaticWebServer
