import LibuvDox.StaticWebServer.ResponsesComplete
import LibuvDox.StaticWebServer.WholeResponses

/-!
# A new client is served

Whatever the connections that are there have brought the server to, a client that connects now, asks
for a resource and is read to the end of its request gets its file, by events that are all its own;
and when its response has ended, nothing that was there before has changed.

* `OneMore`: the frame, everything but the new connection and its transfer.
* `TakesRequest`: a request that http_parser and the callbacks take.
* `asked_of_request`, `Asked.found`: the request is parsed, and its file is found.
* `newClient_served`: from every state that a run reaches.
-/

namespace LibuvDox.StaticWebServer

namespace Server

variable {s t u : Server} {h p : ℕ} {hr : SwsHandleReq} {b : FileTcpPipe} {junk : Garbage}
  {info : SwsResourceInfo}

/-- Nothing that was there has changed: `t` has one connection and one transfer more. -/
structure OneMore (s t : Server) : Prop where
  reqs : ∀ h ≠ s.reqs.next, t.reqs.get? h = s.reqs.get? h
  tcp : ∀ h ≠ s.reqs.next, t.tcp h = s.tcp h
  pipes : ∀ p ≠ s.pipes.next, t.pipes.get? p = s.pipes.get? p
  filePipes : ∀ f ≠ s.filePipes.next, t.filePipes.get? f = s.filePipes.get? f
  streams : ∀ f ≠ s.filePipes.next, t.streams f = s.streams f
  root : s.root ≠ [] → t.root = s.root

theorem OneMore.newReq (s : Server) (junk : Garbage) (info : SwsResourceInfo) :
    OneMore s (s.newReq junk info) where
  reqs h hne := by rw [newReq_get?, if_neg hne]
  tcp _ _ := rfl
  pipes _ _ := rfl
  filePipes _ _ := rfl
  streams _ _ := rfl
  root _ := rfl

theorem OneMore.setTcp (hm : OneMore s t) (c : TcpHandle) : OneMore s (t.setTcp s.reqs.next c) where
  reqs := hm.reqs
  tcp h hne := by
    rw [setTcp_tcp, if_neg hne]
    exact hm.tcp h hne
  pipes := hm.pipes
  filePipes := hm.filePipes
  streams := hm.streams
  root := hm.root

theorem OneMore.setReq (hm : OneMore s t) (hr : SwsHandleReq) :
    OneMore s (t.setReq s.reqs.next hr) where
  reqs h hne := (Heap.get?_set_of_ne _ hr hne).trans (hm.reqs h hne)
  tcp := hm.tcp
  pipes := hm.pipes
  filePipes := hm.filePipes
  streams := hm.streams
  root := hm.root

/-- The stats change, and a root that was known does not. -/
theorem OneMore.setStats (hm : OneMore s t) {root : Bytes} (hroot : s.root ≠ [] → root = s.root)
    (stats : List StatReq) : OneMore s { t with root := root, stats := stats } :=
  ⟨hm.reqs, hm.tcp, hm.pipes, hm.filePipes, hm.streams, hroot⟩

/-- The transfer of the new connection begins. -/
theorem OneMore.piped (hm : OneMore s t) (hpipes : t.pipes.next = s.pipes.next)
    (hfiles : t.filePipes.next = s.filePipes.next) (hr : SwsHandleReq) (size : ℕ)
    (path contents : Bytes) : OneMore s (t.piped s.reqs.next hr size path contents) where
  reqs h hne := (piped_req_of_ne t hne).trans (hm.reqs h hne)
  tcp := hm.tcp
  pipes p hne := by
    refine ((Heap.get?_alloc _ _ p).trans (if_neg ?_)).trans (hm.pipes p hne)
    rw [hpipes]
    exact hne
  filePipes f hne := by
    refine ((Heap.get?_alloc _ _ f).trans (if_neg ?_)).trans (hm.filePipes f hne)
    rw [hfiles]
    exact hne
  streams f hne := by
    rw [piped_streams, hfiles, if_neg hne]
    exact hm.streams f hne
  root := hm.root

/-- And it goes on. -/
theorem OneMore.only (hm : OneMore s t) (honly : OnlyTransfer t u s.pipes.next b)
    (htcp : b.tcp = s.reqs.next) (hfile : b.filePipe = s.filePipes.next) : OneMore s u where
  reqs h hne := by
    rw [honly.reqs]
    exact hm.reqs h hne
  tcp h hne := (honly.tcp h (htcp ▸ hne)).trans (hm.tcp h hne)
  pipes p hne := (honly.pipes p hne).trans (hm.pipes p hne)
  filePipes f hne := (honly.filePipes f (hfile ▸ hne)).trans (hm.filePipes f hne)
  streams f hne := (honly.streams f (hfile ▸ hne)).trans (hm.streams f hne)
  root hknown := honly.globals.1.trans (hm.root hknown)

/-! ### A request -/

variable {st st' : ParserState} {calls : List (ParserCallback × ResolveEnv)}
  {method : HttpMethod} {url root contents : Bytes} {env : ResolveEnv}

/-- A callback that returns and does not end the message. -/
theorem parserCallback_returns (hget : s.reqs.get? h = some hr) {c : ParserCallback × ResolveEnv}
    (hc : c.1.completes = false) (hst : onCallback hr.parseReq c.1 = .ok st) :
    parserCallback h s c = .ok (s.setReq h { hr with parseReq := st }) := by
  obtain ⟨c, env⟩ := c
  refine bind_ok_iff.mpr ⟨hr, deref_ok_iff.mpr hget, bind_ok_iff.mpr ⟨st, hst, ?_⟩⟩
  cases c with
  | messageComplete method => cases hc
  | messageBegin => rfl
  | url hdr => rfl
  | headerField hdr => rfl
  | headerValue hdr => rfl
  | headersComplete => rfl

/-- What is parsed up to the end of the message is stored in the block of the connection. -/
theorem parserCallbacks_return (hget : s.reqs.get? h = some hr)
    (hcalls : ∀ c ∈ calls, c.1.completes = false)
    (hst : swsReqParserExecute hr.parseReq (calls.map Prod.fst) = .ok st) :
    calls.foldlM (parserCallback h) s = .ok (s.setReq h { hr with parseReq := st }) := by
  induction calls generalizing s hr with
  | nil =>
    cases hst
    show Except.ok s = Except.ok _
    have hsame : s.setReq h hr = s := by
      unfold setReq
      rw [Heap.set_self hget]
    rw [hsame]
  | cons c cs ih =>
    obtain ⟨st', hc, hcs⟩ := bind_ok_iff.mp hst
    obtain ⟨hfirst, hrest⟩ := List.forall_mem_cons.mp hcalls
    rw [List.foldlM_cons, parserCallback_returns hget hfirst hc]
    have hnext := ih (setReq_self hget { hr with parseReq := st' }) hrest hcs
    rw [setReq_setReq] at hnext
    exact hnext

/-- A message has ended on the connection `h`: what was parsed is stored, and the stat of its file
is under way. -/
def asking (s : Server) (h : ℕ) (hr : SwsHandleReq) (st : ParserState) (method : HttpMethod)
    (root path : Bytes) : Server :=
  { s.setReq h { hr with
      parseReq := ⟨{ st.req with method := method }, st.strings⟩
      resourceInfo := { hr.resourceInfo with result := 0, fullPath := path } } with
    root := root
    stats := s.stats ++ [⟨h, path⟩] }

/-- The end of a message whose resource can be looked up. -/
theorem messageComplete_returns (hget : s.reqs.get? h = some hr)
    (hself : hr.parseReq.req.data = some h) (hurl : hr.parseReq.req.url.text? = some url)
    (hfits : (resultText { hr.parseReq.req with method := method } url).length < resultRoom)
    (hstarts : Starts s.root env root url) :
    parserCallback h s (.messageComplete method, env) =
      .ok (s.asking h hr hr.parseReq method root (resolveUrl root url)) := by
  let parsed : SwsHandleReq := { hr with
    parseReq := ⟨{ hr.parseReq.req with method := method }, hr.parseReq.strings⟩ }
  have hlive : (s.setReq h parsed).reqs.get? h = some parsed := setReq_self hget parsed
  have htext : swsReqParserResultStr parsed.parseReq.req = .ok _ :=
    bind_ok_iff.mpr ⟨url, deref_ok_iff.mpr hurl, if_pos hfits⟩
  have hresolve : resolveResource (s.setReq h parsed) h env url = .ok _ :=
    bind_ok_iff.mpr ⟨parsed, deref_ok_iff.mpr hlive, bind_ok_iff.mpr
      ⟨_, swsResolveResourceStart_ok_iff.mpr ⟨hstarts, rfl⟩, rfl⟩⟩
  have hcomplete : onParseComplete (s.setReq h parsed) h env = .ok _ :=
    bind_ok_iff.mpr ⟨parsed, deref_ok_iff.mpr hlive, bind_ok_iff.mpr ⟨h, deref_ok_iff.mpr hself,
      bind_ok_iff.mpr ⟨_, htext, bind_ok_iff.mpr ⟨parsed, deref_ok_iff.mpr hlive,
        bind_ok_iff.mpr ⟨url, deref_ok_iff.mpr hurl, hresolve⟩⟩⟩⟩⟩
  rw [setReq_setReq] at hcomplete
  exact bind_ok_iff.mpr ⟨hr, deref_ok_iff.mpr hget, bind_ok_iff.mpr ⟨_, rfl, hcomplete⟩⟩

/-- A whole request. -/
theorem request_returns (hget : s.reqs.get? h = some hr) (hself : hr.parseReq.req.data = some h)
    (hcalls : ∀ c ∈ calls, c.1.completes = false)
    (hst : swsReqParserExecute hr.parseReq (calls.map Prod.fst) = .ok st)
    (hurl : st.req.url.text? = some url)
    (hfits : (resultText { st.req with method := method } url).length < resultRoom)
    (hstarts : Starts s.root env root url) :
    (calls ++ [(ParserCallback.messageComplete method, env)]).foldlM (parserCallback h) s =
      .ok (s.asking h hr st method root (resolveUrl root url)) := by
  have hdata : st.req.data = some h := by
    refine foldlM_ok_invariant (P := fun st => st.req.data = some h) hst hself ?_
    intro st c st' _ hdata hc
    exact (onCallback_data hc).trans hdata
  have hend := messageComplete_returns (setReq_self hget { hr with parseReq := st }) hdata hurl
    hfits hstarts
  rw [asking, setReq_setReq] at hend
  rw [List.foldlM_append]
  exact bind_ok_iff.mpr ⟨_, parserCallbacks_return hget hcalls hst,
    bind_ok_iff.mpr ⟨_, hend, rfl⟩⟩

/-- A request that the parser takes in the state `st`: no callback but the last one ends the
message, they return, and what has been stored by then has this URL and fits into the debug text. -/
structure TakesRequest (st : ParserState) (calls : List (ParserCallback × ResolveEnv))
    (method : HttpMethod) (url : Bytes) : Prop where
  goesOn : ∀ c ∈ calls, c.1.completes = false
  parsed : ∃ st', swsReqParserExecute st (calls.map Prod.fst) = .ok st' ∧
    st'.req.url.text? = some url ∧
    (resultText { st'.req with method := method } url).length < resultRoom

/-- A new connection has asked for the file at `path`, whose stat is under way. -/
structure Asked (s t : Server) (path : Bytes) : Prop extends OneMore s t where
  pipesNext : t.pipes.next = s.pipes.next
  filesNext : t.filePipes.next = s.filePipes.next
  stats : t.stats = s.stats ++ [⟨s.reqs.next, path⟩]
  opened : (t.tcp s.reqs.next).closeCalls = 0
  req : ∃ hr, t.reqs.get? s.reqs.next = some hr ∧ hr.data = none ∧ hr.resourceInfo.fullPath = path

/-- A client connects, and its request is read in one piece. -/
theorem asked_of_request (hs : OpenLive s)
    (htakes : TakesRequest (swsHandleReqInit s.reqs.next s.id junk info).parseReq calls method url)
    (hstarts : Starts s.root env root url) {nread : ℕ} (hpos : 0 < nread) :
    ∃ t, server.Run s [.connect 0 0 junk info, .reqRead s.reqs.next
        (.data nread (calls ++ [(.messageComplete method, env)]) nread)] t ∧
      Asked s t (resolveUrl root url) := by
  obtain ⟨hgoesOn, st, hparsed, hurl, hfits⟩ := htakes
  let hr := swsHandleReqInit s.reqs.next s.id junk info
  let t := (s.newReq junk info).setTcp s.reqs.next { s.tcp s.reqs.next with reading := true }
  have hget : t.reqs.get? s.reqs.next = some hr := Heap.get?_alloc_next _ _
  have htcp : t.tcp s.reqs.next = { s.tcp s.reqs.next with reading := true } :=
    Function.update_self _ _ _
  have hopen := hs.fresh s.reqs.next le_rfl
  have hconnect : server.Run s ([] ++ [.connect 0 0 junk info]) t := .snoc .nil trivial rfl
  have hcalls := request_returns hget rfl hgoesOn hparsed hurl hfits hstarts
  have hread : server.dispatch t (.reqRead s.reqs.next
      (.data nread (calls ++ [(.messageComplete method, env)]) nread)) =
      .ok (t.asking s.reqs.next hr st method root (resolveUrl root url)) :=
    bind_ok_iff.mpr ⟨hr, deref_ok_iff.mpr hget, bind_ok_iff.mpr ⟨_, hcalls,
      if_neg (Nat.lt_irrefl nread)⟩⟩
  refine ⟨_, hconnect.snoc ⟨?_, ?_, hpos⟩ hread, ?_⟩
  · rw [htcp]
  · rw [htcp]
    exact hopen
  · have hmore : OneMore s t := (OneMore.newReq s junk info).setTcp _
    refine ⟨(hmore.setReq _).setStats (fun hknown => ?_) _, rfl, rfl, rfl, ?_, _,
      setReq_self hget _, rfl, rfl⟩
    · have hroot := hstarts.root
      rw [resolveRoot, if_neg hknown] at hroot
      exact (Except.ok.inj hroot).symm
    · show (t.tcp s.reqs.next).closeCalls = 0
      rw [htcp]
      exact hopen

/-- A transfer is set up for a connection that has none. -/
theorem swsPipeFile_returns (hget : s.reqs.get? h = some hr) (hnull : hr.data = none)
    (path : Bytes) (size : ℕ) (contents : Bytes) :
    swsPipeFile s h path size ⟨0, 0, 0⟩ contents = .ok (s.piped h hr size path contents, 0) := by
  have hcall : StaticWebServer.swsPipeFile hr.data h s.filePipes.next size ⟨0, 0, 0⟩ =
      .ok (some (.fresh size s.filePipes.next h), 0) := by
    rw [hnull]
    rfl
  exact bind_ok_iff.mpr ⟨hr, deref_ok_iff.mpr hget, bind_ok_iff.mpr ⟨_, hcall, rfl⟩⟩

/-- The transfer of a new connection has begun. -/
structure Began (s t : Server) (path contents : Bytes) (size : ℕ) : Prop extends OneMore s t where
  stats : t.stats = s.stats
  block : t.pipes.get? s.pipes.next = some (.fresh size s.filePipes.next s.reqs.next)
  stream : t.streams s.filePipes.next = ⟨s.reqs.next, path, contents, 0, true⟩
  opened : (t.tcp s.reqs.next).closeCalls = 0

/-- The file is found. -/
theorem Asked.found {path : Bytes} (ha : Asked s t path) (hl : Linked t) (env : ResolveEnv)
    (size : ℕ) (contents : Bytes) :
    ∃ u, server.Run t [.stat s.stats.length (.ok size) env ⟨0, 0, 0⟩ contents] u ∧
      Began s u path contents size := by
  obtain ⟨hr, hget, hnull, rfl⟩ := ha.req
  have hreq : t.stats[s.stats.length]? = some ⟨s.reqs.next, hr.resourceInfo.fullPath⟩ := by
    rw [ha.stats, List.getElem?_concat_length]
  have hlast : s.stats.length < t.stats.length := (List.getElem?_eq_some_iff.mp hreq).1
  let told := t.tell s.stats.length s.reqs.next hr (.ok size)
  have htold : told.reqs.get? s.reqs.next =
      some { hr with resourceInfo := StaticWebServer.fsStatCb hr.resourceInfo (.ok size) } :=
    (tell_get? hget _ _ _).trans (if_pos rfl)
  have hfound : server.dispatch t (.stat s.stats.length (.ok size) env ⟨0, 0, 0⟩ contents) =
      .ok (told.piped s.reqs.next _ size hr.resourceInfo.fullPath contents) :=
    (hl.fsStatCb_found hreq hget size).trans
      (bind_ok_iff.mpr ⟨_, swsPipeFile_returns htold hnull _ size contents, rfl⟩)
  have hmore : OneMore s told := (ha.toOneMore.setStats ha.root (t.stats.eraseIdx _)).setReq _
  refine ⟨_, .snoc .nil hlast hfound, hmore.piped ha.pipesNext ha.filesNext _ _ _ _, ?_, ?_, ?_,
    ha.opened⟩
  · show t.stats.eraseIdx s.stats.length = s.stats
    rw [ha.stats, List.eraseIdx_append_of_length_le le_rfl, Nat.sub_self]
    exact List.append_nil _
  · rw [← ha.pipesNext, ← ha.filesNext]
    exact piped_block_next told
  · rw [← ha.filesNext]
    exact piped_stream_next told

/-- A file stream stays what it is in a run. -/
theorem keepsStream_of_run {es : List ServerEvent} {f : ℕ} (hl : Linked s)
    (hf : f < s.filePipes.next) (hrun : server.Run s es u) : KeepsStream s u f :=
  (hrun.invariant (P := fun t => KeepsStream s t f ∧ Linked t) ⟨⟨hf, rfl, rfl, rfl⟩, hl⟩
    fun _ _ _ ht _ hok => by
      have hstep := ht.2.keepsStream hok ht.1.lt
      exact ⟨⟨hstep.lt, hstep.tcp.trans ht.1.tcp, hstep.path.trans ht.1.path,
        hstep.contents.trans ht.1.contents⟩, ht.2.step hok⟩).1

end Server

open Server

/-- **A new client is served.**  In every state that a run of the server reaches, however many
connections there are and whatever became of them, a client that connects, sends a request that the
parser takes, and whose file is found and is not empty, is sent all of the file its URL stands for,
by the events of its own connection alone; and nothing that was there has changed. -/
theorem newClient_served {es : List ServerEvent} {s : Server} (hrun : server.Run init es s)
    {junk : Garbage} {info : SwsResourceInfo} {calls : List (ParserCallback × ResolveEnv)}
    {method : HttpMethod} {url root contents : Bytes} {env : ResolveEnv} {nread : ℕ}
    (htakes : TakesRequest (swsHandleReqInit s.reqs.next s.id junk info).parseReq calls method url)
    (hstarts : Starts s.root env root url) (hpos : 0 < nread) (hne : contents ≠ [])
    (answer : ResolveEnv) :
    ∃ fs u, server.Run s ([.connect 0 0 junk info,
        .reqRead s.reqs.next (.data nread (calls ++ [(.messageComplete method, env)]) nread),
        .stat s.stats.length (.ok contents.length) answer ⟨0, 0, 0⟩ contents] ++ fs) u ∧
      (∀ e ∈ fs, OwnEvent (.fresh contents.length s.filePipes.next s.reqs.next) e) ∧
      Completed contents u s.pipes.next s.reqs.next ∧
      (u.streams s.filePipes.next).path = resolveUrl root url ∧
      OneMore s u ∧ u.stats = s.stats := by
  have hs := running_of_run hrun
  obtain ⟨t, hasks, hasked⟩ := asked_of_request hs.opens htakes hstarts hpos
  have ht := running_of_run (hrun.append hasks)
  obtain ⟨v, hanswers, hbegan⟩ := hasked.found ht.linked answer contents.length contents
  have hv := running_of_run ((hrun.append hasks).append hanswers)
  let b : FileTcpPipe := .fresh contents.length s.filePipes.next s.reqs.next
  have hcontents : (v.streams b.filePipe).contents = contents := by
    show (v.streams s.filePipes.next).contents = contents
    rw [hbegan.stream]
  obtain ⟨fs, u, hcompletes, hown, honly, hdone⟩ := response_completes
    ((hrun.append hasks).append hanswers) (b := b) hbegan.block hbegan.opened
    (congrArg List.length hcontents).symm (by rwa [hcontents])
  rw [hcontents] at hdone
  have hfile : s.filePipes.next < v.filePipes.next :=
    Heap.lt_next (hv.transfers.block _ b hbegan.block).1
  have hkept := keepsStream_of_run hv.linked hfile hcompletes
  refine ⟨fs, u, (hasks.append hanswers).append hcompletes, hown, hdone, ?_,
    hbegan.toOneMore.only honly rfl rfl, honly.stats.trans hbegan.stats⟩
  rw [hkept.path, hbegan.stream]

/-- A client that comes while another one has been sent half of its file. -/
theorem newClient_served_second : ∃ es s, server.Run init es s ∧ (s.pipes.get? 0).isSome = true ∧
    ∃ fs u, server.Run s fs u ∧ Completed [67, 68] u s.pipes.next s.reqs.next ∧
      (u.streams s.filePipes.next).path = ascii "/srv/static/b" ∧ OneMore s u := by
  obtain ⟨s, hrun, hends⟩ := EventLoop.exists_run_of_plays
    (show (server.plays init
        [clientConnects, .reqRead 0 (.data 36 (getRequest "/a") 36), fileFound [65, 66],
          .fileRead 0 (.chunk [65])]).any
      (fun s => (s.pipes.get? 0).isSome && decide (s.reqs.next = 1 ∧ s.id = 1 ∧
        s.root = ascii "/srv/static")) = true by decide +kernel)
  simp only [Bool.and_eq_true, decide_eq_true_eq] at hends
  obtain ⟨hlive, hnext, hid, hroot⟩ := hends
  let info : SwsResourceInfo := ⟨[], 0, 0, none⟩
  let env : ResolveEnv := ⟨.ok (ascii "/srv"), 0⟩
  have htakes : TakesRequest (swsHandleReqInit s.reqs.next s.id zeroed info).parseReq
      [(.messageBegin, env), (.url (ascii "/b"), env), (.headersComplete, env)] HTTP_GET
      (ascii "/b") := by
    rw [hnext, hid]
    exact ⟨by decide +kernel, _, rfl, rfl, by decide +kernel⟩
  have hstarts : Starts s.root env (ascii "/srv/static") (ascii "/b") := by
    rw [hroot]
    exact ⟨by decide +kernel, by decide +kernel, rfl⟩
  obtain ⟨fs, u, hserved, -, hdone, hpath, hmore, -⟩ := newClient_served hrun htakes hstarts
    (show 0 < 20 by decide) (show [67, 68] ≠ [] by decide) env
  refine ⟨_, s, hrun, hlive, _, u, hserved, hdone, ?_, hmore⟩
  rw [hpath]
  decide +kernel

end LibuvDox.StaticWebServer
