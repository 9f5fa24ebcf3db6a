import LibuvDox.StaticWebServer.ConnectionFrame
import LibuvDox.StaticWebServer.ConnectionLifecycle

/-!
# Callbacks that come too late

The condition under which a connection is closed once and freed last is exact.  As long as it is
met no transfer ends, so behind every `tcp->data` there is a file stream that is active; the first
event that breaks it closes the connection with `on_res_end` while such a stream or a stat is
still under way.

* `Streaming`: the invariant.  Every transfer has its block and an active file stream, and
  `tcp->data` leads to it.
* `late_of_not_orderly`: after the first event that is not orderly a close callback is due, and
  when it has freed the connection an event that is enabled comes to it.
-/

namespace LibuvDox.StaticWebServer

namespace Server

variable {s u : Server} {h : ℕ} {hr : SwsHandleReq}

/-! ### Transfers that do not change -/

/-- The transfers and their streams are the same, and no other connection leads to them. -/
structure SameTransfers (s u : Server) : Prop where
  pipes : u.pipes = s.pipes
  filePipes : u.filePipes = s.filePipes
  streams : u.streams = s.streams
  data : ∀ h hr p, u.reqs.get? h = some hr → hr.data = some p →
    ∃ hr', s.reqs.get? h = some hr' ∧ hr'.data = some p

theorem SameTransfers.of_reqs (hpipes : u.pipes = s.pipes) (hfile : u.filePipes = s.filePipes)
    (hstreams : u.streams = s.streams) (hreqs : u.reqs = s.reqs) : SameTransfers s u := by
  refine ⟨hpipes, hfile, hstreams, ?_⟩
  intro h hr p hget hdata
  rw [hreqs] at hget
  exact ⟨hr, hget, hdata⟩

/-- A connection that is new leads to no transfer. -/
theorem Frame.sameTransfers (hf : Frame s u) : SameTransfers s u where
  pipes := hf.pipes
  filePipes := hf.filePipes
  streams := hf.streams
  data := by
    intro h hr p hget hdata
    by_cases hlt : h < s.reqs.next
    · obtain ⟨hr', hget', hdata'⟩ := hf.old h hr hget hlt
      exact ⟨hr', hget', hdata'.trans hdata⟩
    · rw [hf.fresh h hr hget (Nat.le_of_not_lt hlt)] at hdata
      cases hdata

theorem uvWrite_sameTransfers (s : Server) (h : ℕ) (w : WriteReq) :
    SameTransfers s (uvWrite s h w) := by
  unfold uvWrite
  split
  · exact .of_reqs rfl rfl rfl rfl
  · exact .of_reqs rfl rfl rfl rfl

/-! ### Transfers that go on -/

/-- **The invariant.** -/
structure Streaming (s : Server) : Prop where
  block : ∀ p block, s.pipes.get? p = some block →
    s.filePipes.get? block.filePipe = some (some p) ∧
      (s.streams block.filePipe).active = true ∧ (s.streams block.filePipe).tcp = block.tcp
  file : ∀ f p, s.filePipes.get? f = some (some p) →
    ∃ block, s.pipes.get? p = some block ∧ block.filePipe = f
  data : ∀ h hr p, s.reqs.get? h = some hr → hr.data = some p →
    ∃ block, s.pipes.get? p = some block ∧ block.tcp = h

theorem init_streaming : Streaming init where
  block := by simp [init]
  file := by simp [init]
  data := by simp [init]

theorem Streaming.of_same (hs : Streaming s) (hsame : SameTransfers s u) : Streaming u := by
  obtain ⟨h1, h2, h3⟩ := hs
  rw [← hsame.pipes, ← hsame.filePipes, ← hsame.streams] at h1
  rw [← hsame.pipes, ← hsame.filePipes] at h2
  rw [← hsame.pipes] at h3
  refine ⟨h1, h2, ?_⟩
  intro h hr p hget hdata
  obtain ⟨hr', hget', hdata'⟩ := hsame.data h hr p hget hdata
  exact h3 h hr' p hget' hdata'

/-- The counters of a transfer change. -/
theorem Streaming.setBlock (hs : Streaming s) {p : ℕ} {block : FileTcpPipe}
    (hblock : s.pipes.get? p = some block) (block' : FileTcpPipe) (htcp : block'.tcp = block.tcp)
    (hfile : block'.filePipe = block.filePipe) :
    Streaming { s with pipes := s.pipes.set p block' } := by
  refine ⟨?_, ?_, ?_⟩
  · refine Heap.forall_set hs.block hblock ?_
    rw [hfile, htcp]
    exact hs.block p block hblock
  · intro f q hq
    obtain ⟨b, hb, hbfile⟩ := hs.file f q hq
    by_cases heq : q = p
    · rw [heq, hblock] at hb
      cases hb
      exact ⟨block', heq ▸ Heap.get?_set_self hblock block', hfile.trans hbfile⟩
    · exact ⟨b, (Heap.get?_set_of_ne _ block' heq).trans hb, hbfile⟩
  · intro h hr q hget hdata
    obtain ⟨b, hb, hbtcp⟩ := hs.data h hr q hget hdata
    by_cases heq : q = p
    · rw [heq, hblock] at hb
      cases hb
      exact ⟨block', heq ▸ Heap.get?_set_self hblock block', htcp.trans hbtcp⟩
    · exact ⟨b, (Heap.get?_set_of_ne _ block' heq).trans hb, hbtcp⟩

/-- A file stream reads on. -/
theorem Streaming.readOn (hs : Streaming s) (f : ℕ) {r : ReadResult} (hr : 0 ≤ r.nread) :
    Streaming (s.readOn f r) where
  block := by
    intro p block hblock
    obtain ⟨hfile, hactive, htcp⟩ := hs.block p block hblock
    refine ⟨hfile, ?_⟩
    simp only [Server.readOn, Function.update_apply]
    split
    · rename_i heq
      exact ⟨decide_eq_true hr, heq ▸ htcp⟩
    · exact ⟨hactive, htcp⟩
  file := hs.file
  data := hs.data

/-- A transfer is set up. -/
theorem Streaming.pipeFile (hs : Streaming s) {path contents : Bytes} {size : ℕ}
    {env : PipeFileEnv} (hok : swsPipeFile s h path size env contents = .ok (u, 0)) :
    Streaming u := by
  obtain ⟨hr, hget, -, rfl⟩ := swsPipeFile_ok hok
  refine ⟨?_, ?_, ?_⟩
  · intro p block hblock
    rcases piped_block_cases hblock with ⟨rfl, rfl⟩ | hblock
    · refine ⟨piped_file_next s, ?_⟩
      show ((s.piped h hr size path contents).streams s.filePipes.next).active = true ∧
        ((s.piped h hr size path contents).streams s.filePipes.next).tcp = h
      rw [piped_stream_next]
      exact ⟨rfl, rfl⟩
    · obtain ⟨hfile, hstream⟩ := hs.block p block hblock
      rw [piped_stream_of_lt (Heap.lt_next hfile)]
      exact ⟨piped_file hfile, hstream⟩
  · intro f p hf
    rcases piped_file_cases hf with ⟨rfl, hp⟩ | hf
    · cases hp
      exact ⟨_, piped_block_next s, rfl⟩
    · obtain ⟨block, hblock, hfile⟩ := hs.file f p hf
      exact ⟨block, piped_block hblock, hfile⟩
  · intro h' hr' p hget' hdata
    rcases piped_req_cases hget hget' with ⟨rfl, rfl⟩ | ⟨-, hget'⟩
    · cases hdata
      exact ⟨_, piped_block_next s, rfl⟩
    · obtain ⟨block, hblock, htcp⟩ := hs.data h' hr' p hget' hdata
      exact ⟨block, piped_block hblock, htcp⟩

/-- **One event** of an orderly run: no transfer ends. -/
theorem Streaming.step (hs : Streaming s) (hl : Linked s) {e : ServerEvent}
    (horderly : Orderly s e) (hok : server.dispatch s e = .ok u) : Streaming u := by
  cases e with
  | connect status accept junk info => exact hs.of_same (Frame.connect hok).sameTransfers
  | reqRead h r => exact hs.of_same (Frame.reqRead hok).sameTransfers
  | stat i result env pipe contents =>
    obtain ⟨req, hr, -, hget, hcases⟩ := hl.fsStatCb_ok hok
    have htold := Frame.tell (i := i) hget result
    rcases hcases with ⟨e, -, hagain⟩ | ⟨size, -, hpipe⟩
    · exact hs.of_same (htold.trans (.resolve hagain)).sameTransfers
    · exact (hs.of_same htold.sameTransfers).pipeFile hpipe
  | fileRead f r =>
    obtain ⟨p, block, -, hblock, ⟨hpos, hwrite⟩ | ⟨hle, hend⟩⟩ := onFileRead_ok hok
    · have hset := (hs.readOn f hpos.le).setBlock (p := p) hblock
        { block with nread := block.nread + r.data.length } rfl rfl
      obtain ⟨hr, -, rfl⟩ := writeData_ok hwrite
      exact hset.of_same (uvWrite_sameTransfers _ _ _)
    · exact absurd (fileTcpPipeEnd_ok hend).1 horderly
  | written h status =>
    obtain ⟨-, w, ws, p, block, v, hw, hdata, hblock, rfl, ⟨hcaught, hsize, -⟩ | ⟨-, rfl⟩⟩ :=
      onWriteRes_ok hok
    · exact absurd ⟨w, ws, p, block, hw, hdata, hblock, hcaught, hsize⟩ horderly
    · have htcp : Streaming (s.setTcp h { s.tcp h with writes := ws }) :=
        hs.of_same (.of_reqs rfl rfl rfl rfl)
      exact htcp.setBlock (p := p) hblock
        { block with nwritten := block.nwritten + w.buf.length } rfl rfl
  | closed h => exact hs.of_same (Frame.closed hok).sameTransfers

/-! ### The end of an orderly run -/

/-- The connection is about to be freed, and a stat or an active file stream is left for it. -/
structure Doomed (s : Server) (h : ℕ) : Prop where
  due : (s.tcp h).closeCb = some .onResEnd
  left : (∃ req ∈ s.stats, req.data = h) ∨ ∃ f, (s.streams f).active = true ∧ (s.streams f).tcp = h

/-- When the close callback has returned, what was left comes to a freed connection. -/
theorem Doomed.closed (hs : Doomed s h) :
    server.enabled s (.closed h) ∧
      ∀ v, server.dispatch s (.closed h) = .ok v → ¬ LifecycleOk v := by
  have hdue := hs.due
  refine ⟨?_, ?_⟩
  · show (s.tcp h).closeCb ≠ none
    rw [hdue]
    exact Option.some_ne_none _
  · intro v hok hlife
    obtain ⟨w, rfl, ⟨-, -, rfl⟩ | ⟨hnot, -⟩⟩ := onClosed_ok hok
    · have hfree : (s.reqs.free h).get? h = none := Heap.get?_free_self _ _
      rcases hs.left with ⟨req, hmem, hdata⟩ | ⟨f, hactive, htcp⟩
      · obtain ⟨i, hreq⟩ := List.mem_iff_getElem?.mp hmem
        refine hlife.late h hfree (.stat i (.ok 0) ⟨.ok [], 0⟩ ⟨0, 0, 0⟩ []) ?_ ?_
        · exact (List.getElem?_eq_some_iff.mp hreq).1
        · show s.stats[i]?.map StatReq.data = some h
          rw [hreq]
          exact congrArg some hdata
      · refine hlife.late h hfree (.fileRead f (.fail ⟨UV_ECANCELED, by decide, by decide⟩)) ?_ htcp
        exact ⟨hactive, List.nil_prefix, fun heof => absurd heof (by decide)⟩
    · exact hnot hdue

/-- A transfer that is ended without an error leaves its stream behind. -/
theorem Streaming.doomed_of_end (hs : Streaming s) {p : ℕ} {block block' : FileTcpPipe}
    (hblock : s.pipes.get? p = some block) (htcp : block'.tcp = block.tcp)
    (hend : fileTcpPipeEnd s p block' 0 = .ok u) : Doomed u block.tcp := by
  obtain ⟨-, v, hclose, rfl⟩ := fileTcpPipeEnd_ok hend
  obtain ⟨-, rfl⟩ := uvClose_ok hclose
  obtain ⟨-, hactive, hstream⟩ := hs.block p block hblock
  refine ⟨?_, .inr ⟨block.filePipe, hactive, hstream⟩⟩
  show ((s.setTcp block'.tcp _).tcp block.tcp).closeCb = _
  rw [setTcp_tcp, if_pos htcp.symm]

/-- After a parse error on a connection that was not idle, or in a buffer that ends a message, a
stat or a file stream is left. -/
theorem Streaming.doomed_of_parseError (hs : Streaming s) (hl : Linked s) {nread parsed : ℕ}
    {calls : List (ParserCallback × ResolveEnv)} (hparsed : parsed < nread)
    (hbusy : ¬ (Idle s h ∧ ∀ c ∈ calls, c.1.completes = false))
    (hok : onReqRead s h (.data nread calls parsed) = .ok u) : Doomed u h := by
  obtain ⟨hr, v, hget, hcalls, ⟨-, hclose⟩ | ⟨hall, -⟩⟩ := onReqRead_data_ok hok
  · have hv : Streaming v := hs.of_same (Frame.parserCallbacks hcalls).sameTransfers
    obtain ⟨-, hcount, hr', hget', hdata⟩ := statsFor_parserCallbacks hl hget hcalls
    obtain ⟨-, rfl⟩ := uvClose_ok hclose
    refine ⟨?_, ?_⟩
    · rw [setTcp_tcp, if_pos rfl]
    · by_cases hstats : 0 < statsFor h v.stats
      · exact .inl (statsFor_pos_iff.mp hstats)
      · -- no message has ended and no stat was under way: a transfer was
        obtain ⟨p, hp⟩ : ∃ p, hr.data = some p := by
          by_contra hnull
          refine hbusy ⟨⟨?_, ?_⟩, ?_⟩
          · intro req hmem heq
            have := statsFor_pos_iff.mpr ⟨req, hmem, heq⟩
            omega
          · intro hr'' hget''
            obtain rfl : hr = hr'' := Option.some.inj (hget.symm.trans hget'')
            exact Option.eq_none_iff_forall_ne_some.mpr fun p hp => hnull ⟨p, hp⟩
          · have hnone : messages calls = 0 := by omega
            intro c hc
            have := List.countP_eq_zero.mp hnone c hc
            simpa using this
        obtain ⟨block, hblock, htcp⟩ := hv.data h hr' p hget' (hdata.trans hp)
        obtain ⟨-, hactive, hstream⟩ := hv.block p block hblock
        exact .inr ⟨block.filePipe, hactive, hstream.trans htcp⟩
  · exact absurd hparsed hall

/-- An event that is not orderly dooms a connection. -/
theorem Streaming.doomed (hs : Streaming s) (hl : Linked s) {e : ServerEvent}
    (hnot : ¬ Orderly s e) (hok : server.dispatch s e = .ok u) : ∃ h, Doomed u h := by
  cases e with
  | reqRead h r =>
    cases r with
    | eof => exact absurd trivial hnot
    | other nread => exact absurd trivial hnot
    | data nread calls parsed =>
      obtain ⟨hparsed, hbusy⟩ := Classical.not_imp.mp hnot
      exact ⟨h, hs.doomed_of_parseError hl hparsed hbusy hok⟩
  | fileRead f r =>
    obtain ⟨p, block, -, hblock, ⟨hpos, -⟩ | ⟨-, hend⟩⟩ := onFileRead_ok hok
    · exact absurd (show r.nread ≠ 0 by omega) hnot
    · obtain ⟨hzero, -⟩ := fileTcpPipeEnd_ok hend
      have hset := (hs.readOn f hzero.ge).setBlock (p := p) hblock block rfl rfl
      rw [hzero] at hend
      have hlive := Heap.get?_set_self hblock block
      exact ⟨_, hset.doomed_of_end hlive rfl hend⟩
  | written h status =>
    obtain ⟨w', ws', p', block', hw', hdata', hblock', hcaught, -⟩ := not_not.mp hnot
    obtain ⟨-, w, ws, p, block, v, hw, hdata, hblock, rfl, ⟨-, -, hend⟩ | ⟨hbehind, -⟩⟩ :=
      onWriteRes_ok hok
    · have htcp : Streaming (s.setTcp h { s.tcp h with writes := ws }) :=
        hs.of_same (.of_reqs rfl rfl rfl rfl)
      have hset := htcp.setBlock (p := p) hblock
        { block with nwritten := block.nwritten + w.buf.length } rfl rfl
      have hlive := Heap.get?_set_self hblock
        { block with nwritten := block.nwritten + w.buf.length }
      exact ⟨_, hset.doomed_of_end hlive rfl hend⟩
    · obtain ⟨rfl, rfl⟩ := List.cons.inj (hw.symm.trans hw')
      obtain rfl := Option.some.inj (hdata.symm.trans hdata')
      obtain rfl := Option.some.inj (hblock.symm.trans hblock')
      exact absurd hcaught hbehind
  | connect status accept junk info => exact absurd trivial hnot
  | stat i result env pipe contents => exact absurd trivial hnot
  | closed h => exact absurd trivial hnot

end Server

open Server

/-- **Too late.**  After the first event that is not orderly a connection is about to be freed, and
once it is, an event that is enabled comes to it. -/
theorem late_of_not_orderly {es : List ServerEvent} {s u : Server} {e : ServerEvent}
    (hrun : (server.restrict Orderly).Run init es s) (hnot : ¬ Orderly s e)
    (hok : server.dispatch s e = .ok u) :
    ∃ h, server.enabled u (.closed h) ∧
      ∀ v, server.dispatch u (.closed h) = .ok v → ¬ LifecycleOk v := by
  have hs := hrun.invariant (P := fun s => Streaming s ∧ Linked s) ⟨init_streaming, init_linked⟩
    fun _ _ _ hs he hok => ⟨hs.1.step hs.2 he.2 hok, hs.2.step hok⟩
  obtain ⟨h, hdoomed⟩ := hs.1.doomed hs.2 hnot hok
  exact ⟨h, hdoomed.closed⟩

end LibuvDox.StaticWebServer
