import LibuvDox.StaticWebServer.CrossTalk

/-!
# Whole responses

A response is ended by the write that has caught up with the file: `on_write_res` asserts that as
much was read as the stat had promised, and closes the connection.  Whatever the other connections
do meanwhile, the client has been sent then what the stat has promised of the file that its own URL
stands for, and nothing else, neither before nor later.

* `Sized`: the invariant.  The size of a transfer is what the stat of its own file has returned.
* `wholeResponse`: what was queued on a connection whose response was ended by a write.
-/

namespace LibuvDox.StaticWebServer

namespace Server

variable {s t u : Server} {h p f : ℕ}

/-- In the run a stat of `path` for the connection `h` has found a file of this size, and
`contents` is what could be read when the file was opened. -/
def StatFound (es : List ServerEvent) (h : ℕ) (path contents : Bytes) (size : ℕ) : Prop :=
  ∃ es₁ es₂ s i env pipe, es = es₁ ++ .stat i (.ok size) env pipe contents :: es₂ ∧
    server.Run init es₁ s ∧ s.stats[i]? = some ⟨h, path⟩

theorem StatFound.concat {es : List ServerEvent} {path contents : Bytes} {size : ℕ}
    (hfound : StatFound es h path contents size) (e : ServerEvent) :
    StatFound (es ++ [e]) h path contents size := by
  obtain ⟨es₁, es₂, s, i, env, pipe, rfl, hrun, hstat⟩ := hfound
  exact ⟨es₁, es₂ ++ [e], s, i, env, pipe, by simp, hrun, hstat⟩

/-- **The invariant.**  A transfer sends the file that was found for its connection. -/
def Sized (es : List ServerEvent) (s : Server) : Prop :=
  ∀ p b, s.pipes.get? p = some b →
    StatFound es b.tcp (s.streams b.filePipe).path (s.streams b.filePipe).contents b.size

/-! ### Steps that leave the files alone -/

/-- Transfers end or move on, and no file stream changes its file. -/
structure SameFiles (s u : Server) : Prop where
  block : ∀ p b, u.pipes.get? p = some b → ∃ b', s.pipes.get? p = some b' ∧
    b'.size = b.size ∧ b'.tcp = b.tcp ∧ b'.filePipe = b.filePipe
  stream : ∀ f, (u.streams f).path = (s.streams f).path ∧
    (u.streams f).contents = (s.streams f).contents

theorem SameFiles.of_same (hpipes : u.pipes = s.pipes) (hstreams : u.streams = s.streams) :
    SameFiles s u where
  block p b hb := ⟨b, hpipes ▸ hb, rfl, rfl, rfl⟩
  stream f := by simp [hstreams]

theorem SameFiles.trans (h1 : SameFiles s t) (h2 : SameFiles t u) : SameFiles s u where
  block p b hb := by
    obtain ⟨b', hb', hsize, htcp, hfile⟩ := h2.block p b hb
    obtain ⟨b'', hb'', hsize', htcp', hfile'⟩ := h1.block p b' hb'
    exact ⟨b'', hb'', hsize'.trans hsize, htcp'.trans htcp, hfile'.trans hfile⟩
  stream f := ⟨(h2.stream f).1.trans (h1.stream f).1, (h2.stream f).2.trans (h1.stream f).2⟩

/-- The counters of a block change. -/
theorem SameFiles.setBlock {b b' : FileTcpPipe} (hb : s.pipes.get? p = some b)
    (hsize : b'.size = b.size) (htcp : b'.tcp = b.tcp) (hfile : b'.filePipe = b.filePipe) :
    SameFiles s { s with pipes := s.pipes.set p b' } where
  block q c hc := by
    rcases Heap.set_cases hb hc with ⟨rfl, rfl⟩ | ⟨-, hc⟩
    · exact ⟨b, hb, hsize.symm, htcp.symm, hfile.symm⟩
    · exact ⟨c, hc, rfl, rfl, rfl⟩
  stream _ := ⟨rfl, rfl⟩

theorem SameFiles.readOn (s : Server) (f : ℕ) (r : ReadResult) : SameFiles s (s.readOn f r) where
  block q c hc := ⟨c, hc, rfl, rfl, rfl⟩
  stream f' := by
    simp only [Server.readOn, Function.update_apply]
    split
    · rename_i heq
      simp [heq]
    · exact ⟨rfl, rfl⟩

theorem SameFiles.finish {b : FileTcpPipe} {status : ℤ}
    (hok : fileTcpPipeEnd s p b status = .ok u) : SameFiles s u := by
  obtain ⟨-, v, hclose, rfl⟩ := fileTcpPipeEnd_ok hok
  obtain ⟨-, rfl⟩ := uvClose_ok hclose
  exact ⟨fun q c hc => ⟨c, (Heap.free_cases hc).2, rfl, rfl, rfl⟩, fun _ => ⟨rfl, rfl⟩⟩

theorem SameFiles.uvWrite (s : Server) (h : ℕ) (w : WriteReq) : SameFiles s (uvWrite s h w) := by
  unfold Server.uvWrite
  split
  · exact .of_same rfl rfl
  · exact .of_same rfl rfl

theorem SameFiles.fileRead {r : ReadResult} (hok : onFileRead s f r = .ok u) : SameFiles s u := by
  obtain ⟨p, b, -, hb, ⟨-, hwrite⟩ | ⟨-, hend⟩⟩ := onFileRead_ok hok
  · obtain ⟨hr, -, rfl⟩ := writeData_ok hwrite
    have hset : SameFiles (s.readOn f r) { s.readOn f r with
        pipes := s.pipes.set p { b with nread := b.nread + r.data.length } } :=
      .setBlock (s := s.readOn f r) hb rfl rfl rfl
    exact ((SameFiles.readOn s f r).trans hset).trans (.uvWrite _ _ _)
  · have hset : SameFiles (s.readOn f r) { s.readOn f r with pipes := s.pipes.set p b } :=
      .setBlock (s := s.readOn f r) hb rfl rfl rfl
    exact ((SameFiles.readOn s f r).trans hset).trans (.finish hend)

theorem SameFiles.written {status : ℤ} (hok : onWriteRes s h status = .ok u) :
    SameFiles s u := by
  obtain ⟨-, w, ws, p, b, v, -, -, hb, rfl, hcases⟩ := onWriteRes_ok hok
  let t := s.setTcp h { s.tcp h with writes := ws }
  have hset : SameFiles t { t with
      pipes := s.pipes.set p { b with nwritten := b.nwritten + w.buf.length } } :=
    .setBlock (s := t) hb rfl rfl rfl
  have hv := (SameFiles.of_same (s := s) (u := t) rfl rfl).trans hset
  rcases hcases with ⟨-, -, hend⟩ | ⟨-, rfl⟩
  · exact hv.trans (.finish hend)
  · exact hv

/-! ### One event -/

theorem Sized.of_same {es : List ServerEvent} (hs : Sized es s) (hsame : SameFiles s u)
    (e : ServerEvent) : Sized (es ++ [e]) u := by
  intro p b hb
  obtain ⟨b', hb', hsize, htcp, hfile⟩ := hsame.block p b hb
  rw [(hsame.stream _).1, (hsame.stream _).2, ← hsize, ← htcp, ← hfile]
  exact (hs p b' hb').concat e

theorem Frame.sameFiles (hf : Frame s u) : SameFiles s u := .of_same hf.pipes hf.streams

/-- **One event** keeps the invariant. -/
theorem Sized.step {es : List ServerEvent} (hs : Sized es s) (hrun : server.Run init es s)
    (hturn : InTurn s) {e : ServerEvent} (hok : server.dispatch s e = .ok u) :
    Sized (es ++ [e]) u := by
  obtain ⟨ht, hl⟩ := transfers_of_run hrun
  cases e with
  | connect status accept junk info => exact hs.of_same (Frame.connect hok).sameFiles _
  | reqRead h r => exact hs.of_same (Frame.reqRead hok).sameFiles _
  | stat i result env pipe contents =>
    obtain ⟨req, hr, hreq, hget, ⟨e, -, hagain⟩ | ⟨size, rfl, hpipe⟩⟩ := hl.fsStatCb_ok hok
    · exact hs.of_same ((Frame.tell hget result).trans (.resolve hagain)).sameFiles _
    · -- the new transfer sends the file whose stat this was
      have htold := (Frame.tell (i := i) hget (.ok size)).sameFiles
      obtain ⟨hr', -, -, rfl⟩ := swsPipeFile_ok hpipe
      have hpath := (hturn.paired req (List.mem_of_getElem? hreq) hr hget).1
      intro p b hb
      rcases piped_block_cases hb with ⟨rfl, rfl⟩ | hb
      · show StatFound _ req.data
          ((piped _ _ _ _ _ _).streams (s.tell i req.data hr (.ok size)).filePipes.next).path
          ((piped _ _ _ _ _ _).streams (s.tell i req.data hr (.ok size)).filePipes.next).contents
          size
        rw [piped_stream_next, hpath]
        exact ⟨es, [], s, i, env, pipe, rfl, hrun, hreq⟩
      · have hlt : b.filePipe < (s.tell i req.data hr (.ok size)).filePipes.next :=
          Heap.lt_next (ht.block p b hb).1
        rw [piped_stream_of_lt hlt]
        exact hs.of_same htold _ p b hb
  | fileRead f r => exact hs.of_same (.fileRead hok) _
  | written h status => exact hs.of_same (.written hok) _
  | closed h => exact hs.of_same (Frame.closed hok).sameFiles _

/-- The file stream `f` is there, for the same file and the same connection. -/
structure KeepsStream (s u : Server) (f : ℕ) : Prop where
  lt : f < u.filePipes.next
  tcp : (u.streams f).tcp = (s.streams f).tcp
  path : (u.streams f).path = (s.streams f).path
  contents : (u.streams f).contents = (s.streams f).contents

theorem Frame.keepsStream (hframe : Frame s u) (hf : f < s.filePipes.next) :
    KeepsStream s u f := by
  refine ⟨hframe.filePipes ▸ hf, ?_, ?_, ?_⟩
  all_goals rw [hframe.streams]

theorem SameFiles.keepsStream (hfiles : SameFiles s u) (hsame : SameRequests s u)
    (hf : f < s.filePipes.next) : KeepsStream s u f :=
  ⟨hsame.next ▸ hf, (hsame.streams f).1, (hfiles.stream f).1, (hfiles.stream f).2⟩

/-- A file stream stays what it is. -/
theorem Linked.keepsStream (hl : Linked s) {e : ServerEvent} (hok : server.dispatch s e = .ok u)
    (hf : f < s.filePipes.next) : KeepsStream s u f := by
  cases e with
  | connect status accept junk info => exact (Frame.connect hok).keepsStream hf
  | reqRead h r => exact (Frame.reqRead hok).keepsStream hf
  | stat i result env pipe contents =>
    obtain ⟨req, hr, hreq, hget, ⟨e, -, hagain⟩ | ⟨size, rfl, hpipe⟩⟩ := hl.fsStatCb_ok hok
    · exact ((Frame.tell hget result).trans (.resolve hagain)).keepsStream hf
    · obtain ⟨hr', -, -, rfl⟩ := swsPipeFile_ok hpipe
      have hlt : f < (s.tell i req.data hr (.ok size)).filePipes.next := hf
      refine ⟨?_, ?_, ?_, ?_⟩
      · rw [piped_filePipes_next]
        exact hlt.trans (Nat.lt_succ_self _)
      all_goals
        rw [piped_stream_of_lt hlt]
        rfl
  | fileRead f' r => exact (SameFiles.fileRead hok).keepsStream (.fileRead hok) hf
  | written h status => exact (SameFiles.written hok).keepsStream (.written hok) hf
  | closed h => exact (Frame.closed hok).keepsStream hf

/-! ### Connections that are closing -/

/-- Nothing more is queued on a connection that is closing. -/
structure StaysShut (s u : Server) (h : ℕ) : Prop where
  closing : (u.tcp h).closeCalls ≠ 0
  queued : (u.tcp h).queued = (s.tcp h).queued
  writes : (u.tcp h).writes <:+ (s.tcp h).writes

theorem StaysShut.of_same (hshut : (s.tcp h).closeCalls ≠ 0) (htcp : u.tcp h = s.tcp h) :
    StaysShut s u h := by
  rw [← htcp] at hshut
  exact ⟨hshut, by rw [htcp], by rw [htcp]⟩

theorem StaysShut.trans (h1 : StaysShut s t h) (h2 : StaysShut t u h) : StaysShut s u h :=
  ⟨h2.closing, h2.queued.trans h1.queued, h2.writes.trans h1.writes⟩

theorem Frame.staysShut (hframe : Frame s u) (hshut : (s.tcp h).closeCalls ≠ 0) :
    StaysShut s u h := by
  have hle := hframe.closing h
  exact ⟨by omega, hframe.queued h, by rw [hframe.writes]⟩

theorem StaysShut.finish {b : FileTcpPipe} {status : ℤ} (hshut : (s.tcp h).closeCalls ≠ 0)
    (hok : fileTcpPipeEnd s p b status = .ok u) : StaysShut s u h := by
  obtain ⟨-, v, hclose, rfl⟩ := fileTcpPipeEnd_ok hok
  have hv := (Frame.uvClose hclose).staysShut hshut
  exact ⟨hv.closing, hv.queued, hv.writes⟩

theorem StaysShut.uvWrite (hshut : (s.tcp h).closeCalls ≠ 0) (h' : ℕ) (w : WriteReq) :
    StaysShut s (uvWrite s h' w) h := by
  unfold Server.uvWrite
  split
  · rename_i hopen
    refine .of_same hshut ?_
    rw [setTcp_tcp, if_neg]
    rintro rfl
    exact hshut hopen
  · exact .of_same hshut rfl

/-- **One event** after the connection was closed. -/
theorem Linked.staysShut (hl : Linked s) {e : ServerEvent} (hok : server.dispatch s e = .ok u)
    (hshut : (s.tcp h).closeCalls ≠ 0) : StaysShut s u h := by
  cases e with
  | connect status accept junk info => exact (Frame.connect hok).staysShut hshut
  | reqRead h' r => exact (Frame.reqRead hok).staysShut hshut
  | stat i result env pipe contents =>
    obtain ⟨req, hr, hreq, hget, ⟨e, -, hagain⟩ | ⟨size, rfl, hpipe⟩⟩ := hl.fsStatCb_ok hok
    · exact ((Frame.tell hget result).trans (.resolve hagain)).staysShut hshut
    · have htold := (Frame.tell (i := i) hget (.ok size)).staysShut hshut
      obtain ⟨hr', -, -, rfl⟩ := swsPipeFile_ok hpipe
      exact htold.trans (.of_same htold.closing rfl)
  | fileRead f r =>
    have hread : ∀ pipes, StaysShut s { s.readOn f r with pipes := pipes } h :=
      fun _ => .of_same hshut rfl
    obtain ⟨p, b, -, -, ⟨-, hwrite⟩ | ⟨-, hend⟩⟩ := onFileRead_ok hok
    · obtain ⟨hr, -, rfl⟩ := writeData_ok hwrite
      exact (hread _).trans (.uvWrite (hread _).closing _ _)
    · exact (hread _).trans (.finish (hread _).closing hend)
  | written h' status =>
    obtain ⟨-, w, ws, p, b, v, hw, -, -, rfl, hcases⟩ := onWriteRes_ok hok
    have hpop : StaysShut s (s.setTcp h' { s.tcp h' with writes := ws }) h := by
      by_cases heq : h = h'
      · subst heq
        refine ⟨?_, ?_, ?_⟩
        all_goals rw [setTcp_tcp, if_pos rfl]
        · exact hshut
        · exact ⟨[w], hw.symm⟩
      · refine .of_same hshut ?_
        rw [setTcp_tcp, if_neg heq]
    have hv : StaysShut s { s.setTcp h' { s.tcp h' with writes := ws } with
        pipes := s.pipes.set p { b with nwritten := b.nwritten + w.buf.length } } h :=
      hpop.trans (.of_same hpop.closing rfl)
    rcases hcases with ⟨-, -, hend⟩ | ⟨-, rfl⟩
    · exact hv.trans (.finish hv.closing hend)
    · exact hv
  | closed h' => exact (Frame.closed hok).staysShut hshut

/-! ### Responses that are ended by a write -/

/-- What was sent on the connection `h`, when its response has ended. -/
structure Sent (es : List ServerEvent) (s : Server) (h : ℕ) : Prop where
  closing : (s.tcp h).closeCalls ≠ 0
  written : unwritten (s.tcp h) = 0
  file : ∃ f < s.filePipes.next, (s.streams f).tcp = h ∧
    ∃ size, StatFound es h (s.streams f).path (s.streams f).contents size ∧
      size ≤ (s.streams f).contents.length ∧
      (s.tcp h).queued = (s.streams f).contents.take size

/-- What was sent stays what it is. -/
theorem Sent.step {es : List ServerEvent} (hsent : Sent es s h) (hl : Linked s) {e : ServerEvent}
    (hok : server.dispatch s e = .ok u) : Sent (es ++ [e]) u h := by
  have hshut := hl.staysShut hok hsent.closing
  obtain ⟨f, hf, htcp, size, hfound, hle, hqueued⟩ := hsent.file
  have hkeeps := hl.keepsStream hok hf
  refine ⟨hshut.closing, ?_, f, hkeeps.lt, hkeeps.tcp.trans htcp, size, ?_, ?_, ?_⟩
  · have hle := (hshut.writes.sublist.map fun w => w.buf.length).sum_le_sum fun _ _ => Nat.zero_le _
    exact Nat.le_zero.mp (hle.trans_eq hsent.written)
  · rw [hkeeps.path, hkeeps.contents]
    exact hfound.concat e
  · rw [hkeeps.contents]
    exact hle
  · rw [hshut.queued, hkeeps.contents]
    exact hqueued

/-- **The write that ends a response.**  It is the last one, and all that the stat has promised has
been queued before it. -/
theorem sent_of_written {es : List ServerEvent} (hrun : server.Run init es s) (hs : Sized es s)
    {status : ℤ} (he : server.enabled s (.written h status))
    (hok : server.dispatch s (.written h status) = .ok u)
    (hend : (s.tcp h).closeCalls < (u.tcp h).closeCalls) :
    Sent (es ++ [.written h status]) u h := by
  obtain ⟨ht, hl⟩ := transfers_of_run hrun
  obtain ⟨hstatus, w, ws, p, b, v, hw, hdata, hb, rfl, hcases⟩ := onWriteRes_ok hok
  -- a connection that was closing before reports an error
  have hopen : (s.tcp h).closeCalls = 0 := by
    by_contra hclosing
    have hcanceled := he.2.2 (Nat.pos_of_ne_zero hclosing)
    rw [hstatus] at hcanceled
    exact absurd hcanceled (by decide)
  obtain ⟨q, hown⟩ := ht.writes h w (hw ▸ List.mem_cons_self)
  obtain rfl : q = p := Option.some.inj (hown.data.symm.trans hdata)
  obtain rfl : b.tcp = h := by
    rcases hown.live with ⟨b', hb', htcp⟩ | ⟨hfree, -⟩
    · rw [hb] at hb'
      cases hb'
      exact htcp
    · rw [hb] at hfree
      cases hfree
  rcases hcases with ⟨hcaught, hsize, hfinish⟩ | ⟨-, rfl⟩
  · have hall := ht.all q b hb hopen
    have hread := ht.nread q b hb
    have hbalance := ht.nwritten q b hb
    have hlen := congrArg List.length hall
    rw [List.length_take] at hlen
    obtain ⟨hfile, hstream⟩ := ht.block q b hb
    have hframe : (u.tcp b.tcp).queued = (s.tcp b.tcp).queued ∧
        (u.tcp b.tcp).writes = ws ∧ u.filePipes.next = s.filePipes.next ∧
        u.streams = s.streams := by
      obtain ⟨-, v, hclose, rfl⟩ := fileTcpPipeEnd_ok hfinish
      obtain ⟨-, rfl⟩ := uvClose_ok hclose
      simp [setTcp]
    obtain ⟨hqueued, hwrites, hnext, hstreams⟩ := hframe
    have hrest : unwritten (s.tcp b.tcp) = w.buf.length + unwritten (u.tcp b.tcp) := by
      simp [unwritten, hw, hwrites]
    refine ⟨by omega, ?_, b.filePipe, ?_, ?_, b.size, ?_, ?_, ?_⟩
    · omega
    · rw [hnext]
      exact Heap.lt_next hfile
    · rw [hstreams, hstream]
    · rw [hstreams]
      exact (hs q b hb).concat _
    · rw [hstreams]
      omega
    · rw [hstreams, hqueued, hall, hsize, hread]
  · simp [setTcp_tcp] at hend

/-- In the run the response on the connection `h` was ended by a write. -/
def EndedByWrite (es : List ServerEvent) (h : ℕ) : Prop :=
  ∃ es₁ es₂ status s u, es = es₁ ++ .written h status :: es₂ ∧ server.Run init es₁ s ∧
    server.dispatch s (.written h status) = .ok u ∧ (s.tcp h).closeCalls < (u.tcp h).closeCalls

/-- It was ended before the last event, or by the last event. -/
theorem EndedByWrite.snoc_cases {es : List ServerEvent} {e : ServerEvent}
    (hended : EndedByWrite (es ++ [e]) h) :
    EndedByWrite es h ∨ ∃ status s u, e = .written h status ∧ server.Run init es s ∧
      server.dispatch s (.written h status) = .ok u ∧
      (s.tcp h).closeCalls < (u.tcp h).closeCalls := by
  obtain ⟨es₁, es₂, status, s, u, heq, hrun, hok, hend⟩ := hended
  rcases List.eq_nil_or_concat es₂ with rfl | ⟨front, last, rfl⟩
  · obtain ⟨rfl, hlast⟩ := List.append_inj' heq rfl
    exact .inr ⟨status, s, u, List.head_eq_of_cons_eq hlast, hrun, hok, hend⟩
  · refine .inl ⟨es₁, front, status, s, u, ?_, hrun, hok, hend⟩
    rw [List.concat_eq_append, ← List.cons_append, ← List.append_assoc] at heq
    exact (List.append_inj' heq rfl).1

/-- **Every run** in which each connection carries one request. -/
theorem sent_of_run {es : List ServerEvent} (hrun : server.Run init es s)
    (hone : ∀ h, OneRequest (callsOf h es)) :
    Sized es s ∧ ∀ h, EndedByWrite es h → Sent es s h := by
  induction hrun with
  | nil =>
    refine ⟨by simp [Sized, init], fun h hended => ?_⟩
    obtain ⟨es₁, es₂, status, s, u, heq, -⟩ := hended
    cases es₁ <;> cases heq
  | @snoc es t e u hrun he hok ih =>
    have hbefore : ∀ h, OneRequest (callsOf h es) := by
      intro h
      have hall := hone h
      rw [callsOf_concat] at hall
      exact hall.left
    obtain ⟨hsized, hsent⟩ := ih hbefore
    obtain ⟨-, hturn⟩ := requestsApart_of_run hrun hbefore
    refine ⟨hsized.step hrun hturn hok, fun h hended => ?_⟩
    rcases hended.snoc_cases with hold | ⟨status, s, v, rfl, hrun', hok', hend⟩
    · exact (hsent h hold).step (transfers_of_run hrun).2 hok
    · obtain rfl := hrun'.unique hrun
      obtain rfl := Except.ok.inj (hok'.symm.trans hok)
      exact sent_of_written hrun hsized he hok hend

end Server

open Server

/-- **Whole responses.**  In every run in which each connection carries one request, a connection
whose response was ended by a write has been sent the file its URL stands for, or the 404 page if
that is missing, up to the size that the stat of this file has returned; all of it was written. -/
theorem wholeResponse {es : List ServerEvent} {s : Server} {h : ℕ} (hrun : server.Run init es s)
    (hone : ∀ h, OneRequest (callsOf h es)) (hended : EndedByWrite es h) :
    ∃ path contents size, OwnPath (StatFailed es) s.root (callsOf h es) h path ∧
      StatFound es h path contents size ∧ size ≤ contents.length ∧
      (s.tcp h).queued = contents.take size ∧ unwritten (s.tcp h) = 0 := by
  obtain ⟨hs, -⟩ := requestsApart_of_run hrun hone
  have hsent := (sent_of_run hrun hone).2 h hended
  obtain ⟨f, hf, rfl, size, hfound, hle, hqueued⟩ := hsent.file
  exact ⟨_, _, size, hs.stream f hf, hfound, hle, hqueued, hsent.written⟩

/-- A file of two bytes, in one write. -/
theorem wholeResponse_twoBytes : ∃ es s, server.Run init es s ∧ (s.tcp 0).queued = [65, 66] ∧
    ∃ path contents size, OwnPath (StatFailed es) s.root (callsOf 0 es) 0 path ∧
      StatFound es 0 path contents size ∧ size ≤ contents.length ∧
      (s.tcp 0).queued = contents.take size ∧ unwritten (s.tcp 0) = 0 := by
  obtain ⟨s, hrun, hends⟩ := EventLoop.exists_run_of_plays
    (show (server.plays init
        [clientConnects, .reqRead 0 (.data 36 (getRequest "/a") 36), fileFound [65, 66],
          .fileRead 0 (.chunk [65, 66])]).any
      (fun s => (server.dispatch s (.written 0 0)).toOption.any fun u =>
        (u.tcp 0).queued == [65, 66] && decide ((s.tcp 0).closeCalls < (u.tcp 0).closeCalls) &&
          decide (server.enabled s (.written 0 0))) = true by decide +kernel)
  obtain ⟨u, hu, hends⟩ := (Option.any_eq_true _ _).mp hends
  have hok : server.dispatch s (.written 0 0) = .ok u := by
    cases hd : server.dispatch s (.written 0 0) with
    | ok v =>
      rw [hd] at hu
      exact congrArg Except.ok (Option.some.inj hu)
    | error x =>
      rw [hd] at hu
      cases hu
  simp only [Bool.and_eq_true, beq_iff_eq, decide_eq_true_eq] at hends
  obtain ⟨⟨hqueued, hclosing⟩, he⟩ := hends
  refine ⟨_, u, hrun.snoc he hok, hqueued, wholeResponse (hrun.snoc he hok) (fun h => ?_) ?_⟩
  · match h with
    | 0 => decide +kernel
    | h + 1 => simp [callsOf, callsIn, clientConnects, fileFound, OneRequest]
  · exact ⟨_, [], 0, s, u, rfl, hrun, hok, hclosing⟩

end LibuvDox.StaticWebServer
