import LibuvDox.StaticWebServer.ResponsesComplete

/-!
# The server comes to rest

Without new connections and without data from the clients the server does only what is left to be
done: the files that are being sent are read to their end, writes complete, handles are closed, and
stats are answered.  Each byte of a file is read and written once, so there is a bound on the number
of callbacks; only stats that fail are not bounded by it, for each of them leads to another one.

* `work`: what is left to be done, if the files that are still to be found have at most `K` bytes.
* `work_fileRead`, `work_written`, `work_closed`, `work_stat`: each callback makes it less.
* `comesToRest`: the bound for whole runs.
-/

namespace LibuvDox.StaticWebServer

/-- What is left to be done for a connection: a write is called back and may end the response. -/
def TcpHandle.work (t : TcpHandle) : ℕ := 2 * t.writes.length + if t.closeCb.isSome then 1 else 0

/-- No client connects or sends anything, and files have at most `K` bytes. -/
def NoInput (K : ℕ) : ServerEvent → Prop
  | .connect _ _ _ _ => False
  | .reqRead _ _ => False
  | .stat _ (.ok _) _ _ contents => contents.length ≤ K
  | _ => True

instance (K : ℕ) : (e : ServerEvent) → Decidable (NoInput K e)
  | .connect _ _ _ _ => .isFalse not_false
  | .reqRead _ _ => .isFalse not_false
  | .stat _ (.ok _) _ _ contents => inferInstanceAs (Decidable (contents.length ≤ K))
  | .stat _ (.error _) _ _ _ => .isTrue trivial
  | .fileRead _ _ => .isTrue trivial
  | .written _ _ => .isTrue trivial
  | .closed _ => .isTrue trivial

/-- The event is not a stat that fails. -/
def ServerEvent.advances : ServerEvent → Bool
  | .stat _ (.error _) _ _ _ => false
  | _ => true

/-- A sum after one of its terms has changed. -/
theorem sum_range_change {f g : ℕ → ℕ} {n i : ℕ} (hi : i < n) (hne : ∀ j ≠ i, g j = f j) :
    ∑ j ∈ Finset.range n, g j + f i = ∑ j ∈ Finset.range n, f j + g i := by
  have hmem : i ∈ Finset.range n := Finset.mem_range.mpr hi
  have hrest : ∑ j ∈ (Finset.range n).erase i, g j = ∑ j ∈ (Finset.range n).erase i, f j :=
    Finset.sum_congr rfl fun j hj => hne j (Finset.ne_of_mem_erase hj)
  have hf := Finset.add_sum_erase _ f hmem
  have hg := Finset.add_sum_erase _ g hmem
  omega

namespace Server

variable {s t u : Server} {h p f K : ℕ} {hr : SwsHandleReq} {b : FileTcpPipe} {r : ReadResult}

/-- What is left to be done for a file stream: three callbacks for each byte, and the end of its
transfer. -/
def fileWork (s : Server) (f : ℕ) : ℕ :=
  3 * ((s.streams f).contents.length - (s.streams f).offset) +
    if (s.filePipes.get? f).isSome then 2 else 0

/-- What is left to be done for all streams, for all connections and for all stats. -/
def work (K : ℕ) (s : Server) : ℕ :=
  (3 * K + 3) * s.stats.length + ∑ f ∈ Finset.range s.filePipes.next, s.fileWork f +
    ∑ h ∈ Finset.range s.reqs.next, (s.tcp h).work

/-- Where only one transfer has changed, and less is left of it, less is left in all. -/
theorem OnlyTransfer.work_lt (honly : OnlyTransfer s u p b) (hs : TransferLinks s)
    (hb : s.pipes.get? p = some b)
    (hlt : u.fileWork b.filePipe + (u.tcp b.tcp).work <
      s.fileWork b.filePipe + (s.tcp b.tcp).work) : u.work K < s.work K := by
  have hfile : b.filePipe < s.filePipes.next := Heap.lt_next (hs.block p b hb).1
  have htcp : b.tcp < s.reqs.next := hs.tcp_lt hb
  have hfiles := sum_range_change (f := s.fileWork) (g := u.fileWork) hfile fun f hne => by
    unfold fileWork
    rw [honly.filePipes f hne, honly.streams f hne]
  have htcps := sum_range_change (f := fun h => (s.tcp h).work) (g := fun h => (u.tcp h).work) htcp
    fun h hne => by rw [honly.tcp h hne]
  unfold Server.work
  rw [honly.stats, honly.next.2, honly.reqs]
  omega

/-- The end of a transfer: its file handle is freed, and one close callback is due. -/
theorem finish_work {status : ℤ} {q : ℕ} (hok : fileTcpPipeEnd s p b status = .ok u)
    (hlive : s.filePipes.get? b.filePipe = some (some q)) :
    u.fileWork b.filePipe + (u.tcp b.tcp).work <
      s.fileWork b.filePipe + (s.tcp b.tcp).work := by
  obtain ⟨-, v, hclose, rfl⟩ := fileTcpPipeEnd_ok hok
  obtain ⟨-, rfl⟩ := uvClose_ok hclose
  have hfreed : (s.filePipes.free b.filePipe).get? b.filePipe = none := Heap.get?_free_self _ _
  simp only [fileWork, TcpHandle.work, setTcp, hfreed, hlive, Function.update_self]
  simp
  omega

/-- One more write is two callbacks more at most. -/
theorem uvWrite_work (s : Server) (h : ℕ) (w : WriteReq) (f : ℕ) :
    (uvWrite s h w).fileWork f = s.fileWork f ∧
      ((uvWrite s h w).tcp h).work ≤ (s.tcp h).work + 2 := by
  unfold Server.uvWrite
  split
  · refine ⟨rfl, ?_⟩
    simp [TcpHandle.work, setTcp]
    omega
  · exact ⟨rfl, Nat.le_add_right _ _⟩

/-- What is read is not read again. -/
theorem readOn_work (hle : r.data.length ≤
      (s.streams f).contents.length - (s.streams f).offset) (pipes : Heap FileTcpPipe) :
    fileWork { s.readOn f r with pipes := pipes } f + 3 * r.data.length = s.fileWork f := by
  have hstream : (Server.streams { s.readOn f r with pipes := pipes } f) = { s.streams f with
      offset := (s.streams f).offset + r.data.length
      active := decide (0 ≤ r.nread) } := Function.update_self _ _ _
  have hfile : Server.filePipes { s.readOn f r with pipes := pipes } = s.filePipes := rfl
  unfold fileWork
  rw [hstream, hfile]
  show 3 * ((s.streams f).contents.length - ((s.streams f).offset + r.data.length)) + _ + _ = _
  omega

/-- Only stats have come or gone. -/
theorem work_of_same (hfiles : u.filePipes = s.filePipes) (hstreams : u.streams = s.streams)
    (hnext : u.reqs.next = s.reqs.next) (htcp : u.tcp = s.tcp) (K : ℕ) :
    u.work K + (3 * K + 3) * s.stats.length = s.work K + (3 * K + 3) * u.stats.length := by
  have hwork : u.fileWork = s.fileWork := by
    funext f
    rw [fileWork, hfiles, hstreams]
    rfl
  unfold Server.work
  rw [hwork, hfiles, hnext, htcp]
  omega

/-- A resolution that is started: one stat is under way. -/
theorem work_resolve {env : ResolveEnv} {url : Bytes} (hok : resolveResource s h env url = .ok u)
    (K : ℕ) : u.work K = s.work K + (3 * K + 3) := by
  obtain ⟨hr, root, -, -, hu⟩ := resolveResource_ok hok
  have hlen : u.stats.length = s.stats.length + 1 := by
    rw [hu]
    exact List.length_append
  have hsame := work_of_same (s := s) (u := u) (by rw [hu]; rfl) (by rw [hu]; rfl)
    (by rw [hu]; exact setReq_next _ _ _) (by rw [hu]; rfl) K
  rw [hlen, Nat.mul_succ] at hsame
  omega

/-- A new transfer: all of its file is to be read and sent. -/
theorem piped_work {size : ℕ} {path contents : Bytes} (s : Server) (K : ℕ) :
    (s.piped h hr size path contents).work K = s.work K + (3 * contents.length + 2) := by
  have hold : ∑ f ∈ Finset.range s.filePipes.next, (s.piped h hr size path contents).fileWork f =
      ∑ f ∈ Finset.range s.filePipes.next, s.fileWork f := by
    refine Finset.sum_congr rfl fun f hf => ?_
    have hlt := Finset.mem_range.mp hf
    have hfile : (s.piped h hr size path contents).filePipes.get? f = s.filePipes.get? f :=
      (Heap.get?_alloc _ _ _).trans (if_neg hlt.ne)
    rw [fileWork, piped_stream_of_lt hlt, hfile]
    rfl
  have hnew : (s.piped h hr size path contents).fileWork s.filePipes.next =
      3 * contents.length + 2 := by
    rw [fileWork, piped_stream_next, piped_file_next]
    rfl
  have hstats : (s.piped h hr size path contents).stats = s.stats := rfl
  have htcp : (s.piped h hr size path contents).tcp = s.tcp := rfl
  unfold Server.work
  rw [piped_filePipes_next, piped_reqs_next, Finset.sum_range_succ, hnew, hold, hstats,
    htcp]
  omega

/-! ### One callback -/

/-- A file stream: each byte is read once. -/
theorem work_fileRead (hs : TransferLinks s) (he : server.enabled s (.fileRead f r))
    (hok : onFileRead s f r = .ok u) : u.work K < s.work K := by
  have hlen : r.data.length ≤ (s.streams f).contents.length - (s.streams f).offset := by
    rw [← List.length_drop]
    exact he.2.1.length_le
  obtain ⟨p, b, hf, hb, hcases⟩ := onFileRead_ok hok
  obtain ⟨q, c, hq, hc, rfl⟩ := hs.file f _ hf
  cases hq
  cases hb.symm.trans hc
  refine (OnlyTransfer.fileRead hs hb hok).work_lt hs hb ?_
  have hread := readOn_work hlen
  rcases hcases with ⟨hpos, hwrite⟩ | ⟨hle, hend⟩
  · obtain ⟨hr, -, rfl⟩ := writeData_ok hwrite
    have hmore : 0 < r.data.length := List.length_pos_of_ne_nil (ReadResult.data_ne_nil hpos)
    obtain ⟨hfile, htcp⟩ := uvWrite_work { s.readOn b.filePipe r with
      pipes := s.pipes.set p { b with nread := b.nread + r.data.length } } b.tcp
      ⟨hr.data, r.data⟩ b.filePipe
    have hrest := hread (s.pipes.set p { b with nread := b.nread + r.data.length })
    rw [hfile]
    change _ ≤ (s.tcp b.tcp).work + 2 at htcp
    omega
  · have hrest := hread (s.pipes.set p b)
    have hless := finish_work hend hf
    change _ < _ + (s.tcp b.tcp).work at hless
    omega

/-- A write that completes. -/
theorem work_written (hs : Transfers s) {status : ℤ} (hok : onWriteRes s h status = .ok u) :
    u.work K < s.work K := by
  obtain ⟨-, w, ws, p, b, v, hw, -, hb, rfl, rfl, hcases⟩ := hs.written_block hok
  refine (OnlyTransfer.written hs hb hok).work_lt hs.toTransferLinks hb ?_
  have hpopped : TcpHandle.work { s.tcp b.tcp with writes := ws } < (s.tcp b.tcp).work := by
    simp only [TcpHandle.work, hw, List.length_cons]
    omega
  have htcp : (s.setTcp b.tcp { s.tcp b.tcp with writes := ws }).tcp b.tcp =
      { s.tcp b.tcp with writes := ws } := Function.update_self _ _ _
  rcases hcases with ⟨-, -, hend⟩ | ⟨-, rfl⟩
  · have hless := finish_work hend (hs.block p b hb).1
    change u.fileWork b.filePipe + (u.tcp b.tcp).work <
      s.fileWork b.filePipe + TcpHandle.work (Server.tcp (s.setTcp _ _) _) at hless
    rw [htcp] at hless
    omega
  · change s.fileWork b.filePipe + TcpHandle.work (Server.tcp (s.setTcp _ _) _) < _
    rw [htcp]
    omega

/-- The callback of a `uv_close`. -/
theorem work_closed (hs : OpenLive s) (he : server.enabled s (.closed h))
    (hok : onClosed s h = .ok u) : u.work K < s.work K := by
  have hdue : (s.tcp h).closeCb.isSome := Option.isSome_iff_ne_none.mpr he
  have hlt : h < s.reqs.next := by
    by_contra hge
    exact hs.due h he (hs.fresh h (Nat.le_of_not_lt hge))
  obtain ⟨v, rfl, hcases⟩ := onClosed_ok hok
  have hwork : work K (s.setTcp h { s.tcp h with closeCb := none }) < s.work K := by
    have htcps := sum_range_change (f := fun h => (s.tcp h).work)
      (g := fun h' => ((s.setTcp h { s.tcp h with closeCb := none }).tcp h').work) hlt
      fun h' hne => by rw [setTcp_tcp, if_neg hne]
    rw [setTcp_tcp, if_pos rfl] at htcps
    have hless : TcpHandle.work { s.tcp h with closeCb := none } + 1 = (s.tcp h).work := by
      simp [TcpHandle.work, hdue]
    unfold Server.work
    show (3 * K + 3) * s.stats.length + ∑ f ∈ Finset.range s.filePipes.next, s.fileWork f +
      ∑ h' ∈ Finset.range s.reqs.next, _ < _
    omega
  rcases hcases with ⟨-, -, rfl⟩ | ⟨-, rfl⟩
  · refine lt_of_eq_of_lt ?_ hwork
    simp only [Server.work, Heap.next_free]
    rfl
  · exact hwork

/-- A stat that is answered: where a file is found it is still to be read and sent, otherwise there
is another stat. -/
theorem work_stat (hl : Linked s) {i : ℕ} {result : StatResult} {env : ResolveEnv}
    {pipe : PipeFileEnv} {contents : Bytes}
    (hquiet : NoInput K (.stat i result env pipe contents))
    (hok : fsStatCb s i result env pipe contents = .ok u) :
    u.work K + (if ServerEvent.advances (.stat i result env pipe contents) then 1 else 0) ≤
      s.work K := by
  obtain ⟨req, hr, hreq, hget, hcases⟩ := hl.fsStatCb_ok hok
  obtain ⟨hi, -⟩ := List.getElem?_eq_some_iff.mp hreq
  have hdrop : (s.stats.eraseIdx i).length + 1 = s.stats.length := by
    rw [List.length_eraseIdx_of_lt hi]
    omega
  have htold := work_of_same (s := s) (u := s.tell i req.data hr result) rfl rfl
    (setReq_next _ _ _) rfl K
  have hstats : (s.tell i req.data hr result).stats.length + 1 = s.stats.length := hdrop
  rw [← hstats, Nat.mul_succ] at htold
  rcases hcases with ⟨e, rfl, hagain⟩ | ⟨size, rfl, hpipe⟩
  · have hmore := work_resolve hagain K
    show _ + 0 ≤ _
    omega
  · obtain ⟨hr', -, -, rfl⟩ := swsPipeFile_ok hpipe
    rw [piped_work]
    have hbound : contents.length ≤ K := hquiet
    show _ + 1 ≤ _
    omega

/-- **One callback** leaves less to be done; after a stat that fails there is another one. -/
theorem work_step (hs : Running s) {e : ServerEvent} (he : server.enabled s e)
    (hquiet : NoInput K e) (hok : server.dispatch s e = .ok u) :
    u.work K + (if e.advances then 1 else 0) ≤ s.work K := by
  cases e with
  | connect status accept junk info => cases hquiet
  | reqRead h r => cases hquiet
  | stat i result env pipe contents => exact work_stat hs.linked hquiet hok
  | fileRead f r => exact work_fileRead hs.transfers.toTransferLinks he hok
  | written h status => exact work_written hs.transfers hok
  | closed h => exact work_closed hs.opens he hok

end Server

open Server

/-- **The server comes to rest.**  From every state that a run reaches, as long as no client
connects or sends anything and files have at most `K` bytes, the callbacks other than those of stats
that fail are no more than what was left to be done.  A 404 page that is not there may be looked up
again and again, but nothing else can go on without end. -/
theorem comesToRest {K : ℕ} {es fs : List ServerEvent} {s t : Server}
    (hrun : server.Run init es s)
    (hquiet : (server.restrict fun _ e => NoInput K e).Run s fs t) :
    fs.countP ServerEvent.advances + t.work K ≤ s.work K := by
  have hall : Running t ∧ fs.countP ServerEvent.advances + t.work K ≤ s.work K := by
    refine hquiet.history (P := fun fs t => Running t ∧
      fs.countP ServerEvent.advances + t.work K ≤ s.work K) ⟨running_of_run hrun, by simp⟩ ?_
    intro fs t e u ⟨ht, hle⟩ he hok
    have hstep := work_step ht he.1 he.2 hok
    refine ⟨ht.step he.1 hok, ?_⟩
    rw [List.countP_append, List.countP_singleton]
    omega
  exact hall.2

/-- A file that is not there, and a 404 page of one byte: four callbacks send it and free the
connection, and there were six to be expected. -/
theorem comesToRest_page : ∃ es fs s t, server.Run init es s ∧
    (server.restrict fun _ e => NoInput 1 e).Run s fs t ∧ fs.countP ServerEvent.advances = 4 ∧
    s.work 1 = 6 ∧ 4 + t.work 1 ≤ 6 := by
  obtain ⟨s, hrun, hends⟩ := EventLoop.exists_run_of_plays
    (show (server.plays init
        [clientConnects, .reqRead 0 (.data 36 (getRequest "/a") 36)]).any
      (fun s => decide (s.work 1 = 6) && ((server.restrict fun _ e => NoInput 1 e).plays s
        [.stat 0 (.error ⟨-2, by decide, by decide⟩) ⟨.ok (ascii "/srv"), 0⟩ ⟨0, 0, 0⟩ [],
          fileFound [65], .fileRead 0 (.chunk [65]), .written 0 0, .closed 0]).any fun _ => true) =
      true by decide +kernel)
  rw [Bool.and_eq_true, decide_eq_true_eq] at hends
  obtain ⟨t, hquiet, -⟩ := EventLoop.exists_run_of_plays hends.2
  have hrest := comesToRest hrun hquiet
  rw [hends.1] at hrest
  exact ⟨_, _, s, t, hrun, hquiet, rfl, hends.1, hrest⟩

end LibuvDox.StaticWebServer
