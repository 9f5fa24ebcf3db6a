import LibuvDox.StaticWebServer.CrossTalk
import LibuvDox.StaticWebServer.ResponsesComplete

/-!
# No cross-talk

The back pointers tell the connections apart as long as the blocks are there that they lead to.
Two events free a block to which a pointer still leads: an empty read ends a transfer while its
writes are pending, and after a parse error `on_res_end` frees a connection whose transfer goes on.

* `LiveEnds`: the invariant of all other runs.  A transfer that has not ended has its connection,
  and a pending write the transfer of the connection it was queued on.
* `noCrossTalk_iff`: if each connection carries one request, the pointers are consistent, and every
  byte is where it belongs, in all states of a run exactly if none of its events frees such a block.
-/

namespace LibuvDox.StaticWebServer

namespace Server

/-- The `data` of a write that is pending on the connection `h` leads to a transfer that has not
ended, and this one leads back to the connection. -/
def OwnWrite (s : Server) (h : ℕ) (w : WriteReq) : Prop :=
  ∃ p b, w.data = some p ∧ s.pipes.get? p = some b ∧ b.tcp = h

/-- **The invariant.** -/
structure LiveEnds (s : Server) : Prop where
  tcp : ∀ p b, s.pipes.get? p = some b → s.reqs.get? b.tcp ≠ none
  write : ∀ h, ∀ w ∈ (s.tcp h).writes, OwnWrite s h w ∧ w.buf ≠ []

theorem init_liveEnds : LiveEnds init where
  tcp := by simp [init]
  write := by simp [init]

/-- The event frees no block to which a pointer leads: an empty read meets no pending write, and
`on_res_end` no transfer. -/
def FreesUnused (s : Server) : ServerEvent → Prop
  | .fileRead f r => r.nread = 0 → (s.tcp (s.streams f).tcp).writes = []
  | .closed h =>
    (s.tcp h).closeCb = some .onResEnd → ∀ p b, s.pipes.get? p = some b → b.tcp ≠ h
  | _ => True

instance (s : Server) : (e : ServerEvent) → Decidable (FreesUnused s e)
  | .fileRead f r =>
    inferInstanceAs (Decidable (r.nread = 0 → (s.tcp (s.streams f).tcp).writes = []))
  | .closed h =>
    decidable_of_iff ((s.tcp h).closeCb = some .onResEnd →
        ∀ p < s.pipes.next, ∀ b ∈ s.pipes.get? p, b.tcp ≠ h)
      ⟨fun hall hcb p b hb => hall hcb p (Heap.lt_next hb) b hb,
        fun hall hcb p _ b hb => hall hcb p b hb⟩
  | .connect _ _ _ _ => instDecidableTrue
  | .reqRead _ _ => instDecidableTrue
  | .stat _ _ _ _ _ => instDecidableTrue
  | .written _ _ => instDecidableTrue

section

variable {s u : Server} {h p : ℕ} {hr : SwsHandleReq} {b c : FileTcpPipe}

/-! ### Updates that keep the invariant -/

/-- The transfers do not change, and their connections stay. -/
theorem LiveEnds.of_frame (hs : LiveEnds s) (hf : Frame s u)
    (hlive : ∀ p b, s.pipes.get? p = some b → u.reqs.get? b.tcp = none →
      s.reqs.get? b.tcp = none) : LiveEnds u where
  tcp p b hb := by
    rw [hf.pipes] at hb
    exact mt (hlive p b hb) (hs.tcp p b hb)
  write h w hw := by
    rw [hf.writes] at hw
    unfold OwnWrite
    rw [hf.pipes]
    exact hs.write h w hw

/-- A transfer begins. -/
theorem LiveEnds.piped (hs : LiveEnds s) {size : ℕ} {path contents : Bytes}
    (hget : s.reqs.get? h = some hr) : LiveEnds (s.piped h hr size path contents) where
  tcp q c hc := by
    by_cases heq : c.tcp = h
    · have hself : (s.piped h hr size path contents).reqs.get? c.tcp =
          some { hr with data := some s.pipes.next } := by
        rw [heq]
        exact setReq_self hget _
      rw [hself]
      exact Option.some_ne_none _
    · rw [piped_req_of_ne s heq]
      rcases piped_block_cases hc with ⟨-, rfl⟩ | hc
      · exact absurd rfl heq
      · exact hs.tcp q c hc
  write h' w hw := by
    obtain ⟨⟨q, c, hdata, hc, htcp⟩, hne⟩ := hs.write h' w hw
    exact ⟨⟨q, c, hdata, piped_block hc, htcp⟩, hne⟩

/-- A transfer counts. -/
theorem LiveEnds.setBlock (hs : LiveEnds s) (hb : s.pipes.get? p = some b) (htcp : c.tcp = b.tcp) :
    LiveEnds { s with pipes := s.pipes.set p c } where
  tcp q d hd := by
    rcases Heap.set_cases hb hd with ⟨-, rfl⟩ | ⟨-, hd⟩
    · rw [htcp]
      exact hs.tcp p b hb
    · exact hs.tcp q d hd
  write h w hw := by
    obtain ⟨⟨q, d, hdata, hd, hdtcp⟩, hne⟩ := hs.write h w hw
    refine ⟨?_, hne⟩
    by_cases heq : q = p
    · rw [heq, hb] at hd
      cases hd
      exact ⟨p, c, heq ▸ hdata, Heap.get?_set_self hb c, htcp.trans hdtcp⟩
    · exact ⟨q, d, hdata, (Heap.get?_set_of_ne _ _ heq).trans hd, hdtcp⟩

/-- The pending writes of a connection change. -/
theorem LiveEnds.setTcp (hs : LiveEnds s) {t : TcpHandle}
    (hwrites : ∀ w ∈ t.writes, OwnWrite s h w ∧ w.buf ≠ []) : LiveEnds (s.setTcp h t) where
  tcp := hs.tcp
  write h' w hw := by
    rw [setTcp_tcp] at hw
    split at hw
    · rename_i heq
      rw [heq]
      exact hwrites w hw
    · exact hs.write h' w hw

/-- A transfer without pending writes has ended. -/
theorem LiveEnds.finish (hs : LiveEnds s) (hb : s.pipes.get? p = some b)
    (hnone : (s.tcp b.tcp).writes = []) {status : ℤ}
    (hok : fileTcpPipeEnd s p b status = .ok u) : LiveEnds u := by
  obtain ⟨-, v, hclose, rfl⟩ := fileTcpPipeEnd_ok hok
  have hv : LiveEnds v := hs.of_frame (.uvClose hclose) fun _ d _ =>
    ((KeepsOpen.uvClose hclose).live d.tcp).mp
  obtain ⟨-, rfl⟩ := uvClose_ok hclose
  refine ⟨fun q d hd => hv.tcp q d (Heap.free_cases hd).2, fun h w hw => ?_⟩
  obtain ⟨⟨q, d, hdata, hd, hdtcp⟩, hne⟩ := hv.write h w hw
  have hother : q ≠ p := by
    rintro rfl
    have hsame : d = b := Option.some.inj (hd.symm.trans hb)
    rw [← hdtcp, hsame, setTcp_tcp, if_pos rfl] at hw
    rw [show (s.tcp b.tcp).writes = [] from hnone] at hw
    cases hw
  exact ⟨⟨q, d, hdata, (Heap.get?_free_of_ne _ hother).trans hd, hdtcp⟩, hne⟩

/-! ### One event -/

theorem LiveEnds.connect (hs : LiveEnds s) {status accept : ℤ} {junk : Garbage}
    {info : SwsResourceInfo} (hok : onConnect s status accept junk info = .ok u) : LiveEnds u := by
  have hnew : ∀ h, (s.newReq junk info).reqs.get? h = none → s.reqs.get? h = none := by
    intro h hnone
    rw [newReq_get?] at hnone
    split at hnone
    · cases hnone
    · exact hnone
  refine hs.of_frame (.connect hok) fun p b _ hnone => hnew b.tcp ?_
  obtain ⟨-, ⟨-, hclose⟩ | ⟨-, rfl⟩⟩ := onConnect_ok hok
  · exact ((KeepsOpen.uvClose hclose).live b.tcp).mp hnone
  · exact hnone

theorem LiveEnds.stat (hs : LiveEnds s) (hl : Linked s) {i : ℕ} {result : StatResult}
    {env : ResolveEnv} {pipe : PipeFileEnv} {contents : Bytes}
    (hok : fsStatCb s i result env pipe contents = .ok u) : LiveEnds u := by
  have hopen := KeepsOpen.stat hl hok
  obtain ⟨req, hr, -, hget, hcases⟩ := hl.fsStatCb_ok hok
  have hframe := Frame.tell (i := i) hget result
  rcases hcases with ⟨e, -, hagain⟩ | ⟨size, -, hpipe⟩
  · exact hs.of_frame (hframe.trans (.resolve hagain)) fun _ b _ => (hopen.live b.tcp).mp
  · have htold : LiveEnds (s.tell i req.data hr result) := by
      refine hs.of_frame hframe fun _ b _ hnone => ?_
      rw [tell_get? hget] at hnone
      split at hnone
      · cases hnone
      · exact hnone
    obtain ⟨hr', hget', -, rfl⟩ := swsPipeFile_ok hpipe
    exact htold.piped hget'

/-- A result of the file stream: a chunk is queued for its own transfer, and an empty read ends it
when no write is pending. -/
theorem LiveEnds.fileRead (hs : LiveEnds s) (ht : Transfers s) {f : ℕ} {r : ReadResult}
    (hunused : FreesUnused s (.fileRead f r)) (hok : onFileRead s f r = .ok u) : LiveEnds u := by
  obtain ⟨p, b, hf, hb, hcases⟩ := onFileRead_ok hok
  obtain ⟨p', b', hp', hb', rfl⟩ := ht.file f _ hf
  cases hp'
  obtain rfl : b = b' := Option.some.inj (hb.symm.trans hb')
  have hread : LiveEnds (readOn s b.filePipe r) := ⟨hs.tcp, hs.write⟩
  rcases hcases with ⟨hpos, hwrite⟩ | ⟨hle, hend⟩
  · obtain ⟨hr, hget, rfl⟩ := writeData_ok hwrite
    have hset := hread.setBlock (c := { b with nread := b.nread + r.data.length }) hb rfl
    unfold uvWrite
    split
    · refine hset.setTcp fun w hw => ?_
      rcases List.mem_append.mp hw with hold | hnew
      · exact hset.write b.tcp w hold
      · rw [List.mem_singleton.mp hnew]
        exact ⟨⟨p, _, ht.back p b hr hb hget, Heap.get?_set_self hb _, rfl⟩,
          ReadResult.data_ne_nil hpos⟩
    · exact hset
  · have hzero : r.nread = 0 := (fileTcpPipeEnd_ok hend).1
    have hnone := hunused hzero
    rw [(ht.block p b hb).2] at hnone
    exact (hread.setBlock (c := b) hb rfl).finish (Heap.get?_set_self hb b) hnone hend

/-- Pending writes of no bytes at all are none. -/
theorem writes_nil {t : TcpHandle} (hne : ∀ w ∈ t.writes, w.buf ≠ []) (hzero : unwritten t = 0) :
    t.writes = [] := by
  rw [unwritten, List.sum_eq_zero_iff] at hzero
  refine List.eq_nil_iff_forall_not_mem.mpr fun w hw => hne w hw ?_
  exact List.eq_nil_of_length_eq_zero (hzero _ (List.mem_map_of_mem hw))

/-- A write completes: the one that ends the transfer was the last. -/
theorem LiveEnds.written (hs : LiveEnds s) (ht : Transfers s) {status : ℤ}
    (hok : onWriteRes s h status = .ok u) : LiveEnds u := by
  obtain ⟨-, w, ws, p, b, v, hw, hdata, hb, rfl, hcases⟩ := onWriteRes_ok hok
  obtain ⟨⟨q, c, hdata', hc, rfl⟩, -⟩ := hs.write h w (hw ▸ List.mem_cons_self)
  obtain rfl : q = p := Option.some.inj (hdata'.symm.trans hdata)
  obtain rfl : c = b := Option.some.inj (hc.symm.trans hb)
  have hrest : ∀ w' ∈ ws, OwnWrite s c.tcp w' ∧ w'.buf ≠ [] := fun w' hw' =>
    hs.write c.tcp w' (hw ▸ List.mem_cons_of_mem w hw')
  have hpop := hs.setTcp (t := { s.tcp c.tcp with writes := ws }) hrest
  have hv := hpop.setBlock (c := { c with nwritten := c.nwritten + w.buf.length }) hb rfl
  rcases hcases with ⟨hcaught, -, hend⟩ | ⟨-, rfl⟩
  · refine hv.finish (Heap.get?_set_self hb _) ?_ hend
    show (Function.update s.tcp c.tcp { s.tcp c.tcp with writes := ws } c.tcp).writes = []
    rw [Function.update_self]
    refine writes_nil (fun w' hw' => (hrest w' hw').2) ?_
    -- no more was queued than was read, and that has been written
    have hbalance : c.nwritten + (w.buf.length + unwritten { s.tcp c.tcp with writes := ws }) =
        (s.tcp c.tcp).queued.length :=
      (congrArg (c.nwritten + ·) (unwritten_cons hw)).symm.trans (ht.nwritten q c hb)
    have hsent := (ht.sent_live hb).length_le
    have hread := ht.nread q c hb
    rw [List.length_take] at hsent
    omega
  · exact hv

/-- `on_res_end` frees a connection without a transfer. -/
theorem LiveEnds.closed (hs : LiveEnds s) (hunused : FreesUnused s (.closed h))
    (hok : onClosed s h = .ok u) : LiveEnds u := by
  refine hs.of_frame (.closed hok) fun p b hb hnone => ?_
  obtain ⟨v, rfl, ⟨hcb, -, rfl⟩ | ⟨-, rfl⟩⟩ := onClosed_ok hok
  · have hne := hunused hcb p b hb
    exact (Heap.get?_free_of_ne _ hne).symm.trans hnone
  · exact hnone

/-- **One event.** -/
theorem LiveEnds.step (hs : LiveEnds s) (ht : Transfers s) (hl : Linked s) {e : ServerEvent}
    (hunused : FreesUnused s e) (hok : server.dispatch s e = .ok u) : LiveEnds u := by
  cases e with
  | connect status accept junk info => exact hs.connect hok
  | reqRead h r =>
    exact hs.of_frame (.reqRead hok) fun _ b _ => ((KeepsOpen.reqRead hok).live b.tcp).mp
  | stat i result env pipe contents => exact hs.stat hl hok
  | fileRead f r => exact hs.fileRead ht hunused hok
  | written h status => exact hs.written ht hok
  | closed h => exact hs.closed hunused hok

end

/-- **Every run** whose events free no block in use. -/
theorem liveEnds_of_run {es : List ServerEvent} {s : Server}
    (hrun : (server.restrict FreesUnused).Run init es s) : LiveEnds s :=
  (hrun.invariant (P := fun s => LiveEnds s ∧ Transfers s ∧ Linked s)
    ⟨init_liveEnds, init_transfers, init_linked⟩ fun _ _ _ hs he hok =>
      ⟨hs.1.step hs.2.1 hs.2.2 he.2 hok, hs.2.1.step hs.2.2 he.1 hok, hs.2.2.step hok⟩).1

end Server

open Server

/-- The back pointers of the server are consistent, and every byte is where it belongs. -/
structure NoCrossTalk (es : List ServerEvent) (s : Server) : Prop where
  /-- `parse_req.data` and `resource_info.data` lead back to their connection. -/
  self : ∀ h hr, s.reqs.get? h = some hr →
    hr.parseReq.req.data = some h ∧ hr.resourceInfo.data = some h
  /-- Until a transfer is ended, `file_pipe->data` and `tcp->data` lead to it. -/
  transfer : ∀ p b, s.pipes.get? p = some b → s.filePipes.get? b.filePipe = some (some p) ∧
    ∃ hr, s.reqs.get? b.tcp = some hr ∧ hr.data = some p
  /-- The transfer that `file_pipe->data` leads to leads back to the stream and its connection. -/
  filePipe : ∀ f d, s.filePipes.get? f = some d → ∃ p b, d = some p ∧ s.pipes.get? p = some b ∧
    b.filePipe = f ∧ b.tcp = (s.streams f).tcp
  /-- The transfer that `tcp->data` leads to leads back to the connection. -/
  tcp : ∀ h hr p b, s.reqs.get? h = some hr → hr.data = some p → s.pipes.get? p = some b →
    b.tcp = h
  /-- The `data` of a pending write leads to the transfer of the connection it was queued on. -/
  write : ∀ h, ∀ w ∈ (s.tcp h).writes, OwnWrite s h w
  /-- What was queued on a connection was read from a file that was resolved for its URL. -/
  queued : ∀ h, (s.tcp h).queued = [] ∨ ∃ f < s.filePipes.next, (s.streams f).tcp = h ∧
    (s.tcp h).queued <+: (s.streams f).contents.take (s.streams f).offset ∧
    OwnPath (StatFailed es) s.root (callsOf h es) h (s.streams f).path
  /-- A transfer counts the bytes read from its own stream. -/
  nread : ∀ p b, s.pipes.get? p = some b → b.nread = (s.streams b.filePipe).offset
  /-- A transfer counts the bytes of its own stream that were written to its own connection. -/
  nwritten : ∀ p b, s.pipes.get? p = some b →
    (s.tcp b.tcp).queued <+: (s.streams b.filePipe).contents.take (s.streams b.filePipe).offset ∧
      b.nwritten + unwritten (s.tcp b.tcp) = (s.tcp b.tcp).queued.length

section

variable {es : List ServerEvent} {s u : Server}

theorem Server.LiveEnds.noCrossTalk (hs : LiveEnds s) (hrun : server.Run init es s)
    (hone : ∀ h, OneRequest (callsOf h es)) : NoCrossTalk es s := by
  obtain ⟨ht, hl⟩ := transfers_of_run hrun
  obtain ⟨hapart, -⟩ := requestsApart_of_run hrun hone
  constructor
  case self => exact hl.self
  case transfer =>
    intro p b hb
    obtain ⟨hr, hget⟩ := Option.ne_none_iff_exists'.mp (hs.tcp p b hb)
    exact ⟨(ht.block p b hb).1, hr, hget, ht.back p b hr hb hget⟩
  case filePipe =>
    intro f d hf
    obtain ⟨p, b, hdata, hb, rfl⟩ := ht.file f d hf
    exact ⟨p, b, hdata, hb, rfl, (ht.block p b hb).2.symm⟩
  case tcp =>
    intro h hr p b hget hdata hb
    exact (ht.data h hr p hget hdata).2 b hb
  case write => exact fun h w hw => (hs.write h w hw).1
  case queued =>
    intro h
    by_cases hstream : ∃ f < s.filePipes.next, (s.streams f).tcp = h
    · obtain ⟨f, hf, rfl⟩ := hstream
      exact .inr ⟨f, hf, rfl, ht.sent f hf, hapart.stream f hf⟩
    · exact .inl (ht.unsent h fun f hf htcp => hstream ⟨f, hf, htcp⟩).1
  case nread => exact ht.nread
  case nwritten =>
    intro p b hb
    exact ⟨ht.sent_live hb, ht.nwritten p b hb⟩

/-- An event that frees a block to which a pointer leads leaves the pointer behind. -/
theorem freesUnused_of_noCrossTalk (hrun : server.Run init es s) (hs : NoCrossTalk es s)
    {e : ServerEvent} (hok : server.dispatch s e = .ok u) (hu : NoCrossTalk (es ++ [e]) u) :
    FreesUnused s e := by
  obtain ⟨ht, -⟩ := transfers_of_run hrun
  cases e with
  | fileRead f r =>
    intro hzero
    obtain ⟨p, b, hf, hb, ⟨hpos, -⟩ | ⟨-, hend⟩⟩ := Server.onFileRead_ok hok
    · omega
    obtain ⟨p', b', hp', hb', rfl⟩ := ht.file f _ hf
    cases hp'
    obtain rfl : b = b' := Option.some.inj (hb.symm.trans hb')
    rw [(ht.block p b hb).2]
    refine List.eq_nil_iff_forall_not_mem.mpr fun w hw => ?_
    obtain ⟨q, c, hdata, hc, htcp⟩ := hs.write b.tcp w hw
    obtain rfl := ht.inj hb hc (.inr htcp)
    -- the write is pending still, and its transfer is gone
    obtain ⟨-, v, hclose, rfl⟩ := fileTcpPipeEnd_ok hend
    obtain ⟨-, rfl⟩ := uvClose_ok hclose
    have hpending : w ∈ (Function.update s.tcp b.tcp
        { s.tcp b.tcp with
          closeCalls := (s.tcp b.tcp).closeCalls + 1
          closeCb := some .onResEnd } b.tcp).writes := by
      rw [Function.update_self]
      exact hw
    obtain ⟨q', c', hdata', hc', -⟩ := hu.write b.tcp w hpending
    obtain rfl : q' = q := Option.some.inj (hdata'.symm.trans hdata)
    exact (Heap.free_cases hc').1 rfl
  | closed h =>
    rintro hcb p b hb rfl
    obtain ⟨v, rfl, ⟨-, -, rfl⟩ | ⟨hne, -⟩⟩ := onClosed_ok hok
    · obtain ⟨-, hr, hget, -⟩ := hu.transfer p b hb
      exact (Heap.free_cases hget).1 rfl
    · exact hne hcb
  | connect status accept junk info => trivial
  | reqRead h r => trivial
  | stat i result env pipe contents => trivial
  | written h status => trivial

end

/-- **No cross-talk.**  In a run of the server in which each connection carries one request,
whatever the number of the connections and the order of the events are, the pointers are consistent
in every state, and every byte is where it belongs, exactly if no empty read ends a transfer whose
writes are pending, and `on_res_end` frees no connection whose transfer goes on. -/
theorem noCrossTalk_iff {es : List ServerEvent} {s : Server} (hrun : server.Run init es s)
    (hone : ∀ h, OneRequest (callsOf h es)) :
    (∀ fs t, fs <+: es → server.Run init fs t → NoCrossTalk fs t) ↔
      (server.restrict FreesUnused).Run init es s := by
  induction hrun with
  | nil =>
    refine iff_of_true (fun fs t hpre hrun => ?_) .nil
    obtain rfl := List.prefix_nil.mp hpre
    obtain rfl := hrun.unique .nil
    exact init_liveEnds.noCrossTalk .nil hone
  | @snoc es t e u hrun he hok ih =>
    have hbefore : ∀ h, OneRequest (callsOf h es) := fun h => by
      have hall := hone h
      rw [callsOf_concat] at hall
      exact hall.left
    rw [hrun.restrict_snoc_iff he hok, ← ih hbefore]
    constructor
    · intro hall
      have hfirst : ∀ fs t, fs <+: es → server.Run init fs t → NoCrossTalk fs t :=
        fun fs t hpre => hall fs t (hpre.trans (List.prefix_append es [e]))
      exact ⟨hfirst, freesUnused_of_noCrossTalk hrun (hfirst es t (List.prefix_refl es) hrun) hok
        (hall _ u (List.prefix_refl _) (hrun.snoc he hok))⟩
    · intro ⟨hfirst, hunused⟩ fs v hpre hfs
      rcases List.prefix_concat_iff.mp hpre with rfl | hpre
      · obtain rfl := hfs.unique (hrun.snoc he hok)
        have hguarded := ((ih hbefore).mp hfirst).snoc ⟨he, hunused⟩ hok
        exact (liveEnds_of_run hguarded).noCrossTalk hfs hone
      · exact hfirst fs v hpre hfs

/-- Three connections: two files are half written, and the third client has sent what is no HTTP,
so that its connection is freed; then one of the responses is completed. -/
theorem noCrossTalk_iff_twoConnections : ∃ es s, server.Run init es s ∧
    (s.tcp 0).queued = [65, 67] ∧ (s.tcp 1).queued = [66] ∧ s.reqs.get? 2 = none ∧
    (∀ fs t, fs <+: es → server.Run init fs t → NoCrossTalk fs t) := by
  obtain ⟨s, hrun, hends⟩ := EventLoop.exists_run_of_plays
    (show ((server.restrict FreesUnused).plays init
        [clientConnects, clientConnects, clientConnects,
          .reqRead 1 (.data 36 (getRequest "/b") 36), .reqRead 0 (.data 36 (getRequest "/a") 36),
          fileFound [66, 66], .reqRead 2 (.data 4 [] 0), fileFound [65, 67],
          .fileRead 1 (.chunk [65]), .fileRead 0 (.chunk [66]), .closed 2,
          .fileRead 1 (.chunk [67]), .written 0 0, .written 0 0, .closed 0]).any
      (fun s => (s.tcp 0).queued == [65, 67] && (s.tcp 1).queued == [66] &&
        (s.reqs.get? 2).isNone) = true by decide +kernel)
  simp only [Bool.and_eq_true, beq_iff_eq, Option.isNone_iff_eq_none] at hends
  obtain ⟨⟨hfirst, hsecond⟩, hfreed⟩ := hends
  refine ⟨_, s, hrun.of_restrict, hfirst, hsecond, hfreed,
    (noCrossTalk_iff hrun.of_restrict fun h => ?_).mpr hrun⟩
  match h with
  | 0 => decide +kernel
  | 1 => decide +kernel
  | 2 => decide +kernel
  | h + 3 => simp [callsOf, callsIn, clientConnects, fileFound, OneRequest]

/-- A read of no bytes while a write is pending: the write leads to a transfer that was freed. -/
theorem emptyRead_leaves_write : ¬ ∀ es s, server.Run init es s →
    (∀ h, OneRequest (callsOf h es)) → NoCrossTalk es s := by
  intro h
  obtain ⟨s, hrun, hends⟩ := EventLoop.exists_run_of_plays
    (show (server.plays init
        [clientConnects, .reqRead 0 (.data 36 (getRequest "/a") 36), fileFound [65, 66],
          .fileRead 0 (.chunk [65]), .fileRead 0 (.chunk [])]).any
      (fun s => (s.tcp 0).writes == [⟨some 0, [65]⟩] && (s.pipes.get? 0).isNone) = true by
        decide +kernel)
  simp only [Bool.and_eq_true, beq_iff_eq, Option.isNone_iff_eq_none] at hends
  obtain ⟨hwrites, hfreed⟩ := hends
  have hone : ∀ h, OneRequest (callsOf h
      [clientConnects, .reqRead 0 (.data 36 (getRequest "/a") 36), fileFound [65, 66],
        .fileRead 0 (.chunk [65]), .fileRead 0 (.chunk [])]) := fun h =>
    match h with
    | 0 => by decide +kernel
    | h + 1 => by simp [callsOf, callsIn, clientConnects, fileFound, OneRequest]
  obtain ⟨p, b, hdata, hb, -⟩ := (h _ s hrun hone).write 0 ⟨some 0, [65]⟩ (by rw [hwrites]; simp)
  cases hdata
  rw [hfreed] at hb
  cases hb

end LibuvDox.StaticWebServer
