import LibuvDox.StaticWebServer.TransferLinks
import LibuvDox.TransferEnds

/-!
# One transfer among all

What `PipeFile` says of one transfer on its own is true of each transfer of the server, however many
there are and whatever the other connections do: seen through one of them, a run of the server is a
run of this transfer.

* `OnlyTransfer`: the callbacks of a transfer leave everything else as it is.
* `view_fileRead`, `view_written`: in the server they do what they do to the transfer on its own.
* `Viewed`, `Viewed.step`: the invariant, and what one event does to it.
* `transfer_of_run`: the simulation, with the events that are this transfer's.
-/

namespace LibuvDox

namespace Transfer

variable {prog : TransferProgram} {t : Transfer} {p : FileTcpPipe}

/-- A write that has not caught up with the reads. -/
theorem dispatch_behind (hp : t.block = some p)
    (hbehind : p.nwritten + (t.pending.headD []).length ≠ p.nread) :
    dispatch prog t (.written 0) = .ok ({ t with pending := t.pending.tail }.act
      { p with nwritten := p.nwritten + (t.pending.headD []).length } true (.settle .goOn)) := by
  rw [dispatch, hp, prog.onWriteRes_live, if_neg hbehind]
  rfl

/-- A write that has caught up with all that there was to be read. -/
theorem dispatch_caught (hp : t.block = some p)
    (hcaught : p.nwritten + (t.pending.headD []).length = p.nread) (hsize : p.size = p.nread) :
    dispatch prog t (.written 0) = .ok ({ t with pending := t.pending.tail }.act
      { p with nwritten := p.nwritten + (t.pending.headD []).length } true
        (.settle (prog.atEnd 0))) := by
  rw [dispatch, hp, prog.onWriteRes_live, if_pos hcaught, if_pos hsize]
  rfl

end Transfer

namespace StaticWebServer

namespace Server

/-- A live transfer as it is on its own. -/
def view (s : Server) (b : FileTcpPipe) : Transfer where
  contents := (s.streams b.filePipe).contents
  offset := (s.streams b.filePipe).offset
  streamDone := !(s.streams b.filePipe).active
  block := some b
  pending := (s.tcp b.tcp).writes.map WriteReq.buf
  submitted := (s.tcp b.tcp).queued
  refused := (s.streams b.filePipe).offset - (s.tcp b.tcp).queued.length
  completed := []
  closing := 0

/-- What an event of the server is to the transfer `p`. -/
def eventsOf (p : ℕ) (s : Server) : ServerEvent → List TransferEvent
  | .fileRead f r =>
    if s.filePipes.get? f = some (some p) then
      [.fileRead r (decide ((s.tcp (s.streams f).tcp).closeCalls = 0))]
    else []
  | .written h status =>
    if (s.tcp h).writes.head?.bind WriteReq.data = some p then [.written status] else []
  | _ => []

/-- Only the transfer `p` with the block `b` is different: its block, its file stream, and what
libuv keeps for its connection. -/
structure OnlyTransfer (s u : Server) (p : ℕ) (b : FileTcpPipe) : Prop where
  reqs : u.reqs = s.reqs
  stats : u.stats = s.stats
  globals : u.root = s.root ∧ u.id = s.id
  next : u.pipes.next = s.pipes.next ∧ u.filePipes.next = s.filePipes.next
  pipes : ∀ q ≠ p, u.pipes.get? q = s.pipes.get? q
  filePipes : ∀ f ≠ b.filePipe, u.filePipes.get? f = s.filePipes.get? f
  streams : ∀ f ≠ b.filePipe, u.streams f = s.streams f
  tcp : ∀ h ≠ b.tcp, u.tcp h = s.tcp h

section

variable {s t u : Server} {h p : ℕ} {b c : FileTcpPipe} {hr : SwsHandleReq} {r : ReadResult}

/-! ### What a transfer leaves alone -/

theorem OnlyTransfer.refl (s : Server) (p : ℕ) (b : FileTcpPipe) : OnlyTransfer s s p b :=
  ⟨rfl, rfl, ⟨rfl, rfl⟩, ⟨rfl, rfl⟩, fun _ _ => rfl, fun _ _ => rfl, fun _ _ => rfl, fun _ _ => rfl⟩

theorem OnlyTransfer.trans (h1 : OnlyTransfer s t p b) (h2 : OnlyTransfer t u p b) :
    OnlyTransfer s u p b where
  reqs := h2.reqs.trans h1.reqs
  stats := h2.stats.trans h1.stats
  globals := ⟨h2.globals.1.trans h1.globals.1, h2.globals.2.trans h1.globals.2⟩
  next := ⟨h2.next.1.trans h1.next.1, h2.next.2.trans h1.next.2⟩
  pipes q hq := (h2.pipes q hq).trans (h1.pipes q hq)
  filePipes f hf := (h2.filePipes f hf).trans (h1.filePipes f hf)
  streams f hf := (h2.streams f hf).trans (h1.streams f hf)
  tcp h hh := (h2.tcp h hh).trans (h1.tcp h hh)

theorem OnlyTransfer.setBlock (s : Server) (p : ℕ) (b c : FileTcpPipe) :
    OnlyTransfer s { s with pipes := s.pipes.set p c } p b :=
  ⟨rfl, rfl, ⟨rfl, rfl⟩, ⟨Heap.next_set _ _ _, rfl⟩, fun _ hq => Heap.get?_set_of_ne _ _ hq,
    fun _ _ => rfl, fun _ _ => rfl, fun _ _ => rfl⟩

theorem OnlyTransfer.readOn (s : Server) (p : ℕ) (b : FileTcpPipe) (r : ReadResult) :
    OnlyTransfer s (s.readOn b.filePipe r) p b :=
  ⟨rfl, rfl, ⟨rfl, rfl⟩, ⟨rfl, rfl⟩, fun _ _ => rfl, fun _ _ => rfl,
    fun _ hf => Function.update_of_ne hf _ _, fun _ _ => rfl⟩

theorem OnlyTransfer.setTcp (s : Server) (p : ℕ) (b : FileTcpPipe) (t : TcpHandle) :
    OnlyTransfer s (s.setTcp b.tcp t) p b :=
  ⟨rfl, rfl, ⟨rfl, rfl⟩, ⟨rfl, rfl⟩, fun _ _ => rfl, fun _ _ => rfl, fun _ _ => rfl,
    fun _ hh => Function.update_of_ne hh _ _⟩

theorem OnlyTransfer.uvWrite (s : Server) (p : ℕ) (b : FileTcpPipe) (w : WriteReq) :
    OnlyTransfer s (uvWrite s b.tcp w) p b := by
  unfold Server.uvWrite
  split
  · exact .setTcp s p b _
  · exact .refl s p b

theorem OnlyTransfer.free (s : Server) (p : ℕ) (b : FileTcpPipe) :
    OnlyTransfer s
      { s with pipes := s.pipes.free p, filePipes := s.filePipes.free b.filePipe } p b :=
  ⟨rfl, rfl, ⟨rfl, rfl⟩, ⟨Heap.next_free _ _, Heap.next_free _ _⟩,
    fun _ hq => Heap.get?_free_of_ne _ hq, fun _ hf => Heap.get?_free_of_ne _ hf, fun _ _ => rfl,
    fun _ _ => rfl⟩

/-- The end of a transfer frees its block and its file handle, and closes its connection. -/
theorem OnlyTransfer.finish {status : ℤ} (hfile : c.filePipe = b.filePipe) (htcp : c.tcp = b.tcp)
    (hok : fileTcpPipeEnd s p c status = .ok u) : OnlyTransfer s u p b := by
  obtain ⟨-, v, hclose, rfl⟩ := fileTcpPipeEnd_ok hok
  obtain ⟨-, rfl⟩ := uvClose_ok hclose
  rw [htcp, hfile]
  exact (OnlyTransfer.setTcp s p b _).trans (.free _ p b)

theorem OnlyTransfer.fileRead (hs : TransferLinks s) (hb : s.pipes.get? p = some b)
    (hok : onFileRead s b.filePipe r = .ok u) : OnlyTransfer s u p b := by
  have hlink := (hs.block p b hb).1
  obtain ⟨q, b', hf, hb', hcases⟩ := onFileRead_ok hok
  cases hlink.symm.trans hf
  cases hb.symm.trans hb'
  rcases hcases with ⟨-, hwrite⟩ | ⟨-, hend⟩
  · obtain ⟨hr, -, rfl⟩ := writeData_ok hwrite
    exact ((OnlyTransfer.readOn s p b r).trans (.setBlock _ p b _)).trans (.uvWrite _ p b _)
  · exact ((OnlyTransfer.readOn s p b r).trans (.setBlock _ p b b)).trans (.finish rfl rfl hend)

/-- A write that is called back is one of the live transfer of its connection. -/
theorem Transfers.written_block (hs : Transfers s) {status : ℤ}
    (hok : onWriteRes s h status = .ok u) :
    status = 0 ∧ ∃ w ws p b v, (s.tcp h).writes = w :: ws ∧ w.data = some p ∧
      s.pipes.get? p = some b ∧ b.tcp = h ∧
      v = { s.setTcp b.tcp { s.tcp b.tcp with writes := ws } with
        pipes := s.pipes.set p { b with nwritten := b.nwritten + w.buf.length } } ∧
      ((b.nwritten + w.buf.length = b.nread ∧ b.size = b.nread ∧
          fileTcpPipeEnd v p { b with nwritten := b.nwritten + w.buf.length } 0 = .ok u) ∨
        (b.nwritten + w.buf.length ≠ b.nread ∧ u = v)) := by
  obtain ⟨hstatus, w, ws, p, b, v, hw, hdata, hb, hv, hcases⟩ := onWriteRes_ok hok
  obtain ⟨q, hown⟩ := hs.writes h w (hw ▸ List.mem_cons_self)
  cases hown.data.symm.trans hdata
  obtain rfl : b.tcp = h := by
    rcases hown.live with ⟨b', hb', htcp⟩ | ⟨hfree, -⟩
    · cases hb.symm.trans hb'
      exact htcp
    · cases hb.symm.trans hfree
  exact ⟨hstatus, w, ws, p, b, v, hw, hdata, hb, rfl, hv, hcases⟩

theorem OnlyTransfer.written (hs : Transfers s) (hb : s.pipes.get? p = some b) {status : ℤ}
    (hok : onWriteRes s b.tcp status = .ok u) : OnlyTransfer s u p b := by
  obtain ⟨-, w, ws, q, b', v, -, -, hb', htcp, rfl, hcases⟩ := hs.written_block hok
  obtain rfl := hs.inj hb hb' (.inr htcp)
  cases hb.symm.trans hb'
  have hv := (OnlyTransfer.setTcp s q b { s.tcp b.tcp with writes := ws }).trans
    (.setBlock _ q b { b with nwritten := b.nwritten + w.buf.length })
  rcases hcases with ⟨-, -, hend⟩ | ⟨-, rfl⟩
  · exact hv.trans (.finish rfl rfl hend)
  · exact hv

/-! ### What a transfer does -/

/-- A transfer whose file stream and connection are the same is the same. -/
theorem view_congr (hstream : u.streams b.filePipe = s.streams b.filePipe)
    (hwrites : (u.tcp b.tcp).writes = (s.tcp b.tcp).writes)
    (hqueued : (u.tcp b.tcp).queued = (s.tcp b.tcp).queued) : u.view b = s.view b := by
  unfold view
  rw [hstream, hwrites, hqueued]

/-- The transfer `p` goes on, and its connection is no more closing than before: only the counters
of its block are different. -/
structure GoesOn (s u : Server) (p : ℕ) (b c : FileTcpPipe) : Prop where
  block : u.pipes.get? p = some c
  filePipe : c.filePipe = b.filePipe
  tcp : c.tcp = b.tcp
  size : c.size = b.size
  closing : (u.tcp b.tcp).closeCalls = (s.tcp b.tcp).closeCalls

/-- A chunk of the file is read. -/
theorem view_chunk (hs : Transfers s) (hb : s.pipes.get? p = some b) (hpos : 0 < r.nread)
    (data : Option ℕ) :
    pipeFileLoop.dispatch (s.view b) (.fileRead r (decide ((s.tcp b.tcp).closeCalls = 0))) =
      .ok ((uvWrite { s.readOn b.filePipe r with
        pipes := s.pipes.set p { b with nread := b.nread + r.data.length } }
        b.tcp ⟨data, r.data⟩).view { b with nread := b.nread + r.data.length }) := by
  have hdispatch : pipeFileLoop.dispatch (s.view b)
      (.fileRead r (decide ((s.tcp b.tcp).closeCalls = 0))) = .ok _ :=
    Transfer.dispatch_data rfl hpos
  refine hdispatch.trans (congrArg Except.ok ?_)
  have hle : (s.tcp b.tcp).queued.length ≤ (s.streams b.filePipe).offset :=
    (hs.sent_live hb).length_le.trans (List.length_take_le _ _)
  have hactive : decide (0 ≤ r.nread) = true := decide_eq_true hpos.le
  by_cases hopen : (s.tcp b.tcp).closeCalls = 0
  · simp [view, Transfer.act, Server.uvWrite, Server.readOn, setTcp, hopen, hactive]
    omega
  · simp [view, Transfer.act, Server.uvWrite, Server.readOn, hopen, hactive]
    omega

/-- **A result of the file stream**: data moves the transfer on as it does on its own, anything else
ends it. -/
theorem view_fileRead (hs : Transfers s) (hb : s.pipes.get? p = some b)
    (hok : onFileRead s b.filePipe r = .ok u) :
    (0 < r.nread ∧ ∃ c, GoesOn s u p b c ∧
      pipeFileLoop.dispatch (s.view b) (.fileRead r (decide ((s.tcp b.tcp).closeCalls = 0))) =
        .ok (u.view c)) ∨
    (r.nread ≤ 0 ∧ u.pipes.get? p = none) := by
  have hlink := (hs.block p b hb).1
  obtain ⟨q, b', hf, hb', hcases⟩ := onFileRead_ok hok
  cases hlink.symm.trans hf
  cases hb.symm.trans hb'
  rcases hcases with ⟨hpos, hwrite⟩ | ⟨hle, hend⟩
  · obtain ⟨hr, -, rfl⟩ := writeData_ok hwrite
    refine .inl ⟨hpos, { b with nread := b.nread + r.data.length }, ⟨?_, rfl, rfl, rfl, ?_⟩,
      view_chunk hs hb hpos hr.data⟩
    · unfold Server.uvWrite
      split
      · exact Heap.get?_set_self hb _
      · exact Heap.get?_set_self hb _
    · unfold Server.uvWrite
      split
      · simp [setTcp, Server.readOn]
      · rfl
  · obtain ⟨-, v, hclose, rfl⟩ := fileTcpPipeEnd_ok hend
    exact .inr ⟨hle, Heap.get?_free_self _ _⟩

/-- The response of a transfer has been sent, and its connection is being closed. -/
structure Responded (s u : Server) (h p : ℕ) (v : Transfer) : Prop where
  block : u.pipes.get? p = none
  queued : (u.tcp h).queued = v.submitted
  writes : (u.tcp h).writes.map WriteReq.buf = v.pending
  closing : (u.tcp h).closeCalls = (s.tcp h).closeCalls + 1 ∧ (u.tcp h).closeCb = some .onResEnd

/-- **A write that completes** moves the transfer on as it does on its own, or ends it. -/
theorem view_written (hs : Transfers s) (hb : s.pipes.get? p = some b) {status : ℤ}
    (hok : onWriteRes s b.tcp status = .ok u) :
    status = 0 ∧ ((∃ c, GoesOn s u p b c ∧
        pipeFileLoop.dispatch (s.view b) (.written 0) = .ok (u.view c)) ∨
      ∃ v, pipeFileLoop.dispatch (s.view b) (.written 0) = .ok v ∧ v.block = none ∧
        Responded s u b.tcp p v) := by
  obtain ⟨hstatus, w, ws, q, b', v, hw, -, hb', htcp, rfl, hcases⟩ := hs.written_block hok
  obtain rfl := hs.inj hb hb' (.inr htcp)
  cases hb.symm.trans hb'
  have hpending : (s.view b).pending = w.buf :: ws.map WriteReq.buf := by
    show (s.tcp b.tcp).writes.map WriteReq.buf = _
    rw [hw, List.map_cons]
  refine ⟨hstatus, ?_⟩
  rcases hcases with ⟨hcaught, hsize, hend⟩ | ⟨hbehind, rfl⟩
  · have hdispatch : pipeFileLoop.dispatch (s.view b) (.written 0) = .ok { s.view b with
        pending := ws.map WriteReq.buf, block := none, completed := [0] } := by
      refine (Transfer.dispatch_caught (t := s.view b) rfl ?_ hsize).trans ?_
      · rw [hpending]
        exact hcaught
      · rw [hpending]
        rfl
    obtain ⟨-, v, hclose, rfl⟩ := fileTcpPipeEnd_ok hend
    obtain ⟨-, rfl⟩ := uvClose_ok hclose
    refine .inr ⟨_, hdispatch, rfl, Heap.get?_free_self _ _, ?_, ?_, ?_⟩
    all_goals simp [setTcp, view]
  · refine .inl ⟨{ b with nwritten := b.nwritten + w.buf.length },
      ⟨Heap.get?_set_self hb _, rfl, rfl, rfl, ?_⟩,
      (Transfer.dispatch_behind (t := s.view b) rfl ?_).trans ?_⟩
    · simp [setTcp]
    · rw [hpending]
      exact hbehind
    · rw [hpending]
      simp [view, Transfer.act, setTcp]

/-! ### Every run -/

/-- **The invariant.**  A live transfer is where a run of its own has led to; the events of this run
are listed for each transfer, and none for those that have not begun. -/
structure Viewed (events : ℕ → List TransferEvent) (s : Server) : Prop where
  run : ∀ p b, s.pipes.get? p = some b →
    pipeFileLoop.Run (.start (s.streams b.filePipe).contents (.fresh b.size b.filePipe b.tcp))
      (events p) (s.view b)
  fresh : ∀ p, s.pipes.next ≤ p → events p = []

variable {events events' : ℕ → List TransferEvent}

/-- Steps that leave the transfers alone. -/
theorem Viewed.of_frame (hv : Viewed events s) (hf : Frame s u) : Viewed events u where
  run p b hb := by
    rw [hf.pipes] at hb
    rw [view_congr (congrFun hf.streams _) (hf.writes _) (hf.queued _), hf.streams]
    exact hv.run p b hb
  fresh p hle := by
    rw [hf.pipes] at hle
    exact hv.fresh p hle

/-- A transfer begins. -/
theorem Viewed.piped (hv : Viewed events s) (hs : Transfers s) (hget : s.reqs.get? h = some hr)
    (hnull : hr.data = none) {size : ℕ} {path contents : Bytes} :
    Viewed events (s.piped h hr size path contents) where
  run p c hc := by
    rcases hs.piped_block hget hnull hc with ⟨rfl, rfl, hstream⟩ | ⟨hc, hstream, -⟩
    · obtain ⟨hqueued, hwrites⟩ := hs.unsent h fun f hf => hs.stream_ne hget hnull hf
      have hstart : (s.piped h hr size path contents).view (.fresh size s.filePipes.next h) =
          .start contents (.fresh size s.filePipes.next h) := by
        unfold view
        rw [hstream]
        show Transfer.mk _ _ _ _ ((s.tcp h).writes.map _) (s.tcp h).queued
          (0 - (s.tcp h).queued.length) _ _ = _
        rw [hqueued, hwrites]
        rfl
      rw [hstart, hv.fresh _ le_rfl, hstream]
      exact .nil
    · rw [view_congr (s := s) hstream rfl rfl, hstream]
      exact hv.run p c hc
  fresh p hle := by
    rw [piped_pipes_next] at hle
    exact hv.fresh p (by omega)

/-- A transfer moves on by an event of its own, or ends. -/
theorem Viewed.moved (hv : Viewed events s) (hs : TransferLinks s) (hb : s.pipes.get? p = some b)
    (honly : OnlyTransfer s u p b) (hothers : ∀ q ≠ p, events' q = events q)
    (hown : ∀ c, u.pipes.get? p = some c → GoesOn s u p b c ∧ ∃ e,
      pipeFileLoop.enabled (s.view b) e ∧ pipeFileLoop.dispatch (s.view b) e = .ok (u.view c) ∧
      events' p = events p ++ [e]) :
    Viewed events' u where
  run q c hc := by
    by_cases hq : q = p
    · subst hq
      obtain ⟨hgoes, e, he, hd, hevents⟩ := hown c hc
      have hrun := (hv.run q b hb).snoc he hd
      have hsame : (u.streams c.filePipe).contents = (s.streams b.filePipe).contents :=
        (Transfer.sound hrun).contents
      have hfresh : FileTcpPipe.fresh c.size c.filePipe c.tcp =
          .fresh b.size b.filePipe b.tcp := by
        rw [hgoes.size, hgoes.filePipe, hgoes.tcp]
      rw [hsame, hfresh, hevents]
      exact hrun
    · have hc' : s.pipes.get? q = some c := (honly.pipes q hq).symm.trans hc
      have hfile : c.filePipe ≠ b.filePipe := fun heq => hq (hs.inj hb hc' (.inl heq))
      have htcp : c.tcp ≠ b.tcp := fun heq => hq (hs.inj hb hc' (.inr heq))
      rw [view_congr (honly.streams _ hfile) (by rw [honly.tcp _ htcp]) (by rw [honly.tcp _ htcp]),
        honly.streams _ hfile, hothers q hq]
      exact hv.run q c hc'
  fresh q hle := by
    rw [honly.next.1] at hle
    have hlt := Heap.lt_next hb
    rw [hothers q (by omega)]
    exact hv.fresh q hle

theorem Viewed.fileRead (hv : Viewed events s) (hs : Transfers s) {f : ℕ}
    (he : server.enabled s (.fileRead f r)) (hok : onFileRead s f r = .ok u) :
    Viewed (fun p => events p ++ eventsOf p s (.fileRead f r)) u := by
  obtain ⟨p, b, hf, hb, -⟩ := onFileRead_ok hok
  obtain ⟨p', b', hp', hb', rfl⟩ := hs.file f _ hf
  cases hp'
  cases hb.symm.trans hb'
  have htcp : (s.streams b.filePipe).tcp = b.tcp := (hs.block p b hb).2
  refine hv.moved hs.toTransferLinks hb (.fileRead hs.toTransferLinks hb hok) ?_ ?_
  · intro q hq
    have hne : s.filePipes.get? b.filePipe ≠ some (some q) := by
      rw [hf]
      intro heq
      exact hq (Option.some.inj (Option.some.inj heq)).symm
    show events q ++ (if _ then _ else _) = events q
    rw [if_neg hne, List.append_nil]
  · intro c hc
    rcases view_fileRead hs hb hok with ⟨-, d, hgoes, hmove⟩ | ⟨-, hfreed⟩
    · cases hgoes.block.symm.trans hc
      refine ⟨hgoes, .fileRead r (decide ((s.tcp b.tcp).closeCalls = 0)),
        ⟨?_, he.2.1, he.2.2⟩, hmove, ?_⟩
      · show (!(s.streams b.filePipe).active) = false
        rw [he.1]
        rfl
      · show events p ++ (if _ then _ else _) = _
        rw [if_pos hf, htcp]
    · cases hfreed.symm.trans hc

theorem Viewed.written (hv : Viewed events s) (hs : Transfers s) {status : ℤ}
    (hok : onWriteRes s h status = .ok u) :
    Viewed (fun p => events p ++ eventsOf p s (.written h status)) u := by
  obtain ⟨-, w, ws, p, b, -, hw, hdata, hb, rfl, -⟩ := hs.written_block hok
  have hhead : (s.tcp b.tcp).writes.head?.bind WriteReq.data = some p := by
    rw [hw]
    exact hdata
  refine hv.moved hs.toTransferLinks hb (.written hs hb hok) ?_ ?_
  · intro q hq
    have hne : (s.tcp b.tcp).writes.head?.bind WriteReq.data ≠ some q := by
      rw [hhead]
      intro heq
      exact hq (Option.some.inj heq).symm
    show events q ++ (if _ then _ else _) = events q
    rw [if_neg hne, List.append_nil]
  · intro c hc
    obtain ⟨rfl, ⟨d, hgoes, hmove⟩ | ⟨v, -, -, hresponded⟩⟩ := view_written hs hb hok
    · cases hgoes.block.symm.trans hc
      refine ⟨hgoes, _, ?_, hmove, ?_⟩
      · show (s.tcp b.tcp).writes.map WriteReq.buf ≠ []
        rw [hw]
        exact List.cons_ne_nil _ _
      · show events p ++ (if _ then _ else _) = _
        rw [if_pos hhead]
    · cases hresponded.block.symm.trans hc

/-- **One event** of the server is at most one event of each transfer. -/
theorem Viewed.step (hv : Viewed events s) (hs : Transfers s) (hl : Linked s) {e : ServerEvent}
    (he : server.enabled s e) (hok : server.dispatch s e = .ok u) :
    Viewed (fun p => events p ++ eventsOf p s e) u := by
  have hquiet : (∀ p, eventsOf p s e = []) → (fun p => events p ++ eventsOf p s e) = events := by
    intro hnone
    funext p
    rw [hnone, List.append_nil]
  cases e with
  | connect status accept junk info =>
    rw [hquiet fun _ => rfl]
    exact hv.of_frame (.connect hok)
  | reqRead h r =>
    rw [hquiet fun _ => rfl]
    exact hv.of_frame (.reqRead hok)
  | stat i result env pipe contents =>
    rw [hquiet fun _ => rfl]
    obtain ⟨req, hr, -, hget, ⟨e, -, hagain⟩ | ⟨size, -, hpipe⟩⟩ := hl.fsStatCb_ok hok
    · exact hv.of_frame ((Frame.tell hget result).trans (.resolve hagain))
    · have htold := Frame.tell (i := i) hget result
      obtain ⟨hr', hget', hnull, rfl⟩ := swsPipeFile_ok hpipe
      exact (hv.of_frame htold).piped (hs.of_frame htold) hget' hnull
  | fileRead f r => exact hv.fileRead hs he hok
  | written h status => exact hv.written hs hok
  | closed h =>
    rw [hquiet fun _ => rfl]
    exact hv.of_frame (.closed hok)

/-- **Every run** of the server. -/
theorem viewed_of_run {es : List ServerEvent} (hrun : server.Run init es s) :
    Viewed (fun p => server.observe (eventsOf p) init es) s := by
  induction hrun with
  | nil => exact ⟨by simp [init], fun _ _ => rfl⟩
  | @snoc es t e u hrun he hok ih =>
    obtain ⟨hs, hl⟩ := transfers_of_run hrun
    have hshown : (fun p => server.observe (eventsOf p) init (es ++ [e])) =
        fun p => server.observe (eventsOf p) init es ++ eventsOf p t e :=
      funext fun p => hrun.observe_concat e
    rw [hshown]
    exact ih.step hs hl he hok

end

end Server

open Server

/-- **One transfer among all.**  Whatever else happens in a run of the server, what it does to a
live transfer is a run of this transfer on its own, from the block that `sws_pipe_file` leaves, by
the results of its own file stream and the completions of its own writes. -/
theorem transfer_of_run {es : List ServerEvent} {s : Server} {p : ℕ} {b : FileTcpPipe}
    (hrun : server.Run init es s) (hb : s.pipes.get? p = some b) :
    pipeFileLoop.Run (.start (s.streams b.filePipe).contents (.fresh b.size b.filePipe b.tcp))
      (server.observe (eventsOf p) init es) (s.view b) :=
  (viewed_of_run hrun).run p b hb

/-- Two clients are sent a file each, in turns: of the first one, of three bytes, two have been read
and one has been written, and of the second one a byte has been read. -/
theorem transfer_of_run_twoClients : ∃ es s b, server.Run init es s ∧ s.pipes.get? 0 = some b ∧
    server.observe (eventsOf 0) init es =
      [.fileRead (.chunk [65]) true, .fileRead (.chunk [66]) true, .written 0] ∧
    server.observe (eventsOf 1) init es = [.fileRead (.chunk [97]) true] ∧
    pipeFileLoop.Run (.start (s.streams b.filePipe).contents (.fresh b.size b.filePipe b.tcp))
      (server.observe (eventsOf 0) init es) (s.view b) := by
  obtain ⟨s, hrun, hlive⟩ := EventLoop.exists_run_of_plays
    (show (server.plays init
        [clientConnects, clientConnects, .reqRead 0 (.data 36 (getRequest "/a") 36),
          .reqRead 1 (.data 36 (getRequest "/b") 36), fileFound [65, 66, 67], fileFound [97, 98],
          .fileRead 0 (.chunk [65]), .fileRead 1 (.chunk [97]), .fileRead 0 (.chunk [66]),
          .written 0 0]).any
      (fun s => (s.pipes.get? 0).isSome) = true by decide +kernel)
  obtain ⟨b, hb⟩ := Option.isSome_iff_exists.mp hlive
  exact ⟨_, s, b, hrun, hb, by decide +kernel, by decide +kernel, transfer_of_run hrun hb⟩

end StaticWebServer

end LibuvDox
