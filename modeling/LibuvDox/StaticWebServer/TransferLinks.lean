import LibuvDox.StaticWebServer.ConnectionFrame

/-!
# Transfers and their connections

A transfer is a `file_tcp_pipe_t` that lies between a file stream and a connection.  Whatever the
events of a run are, a connection has at most one file stream, the pointers of a transfer that has
not ended lead to each other, and what was queued on the connection was read from its stream.

* `Transfers`: the invariant; `Transfers.change`, a step of one transfer.
* `transfers_of_run`: it holds in every run of the server.
-/

namespace LibuvDox.StaticWebServer

/-- The stream of a file after a chunk of it was read. -/
def FileStream.read (st : FileStream) (data : Bytes) (active : Bool) : FileStream :=
  { st with offset := st.offset + data.length, active := active }

/-- What has been read grows by the chunk. -/
theorem FileStream.take_read {st : FileStream} {data : Bytes} (active : Bool)
    (hpre : data <+: st.contents.drop st.offset) :
    (st.read data active).contents.take (st.read data active).offset =
      st.contents.take st.offset ++ data := by
  show st.contents.take (st.offset + data.length) = _
  rw [List.take_add, ← List.prefix_iff_eq_take.mp hpre]

namespace Server

/-- The bytes of the writes that have not been called back. -/
def unwritten (t : TcpHandle) : ℕ := (t.writes.map fun w => w.buf.length).sum

/-- The transfer `p` of the connection `h` has not ended; or it has, and the connection is being
closed. -/
def LiveOrEnded (s : Server) (h p : ℕ) : Prop :=
  (∃ b, s.pipes.get? p = some b ∧ b.tcp = h) ∨
    (s.pipes.get? p = none ∧ (s.tcp h).closeCalls ≠ 0)

/-- A write that is pending on the connection `h` was issued for the transfer of this connection,
which may have ended since. -/
structure IssuedFor (s : Server) (h : ℕ) (w : WriteReq) (p : ℕ) : Prop where
  data : w.data = some p
  below : p < s.pipes.next
  tcp : ∀ hr, s.reqs.get? h = some hr → hr.data = some p
  live : LiveOrEnded s h p

/-- The pointers of the transfers that have not ended, and the connections of the file streams. -/
structure TransferLinks (s : Server) : Prop where
  block : ∀ p b, s.pipes.get? p = some b →
    s.filePipes.get? b.filePipe = some (some p) ∧ (s.streams b.filePipe).tcp = b.tcp
  file : ∀ f d, s.filePipes.get? f = some d →
    ∃ p b, d = some p ∧ s.pipes.get? p = some b ∧ b.filePipe = f
  data : ∀ h hr p, s.reqs.get? h = some hr → hr.data = some p →
    p < s.pipes.next ∧ ∀ b, s.pipes.get? p = some b → b.tcp = h
  back : ∀ p b hr, s.pipes.get? p = some b → s.reqs.get? b.tcp = some hr → hr.data = some p
  owner : ∀ f < s.filePipes.next, (s.streams f).tcp < s.reqs.next ∧
    ∀ hr, s.reqs.get? (s.streams f).tcp = some hr → hr.data ≠ none
  one : ∀ f < s.filePipes.next, ∀ f' < s.filePipes.next,
    (s.streams f).tcp = (s.streams f').tcp → f = f'

/-- **The invariant**: the pointers, and where the bytes come from that were queued and counted. -/
structure Transfers (s : Server) : Prop extends TransferLinks s where
  writes : ∀ h, ∀ w ∈ (s.tcp h).writes, ∃ p, IssuedFor s h w p
  unsent : ∀ h, (∀ f < s.filePipes.next, (s.streams f).tcp ≠ h) →
    (s.tcp h).queued = [] ∧ (s.tcp h).writes = []
  sent : ∀ f < s.filePipes.next,
    (s.tcp (s.streams f).tcp).queued <+: (s.streams f).contents.take (s.streams f).offset
  all : ∀ p b, s.pipes.get? p = some b → (s.tcp b.tcp).closeCalls = 0 →
    (s.tcp b.tcp).queued = (s.streams b.filePipe).contents.take (s.streams b.filePipe).offset
  nread : ∀ p b, s.pipes.get? p = some b → b.nread = (s.streams b.filePipe).offset
  nwritten : ∀ p b, s.pipes.get? p = some b →
    b.nwritten + unwritten (s.tcp b.tcp) = (s.tcp b.tcp).queued.length

theorem init_transfers : Transfers init where
  block := by simp [init]
  file := by simp [init]
  data := by simp [init]
  back := by simp [init]
  owner := by simp [init]
  one := by simp [init]
  writes := by simp [init]
  unsent := by simp [init]
  sent := by simp [init]
  all := by simp [init]
  nread := by simp [init]
  nwritten := by simp [init]

section

variable {s u : Server} {h p : ℕ} {hr : SwsHandleReq} {b : FileTcpPipe}

/-- A connection that has a file stream is an old one. -/
theorem TransferLinks.tcp_lt (hs : TransferLinks s) (hb : s.pipes.get? p = some b) :
    b.tcp < s.reqs.next := by
  obtain ⟨hfile, hstream⟩ := hs.block p b hb
  have hlt := (hs.owner _ (Heap.lt_next hfile)).1
  rwa [hstream] at hlt

theorem TransferLinks.of_frame (hs : TransferLinks s) (hf : Frame s u) : TransferLinks u where
  block := by
    rw [hf.pipes, hf.filePipes, hf.streams]
    exact hs.block
  file := by
    rw [hf.pipes, hf.filePipes]
    exact hs.file
  data h hr p hget hdata := by
    rw [hf.pipes]
    by_cases hlt : h < s.reqs.next
    · obtain ⟨hr', hget', hdata'⟩ := hf.old h hr hget hlt
      exact hs.data h hr' p hget' (hdata'.trans hdata)
    · rw [hf.fresh h hr hget (Nat.le_of_not_lt hlt)] at hdata
      cases hdata
  back p b hr hb hget := by
    rw [hf.pipes] at hb
    obtain ⟨hr', hget', hdata'⟩ := hf.old _ hr hget (hs.tcp_lt hb)
    rw [← hdata']
    exact hs.back p b hr' hb hget'
  owner f hlt := by
    rw [hf.filePipes] at hlt
    rw [hf.streams]
    obtain ⟨htcp, hnone⟩ := hs.owner f hlt
    refine ⟨lt_of_lt_of_le htcp hf.grows, fun hr hget => ?_⟩
    obtain ⟨hr', hget', hdata'⟩ := hf.old _ hr hget htcp
    rw [← hdata']
    exact hnone hr' hget'
  one := by
    rw [hf.filePipes, hf.streams]
    exact hs.one

/-- A connection with a pending write is an old one. -/
theorem Transfers.writes_lt (hs : Transfers s) {w : WriteReq} (hw : w ∈ (s.tcp h).writes) :
    h < s.reqs.next := by
  by_contra hge
  have hnone : ∀ f < s.filePipes.next, (s.streams f).tcp ≠ h := by
    intro f hf heq
    have hlt := (hs.owner f hf).1
    omega
  rw [(hs.unsent h hnone).2] at hw
  cases hw

theorem Transfers.of_frame (hs : Transfers s) (hf : Frame s u) : Transfers u where
  toTransferLinks := hs.toTransferLinks.of_frame hf
  writes h w hw := by
    rw [hf.writes] at hw
    obtain ⟨p, hissued⟩ := hs.writes h w hw
    refine ⟨p, hissued.data, hf.pipes ▸ hissued.below, fun hr hget => ?_, ?_⟩
    · obtain ⟨hr', hget', hdata'⟩ := hf.old h hr hget (hs.writes_lt hw)
      rw [← hdata']
      exact hissued.tcp hr' hget'
    · unfold LiveOrEnded
      rw [hf.pipes]
      rcases hissued.live with hlive | ⟨hfree, hclosing⟩
      · exact .inl hlive
      · have hle := hf.closing h
        exact .inr ⟨hfree, by omega⟩
  unsent h hnone := by
    rw [hf.filePipes, hf.streams] at hnone
    rw [hf.queued, hf.writes]
    exact hs.unsent h hnone
  sent f hlt := by
    rw [hf.filePipes] at hlt
    rw [hf.streams, hf.queued]
    exact hs.sent f hlt
  all p b hb hopen := by
    rw [hf.pipes] at hb
    rw [hf.streams, hf.queued]
    have hle := hf.closing b.tcp
    exact hs.all p b hb (by omega)
  nread p b hb := by
    rw [hf.pipes] at hb
    rw [hf.streams]
    exact hs.nread p b hb
  nwritten p b hb := by
    rw [hf.pipes] at hb
    unfold unwritten
    rw [hf.queued, hf.writes]
    exact hs.nwritten p b hb

/-! ### One transfer -/

/-- Two transfers with one file stream or one connection are the same. -/
theorem TransferLinks.inj (hs : TransferLinks s) {q : ℕ} {c : FileTcpPipe}
    (hb : s.pipes.get? p = some b) (hc : s.pipes.get? q = some c)
    (heq : c.filePipe = b.filePipe ∨ c.tcp = b.tcp) : q = p := by
  obtain ⟨hfile, hstream⟩ := hs.block p b hb
  obtain ⟨hfile', hstream'⟩ := hs.block q c hc
  have hsame : c.filePipe = b.filePipe := by
    rcases heq with hsame | htcp
    · exact hsame
    · refine hs.one _ (Heap.lt_next hfile') _ (Heap.lt_next hfile) ?_
      rw [hstream, hstream', htcp]
  rw [hsame] at hfile'
  exact Option.some.inj (Option.some.inj (hfile'.symm.trans hfile))

/-- The transfer `p` after a callback: its block `c`, its stream `st` and its connection `t`. -/
def moved (s : Server) (p : ℕ) (c : FileTcpPipe) (st : FileStream) (t : TcpHandle) : Server :=
  { s with
    pipes := s.pipes.set p c
    streams := Function.update s.streams c.filePipe st
    tcp := Function.update s.tcp c.tcp t }

/-- What a callback may do to the transfer `p` whose block was `b` and has become `c`. -/
structure Moves (s : Server) (p : ℕ) (b c : FileTcpPipe) (st : FileStream) (t : TcpHandle) :
    Prop where
  live : s.pipes.get? p = some b
  tcp : c.tcp = b.tcp
  filePipe : c.filePipe = b.filePipe
  stream : st.tcp = b.tcp
  nread : c.nread = st.offset
  nwritten : c.nwritten + unwritten t = t.queued.length
  closing : (s.tcp b.tcp).closeCalls ≤ t.closeCalls
  writes : ∀ w ∈ t.writes, w ∈ (s.tcp b.tcp).writes ∨
    (w.data = some p ∧ ∀ hr, s.reqs.get? b.tcp = some hr → hr.data = some p)
  sent : t.queued <+: st.contents.take st.offset
  all : t.closeCalls = 0 → t.queued = st.contents.take st.offset

variable {c : FileTcpPipe} {st : FileStream} {t : TcpHandle}

theorem Moves.streams (hm : Moves s p b c st t) (f : ℕ) :
    (s.moved p c st t).streams f = if f = b.filePipe then st else s.streams f := by
  show Function.update _ _ _ _ = _
  rw [Function.update_apply, hm.filePipe]

theorem Moves.tcps (hm : Moves s p b c st t) (h : ℕ) :
    (s.moved p c st t).tcp h = if h = b.tcp then t else s.tcp h := by
  show Function.update _ _ _ _ = _
  rw [Function.update_apply, hm.tcp]

theorem Moves.get? (hm : Moves s p b c st t) (q : ℕ) :
    (s.moved p c st t).pipes.get? q = if q = p then some c else s.pipes.get? q :=
  Heap.get?_set hm.live c q

theorem Moves.next (_ : Moves s p b c st t) : (s.moved p c st t).pipes.next = s.pipes.next :=
  Heap.next_set _ _ _

/-- A file stream stays with its connection. -/
theorem Moves.streamTcp (hm : Moves s p b c st t) (hs : TransferLinks s) (f : ℕ) :
    ((s.moved p c st t).streams f).tcp = (s.streams f).tcp := by
  rw [hm.streams]
  split
  · rename_i heq
    rw [heq, hm.stream, (hs.block p b hm.live).2]
  · rfl

/-- A transfer of the new state is the one that has moved, or lies elsewhere. -/
theorem Moves.cases (hm : Moves s p b c st t) (hs : TransferLinks s) {q : ℕ} {d : FileTcpPipe}
    (hd : (s.moved p c st t).pipes.get? q = some d) :
    (q = p ∧ d = c) ∨ (s.pipes.get? q = some d ∧ d.filePipe ≠ b.filePipe ∧ d.tcp ≠ b.tcp) := by
  rw [hm.get?] at hd
  split at hd
  · rename_i heq
    cases hd
    exact .inl ⟨heq, rfl⟩
  · rename_i hne
    exact .inr ⟨hd, fun heq => hne (hs.inj hm.live hd (.inl heq)),
      fun heq => hne (hs.inj hm.live hd (.inr heq))⟩

theorem TransferLinks.moved (hs : TransferLinks s) (hm : Moves s p b c st t) :
    TransferLinks (s.moved p c st t) where
  block q d hd := by
    rw [hm.streamTcp hs]
    rcases hm.cases hs hd with ⟨rfl, rfl⟩ | ⟨hd, -, -⟩
    · rw [hm.filePipe, hm.tcp]
      exact hs.block q b hm.live
    · exact hs.block q d hd
  file f d hf := by
    obtain ⟨q, c', hdata, hc, hcf⟩ := hs.file f d hf
    by_cases heq : q = p
    · rw [heq, hm.live] at hc
      cases hc
      exact ⟨q, c, hdata, (hm.get? q).trans (if_pos heq), hm.filePipe.trans hcf⟩
    · exact ⟨q, c', hdata, ((hm.get? q).trans (if_neg heq)).trans hc, hcf⟩
  data h hr q hget hdata := by
    obtain ⟨hlt, htcp⟩ := hs.data h hr q hget hdata
    refine ⟨hlt.trans_eq hm.next.symm, fun d hd => ?_⟩
    rcases hm.cases hs hd with ⟨rfl, rfl⟩ | ⟨hd, -, -⟩
    · exact hm.tcp.trans (htcp b hm.live)
    · exact htcp d hd
  back q d hr hd hget := by
    rcases hm.cases hs hd with ⟨rfl, rfl⟩ | ⟨hd, -, -⟩
    · rw [hm.tcp] at hget
      exact hs.back q b hr hm.live hget
    · exact hs.back q d hr hd hget
  owner f hf := by
    rw [hm.streamTcp hs]
    exact hs.owner f hf
  one f hf f' hf' := by
    rw [hm.streamTcp hs, hm.streamTcp hs]
    exact hs.one f hf f' hf'

/-- The other transfers live on, and a connection that is closing is not opened again. -/
theorem Moves.liveOrEnded (hm : Moves s p b c st t) {q : ℕ} (hq : LiveOrEnded s h q) :
    LiveOrEnded (s.moved p c st t) h q := by
  unfold LiveOrEnded
  rw [hm.get?]
  rcases hq with ⟨d, hd, hdtcp⟩ | ⟨hfree, hclosing⟩
  · by_cases heq : q = p
    · rw [heq, hm.live] at hd
      cases hd
      exact .inl ⟨c, if_pos heq, hm.tcp.trans hdtcp⟩
    · exact .inl ⟨d, (if_neg heq).trans hd, hdtcp⟩
  · have hne : q ≠ p := by
      rintro rfl
      rw [hm.live] at hfree
      cases hfree
    refine .inr ⟨(if_neg hne).trans hfree, ?_⟩
    rw [hm.tcps]
    split
    · rename_i heq
      rw [heq] at hclosing
      have hle := hm.closing
      omega
    · exact hclosing

/-- **One transfer moves on**, and no other is touched. -/
theorem Transfers.moved (hs : Transfers s) (hm : Moves s p b c st t) :
    Transfers (s.moved p c st t) where
  toTransferLinks := hs.toTransferLinks.moved hm
  writes h w hw := by
    have hold : w ∈ (s.tcp h).writes → ∃ q, IssuedFor (s.moved p c st t) h w q := by
      intro hmem
      obtain ⟨q, hissued⟩ := hs.writes h w hmem
      exact ⟨q, hissued.data, hissued.below.trans_eq hm.next.symm, hissued.tcp, hm.liveOrEnded hissued.live⟩
    rw [hm.tcps] at hw
    split at hw
    · rename_i heq
      subst heq
      rcases hm.writes w hw with hmem | ⟨hdata, htcp⟩
      · exact hold hmem
      · have hbelow : p < s.pipes.next := Heap.lt_next hm.live
        exact ⟨p, hdata, hbelow.trans_eq hm.next.symm, htcp,
          hm.liveOrEnded (.inl ⟨b, hm.live, rfl⟩)⟩
    · exact hold hw
  unsent h hnone := by
    obtain ⟨hfile, hstream⟩ := hs.block p b hm.live
    have hne : h ≠ b.tcp := by
      rintro rfl
      exact hnone b.filePipe (Heap.lt_next hfile)
        ((hm.streamTcp hs.toTransferLinks _).trans hstream)
    rw [hm.tcps, if_neg hne]
    refine hs.unsent h fun f hf => ?_
    rw [← hm.streamTcp hs.toTransferLinks]
    exact hnone f hf
  sent f hf := by
    obtain ⟨hfile, hstream⟩ := hs.block p b hm.live
    rw [hm.streamTcp hs.toTransferLinks, hm.streams, hm.tcps]
    by_cases heq : f = b.filePipe
    · rw [if_pos heq, heq, hstream, if_pos rfl]
      exact hm.sent
    · have htcp : (s.streams f).tcp ≠ b.tcp := fun htcp =>
        heq (hs.one f hf _ (Heap.lt_next hfile) (htcp.trans hstream.symm))
      rw [if_neg heq, if_neg htcp]
      exact hs.sent f hf
  all q d hd hopen := by
    rw [hm.tcps] at hopen ⊢
    rw [hm.streams]
    rcases hm.cases hs.toTransferLinks hd with ⟨-, rfl⟩ | ⟨hd, hdf, hdt⟩
    · rw [if_pos hm.tcp] at hopen ⊢
      rw [if_pos hm.filePipe]
      exact hm.all hopen
    · rw [if_neg hdt] at hopen ⊢
      rw [if_neg hdf]
      exact hs.all q d hd hopen
  nread q d hd := by
    rw [hm.streams]
    rcases hm.cases hs.toTransferLinks hd with ⟨-, rfl⟩ | ⟨hd, hdf, -⟩
    · rw [if_pos hm.filePipe]
      exact hm.nread
    · rw [if_neg hdf]
      exact hs.nread q d hd
  nwritten q d hd := by
    rw [hm.tcps]
    rcases hm.cases hs.toTransferLinks hd with ⟨-, rfl⟩ | ⟨hd, -, hdt⟩
    · rw [if_pos hm.tcp]
      exact hm.nwritten
    · rw [if_neg hdt]
      exact hs.nwritten q d hd

/-! ### The begin and the end of a transfer -/

section

variable {size : ℕ} {path contents : Bytes}

/-- A connection whose `tcp->data` is `NULL` has no file stream. -/
theorem TransferLinks.stream_ne (hs : TransferLinks s) (hget : s.reqs.get? h = some hr)
    (hnull : hr.data = none) {f : ℕ} (hf : f < s.filePipes.next) : (s.streams f).tcp ≠ h := by
  rintro rfl
  exact (hs.owner f hf).2 hr hget hnull

theorem TransferLinks.tcp_ne (hs : TransferLinks s) (hget : s.reqs.get? h = some hr)
    (hnull : hr.data = none) (hb : s.pipes.get? p = some b) : b.tcp ≠ h := by
  obtain ⟨hfile, hstream⟩ := hs.block p b hb
  rw [← hstream]
  exact hs.stream_ne hget hnull (Heap.lt_next hfile)

/-- A file stream of the new state is the new one, or one of another connection. -/
theorem TransferLinks.piped_stream (hs : TransferLinks s) (hget : s.reqs.get? h = some hr)
    (hnull : hr.data = none) {f : ℕ}
    (hf : f < (s.piped h hr size path contents).filePipes.next) :
    (f = s.filePipes.next ∧
        (s.piped h hr size path contents).streams f = ⟨h, path, contents, 0, true⟩) ∨
      (f < s.filePipes.next ∧ (s.piped h hr size path contents).streams f = s.streams f ∧
        (s.streams f).tcp ≠ h) := by
  rcases piped_stream_cases hf with hnew | ⟨hlt, hsame⟩
  · exact .inl hnew
  · exact .inr ⟨hlt, hsame, hs.stream_ne hget hnull hlt⟩

/-- A transfer of the new state is the new one, or one of another connection. -/
theorem TransferLinks.piped_block (hs : TransferLinks s) (hget : s.reqs.get? h = some hr)
    (hnull : hr.data = none) {q : ℕ} {c : FileTcpPipe}
    (hc : (s.piped h hr size path contents).pipes.get? q = some c) :
    (q = s.pipes.next ∧ c = .fresh size s.filePipes.next h ∧
        (s.piped h hr size path contents).streams c.filePipe = ⟨h, path, contents, 0, true⟩) ∨
      (s.pipes.get? q = some c ∧
        (s.piped h hr size path contents).streams c.filePipe = s.streams c.filePipe ∧
        c.tcp ≠ h) := by
  rcases piped_block_cases hc with ⟨rfl, rfl⟩ | hc
  · exact .inl ⟨rfl, rfl, piped_stream_next s⟩
  · have hlt : c.filePipe < s.filePipes.next := Heap.lt_next (hs.block q c hc).1
    exact .inr ⟨hc, piped_stream_of_lt hlt, hs.tcp_ne hget hnull hc⟩

theorem TransferLinks.piped (hs : TransferLinks s) (hget : s.reqs.get? h = some hr)
    (hnull : hr.data = none) : TransferLinks (s.piped h hr size path contents) where
  block q c hc := by
    rcases hs.piped_block hget hnull hc with ⟨rfl, rfl, hstream⟩ | ⟨hc, hstream, -⟩
    · exact ⟨piped_file_next s, hstream ▸ rfl⟩
    · obtain ⟨hfile, htcp⟩ := hs.block q c hc
      rw [hstream]
      exact ⟨piped_file hfile, htcp⟩
  file f d hf := by
    rcases piped_file_cases hf with ⟨rfl, rfl⟩ | hf
    · exact ⟨s.pipes.next, _, rfl, piped_block_next s, rfl⟩
    · obtain ⟨q, c, hdata, hc, hcf⟩ := hs.file f d hf
      exact ⟨q, c, hdata, Server.piped_block hc, hcf⟩
  data h' hr' q hget' hdata := by
    rw [piped_pipes_next]
    rcases piped_req_cases hget hget' with ⟨rfl, rfl⟩ | ⟨-, hget'⟩
    · cases hdata
      refine ⟨Nat.lt_succ_self _, fun c hc => ?_⟩
      rw [piped_block_next] at hc
      cases hc
      rfl
    · obtain ⟨hlt, htcp⟩ := hs.data h' hr' q hget' hdata
      refine ⟨hlt.trans (Nat.lt_succ_self _), fun c hc => ?_⟩
      rw [piped_block_of_lt hlt] at hc
      exact htcp c hc
  back q c hr' hc hget' := by
    rcases hs.piped_block hget hnull hc with ⟨rfl, rfl, -⟩ | ⟨hc, -, hne⟩
    · rcases piped_req_cases hget hget' with ⟨-, rfl⟩ | ⟨hne, -⟩
      · rfl
      · exact absurd rfl hne
    · rw [piped_req_of_ne s hne] at hget'
      exact hs.back q c hr' hc hget'
  owner f hf := by
    rw [piped_reqs_next]
    rcases hs.piped_stream hget hnull hf with ⟨-, hstream⟩ | ⟨hlt, hstream, hne⟩
    · rw [hstream]
      refine ⟨Heap.lt_next hget, fun hr' hget' => ?_⟩
      rcases piped_req_cases hget hget' with ⟨-, rfl⟩ | ⟨hne, -⟩
      · exact Option.some_ne_none _
      · exact absurd rfl hne
    · rw [hstream, piped_req_of_ne s hne]
      exact hs.owner f hlt
  one f hf f' hf' := by
    rcases hs.piped_stream hget hnull hf with ⟨rfl, hstream⟩ | ⟨hlt, hstream, hne⟩
    · rcases hs.piped_stream hget hnull hf' with ⟨rfl, hstream'⟩ | ⟨hlt', hstream', hne'⟩
      · exact fun _ => rfl
      · rw [hstream, hstream']
        exact fun heq => absurd heq.symm hne'
    · rcases hs.piped_stream hget hnull hf' with ⟨rfl, hstream'⟩ | ⟨hlt', hstream', hne'⟩
      · rw [hstream, hstream']
        exact fun heq => absurd heq hne
      · rw [hstream, hstream']
        exact hs.one f hlt f' hlt'

/-- **A transfer begins**, on a connection on which nothing was sent. -/
theorem Transfers.piped (hs : Transfers s) (hget : s.reqs.get? h = some hr)
    (hnull : hr.data = none) : Transfers (s.piped h hr size path contents) := by
  have hl := hs.toTransferLinks
  have htcp : (s.piped h hr size path contents).tcp = s.tcp := rfl
  obtain ⟨hqueued, hwrites⟩ := hs.unsent h fun f hf => hl.stream_ne hget hnull hf
  refine ⟨hl.piped hget hnull, ?_, ?_, ?_, ?_, ?_, ?_⟩
  · intro h' w hw
    rw [htcp] at hw
    obtain ⟨q, hissued⟩ := hs.writes h' w hw
    have hne : h' ≠ h := by
      rintro rfl
      rw [hwrites] at hw
      cases hw
    refine ⟨q, hissued.data, ?_, ?_, ?_⟩
    · rw [piped_pipes_next]
      exact hissued.below.trans (Nat.lt_succ_self _)
    · rw [piped_req_of_ne s hne]
      exact hissued.tcp
    · unfold LiveOrEnded
      rw [piped_block_of_lt hissued.below]
      exact hissued.live
  · intro h' hnone
    rw [htcp]
    refine hs.unsent h' fun f hf heq => hnone f ?_ ?_
    · rw [piped_filePipes_next]
      omega
    · rw [piped_stream_of_lt hf]
      exact heq
  · intro f hf
    rw [htcp]
    rcases hl.piped_stream hget hnull hf with ⟨-, hstream⟩ | ⟨hlt, hstream, -⟩
    · rw [hstream, hqueued]
      exact List.nil_prefix
    · rw [hstream]
      exact hs.sent f hlt
  · intro q c hc
    rw [htcp]
    rcases hl.piped_block hget hnull hc with ⟨-, rfl, hstream⟩ | ⟨hc, hstream, -⟩
    · intro _
      rw [hstream]
      exact hqueued
    · rw [hstream]
      exact hs.all q c hc
  · intro q c hc
    rcases hl.piped_block hget hnull hc with ⟨-, rfl, hstream⟩ | ⟨hc, hstream, -⟩
    · rw [hstream]
      rfl
    · rw [hstream]
      exact hs.nread q c hc
  · intro q c hc
    rw [htcp]
    rcases hl.piped_block hget hnull hc with ⟨-, rfl, -⟩ | ⟨hc, -, -⟩
    · show 0 + unwritten (s.tcp h) = (s.tcp h).queued.length
      rw [unwritten, hwrites, hqueued]
      rfl
    · exact hs.nwritten q c hc

end

theorem Transfers.pipeFile (hs : Transfers s) {path contents : Bytes} {size : ℕ}
    {env : PipeFileEnv} (hok : swsPipeFile s h path size env contents = .ok (u, 0)) :
    Transfers u := by
  obtain ⟨hr, hget, hnull, rfl⟩ := swsPipeFile_ok hok
  exact hs.piped hget hnull

theorem TransferLinks.free (hs : TransferLinks s) (hb : s.pipes.get? p = some b) :
    TransferLinks
      { s with pipes := s.pipes.free p, filePipes := s.filePipes.free b.filePipe } where
  block q c hc := by
    obtain ⟨hne, hc⟩ := Heap.free_cases hc
    obtain ⟨hfile, hstream⟩ := hs.block q c hc
    have hother : c.filePipe ≠ b.filePipe := fun heq => hne (hs.inj hb hc (.inl heq))
    exact ⟨(Heap.get?_free_of_ne _ hother).trans hfile, hstream⟩
  file f d hf := by
    obtain ⟨hne, hf⟩ := Heap.free_cases hf
    obtain ⟨q, c, hdata, hc, hcf⟩ := hs.file f d hf
    have hother : q ≠ p := by
      rintro rfl
      rw [hb] at hc
      cases hc
      exact hne hcf.symm
    exact ⟨q, c, hdata, (Heap.get?_free_of_ne _ hother).trans hc, hcf⟩
  data h hr q hget hdata := by
    obtain ⟨hlt, htcp⟩ := hs.data h hr q hget hdata
    exact ⟨hlt.trans_eq (Heap.next_free _ _).symm, fun c hc => htcp c (Heap.free_cases hc).2⟩
  back q c hr hc hget := hs.back q c hr (Heap.free_cases hc).2 hget
  owner f hf := hs.owner f (hf.trans_eq (Heap.next_free _ _))
  one f hf f' hf' :=
    hs.one f (hf.trans_eq (Heap.next_free _ _)) f' (hf'.trans_eq (Heap.next_free _ _))

/-- **A transfer has ended**, and its connection is being closed. -/
theorem Transfers.free (hs : Transfers s) (hb : s.pipes.get? p = some b)
    (hclosing : (s.tcp b.tcp).closeCalls ≠ 0) :
    Transfers { s with pipes := s.pipes.free p, filePipes := s.filePipes.free b.filePipe } where
  toTransferLinks := hs.toTransferLinks.free hb
  writes h w hw := by
    obtain ⟨q, hissued⟩ := hs.writes h w hw
    have hpipes := Heap.get?_free s.pipes p q
    refine ⟨q, hissued.data, hissued.below.trans_eq (Heap.next_free _ _).symm, hissued.tcp, ?_⟩
    rcases hissued.live with ⟨c, hc, htcp⟩ | ⟨hfree, hclose⟩
    · by_cases heq : q = p
      · rw [heq, hb] at hc
        cases hc
        exact .inr ⟨hpipes.trans (if_pos heq), htcp ▸ hclosing⟩
      · exact .inl ⟨c, (Heap.get?_free_of_ne _ heq).trans hc, htcp⟩
    · refine .inr ⟨hpipes.trans ?_, hclose⟩
      split
      · rfl
      · exact hfree
  unsent h hnone := hs.unsent h fun f hf => hnone f (hf.trans_eq (Heap.next_free _ _).symm)
  sent f hf := hs.sent f (hf.trans_eq (Heap.next_free _ _))
  all q c hc := hs.all q c (Heap.free_cases hc).2
  nread q c hc := hs.nread q c (Heap.free_cases hc).2
  nwritten q c hc := hs.nwritten q c (Heap.free_cases hc).2

theorem Transfers.finish (hs : Transfers s) (hb : s.pipes.get? p = some b) {status : ℤ}
    (hok : fileTcpPipeEnd s p b status = .ok u) : Transfers u := by
  obtain ⟨-, v, hclose, rfl⟩ := fileTcpPipeEnd_ok hok
  have hv : Transfers v := hs.of_frame (.uvClose hclose)
  obtain ⟨-, rfl⟩ := uvClose_ok hclose
  refine hv.free (p := p) hb ?_
  rw [setTcp_tcp, if_pos rfl]
  exact Nat.succ_ne_zero _

/-! ### One event -/

theorem moved_stay (s : Server) (p : ℕ) (c : FileTcpPipe) (st : FileStream) :
    s.moved p c st (s.tcp c.tcp) =
      { s with
        pipes := s.pipes.set p c
        streams := Function.update s.streams c.filePipe st } := by
  unfold Server.moved
  rw [Function.update_eq_self]

theorem moved_wait (s : Server) (p : ℕ) (c : FileTcpPipe) (t : TcpHandle) :
    s.moved p c (s.streams c.filePipe) t =
      { s with pipes := s.pipes.set p c, tcp := Function.update s.tcp c.tcp t } := by
  unfold Server.moved
  rw [Function.update_eq_self]

@[simp] theorem unwritten_append (t : TcpHandle) (w : WriteReq) (queued : Bytes) :
    unwritten { t with writes := t.writes ++ [w], queued := queued } =
      unwritten t + w.buf.length := by
  simp [unwritten]

theorem unwritten_cons {t : TcpHandle} {w : WriteReq} {ws : List WriteReq}
    (hw : t.writes = w :: ws) :
    unwritten t = w.buf.length + unwritten { t with writes := ws } := by
  simp [unwritten, hw]

theorem Transfers.stat (hs : Transfers s) (hl : Linked s) {i : ℕ} {result : StatResult}
    {env : ResolveEnv} {pipe : PipeFileEnv} {contents : Bytes}
    (hok : fsStatCb s i result env pipe contents = .ok u) : Transfers u := by
  obtain ⟨req, hr, -, hget, ⟨e, -, hagain⟩ | ⟨size, -, hpipe⟩⟩ := hl.fsStatCb_ok hok
  · exact hs.of_frame ((Frame.tell hget result).trans (.resolve hagain))
  · exact (hs.of_frame (.tell hget result)).pipeFile hpipe

/-- What a live transfer has sent. -/
theorem Transfers.sent_live (hs : Transfers s) (hb : s.pipes.get? p = some b) :
    (s.tcp b.tcp).queued <+:
      (s.streams b.filePipe).contents.take (s.streams b.filePipe).offset := by
  obtain ⟨hfile, hstream⟩ := hs.block p b hb
  have hsent := hs.sent _ (Heap.lt_next hfile)
  rwa [hstream] at hsent

variable {data : Bytes}

/-- A chunk is read that is not queued: there is nothing in it, or the connection is closing. -/
theorem Transfers.moves_read (hs : Transfers s) (hb : s.pipes.get? p = some b) (active : Bool)
    (hpre : data <+: (s.streams b.filePipe).contents.drop (s.streams b.filePipe).offset)
    (hlost : (s.tcp b.tcp).closeCalls = 0 → data = []) :
    Moves s p b { b with nread := b.nread + data.length }
      ((s.streams b.filePipe).read data active) (s.tcp b.tcp) where
  live := hb
  tcp := rfl
  filePipe := rfl
  stream := (hs.block p b hb).2
  nread := by rw [hs.nread p b hb]; rfl
  nwritten := hs.nwritten p b hb
  closing := le_rfl
  writes := fun _ hw => .inl hw
  sent := by
    rw [FileStream.take_read active hpre]
    exact (hs.sent_live hb).trans (List.prefix_append _ _)
  all := by
    intro hopen
    rw [FileStream.take_read active hpre, hlost hopen, List.append_nil]
    exact hs.all p b hb hopen

/-- A chunk is read and queued. -/
theorem Transfers.moves_write (hs : Transfers s) (hb : s.pipes.get? p = some b) (active : Bool)
    (hpre : data <+: (s.streams b.filePipe).contents.drop (s.streams b.filePipe).offset)
    (hopen : (s.tcp b.tcp).closeCalls = 0) (hget : s.reqs.get? b.tcp = some hr) :
    Moves s p b { b with nread := b.nread + data.length }
      ((s.streams b.filePipe).read data active)
      { s.tcp b.tcp with
        writes := (s.tcp b.tcp).writes ++ [⟨hr.data, data⟩]
        queued := (s.tcp b.tcp).queued ++ data } := by
  have hall := hs.all p b hb hopen
  have hread := hs.moves_read hb active List.nil_prefix fun _ => rfl
  constructor
  case live => exact hb
  case tcp => rfl
  case filePipe => rfl
  case stream => exact hread.stream
  case nread =>
    rw [hs.nread p b hb]
    rfl
  case nwritten =>
    have hbalance := hs.nwritten p b hb
    rw [unwritten_append, List.length_append]
    show b.nwritten + (unwritten (s.tcp b.tcp) + data.length) = _
    omega
  case closing => exact le_rfl
  case writes =>
    intro w hw
    rcases List.mem_append.mp hw with hold | hnew
    · exact .inl hold
    · rw [List.mem_singleton.mp hnew]
      exact .inr ⟨hs.back p b hr hb hget, fun hr' => hs.back p b hr' hb⟩
  case sent =>
    rw [FileStream.take_read active hpre, ← hall]
  case all =>
    intro _
    rw [FileStream.take_read active hpre, ← hall]

/-- A chunk of the file is read, and written as long as the connection is open. -/
theorem Transfers.chunk (hs : Transfers s) (hb : s.pipes.get? p = some b) {r : ReadResult}
    (hpre : r.data <+: (s.streams b.filePipe).contents.drop (s.streams b.filePipe).offset)
    (hok : writeData { readOn s b.filePipe r with
        pipes := s.pipes.set p { b with nread := b.nread + r.data.length } } b.tcp r.data = .ok u) :
    Transfers u := by
  obtain ⟨hr, hget, rfl⟩ := writeData_ok hok
  unfold uvWrite
  split
  · rename_i hopen
    exact hs.moved (hs.moves_write hb (decide (0 ≤ r.nread)) hpre hopen hget)
  · rename_i hclosed
    have hu := hs.moved (hs.moves_read hb (decide (0 ≤ r.nread)) hpre
      fun hopen => absurd hopen hclosed)
    rw [moved_stay s p { b with nread := b.nread + r.data.length }] at hu
    exact hu

theorem Transfers.fileRead (hs : Transfers s) {f : ℕ} {r : ReadResult}
    (hpre : r.data <+: (s.streams f).contents.drop (s.streams f).offset)
    (hok : onFileRead s f r = .ok u) : Transfers u := by
  obtain ⟨p, b, hf, hb, hcases⟩ := onFileRead_ok hok
  obtain ⟨p', b', hp', hb', rfl⟩ := hs.file f _ hf
  cases hp'
  obtain rfl : b = b' := Option.some.inj (hb.symm.trans hb')
  rcases hcases with ⟨-, hwrite⟩ | ⟨hle, hend⟩
  · exact hs.chunk hb hpre hwrite
  · -- the transfer ends, and nothing was read
    have hnil := ReadResult.data_of_nonpos hle
    have hread := hs.moved (hs.moves_read hb (decide (0 ≤ r.nread)) hpre fun _ => hnil)
    rw [moved_stay s p { b with nread := b.nread + r.data.length }, hnil] at hread
    refine Transfers.finish (s := { readOn s b.filePipe r with pipes := s.pipes.set p b })
      ?_ ?_ hend
    · rw [readOn, hnil]
      exact hread
    · exact Heap.get?_set_self hb b

theorem Transfers.written (hs : Transfers s) {status : ℤ}
    (hok : onWriteRes s h status = .ok u) : Transfers u := by
  obtain ⟨-, w, ws, p, b, v, hw, hdata, hb, hv, hcases⟩ := onWriteRes_ok hok
  -- the write belongs to the transfer of this connection
  obtain ⟨q, hissued⟩ := hs.writes h w (hw ▸ List.mem_cons_self)
  obtain rfl : q = p := Option.some.inj (hissued.data.symm.trans hdata)
  obtain rfl : b.tcp = h := by
    rcases hissued.live with ⟨b', hb', htcp⟩ | ⟨hfree, -⟩
    · rw [hb] at hb'
      cases hb'
      exact htcp
    · rw [hb] at hfree
      cases hfree
  have hm : Moves s q b { b with nwritten := b.nwritten + w.buf.length } (s.streams b.filePipe)
      { s.tcp b.tcp with writes := ws } := by
    constructor
    case live => exact hb
    case tcp => rfl
    case filePipe => rfl
    case stream => exact (hs.block q b hb).2
    case nread => exact hs.nread q b hb
    case nwritten =>
      have hbalance := hs.nwritten q b hb
      rw [unwritten_cons hw] at hbalance
      exact (Nat.add_assoc _ _ _).trans hbalance
    case closing => exact le_rfl
    case writes => exact fun w' hw' => .inl (hw ▸ List.mem_cons_of_mem w hw')
    case sent => exact hs.sent_live hb
    case all => exact hs.all q b hb
  have hmoved := hs.moved hm
  rw [moved_wait s q { b with nwritten := b.nwritten + w.buf.length }] at hmoved
  have hlive : v.pipes.get? q = some { b with nwritten := b.nwritten + w.buf.length } := by
    rw [hv]
    exact (Heap.get?_set hb _ q).trans (if_pos rfl)
  replace hv : Transfers v := hv ▸ hmoved
  rcases hcases with ⟨-, -, hend⟩ | ⟨-, rfl⟩
  · exact hv.finish hlive hend
  · exact hv

/-- **One event** keeps the invariant. -/
theorem Transfers.step (hs : Transfers s) (hl : Linked s) {e : ServerEvent}
    (he : server.enabled s e) (hok : server.dispatch s e = .ok u) : Transfers u := by
  cases e with
  | connect status accept junk info => exact hs.of_frame (.connect hok)
  | reqRead h r => exact hs.of_frame (.reqRead hok)
  | stat i result env pipe contents => exact hs.stat hl hok
  | fileRead f r => exact hs.fileRead he.2.1 hok
  | written h status => exact hs.written hok
  | closed h => exact hs.of_frame (.closed hok)

end

/-- **Every run** of the server keeps its transfers apart. -/
theorem transfers_of_run {es : List ServerEvent} {s : Server} (hrun : server.Run init es s) :
    Transfers s ∧ Linked s :=
  hrun.invariant (P := fun s => Transfers s ∧ Linked s) ⟨init_transfers, init_linked⟩
    fun _ _ _ hs he hok => ⟨hs.1.step hs.2 he hok, hs.2.step hok⟩

end Server

end LibuvDox.StaticWebServer
