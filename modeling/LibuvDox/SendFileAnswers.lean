import LibuvDox.SendFileServer

/-!
# What send-file answers

Each read of a request starts an answer of its own, and the answers to one connection share its
handle.  Where a connection is read from only once, its handle, its block and its file pipe belong
together, and what was queued on it is the headers and as much of the file as was read.

* `Sound`: the invariant of these runs; `Sound.change`, the rule for a step of one connection.
* `answersOnce`: in these runs every connection gets one answer, and is closed at most once.
-/

namespace LibuvDox.SendFileServer

/-- What every client was sent is a part of one answer, and `uv_close` was called for it at most
once. -/
def Answers (contents : Bytes) (s : Server) : Prop :=
  ∀ tcp c, s.tcps.get? tcp = some c →
    c.queued <+: SUCCES_HDRS ++ contents ∧ c.closeCalls ≤ 1

/-- A request comes in one read: nothing was read from the client before. -/
def OneRead (s : Server) : ServerEvent → Prop
  | .reqRead tcp nread _ => 0 < nread → ∀ c ∈ s.tcps.get? tcp, c.received = 0
  | _ => True

instance (s : Server) : (e : ServerEvent) → Decidable (OneRead s e)
  | .reqRead tcp nread _ =>
    inferInstanceAs (Decidable (0 < nread → ∀ c ∈ s.tcps.get? tcp, c.received = 0))
  | .connect _ _ | .stat _ _ _ _ | .written _ _ | .fileRead _ _ | .closed _ _ =>
    inferInstanceAs (Decidable True)

/-- The client has been sent the headers and what was read of its file, up to its close. -/
structure Sent (contents : Bytes) (c : TcpHandle) (f : FilePipe) : Prop where
  part : c.queued <+: SUCCES_HDRS ++ contents.take f.offset
  open_all : c.closeCalls = 0 → c.queued = SUCCES_HDRS ++ contents.take f.offset

/-- A client that is being answered: its handle, its block and its file pipe point to each other. -/
structure Answering (s : Server) (tcp p : ℕ) (c : TcpHandle) (b : FileTcpPipe) (f : FilePipe) :
    Prop where
  data : c.data = some (some p)
  block : s.blocks.get? p = some b
  back : b.tcp = tcp
  pipe : s.filePipes.get? b.filePipe = some f
  pipeBack : f.data = p
  received : c.received ≠ 0
  noStat : tcp ∉ s.stats

/-- A client that was not answered yet. -/
structure Waiting (s : Server) (tcp : ℕ) (c : TcpHandle) : Prop where
  data : ∀ p, c.data ≠ some (some p)
  queued : c.queued = []
  pending : c.pending = []
  received : tcp ∈ s.stats → c.received ≠ 0

/-- The two stages of a client. -/
inductive Stage (contents : Bytes) (s : Server) (tcp : ℕ) (c : TcpHandle) : Prop
  | waiting (h : Waiting s tcp c)
  | answering (p : ℕ) (b : FileTcpPipe) (f : FilePipe) (h : Answering s tcp p c b f)
      (hsent : Sent contents c f)

/-- What holds in the runs in which every client is read from once. -/
structure Sound (contents : Bytes) (s : Server) : Prop where
  stage : ∀ tcp c, s.tcps.get? tcp = some c → Stage contents s tcp c
  closes : ∀ tcp c, s.tcps.get? tcp = some c → c.closeCalls ≤ 1
  writes : ∀ tcp c, s.tcps.get? tcp = some c → ∀ w ∈ c.pending, w.data = c.data
  once : s.stats.Nodup
  live : ∀ tcp ∈ s.stats, ∃ c, s.tcps.get? tcp = some c
  blocks : ∀ p b, s.blocks.get? p = some b →
    ∃ c, s.tcps.get? b.tcp = some c ∧ c.data = some (some p)
  pipes : ∀ i f, s.filePipes.get? i = some f →
    ∃ b, s.blocks.get? f.data = some b ∧ b.filePipe = i

section

variable {contents : Bytes} {s u : Server} {tcp p : ℕ} {c : TcpHandle} {b : FileTcpPipe}
  {f : FilePipe}

theorem Sound.answers (h : Sound contents s) : Answers contents s := by
  intro tcp c hc
  refine ⟨?_, h.closes tcp c hc⟩
  cases h.stage tcp c hc with
  | waiting hw =>
    rw [hw.queued]
    exact List.nil_prefix
  | answering p b f ha hsent =>
    refine hsent.part.trans ?_
    exact List.prefix_append_right_inj _ |>.mpr (List.take_prefix _ _)

theorem init_sound (contents : Bytes) : Sound contents init where
  stage _ _ hc := by
    rw [show init.tcps = Heap.empty from rfl, Heap.get?_empty] at hc
    cases hc
  closes _ _ hc := by
    rw [show init.tcps = Heap.empty from rfl, Heap.get?_empty] at hc
    cases hc
  writes _ _ hc := by
    rw [show init.tcps = Heap.empty from rfl, Heap.get?_empty] at hc
    cases hc
  once := List.nodup_nil
  live := nofun
  blocks _ _ hb := by
    rw [show init.blocks = Heap.empty from rfl, Heap.get?_empty] at hb
    cases hb
  pipes _ _ hf := by
    rw [show init.filePipes = Heap.empty from rfl, Heap.get?_empty] at hf
    cases hf

/-- A client that has a stat request under way is waiting. -/
theorem Sound.waiting_of_stat (h : Sound contents s) (htcp : tcp ∈ s.stats) :
    ∃ c, s.tcps.get? tcp = some c ∧ Waiting s tcp c := by
  obtain ⟨c, hc⟩ := h.live tcp htcp
  cases h.stage tcp c hc with
  | waiting hw => exact ⟨c, hc, hw⟩
  | answering p b f ha => exact absurd htcp ha.noStat

/-- A client that has a write pending is being answered. -/
theorem Sound.answering_of_pending (h : Sound contents s) (hc : s.tcps.get? tcp = some c)
    (hpending : c.pending ≠ []) : ∃ p b f, Answering s tcp p c b f ∧ Sent contents c f := by
  cases h.stage tcp c hc with
  | waiting hw => exact absurd hw.pending hpending
  | answering p b f ha hsent => exact ⟨p, b, f, ha, hsent⟩

/-- So is one whose file is read. -/
theorem Sound.answering_of_pipe {i : ℕ} (h : Sound contents s)
    (hf : s.filePipes.get? i = some f) : ∃ b c, s.tcps.get? b.tcp = some c ∧ b.filePipe = i ∧
      Answering s b.tcp f.data c b f ∧ Sent contents c f := by
  obtain ⟨b, hb, rfl⟩ := h.pipes i f hf
  obtain ⟨c, hc, hdata⟩ := h.blocks _ b hb
  cases h.stage b.tcp c hc with
  | waiting hw => exact absurd hdata (hw.data _)
  | answering p b' f' ha hsent =>
    obtain rfl : p = f.data := by
      have hp := ha.data.symm.trans hdata
      simpa using hp
    obtain rfl : b' = b := Option.some.inj (ha.block.symm.trans hb)
    obtain rfl : f' = f := Option.some.inj (ha.pipe.symm.trans hf)
    exact ⟨b', c, hc, rfl, ha, hsent⟩

/-- The block and the file pipe of another client are other ones. -/
theorem Answering.apart {t q : ℕ} {d : TcpHandle} {bt : FileTcpPipe} {ft : FilePipe}
    (hat : Answering s t q d bt ft) (ha : Answering s tcp p c b f) (ht : t ≠ tcp) :
    q ≠ p ∧ bt.filePipe ≠ b.filePipe := by
  have hq : q ≠ p := by
    rintro rfl
    obtain rfl := Option.some.inj (hat.block.symm.trans ha.block)
    exact ht (hat.back.symm.trans ha.back)
  refine ⟨hq, fun heq => ?_⟩
  have hsame := hat.pipe
  rw [heq, ha.pipe] at hsame
  obtain rfl := Option.some.inj hsame
  exact hq (hat.pipeBack.symm.trans ha.pipeBack)

/-- No block belongs to a client that is waiting. -/
theorem Waiting.tcp_ne {t q : ℕ} {d : TcpHandle} (hw : Waiting s tcp c)
    (hc : s.tcps.get? tcp = some c) (hd : s.tcps.get? t = some d) (hdata : d.data = some (some q)) :
    t ≠ tcp := by
  rintro rfl
  rw [hc] at hd
  obtain rfl := Option.some.inj hd
  exact hw.data q hdata

/-- **One connection takes a step.**  Its handle, its block and its file pipe change, still point to
each other, and agree on what was sent. -/
theorem Sound.change (c' : TcpHandle) (b' : FileTcpPipe) (f' : FilePipe) (h : Sound contents s)
    (hc : s.tcps.get? tcp = some c) (ha : Answering s tcp p c b f) (hdata : c'.data = c.data)
    (hreceived : c'.received = c.received)
    (hback : b'.tcp = b.tcp) (hpipe : b'.filePipe = b.filePipe) (hpipeBack : f'.data = f.data)
    (hcloses : c'.closeCalls ≤ 1) (hwrites : ∀ w ∈ c'.pending, w.data = c'.data)
    (hsent : Sent contents c' f') :
    Sound contents { s with
      tcps := s.tcps.set tcp c'
      blocks := s.blocks.set p b'
      filePipes := s.filePipes.set b.filePipe f' } where
  stage t d hd := by
    rcases Heap.set_cases hc hd with ⟨rfl, rfl⟩ | ⟨ht, hd⟩
    · refine .answering p b' f' ⟨hdata.trans ha.data, Heap.get?_set_self ha.block b',
        hback.trans ha.back, ?_, hpipeBack.trans ha.pipeBack, hreceived ▸ ha.received,
        ha.noStat⟩ hsent
      rw [hpipe]
      exact Heap.get?_set_self ha.pipe f'
    · cases h.stage t d hd with
      | waiting hw => exact .waiting ⟨hw.data, hw.queued, hw.pending, hw.received⟩
      | answering q bt ft hat hsentt =>
        obtain ⟨hq, hft⟩ := hat.apart ha ht
        exact .answering q bt ft ⟨hat.data, (Heap.get?_set_of_ne _ b' hq).trans hat.block,
          hat.back, (Heap.get?_set_of_ne _ f' hft).trans hat.pipe, hat.pipeBack, hat.received,
          hat.noStat⟩ hsentt
  closes := Heap.forall_set h.closes hc hcloses
  writes := Heap.forall_set h.writes hc hwrites
  once := h.once
  live t ht := Heap.exists_get?_set hc c' (h.live t ht)
  blocks q bt hbt := by
    rcases Heap.set_cases ha.block hbt with ⟨rfl, rfl⟩ | ⟨-, hbt⟩
    · refine ⟨c', ?_, hdata.trans ha.data⟩
      rw [hback.trans ha.back]
      exact Heap.get?_set_self hc c'
    · obtain ⟨d, hd, hdd⟩ := h.blocks q bt hbt
      by_cases htt : bt.tcp = tcp
      · refine ⟨c', ?_, ?_⟩
        · rw [htt]
          exact Heap.get?_set_self hc c'
        · rw [htt, hc] at hd
          rw [hdata, Option.some.inj hd, hdd]
      · exact ⟨d, (Heap.get?_set_of_ne _ c' htt).trans hd, hdd⟩
  pipes i ft hft := by
    rcases Heap.set_cases ha.pipe hft with ⟨rfl, rfl⟩ | ⟨hi, hft⟩
    · refine ⟨b', ?_, hpipe⟩
      rw [hpipeBack.trans ha.pipeBack]
      exact Heap.get?_set_self ha.block b'
    · obtain ⟨bt, hbt, hbi⟩ := h.pipes i ft hft
      by_cases hq : ft.data = p
      · -- the block `p` leads to one file pipe only
        rw [hq, ha.block] at hbt
        obtain rfl := Option.some.inj hbt
        exact absurd hbi.symm hi
      · exact ⟨bt, (Heap.get?_set_of_ne _ b' hq).trans hbt, hbi⟩

/-- A client that is waiting takes a step, and waits on. -/
theorem Sound.change_waiting (c' : TcpHandle) (h : Sound contents s)
    (hc : s.tcps.get? tcp = some c)
    (hw : Waiting s tcp c) (hw' : Waiting s tcp c') (hcloses : c'.closeCalls ≤ 1) :
    Sound contents { s with tcps := s.tcps.set tcp c' } where
  stage t d hd := by
    rcases Heap.set_cases hc hd with ⟨rfl, rfl⟩ | ⟨-, hd⟩
    · exact .waiting ⟨hw'.data, hw'.queued, hw'.pending, hw'.received⟩
    · cases h.stage t d hd with
      | waiting hw => exact .waiting ⟨hw.data, hw.queued, hw.pending, hw.received⟩
      | answering q bt ft hat hsentt =>
        exact .answering q bt ft ⟨hat.data, hat.block, hat.back, hat.pipe, hat.pipeBack,
          hat.received, hat.noStat⟩ hsentt
  closes := Heap.forall_set h.closes hc hcloses
  writes := by
    refine Heap.forall_set h.writes hc ?_
    rw [hw'.pending]
    exact nofun
  once := h.once
  live t ht := Heap.exists_get?_set hc c' (h.live t ht)
  blocks q bt hbt := by
    obtain ⟨d, hd, hdd⟩ := h.blocks q bt hbt
    exact ⟨d, (Heap.get?_set_of_ne _ c' (hw.tcp_ne hc hd hdd)).trans hd, hdd⟩
  pipes := h.pipes

/-- A client is closed, or has been closed. -/
theorem Sound.close (c' : TcpHandle) (h : Sound contents s) (hc : s.tcps.get? tcp = some c)
    (hdata : c'.data = c.data) (hreceived : c'.received = c.received)
    (hpending : ∀ w ∈ c'.pending, w ∈ c.pending) (hqueued : c'.queued = c.queued)
    (hclosing : c'.closeCalls ≠ 0) (hcloses : c'.closeCalls ≤ 1) :
    Sound contents { s with tcps := s.tcps.set tcp c' } := by
  cases h.stage tcp c hc with
  | waiting hw =>
    refine h.change_waiting c' hc hw ⟨?_, ?_, ?_, ?_⟩ hcloses
    · rw [hdata]
      exact hw.data
    · rw [hqueued, hw.queued]
    · refine List.eq_nil_iff_forall_not_mem.mpr fun w hmem => ?_
      have hold := hpending w hmem
      rw [hw.pending] at hold
      cases hold
    · rw [hreceived]
      exact hw.received
  | answering p b f ha hsent =>
    have hu := h.change c' b f hc ha hdata hreceived rfl rfl rfl hcloses
      (fun w hmem => (h.writes tcp c hc w (hpending w hmem)).trans hdata.symm)
      ⟨hqueued ▸ hsent.part, fun hzero => absurd hzero hclosing⟩
    rwa [Heap.set_self ha.block, Heap.set_self ha.pipe] at hu

/-- A stat request is started for a client that waits. -/
theorem Sound.stat_added (h : Sound contents s) (hc : s.tcps.get? tcp = some c)
    (hw : Waiting s tcp c) (hnot : tcp ∉ s.stats) (hreceived : c.received ≠ 0) :
    Sound contents { s with stats := s.stats ++ [tcp] } where
  stage t d hd := by
    cases h.stage t d hd with
    | waiting hwt =>
      refine .waiting ⟨hwt.data, hwt.queued, hwt.pending, fun hmem => ?_⟩
      rcases List.mem_append.mp hmem with hmem | hmem
      · exact hwt.received hmem
      · rw [List.mem_singleton.mp hmem] at hd
        rw [Option.some.inj (hd.symm.trans hc)]
        exact hreceived
    | answering q bt ft hat hsentt =>
      refine .answering q bt ft ⟨hat.data, hat.block, hat.back, hat.pipe, hat.pipeBack,
        hat.received, fun hmem => ?_⟩ hsentt
      rcases List.mem_append.mp hmem with hmem | hmem
      · exact hat.noStat hmem
      · rw [List.mem_singleton.mp hmem] at hd
        obtain rfl := Option.some.inj (hd.symm.trans hc)
        exact hw.data q hat.data
  closes := h.closes
  writes := h.writes
  once := h.once.append (List.nodup_singleton _) (List.disjoint_singleton.mpr hnot)
  live t ht := by
    rcases List.mem_append.mp ht with ht | ht
    · exact h.live t ht
    · exact ⟨c, List.mem_singleton.mp ht ▸ hc⟩
  blocks := h.blocks
  pipes := h.pipes

/-- A new client. -/
theorem Sound.accept (h : Sound contents s) (hdata : ∀ p, c.data ≠ some (some p))
    (hqueued : c.queued = []) (hpending : c.pending = []) (hcloses : c.closeCalls ≤ 1) :
    Sound contents { s with tcps := s.tcps.alloc c } := by
  have hnew : s.tcps.next ∉ s.stats := by
    intro hmem
    obtain ⟨d, hd⟩ := h.live _ hmem
    rw [Heap.get?_next] at hd
    cases hd
  constructor
  · intro t d hd
    rcases Heap.alloc_cases hd with ⟨rfl, rfl⟩ | hd
    · exact .waiting ⟨hdata, hqueued, hpending, fun hmem => absurd hmem hnew⟩
    · cases h.stage t d hd with
      | waiting hw => exact .waiting ⟨hw.data, hw.queued, hw.pending, hw.received⟩
      | answering q bt ft hat hsentt =>
        exact .answering q bt ft ⟨hat.data, hat.block, hat.back, hat.pipe, hat.pipeBack,
          hat.received, hat.noStat⟩ hsentt
  · intro t d hd
    rcases Heap.alloc_cases hd with ⟨rfl, rfl⟩ | hd
    · exact hcloses
    · exact h.closes t d hd
  · intro t d hd
    rcases Heap.alloc_cases hd with ⟨rfl, rfl⟩ | hd
    · rw [hpending]
      exact nofun
    · exact h.writes t d hd
  · exact h.once
  · intro t ht
    obtain ⟨d, hd⟩ := h.live t ht
    exact ⟨d, Heap.get?_alloc_of_live hd c⟩
  · intro q bt hbt
    obtain ⟨d, hd, hdd⟩ := h.blocks q bt hbt
    exact ⟨d, Heap.get?_alloc_of_live hd c, hdd⟩
  · exact h.pipes

/-- The answer to a client that waits is set up. -/
theorem Sound.open_file (c' : TcpHandle) (h : Sound contents s) (htcp : tcp ∈ s.stats)
    (hc : s.tcps.get? tcp = some c) (hw : Waiting s tcp c)
    (hdata : c'.data = some (some s.blocks.next)) (hreceived : c'.received = c.received)
    (hback : b.tcp = tcp) (hpipe : b.filePipe = s.filePipes.next)
    (hpipeBack : f.data = s.blocks.next)
    (hcloses : c'.closeCalls ≤ 1) (hwrites : ∀ w ∈ c'.pending, w.data = c'.data)
    (hsent : Sent contents c' f) :
    Sound contents { s with
      tcps := s.tcps.set tcp c'
      blocks := s.blocks.alloc b
      filePipes := s.filePipes.alloc f
      stats := s.stats.erase tcp } := by
  have hblock : (s.blocks.alloc b).get? s.blocks.next = some b := Heap.get?_alloc_next _ b
  constructor
  · intro t d hd
    rcases Heap.set_cases hc hd with ⟨rfl, rfl⟩ | ⟨-, hd⟩
    · refine .answering s.blocks.next b f ⟨hdata, hblock, hback, ?_, hpipeBack, ?_, ?_⟩ hsent
      · rw [hpipe]
        exact Heap.get?_alloc_next _ f
      · rw [hreceived]
        exact hw.received htcp
      · exact h.once.not_mem_erase
    · cases h.stage t d hd with
      | waiting hwt =>
        exact .waiting ⟨hwt.data, hwt.queued, hwt.pending,
          fun hmem => hwt.received (List.mem_of_mem_erase hmem)⟩
      | answering q bt ft hat hsentt =>
        exact .answering q bt ft ⟨hat.data, Heap.get?_alloc_of_live hat.block b, hat.back,
          Heap.get?_alloc_of_live hat.pipe f, hat.pipeBack, hat.received,
          fun hmem => hat.noStat (List.mem_of_mem_erase hmem)⟩ hsentt
  · exact Heap.forall_set h.closes hc hcloses
  · exact Heap.forall_set h.writes hc hwrites
  · exact h.once.erase tcp
  · intro t hmem
    exact Heap.exists_get?_set hc c' (h.live t (List.mem_of_mem_erase hmem))
  · intro q bt hbt
    rcases Heap.alloc_cases hbt with ⟨rfl, rfl⟩ | hbt
    · exact ⟨c', hback.symm ▸ Heap.get?_set_self hc c', hdata⟩
    · obtain ⟨d, hd, hdd⟩ := h.blocks q bt hbt
      exact ⟨d, (Heap.get?_set_of_ne _ c' (hw.tcp_ne hc hd hdd)).trans hd, hdd⟩
  · intro i ft hft
    rcases Heap.alloc_cases hft with ⟨rfl, rfl⟩ | hft
    · exact ⟨b, hpipeBack.symm ▸ hblock, hpipe⟩
    · obtain ⟨bt, hbt, hbi⟩ := h.pipes i ft hft
      exact ⟨bt, Heap.get?_alloc_of_live hbt b, hbi⟩

/-- What an answer needs is freed at its end. -/
theorem Sound.free_answer (h : Sound contents s) (hc : s.tcps.get? tcp = some c)
    (ha : Answering s tcp p c b f) :
    Sound contents { s with
      tcps := s.tcps.free tcp
      blocks := s.blocks.free p
      filePipes := s.filePipes.free b.filePipe } := by
  constructor
  · intro t d hd
    obtain ⟨ht, hd⟩ := Heap.free_cases hd
    cases h.stage t d hd with
    | waiting hwt => exact .waiting ⟨hwt.data, hwt.queued, hwt.pending, hwt.received⟩
    | answering q bt ft hat hsentt =>
      obtain ⟨hq, hft⟩ := hat.apart ha ht
      exact .answering q bt ft ⟨hat.data, (Heap.get?_free_of_ne _ hq).trans hat.block, hat.back,
        (Heap.get?_free_of_ne _ hft).trans hat.pipe, hat.pipeBack, hat.received,
        hat.noStat⟩ hsentt
  · exact fun t d hd => h.closes t d (Heap.free_cases hd).2
  · exact fun t d hd => h.writes t d (Heap.free_cases hd).2
  · exact h.once
  · intro t hmem
    obtain ⟨d, hd⟩ := h.live t hmem
    have ht : t ≠ tcp := fun ht => ha.noStat (ht ▸ hmem)
    exact ⟨d, (Heap.get?_free_of_ne _ ht).trans hd⟩
  · intro q bt hbt
    obtain ⟨hq, hbt⟩ := Heap.free_cases hbt
    obtain ⟨d, hd, hdd⟩ := h.blocks q bt hbt
    have ht : bt.tcp ≠ tcp := by
      intro ht
      rw [ht, hc] at hd
      obtain rfl := Option.some.inj hd
      have hqp := hdd.symm.trans ha.data
      exact hq (by simpa using hqp)
    exact ⟨d, (Heap.get?_free_of_ne _ ht).trans hd, hdd⟩
  · intro i ft hft
    obtain ⟨hi, hft⟩ := Heap.free_cases hft
    obtain ⟨bt, hbt, hbi⟩ := h.pipes i ft hft
    have hq : ft.data ≠ p := by
      intro hq
      rw [hq, ha.block] at hbt
      obtain rfl := Option.some.inj hbt
      exact hi hbi.symm
    exact ⟨bt, (Heap.get?_free_of_ne _ hq).trans hbt, hbi⟩

/-! ### The callbacks, one by one -/

theorem uvClose_ok {cb : CloseCb} (hok : uvClose s tcp cb = .ok u) :
    ∃ c, s.tcps.get? tcp = some c ∧ u = { s with
      tcps := s.tcps.set tcp { c with closeCalls := c.closeCalls + 1, closeCb := cb } } := by
  obtain ⟨c, hc, hok⟩ := bind_ok_iff.mp hok
  exact ⟨c, deref_ok_iff.mp hc, (Except.ok.inj hok).symm⟩

/-- What `uv_write` leaves of a handle. -/
def writeTo (c : TcpHandle) (buf : Bytes) (cb : WriteCb) : TcpHandle :=
  if c.closeCalls = 0 then
    { c with pending := c.pending ++ [⟨c.data, buf, cb⟩], queued := c.queued ++ buf }
  else c

theorem writeCopy_ok {buf : Bytes} {cb : WriteCb} (hok : writeCopy s tcp buf cb = .ok u) :
    ∃ c, s.tcps.get? tcp = some c ∧
      u = { s with tcps := s.tcps.set tcp (writeTo c buf cb) } := by
  obtain ⟨c, hc, hok⟩ := bind_ok_iff.mp hok
  rw [deref_ok_iff] at hc
  obtain ⟨c', hc', hok⟩ := bind_ok_iff.mp hok
  rw [deref_ok_iff, hc] at hc'
  obtain rfl := Option.some.inj hc'
  refine ⟨c, hc, ?_⟩
  unfold writeTo
  split at hok
  · rename_i hopen
    rw [if_pos hopen]
    exact (Except.ok.inj hok).symm
  · rename_i hclosing
    rw [if_neg hclosing, Heap.set_self hc]
    exact (Except.ok.inj hok).symm

theorem Sound.connect {status accept : ℤ} (h : Sound contents s)
    (hok : onConnect s status accept = .ok u) : Sound contents u := by
  obtain ⟨-, -, hok⟩ := bind_ok_iff.mp hok
  split at hok
  · cases hok
    exact h.accept nofun rfl rfl le_rfl
  · cases hok
    exact h.accept nofun rfl rfl (Nat.zero_le 1)

/-- A read of a request: the first one starts the answer. -/
theorem Sound.reqRead {nread stat : ℤ} (h : Sound contents s)
    (he : Enabled contents s (.reqRead tcp nread stat)) (hone : OneRead s (.reqRead tcp nread stat))
    (hok : reqRead s tcp nread stat = .ok u) : Sound contents u := by
  obtain ⟨c, hc, -, hopen, -⟩ := he
  have hc' : s.tcps.get? tcp = some c := hc
  obtain ⟨d, hd, hok⟩ := bind_ok_iff.mp hok
  rw [deref_ok_iff, hc'] at hd
  obtain rfl := Option.some.inj hd
  unfold onReqRead at hok
  split at hok
  · rename_i heof
    obtain ⟨d, hd, rfl⟩ := uvClose_ok hok
    have hd' : (s.tcps.set tcp _).get? tcp = some d := hd
    rw [Heap.get?_set_self hc'] at hd'
    cases hd'
    rw [Heap.set_set]
    refine h.close _ hc' rfl ?_ (fun w hw => hw) rfl (Nat.succ_ne_zero _) ?_
    · rw [heof]
      rfl
    · show c.closeCalls + 1 ≤ 1
      omega
  · split at hok
    · rename_i hpos
      obtain ⟨-, -, hok⟩ := bind_ok_iff.mp hok
      cases hok
      have hreceived : c.received = 0 := hone hpos c hc
      have hw : Waiting s tcp c ∧ tcp ∉ s.stats := by
        cases h.stage tcp c hc' with
        | waiting hw => exact ⟨hw, fun hmem => hw.received hmem hreceived⟩
        | answering p b f ha => exact absurd hreceived ha.received
      obtain ⟨hw, hnot⟩ := hw
      have hu := h.change_waiting { c with received := c.received + nread.toNat } hc' hw
        ⟨hw.data, hw.queued, hw.pending, fun hmem => absurd hmem hnot⟩ (h.closes tcp c hc')
      exact hu.stat_added (Heap.get?_set_self hc' _)
        ⟨hw.data, hw.queued, hw.pending, fun hmem => absurd hmem hnot⟩ hnot
        (by show c.received + nread.toNat ≠ 0; omega)
    · rename_i hneg
      cases hok
      have hzero : nread.toNat = 0 := by omega
      rw [hzero]
      show Sound contents { s with tcps := s.tcps.set tcp c }
      rw [Heap.set_self hc']
      exact h

/-- What `uv_write` adds to a client that has got all so far. -/
theorem Sent.write (hpart : c.queued <+: SUCCES_HDRS ++ contents.take f.offset)
    {buf : Bytes} (cb : WriteCb) (hall : c.closeCalls = 0 →
      c.queued ++ buf = SUCCES_HDRS ++ contents.take f.offset) :
    Sent contents (writeTo c buf cb) f := by
  unfold writeTo
  split
  · rename_i hopen
    exact ⟨(hall hopen).symm ▸ List.prefix_rfl, fun _ => hall hopen⟩
  · rename_i hclosing
    exact ⟨hpart, fun hzero => absurd hzero hclosing⟩

theorem writeTo_data (c : TcpHandle) (buf : Bytes) (cb : WriteCb) :
    (writeTo c buf cb).data = c.data := by
  unfold writeTo
  split <;> rfl

theorem writeTo_received (c : TcpHandle) (buf : Bytes) (cb : WriteCb) :
    (writeTo c buf cb).received = c.received := by
  unfold writeTo
  split <;> rfl

theorem writeTo_closeCalls (c : TcpHandle) (buf : Bytes) (cb : WriteCb) :
    (writeTo c buf cb).closeCalls = c.closeCalls := by
  unfold writeTo
  split <;> rfl

theorem writeTo_pending {buf : Bytes} {cb : WriteCb} (h : ∀ w ∈ c.pending, w.data = c.data) :
    ∀ w ∈ (writeTo c buf cb).pending, w.data = (writeTo c buf cb).data := by
  rw [writeTo_data]
  unfold writeTo
  split
  · intro w hw
    rcases List.mem_append.mp hw with hw | hw
    · exact h w hw
    · rw [List.mem_singleton.mp hw]
  · exact h

/-- The completion of a stat request. -/
theorem Sound.stat {result fd : ℤ} {size : ℕ} (h : Sound contents s) (htcp : tcp ∈ s.stats)
    (hok : onFileStat { s with stats := s.stats.erase tcp } tcp result size fd = .ok u) :
    Sound contents u := by
  obtain ⟨c, hc, hw⟩ := h.waiting_of_stat htcp
  obtain ⟨-, -, hok⟩ := bind_ok_iff.mp hok
  obtain ⟨s₁, hopen, hok⟩ := bind_ok_iff.mp hok
  obtain ⟨d, hd, hopen⟩ := bind_ok_iff.mp hopen
  rw [deref_ok_iff] at hd
  obtain rfl := Option.some.inj (hd.symm.trans hc)
  cases hopen
  obtain ⟨e, he, rfl⟩ := writeCopy_ok hok
  have he' : (s.tcps.set tcp { d with data := some (some s.blocks.next) }).get? tcp = some e := he
  rw [Heap.get?_set_self hc] at he'
  obtain rfl := Option.some.inj he'
  rw [Heap.set_set]
  refine h.open_file _ htcp hc hw (writeTo_data _ _ _) (writeTo_received _ _ _) rfl rfl rfl ?_ ?_ ?_
  · rw [writeTo_closeCalls]
    exact h.closes tcp d hc
  · refine writeTo_pending ?_
    show ∀ w ∈ d.pending, _
    rw [hw.pending]
    exact nofun
  · refine Sent.write ?_ _ fun _ => ?_
    · show d.queued <+: _
      rw [hw.queued]
      exact List.nil_prefix
    · show d.queued ++ SUCCES_HDRS = SUCCES_HDRS ++ contents.take 0
      rw [hw.queued, List.take_zero, List.append_nil, List.nil_append]

/-- A client has been closed. -/
theorem Sound.closed {filePath : Option ℕ} (h : Sound contents s)
    (he : Enabled contents s (.closed tcp filePath))
    (hok : SendFileServer.closed s tcp filePath = .ok u) : Sound contents u := by
  obtain ⟨c, hc, hclosing, -, hpending⟩ := he
  have hc' : s.tcps.get? tcp = some c := hc
  obtain ⟨d, hd, hok⟩ := bind_ok_iff.mp hok
  rw [deref_ok_iff, hc'] at hd
  obtain rfl := Option.some.inj hd
  have hclosed : Sound contents { s with tcps := s.tcps.set tcp { c with closed := true } } :=
    h.close _ hc' rfl rfl (fun w hw => hw) rfl hclosing (h.closes tcp c hc')
  have hself : (s.tcps.set tcp { c with closed := true }).get? tcp
      = some { c with closed := true } := Heap.get?_set_self hc' _
  split at hok
  · cases hok
    exact hclosed
  · obtain ⟨data, hdata, hok⟩ := bind_ok_iff.mp hok
    rw [deref_ok_iff] at hdata
    split at hok
    · cases hok
      exact hclosed
    · rename_i p
      obtain ⟨b, f, ha⟩ : ∃ b f, Answering s tcp p c b f := by
        cases h.stage tcp c hc' with
        | waiting hw => exact absurd hdata (hw.data p)
        | answering q b f ha =>
          obtain rfl : q = p := by
            have hq := ha.data.symm.trans hdata
            simpa using hq
          exact ⟨b, f, ha⟩
      obtain ⟨b', hb', hok⟩ := bind_ok_iff.mp hok
      rw [deref_ok_iff] at hb'
      obtain rfl := Option.some.inj (hb'.symm.trans ha.block)
      split at hok
      · cases hok
      · obtain ⟨-, -, hok⟩ := bind_ok_iff.mp hok
        obtain ⟨-, -, hok⟩ := bind_ok_iff.mp hok
        cases hok
        rw [ha.back, Heap.set_free]
        exact h.free_answer hc' ha

/-- The pointer that a write carries leads to the block. -/
theorem Answering.blockAt_eq (ha : Answering s tcp p c b f) {data : Option (Option ℕ)}
    (hdata : data = c.data) : blockAt s data = .ok (p, b) := by
  rw [hdata, ha.data]
  show (do
    let block ← deref (s.blocks.get? p) "data"
    .ok (p, block)) = _
  rw [ha.block]
  rfl

/-- The file pipe of a client that is answered is read from when the headers have been sent. -/
theorem Sound.headersSent {w : WriteReq} {status : ℤ} (h : Sound contents s)
    (hc : s.tcps.get? tcp = some c) (ha : Answering s tcp p c b f) (hdata : w.data = c.data)
    (hsent : Sent contents c f) (hok : onHeadersSent s w status = .ok u) : Sound contents u := by
  obtain ⟨-, -, hok⟩ := bind_ok_iff.mp hok
  rw [ha.blockAt_eq hdata] at hok
  have hpipe : pipeFile s b.tcp = .ok u := hok
  rw [ha.back] at hpipe
  obtain ⟨d, hd, hstart⟩ := bind_ok_iff.mp hpipe
  rw [deref_ok_iff] at hd
  obtain rfl := Option.some.inj (hc.symm.trans hd)
  rw [ha.blockAt_eq rfl] at hstart
  have hread : uvReadStart s b.filePipe = .ok u := hstart
  obtain ⟨g, hg, hu⟩ := bind_ok_iff.mp hread
  rw [deref_ok_iff] at hg
  obtain rfl := Option.some.inj (ha.pipe.symm.trans hg)
  cases hu
  have hs := h.change c b { f with reading := true } hc ha rfl rfl rfl rfl
    rfl (h.closes tcp c hc) (h.writes tcp c hc) ⟨hsent.part, hsent.open_all⟩
  rwa [Heap.set_self hc, Heap.set_self ha.block] at hs

/-- The block of a client that is answered counts what was written, and the client is closed when it
has caught up. -/
theorem Sound.writeRes {w : WriteReq} {status : ℤ} (h : Sound contents s)
    (hc : s.tcps.get? tcp = some c) (ha : Answering s tcp p c b f) (hdata : w.data = c.data)
    (hsent : Sent contents c f) (hopen : c.closeCalls = 0) (hok : onWriteRes s w status = .ok u) :
    Sound contents u := by
  obtain rfl := ha.back
  obtain ⟨-, -, hok⟩ := bind_ok_iff.mp hok
  obtain ⟨_, hblock, hok⟩ := bind_ok_iff.mp hok
  rw [ha.blockAt_eq hdata] at hblock
  cases hblock
  obtain ⟨⟨b', action⟩, hres, hact⟩ := bind_ok_iff.mp hok
  obtain ⟨-, b₁, settle, hb₁, hres, haction⟩ := TransferProgram.onWriteRes_ok hres
  cases hb₁
  cases hres
  have hs := h.change c { b with nwritten := b.nwritten + w.buf.length } f
    hc ha rfl rfl rfl rfl rfl (h.closes _ c hc) (h.writes _ c hc) hsent
  rw [Heap.set_self hc, Heap.set_self ha.pipe] at hs
  rcases haction with ⟨-, -, rfl⟩ | ⟨-, rfl⟩
  · -- the writes have caught up
    have hclose : uvClose _ b.tcp .onResEnd = .ok u := hact
    obtain ⟨d, hd, rfl⟩ := uvClose_ok hclose
    obtain rfl := Option.some.inj (hc.symm.trans hd)
    refine hs.close { c with closeCalls := c.closeCalls + 1, closeCb := .onResEnd } hc rfl rfl
      (fun w hw => hw) rfl (Nat.succ_ne_zero _) ?_
    show c.closeCalls + 1 ≤ 1
    omega
  · cases hact
    exact hs

/-- The completion of a write. -/
theorem Sound.written {status : ℤ} (h : Sound contents s)
    (he : Enabled contents s (.written tcp status)) (hok : written s tcp status = .ok u) :
    Sound contents u := by
  obtain ⟨c, hc, hpending, hcanceled⟩ := he
  have hc' : s.tcps.get? tcp = some c := hc
  obtain ⟨p, b, f, ha, hsent⟩ := h.answering_of_pending hc' hpending
  obtain ⟨d, hd, hok⟩ := bind_ok_iff.mp hok
  rw [deref_ok_iff, hc'] at hd
  obtain rfl := Option.some.inj hd
  split at hok
  · cases hok
  · rename_i w ws hw
    have hmem : ∀ v ∈ ws, v ∈ c.pending := by
      intro v hv
      rw [hw]
      exact List.mem_cons_of_mem w hv
    have hdata : w.data = c.data := h.writes tcp c hc' w (hw ▸ List.mem_cons_self)
    have hu := h.change { c with pending := ws } b f hc' ha rfl rfl rfl rfl
      rfl (h.closes tcp c hc') (fun v hv => h.writes tcp c hc' v (hmem v hv))
      ⟨hsent.part, hsent.open_all⟩
    rw [Heap.set_self ha.block, Heap.set_self ha.pipe] at hu
    have hself : (s.tcps.set tcp { c with pending := ws }).get? tcp
        = some { c with pending := ws } := Heap.get?_set_self hc' _
    have ha' : Answering { s with tcps := s.tcps.set tcp { c with pending := ws } } tcp p
        { c with pending := ws } b f :=
      ⟨ha.data, ha.block, ha.back, ha.pipe, ha.pipeBack, ha.received, ha.noStat⟩
    split at hok
    · exact hu.headersSent hself ha' hdata ⟨hsent.part, hsent.open_all⟩ hok
    · -- the callback returns only if the write was successful, so the client is open
      have hzero : c.closeCalls = 0 := by
        by_contra hne
        obtain ⟨_, hstatus, -⟩ := bind_ok_iff.mp hok
        rw [hcanceled hne, check_ok_iff] at hstatus
        exact absurd hstatus (by decide)
      exact hu.writeRes hself ha' hdata ⟨hsent.part, hsent.open_all⟩ hzero hok

/-- A read of the file. -/
theorem Sound.fileRead {i : ℕ} {r : ReadResult} (h : Sound contents s)
    (he : Enabled contents s (.fileRead i r)) (hok : fileRead s i r = .ok u) :
    Sound contents u := by
  obtain ⟨f, hf, hok⟩ := bind_ok_iff.mp hok
  rw [deref_ok_iff] at hf
  obtain ⟨-, he⟩ := he
  rw [hf] at he
  obtain ⟨-, -, -, ⟨rest, hrest⟩, -⟩ := he
  obtain ⟨b, c, hc, rfl, ha, hsent⟩ := h.answering_of_pipe hf
  have hself : (s.filePipes.set b.filePipe { f with offset := f.offset + r.data.length }).get?
      b.filePipe = some { f with offset := f.offset + r.data.length } :=
    Heap.get?_set_self hf _
  obtain ⟨g, hg, hok⟩ := bind_ok_iff.mp hok
  rw [deref_ok_iff] at hg
  obtain rfl := Option.some.inj (hself.symm.trans hg)
  obtain ⟨⟨b', action⟩, hres, hok⟩ := bind_ok_iff.mp hok
  obtain ⟨b₁, hb₁, hcases⟩ := TransferProgram.onFileRead_ok hres
  obtain rfl := Option.some.inj (hb₁.symm.trans ha.block)
  have hnext : contents.take (f.offset + r.data.length) = contents.take f.offset ++ r.data := by
    rw [List.take_add, ← hrest, List.take_left]
  rcases hcases with ⟨-, hres⟩ | ⟨hle, settle, hsettle, hres⟩
  · cases hres
    have hok' : writeCopy _ b₁.tcp r.data .onWriteRes = .ok u := hok
    obtain ⟨d, hd, rfl⟩ := writeCopy_ok hok'
    obtain rfl := Option.some.inj (hc.symm.trans hd)
    refine h.change _ _ _ hc ha (writeTo_data _ _ _) (writeTo_received _ _ _) rfl rfl rfl ?_
      (writeTo_pending (h.writes _ c hc)) (Sent.write ?_ _ fun hopen => ?_)
    · rw [writeTo_closeCalls]
      exact h.closes _ c hc
    · show c.queued <+: SUCCES_HDRS ++ contents.take (f.offset + r.data.length)
      rw [hnext, ← List.append_assoc]
      exact hsent.part.trans (List.prefix_append _ _)
    · show c.queued ++ r.data = SUCCES_HDRS ++ contents.take (f.offset + r.data.length)
      rw [hnext, hsent.open_all hopen, List.append_assoc]
  · cases hres
    have hdata : r.data = [] := ReadResult.data_of_nonpos hle
    have hgoOn : settle = .goOn := by
      unfold TransferProgram.atNoData at hsettle
      split at hsettle
      · cases hsettle
      · exact (Except.ok.inj hsettle).symm
    subst hgoOn
    cases hok
    rw [hdata]
    show Sound contents { s with
      blocks := s.blocks.set f.data b', filePipes := s.filePipes.set b'.filePipe f }
    rw [Heap.set_self ha.block, Heap.set_self hf]
    exact h

theorem sound_of_run {es : List ServerEvent}
    (h : ((sendFileServer contents).restrict OneRead).Run init es s) : Sound contents s := by
  refine h.invariant (init_sound contents) fun s e u hs he hok => ?_
  cases e with
  | connect status accept => exact hs.connect hok
  | reqRead tcp nread stat => exact hs.reqRead he.1 he.2 hok
  | stat tcp result size fd => exact hs.stat he.1 hok
  | written tcp status => exact hs.written he.1 hok
  | fileRead i r => exact hs.fileRead he.1 hok
  | closed tcp filePath => exact hs.closed he.1 hok

end

/-- **One answer.**  In every run in which every request comes in one read, each client is sent a
part of one answer, and is closed at most once. -/
theorem answersOnce (contents : Bytes) (es : List ServerEvent) (s : Server)
    (h : ((sendFileServer contents).restrict OneRead).Run init es s) : Answers contents s :=
  (sound_of_run h).answers

/-- A file of one byte is sent, and the client is closed. -/
theorem answersOnce_oneByte : ∃ s, ((sendFileServer [65]).restrict OneRead).Run init
      [.connect 0 0, .reqRead 0 16 0, .stat 0 0 1 3, .written 0 0, .fileRead 0 (.chunk [65]),
        .written 0 0] s ∧
    Answers [65] s ∧ (s.tcps.get? 0).any (fun c => c.closeCalls == 1) = true := by
  obtain ⟨s, hrun, hp⟩ : ∃ s, ((sendFileServer [65]).restrict OneRead).Run init
      [.connect 0 0, .reqRead 0 16 0, .stat 0 0 1 3, .written 0 0, .fileRead 0 (.chunk [65]),
        .written 0 0] s ∧ (s.tcps.get? 0).any (fun c => c.closeCalls == 1) = true :=
    EventLoop.exists_run_of_plays (by decide +kernel)
  exact ⟨s, hrun, answersOnce _ _ s hrun, hp⟩

/-- A request that comes in two reads has the headers queued twice. -/
theorem two_reads_answer_twice : ¬ ∀ contents es s,
    (sendFileServer contents).Run init es s → Answers contents s := by
  intro h
  obtain ⟨s, hrun, hp⟩ : ∃ s, (sendFileServer [65]).Run init
      [.connect 0 0, .reqRead 0 1024 0, .reqRead 0 6 0, .stat 0 0 1 3, .stat 0 0 1 4] s ∧
      (s.tcps.get? 0).any (fun c => c.queued == SUCCES_HDRS ++ SUCCES_HDRS) = true :=
    EventLoop.exists_run_of_plays (by decide +kernel)
  obtain ⟨c, hc, hqueued⟩ := (Option.any_eq_true _ _).mp hp
  have hpart := (h [65] _ s hrun 0 c hc).1
  rw [beq_iff_eq.mp hqueued] at hpart
  exact absurd hpart (by decide +kernel)

end LibuvDox.SendFileServer
