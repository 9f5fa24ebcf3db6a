import LibuvDox.StaticWebServer.BackPointers

/-!
# The life of a connection

A connection is closed from three places: at the client's end of file, after a parse error, and
when a transfer has been completed.  The last two free it once the close has gone through, while
a stat or a file stream that was started for it may still be under way.

* `Lifecycle`: the invariant.  A connection that was freed, or is going to be, is quiet: no stat,
  no active file stream, no write and no read event is left that would come back to it.
* `lifecycle_of_orderly`: in every run in which a parse error meets an idle connection only and no
  response is completed, no tcp handle is closed twice and no event reaches a freed connection.
-/

namespace LibuvDox.StaticWebServer

namespace Server

/-- Nothing that libuv is going to call back leads to the connection `h`. -/
structure Quiet (s : Server) (h : ℕ) : Prop where
  stats : ∀ req ∈ s.stats, req.data ≠ h
  streams : ∀ f, (s.streams f).active = true → (s.streams f).tcp ≠ h
  writes : (s.tcp h).writes = []
  reads : (s.tcp h).reading = true → (s.tcp h).closeCalls ≠ 0

/-- The connection `h` was freed, or will be by the close callback that is due. -/
def Gone (s : Server) (h : ℕ) : Prop :=
  s.reqs.get? h = none ∨ (s.tcp h).closeCb = some .onResEnd

/-- **The invariant.** -/
structure Lifecycle (s : Server) : Prop where
  pipeTcp : ∀ p block, s.pipes.get? p = some block →
    block.tcp < s.reqs.next ∧ ∀ hr, s.reqs.get? block.tcp = some hr → hr.data ≠ none
  once : ∀ h, (s.tcp h).closeCalls ≤ 1
  closing : ∀ h, (s.tcp h).closeCb ≠ none → (s.tcp h).closeCalls ≠ 0
  idle : ∀ h hr, s.reqs.get? h = some hr → hr.data = none →
    (s.tcp h).writes = [] ∧ ∀ f, (s.streams f).active = true → (s.streams f).tcp ≠ h
  gone : ∀ h, Gone s h → Quiet s h
  freed : ∀ h, s.reqs.get? h = none → (s.tcp h).closeCb = none
  fresh : ∀ h, s.reqs.next ≤ h → (s.tcp h).closeCalls = 0

theorem init_lifecycle : Lifecycle init where
  pipeTcp := by simp [init]
  once := by simp [init]
  closing := by simp [init]
  idle := by simp [init]
  gone := by
    intro h _
    exact ⟨by simp [init], by simp [init], rfl, by simp [init]⟩
  freed := by simp [init]
  fresh := by simp [init]

section

variable {s u : Server} {h : ℕ} {hr hr' : SwsHandleReq}

/-! ### Updates that keep the invariant -/

/-- An open connection is not about to go. -/
theorem Lifecycle.not_gone (hs : Lifecycle s) (hget : s.reqs.get? h = some hr)
    (hopen : (s.tcp h).closeCalls = 0) : ¬ Gone s h := by
  intro hgone
  rcases hgone with hfree | hcb
  · rw [hfree] at hget
    cases hget
  · exact hs.closing h (by rw [hcb]; simp) hopen

theorem setReq_gone (hget : s.reqs.get? h = some hr) (h' : ℕ) :
    Gone (s.setReq h hr') h' ↔ Gone s h' := by
  unfold Gone
  rw [setReq_get? hget, setReq_tcp]
  by_cases heq : h' = h
  · rw [if_pos heq, heq, hget]
    simp
  · rw [if_neg heq]

/-- The block of a connection changes, but not `tcp->data`. -/
theorem Lifecycle.setReq (hs : Lifecycle s) (hget : s.reqs.get? h = some hr)
    (hdata : hr'.data = hr.data) : Lifecycle (s.setReq h hr') where
  pipeTcp := by
    intro p block hblock
    obtain ⟨hlt, hdat⟩ := hs.pipeTcp p block hblock
    refine ⟨by rwa [setReq_next], ?_⟩
    intro hr'' hget'
    rcases setReq_cases hget hget' with ⟨heq, rfl⟩ | ⟨-, hget'⟩
    · rw [hdata]
      exact hdat hr (heq ▸ hget)
    · exact hdat hr'' hget'
  once := hs.once
  closing := hs.closing
  idle := by
    intro h' hr'' hget' hnone
    rcases setReq_cases hget hget' with ⟨rfl, rfl⟩ | ⟨-, hget'⟩
    · rw [hdata] at hnone
      exact hs.idle h' hr hget hnone
    · exact hs.idle h' hr'' hget' hnone
  gone := by
    intro h' hgone
    obtain ⟨h1, h2, h3, h4⟩ := hs.gone h' ((setReq_gone hget h').mp hgone)
    exact ⟨h1, h2, h3, h4⟩
  freed := by
    intro h' hfree
    rw [setReq_get? hget] at hfree
    split at hfree
    · cases hfree
    · exact hs.freed h' hfree
  fresh := by
    intro h' hle
    rw [setReq_next] at hle
    exact hs.fresh h' hle

/-- A stat is issued for a connection that is here to stay. -/
theorem Lifecycle.addStat (hs : Lifecycle s) (hstay : ¬ Gone s h) (root path : Bytes) :
    Lifecycle { s with root := root, stats := s.stats ++ [⟨h, path⟩] } where
  pipeTcp := hs.pipeTcp
  once := hs.once
  closing := hs.closing
  idle := hs.idle
  gone := by
    intro h' hgone
    obtain ⟨h1, h2, h3, h4⟩ := hs.gone h' hgone
    refine ⟨?_, h2, h3, h4⟩
    intro req hreq
    rcases List.mem_append.mp hreq with hold | hnew
    · exact h1 req hold
    · rw [List.mem_singleton.mp hnew]
      rintro rfl
      exact hstay hgone
  freed := hs.freed
  fresh := hs.fresh

theorem Lifecycle.dropStat (hs : Lifecycle s) (i : ℕ) :
    Lifecycle { s with stats := s.stats.eraseIdx i } where
  pipeTcp := hs.pipeTcp
  once := hs.once
  closing := hs.closing
  idle := hs.idle
  gone := by
    intro h' hgone
    obtain ⟨h1, h2, h3, h4⟩ := hs.gone h' hgone
    exact ⟨fun req hreq => h1 req (List.mem_of_mem_eraseIdx hreq), h2, h3, h4⟩
  freed := hs.freed
  fresh := hs.fresh

/-- A resolution is started for a connection that is here to stay. -/
theorem Lifecycle.resolve (hs : Lifecycle s) (hstay : ¬ Gone s h) {env : ResolveEnv}
    {url : Bytes} (hok : resolveResource s h env url = .ok u) :
    Lifecycle u ∧ u.tcp = s.tcp := by
  obtain ⟨hr, root, hget, -, rfl⟩ := resolveResource_ok hok
  have hset : Lifecycle (s.setReq h { hr with resourceInfo :=
      { hr.resourceInfo with result := 0, fullPath := resolveUrl root url } }) :=
    hs.setReq hget rfl
  refine ⟨hset.addStat ?_ root _, rfl⟩
  rwa [setReq_gone hget]

/-- The block of a transfer changes, but not its connection. -/
theorem Lifecycle.setBlock (hs : Lifecycle s) {p : ℕ} {block block' : FileTcpPipe}
    (hblock : s.pipes.get? p = some block) (htcp : block'.tcp = block.tcp) :
    Lifecycle { s with pipes := s.pipes.set p block' } where
  pipeTcp := by
    refine Heap.forall_set hs.pipeTcp hblock ?_
    rw [htcp]
    exact hs.pipeTcp p block hblock
  once := hs.once
  closing := hs.closing
  idle := hs.idle
  gone := by
    intro h' hgone
    obtain ⟨h1, h2, h3, h4⟩ := hs.gone h' hgone
    exact ⟨h1, h2, h3, h4⟩
  freed := hs.freed
  fresh := hs.fresh

/-- A file stream that is active reads on. -/
theorem Lifecycle.readOn (hs : Lifecycle s) {f : ℕ} (hactive : (s.streams f).active = true)
    (r : ReadResult) : Lifecycle (s.readOn f r) := by
  have hstreams : ∀ f', ((s.readOn f r).streams f').active = true →
      (s.streams f').active = true ∧ ((s.readOn f r).streams f').tcp = (s.streams f').tcp := by
    intro f' hf'
    simp only [Server.readOn, Function.update_apply] at hf' ⊢
    split at hf'
    · rename_i heq
      rw [if_pos heq, heq]
      exact ⟨hactive, rfl⟩
    · rename_i hne
      rw [if_neg hne]
      exact ⟨hf', rfl⟩
  refine ⟨hs.pipeTcp, hs.once, hs.closing, ?_, ?_, hs.freed, hs.fresh⟩
  · intro h' hr' hget hnone
    obtain ⟨hwrites, hidle⟩ := hs.idle h' hr' hget hnone
    refine ⟨hwrites, ?_⟩
    intro f' hf'
    obtain ⟨hact, htcp⟩ := hstreams f' hf'
    rw [htcp]
    exact hidle f' hact
  · intro h' hgone
    obtain ⟨h1, h2, h3, h4⟩ := hs.gone h' hgone
    refine ⟨h1, ?_, h3, h4⟩
    intro f' hf'
    obtain ⟨hact, htcp⟩ := hstreams f' hf'
    rw [htcp]
    exact h2 f' hact

/-- What libuv keeps for the handle `h` changes. -/
theorem Lifecycle.setTcp (hs : Lifecycle s) {t : TcpHandle} (honce : t.closeCalls ≤ 1)
    (hclosing : t.closeCb ≠ none → t.closeCalls ≠ 0)
    (hidle : ∀ hr, s.reqs.get? h = some hr → hr.data = none → t.writes = [])
    (hgone : s.reqs.get? h = none ∨ t.closeCb = some .onResEnd → Quiet (s.setTcp h t) h)
    (hfreed : s.reqs.get? h = none → t.closeCb = none)
    (hfresh : s.reqs.next ≤ h → t.closeCalls = 0) : Lifecycle (s.setTcp h t) where
  pipeTcp := hs.pipeTcp
  once := by
    intro h'
    rw [setTcp_tcp]
    split
    · exact honce
    · exact hs.once h'
  closing := by
    intro h'
    rw [setTcp_tcp]
    split
    · exact hclosing
    · exact hs.closing h'
  idle := by
    intro h' hr' hget hnone
    obtain ⟨hwrites, hstreams⟩ := hs.idle h' hr' hget hnone
    refine ⟨?_, hstreams⟩
    rw [setTcp_tcp]
    split
    · rename_i heq
      exact hidle hr' (heq ▸ hget) hnone
    · exact hwrites
  gone := by
    intro h' hgone'
    unfold Gone at hgone'
    rw [setTcp_tcp] at hgone'
    split at hgone'
    · rename_i heq
      rw [heq] at hgone' ⊢
      exact hgone hgone'
    · rename_i hne
      obtain ⟨h1, h2, h3, h4⟩ := hs.gone h' hgone'
      refine ⟨h1, h2, ?_, ?_⟩
      · rwa [setTcp_tcp, if_neg hne]
      · rwa [setTcp_tcp, if_neg hne]
  freed := by
    intro h' hfree
    rw [setTcp_tcp]
    split
    · rename_i heq
      exact hfreed (heq ▸ hfree)
    · exact hs.freed h' hfree
  fresh := by
    intro h' hle
    rw [setTcp_tcp]
    split
    · rename_i heq
      exact hfresh (heq ▸ hle)
    · exact hs.fresh h' hle

/-- A handle whose connection stays: only the number of its close calls and its writes matter. -/
theorem Lifecycle.setTcp_open (hs : Lifecycle s) (hget : s.reqs.get? h = some hr) {t : TcpHandle}
    (honce : t.closeCalls ≤ 1) (hclosing : t.closeCb ≠ none → t.closeCalls ≠ 0)
    (hcb : t.closeCb ≠ some .onResEnd) (hidle : hr.data = none → t.writes = []) :
    Lifecycle (s.setTcp h t) := by
  refine hs.setTcp honce hclosing ?_ ?_ ?_ ?_
  · intro hr' hget' hnone
    rw [hget] at hget'
    cases hget'
    exact hidle hnone
  · intro hgone
    rcases hgone with hfree | hcb'
    · rw [hget] at hfree
      cases hfree
    · exact absurd hcb' hcb
  · intro hfree
    rw [hget] at hfree
    cases hfree
  · intro hle
    exact absurd (Heap.lt_next hget) (by omega)

/-- A write on a connection whose `tcp->data` is set. -/
theorem Lifecycle.write (hs : Lifecycle s) (hget : s.reqs.get? h = some hr)
    (hdata : hr.data ≠ none) (w : WriteReq) : Lifecycle (uvWrite s h w) := by
  unfold uvWrite
  split
  · rename_i hopen
    refine hs.setTcp_open hget (hs.once h) (hs.closing h) ?_ ?_
    · intro hcb
      exact hs.not_gone hget hopen (.inr hcb)
    · intro hnone
      exact absurd hnone hdata
  · exact hs

/-- The oldest write of a handle is called back. -/
theorem Lifecycle.popWrite (hs : Lifecycle s) {w : WriteReq} {ws : List WriteReq}
    (hw : (s.tcp h).writes = w :: ws) :
    Lifecycle (s.setTcp h { s.tcp h with writes := ws }) := by
  refine hs.setTcp (hs.once h) (hs.closing h) ?_ ?_ (hs.freed h) (hs.fresh h)
  · intro hr' hget hnone
    rw [(hs.idle h hr' hget hnone).1] at hw
    cases hw
  · intro hgone
    rw [(hs.gone h hgone).writes] at hw
    cases hw

/-- `uv_close` without a callback, of a handle that was not closed before. -/
theorem Lifecycle.closeNull (hs : Lifecycle s) (hopen : (s.tcp h).closeCalls = 0)
    (hok : uvClose s h .null = .ok u) : Lifecycle u := by
  obtain ⟨⟨hr, hget⟩, rfl⟩ := uvClose_ok hok
  refine hs.setTcp_open hget ?_ ?_ ?_ ?_
  · simp [hopen]
  · simp
  · simp
  · intro hnone
    exact (hs.idle h hr hget hnone).1

/-- `uv_close` with `on_res_end`, of a handle that was not closed before and that nothing is under
way for. -/
theorem Lifecycle.closeResEnd (hs : Lifecycle s) (hopen : (s.tcp h).closeCalls = 0)
    (hstats : ∀ req ∈ s.stats, req.data ≠ h)
    (hdata : ∀ hr, s.reqs.get? h = some hr → hr.data = none)
    (hok : uvClose s h .onResEnd = .ok u) : Lifecycle u := by
  obtain ⟨⟨hr, hget⟩, rfl⟩ := uvClose_ok hok
  obtain ⟨hwrites, hstreams⟩ := hs.idle h hr hget (hdata hr hget)
  refine hs.setTcp ?_ ?_ ?_ ?_ ?_ ?_
  · simp [hopen]
  · simp
  · intro _ _ _
    exact hwrites
  · intro _
    refine ⟨hstats, hstreams, ?_, ?_⟩
    · rw [setTcp_tcp, if_pos rfl]
      exact hwrites
    · rw [setTcp_tcp, if_pos rfl]
      simp
  · intro hfree
    rw [hget] at hfree
    cases hfree
  · intro hle
    exact absurd (Heap.lt_next hget) (by omega)

/-- A transfer is set up for a connection that is here to stay. -/
theorem Lifecycle.pipeFile (hs : Lifecycle s) (hstay : ¬ Gone s h) {path contents : Bytes}
    {size : ℕ} {env : PipeFileEnv} (hok : swsPipeFile s h path size env contents = .ok (u, 0)) :
    Lifecycle u := by
  obtain ⟨hr, hget, hnull, rfl⟩ := swsPipeFile_ok hok
  have hstreams : ∀ h' f, h' ≠ h → ((s.streams f).active = true → (s.streams f).tcp ≠ h') →
      ((s.piped h hr size path contents).streams f).active = true →
      ((s.piped h hr size path contents).streams f).tcp ≠ h' := by
    intro h' f hne hold
    rw [piped_streams]
    split
    · exact fun _ => hne.symm
    · exact hold
  constructor
  case pipeTcp =>
    intro p block hblock
    rw [piped_reqs_next]
    rcases piped_block_cases hblock with ⟨-, rfl⟩ | hblock
    · refine ⟨Heap.lt_next hget, fun hr' hget' => ?_⟩
      rcases piped_req_cases hget hget' with ⟨-, rfl⟩ | ⟨hne, -⟩
      · exact Option.some_ne_none _
      · exact absurd rfl hne
    · obtain ⟨hlt, hdata⟩ := hs.pipeTcp p block hblock
      refine ⟨hlt, fun hr' hget' => ?_⟩
      rcases piped_req_cases hget hget' with ⟨-, rfl⟩ | ⟨-, hget'⟩
      · exact Option.some_ne_none _
      · exact hdata hr' hget'
  case once => exact hs.once
  case closing => exact hs.closing
  case idle =>
    intro h' hr' hget' hnone
    rcases piped_req_cases hget hget' with ⟨-, rfl⟩ | ⟨hne, hget'⟩
    · cases hnone
    · obtain ⟨hwrites, hidle⟩ := hs.idle h' hr' hget' hnone
      exact ⟨hwrites, fun f => hstreams h' f hne (hidle f)⟩
  case gone =>
    intro h' hgone
    have hold : Gone s h' := (setReq_gone hget h').mp hgone
    have hne : h' ≠ h := fun heq => hstay (heq ▸ hold)
    obtain ⟨h1, h2, h3, h4⟩ := hs.gone h' hold
    exact ⟨h1, fun f => hstreams h' f hne (h2 f), h3, h4⟩
  case freed =>
    intro h' hfree
    by_cases heq : h' = h
    · rw [heq] at hfree
      exact absurd ((setReq_self hget _).symm.trans hfree) (Option.some_ne_none _)
    · rw [piped_req_of_ne s heq] at hfree
      exact hs.freed h' hfree
  case fresh =>
    intro h' hle
    exact hs.fresh h' ((piped_reqs_next s).ge.trans hle)

/-- A connection is freed, whose close callback is not due any more and that is quiet. -/
theorem Lifecycle.free (hs : Lifecycle s) (hquiet : Quiet s h)
    (hcb : (s.tcp h).closeCb = none) :
    Lifecycle { s with reqs := s.reqs.free h } := by
  have hnext : (s.reqs.free h).next = s.reqs.next := Heap.next_free _ _
  refine ⟨?_, hs.once, hs.closing, ?_, ?_, ?_, ?_⟩
  · intro p block hblock
    obtain ⟨hlt, hdat⟩ := hs.pipeTcp p block hblock
    exact ⟨hlt.trans_eq hnext.symm, fun hr' hget' => hdat hr' (Heap.free_cases hget').2⟩
  · intro h' hr' hget'
    exact hs.idle h' hr' (Heap.free_cases hget').2
  · intro h' hgone
    rcases hgone with hnone | hdue
    · by_cases heq : h' = h
      · rw [heq]
        obtain ⟨h1, h2, h3, h4⟩ := hquiet
        exact ⟨h1, h2, h3, h4⟩
      · rw [Heap.get?_free_of_ne _ heq] at hnone
        obtain ⟨h1, h2, h3, h4⟩ := hs.gone h' (.inl hnone)
        exact ⟨h1, h2, h3, h4⟩
    · obtain ⟨h1, h2, h3, h4⟩ := hs.gone h' (.inr hdue)
      exact ⟨h1, h2, h3, h4⟩
  · intro h' hnone
    by_cases heq : h' = h
    · rw [heq]
      exact hcb
    · rw [Heap.get?_free_of_ne _ heq] at hnone
      exact hs.freed h' hnone
  · intro h' hle
    exact hs.fresh h' (hnext.symm.trans_le hle)

/-! ### One event -/

theorem Lifecycle.newReq (hs : Lifecycle s) (junk : Garbage) (info : SwsResourceInfo) :
    Lifecycle (s.newReq junk info) := by
  have hnew : s.reqs.get? s.reqs.next = none := Heap.get?_next _
  have hquiet := hs.gone _ (.inl hnew)
  have hold : ∀ h', Gone (s.newReq junk info) h' → Gone s h' := by
    intro h' hgone
    rcases hgone with hnone | hdue
    · rw [newReq_get?] at hnone
      split at hnone
      · cases hnone
      · exact .inl hnone
    · exact .inr hdue
  refine ⟨?_, hs.once, hs.closing, ?_, ?_, ?_, ?_⟩
  · intro p block hblock
    obtain ⟨hlt, hdat⟩ := hs.pipeTcp p block hblock
    rw [newReq_next]
    refine ⟨by omega, ?_⟩
    intro hr' hget'
    rcases newReq_cases hget' with ⟨heq, -⟩ | hget'
    · exact absurd heq hlt.ne
    · exact hdat hr' hget'
  · intro h' hr' hget' hnone
    rcases newReq_cases hget' with ⟨rfl, -⟩ | hget'
    · exact ⟨hquiet.writes, hquiet.streams⟩
    · exact hs.idle h' hr' hget' hnone
  · intro h' hgone
    obtain ⟨h1, h2, h3, h4⟩ := hs.gone h' (hold h' hgone)
    exact ⟨h1, h2, h3, h4⟩
  · intro h' hnone
    rw [newReq_get?] at hnone
    split at hnone
    · cases hnone
    · exact hs.freed h' hnone
  · intro h' hle
    rw [newReq_next] at hle
    exact hs.fresh h' (by omega)

theorem Lifecycle.connect (hs : Lifecycle s) {status accept : ℤ} {junk : Garbage}
    {info : SwsResourceInfo} (hok : onConnect s status accept junk info = .ok u) :
    Lifecycle u := by
  have hnew := hs.newReq junk info
  have hget : (s.newReq junk info).reqs.get? s.reqs.next =
      some (swsHandleReqInit s.reqs.next s.id junk info) := by
    rw [newReq_get?, if_pos rfl]
  have hcalls := hs.fresh _ (le_refl s.reqs.next)
  obtain ⟨-, ⟨-, hclose⟩ | ⟨-, rfl⟩⟩ := onConnect_ok hok
  · exact hnew.closeNull hcalls hclose
  · refine hnew.setTcp_open hget (hs.once _) (hs.closing _) ?_ ?_
    · intro hcb
      exact hnew.not_gone hget hcalls (.inr hcb)
    · intro hnone
      exact (hnew.idle _ _ hget hnone).1

/-- One callback of http_parser, on a connection that is open. -/
theorem Lifecycle.parserCallback (hs : Lifecycle s) (hl : Linked s)
    (hopen : (s.tcp h).closeCalls = 0) {c : ParserCallback × ResolveEnv}
    (hok : Server.parserCallback h s c = .ok u) : Lifecycle u ∧ u.tcp = s.tcp := by
  obtain ⟨hr, st, hget, -, ⟨-, rfl⟩ | ⟨-, url, -, hstart⟩⟩ := hl.parserCallback_ok hok
  · exact ⟨hs.setReq hget rfl, rfl⟩
  · have hset : Lifecycle (s.setReq h { hr with parseReq := st }) := hs.setReq hget rfl
    refine hset.resolve ?_ hstart
    rw [setReq_gone hget]
    exact hs.not_gone hget hopen

/-- The oldest write of the handle completes its transfer: with it all that was read is written,
and that is the size. -/
def EndsTransfer (s : Server) (h : ℕ) : Prop :=
  ∃ w ws p block, (s.tcp h).writes = w :: ws ∧ w.data = some p ∧ s.pipes.get? p = some block ∧
    block.nwritten + w.buf.length = block.nread ∧ block.size = block.nread

/-- A parse error meets an idle connection, in a buffer that does not end a message; no response is
completed; and no file stream reports an empty read. -/
def Orderly (s : Server) : ServerEvent → Prop
  | .reqRead h (.data nread calls parsed) =>
    parsed < nread → Idle s h ∧ ∀ c ∈ calls, c.1.completes = false
  | .fileRead _ r => r.nread ≠ 0
  | .written h _ => ¬ EndsTransfer s h
  | _ => True

instance (s : Server) (h : ℕ) : Decidable (Idle s h) :=
  decidable_of_iff ((∀ req ∈ s.stats, req.data ≠ h) ∧ ∀ hr ∈ s.reqs.get? h, hr.data = none)
    ⟨fun hidle => ⟨hidle.1, hidle.2⟩, fun hidle => ⟨hidle.stats, hidle.data⟩⟩

instance (s : Server) (h : ℕ) : Decidable (EndsTransfer s h) :=
  decidable_of_iff (∃ w ∈ (s.tcp h).writes.head?, ∃ p ∈ w.data, ∃ block ∈ s.pipes.get? p,
      block.nwritten + w.buf.length = block.nread ∧ block.size = block.nread) <| by
    constructor
    · rintro ⟨w, hw, p, hp, block, hblock, hends⟩
      obtain ⟨ws, hws⟩ := List.head?_eq_some_iff.mp hw
      exact ⟨w, ws, p, block, hws, hp, hblock, hends⟩
    · rintro ⟨w, ws, p, block, hws, hp, hblock, hends⟩
      exact ⟨w, List.head?_eq_some_iff.mpr ⟨ws, hws⟩, p, hp, block, hblock, hends⟩

instance (s : Server) : (e : ServerEvent) → Decidable (Orderly s e)
  | .reqRead _ .eof => instDecidableTrue
  | .reqRead _ (.other _) => instDecidableTrue
  | .reqRead h (.data nread calls parsed) =>
    inferInstanceAs (Decidable
      (parsed < nread → Idle s h ∧ ∀ c ∈ calls, c.1.completes = false))
  | .fileRead _ r => inferInstanceAs (Decidable (r.nread ≠ 0))
  | .written h _ => inferInstanceAs (Decidable (¬ EndsTransfer s h))
  | .connect _ _ _ _ => instDecidableTrue
  | .stat _ _ _ _ _ => instDecidableTrue
  | .closed _ => instDecidableTrue

theorem Lifecycle.reqRead (hs : Lifecycle s) (hl : Linked s) (hopen : (s.tcp h).closeCalls = 0)
    {r : ReqRead} (horderly : Orderly s (.reqRead h r)) (hok : onReqRead s h r = .ok u) :
    Lifecycle u := by
  cases r with
  | eof => exact hs.closeNull hopen hok
  | other nread =>
    cases hok
    exact hs
  | data nread calls parsed =>
    obtain ⟨-, v, -, hcalls, hend⟩ := onReqRead_data_ok hok
    obtain ⟨hv, -, htcp⟩ : Lifecycle v ∧ Linked v ∧ v.tcp = s.tcp := by
      refine foldlM_ok_invariant (P := fun v => Lifecycle v ∧ Linked v ∧ v.tcp = s.tcp) hcalls
        ⟨hs, hl, rfl⟩ ?_
      intro b c d _ ⟨hb, hlb, htcp⟩ hd
      obtain ⟨hlife, htcp'⟩ := hb.parserCallback hlb (htcp ▸ hopen) hd
      exact ⟨hlife, hlb.parserCallback hd, htcp'.trans htcp⟩
    rcases hend with ⟨herr, hclose⟩ | ⟨-, rfl⟩
    · obtain ⟨hidle, hnone⟩ := horderly herr
      have hidle' : Idle v h := by
        refine foldlM_ok_invariant (P := fun v => Idle v h) hcalls hidle ?_
        intro b c d hmem hb hd
        exact hb.parserCallback (hnone c hmem) hd
      exact hv.closeResEnd (htcp ▸ hopen) hidle'.stats hidle'.data hclose
    · exact hv

theorem Lifecycle.stat (hs : Lifecycle s) (hl : Linked s) {i : ℕ} {result : StatResult}
    {env : ResolveEnv} {pipe : PipeFileEnv} {contents : Bytes}
    (hok : fsStatCb s i result env pipe contents = .ok u) : Lifecycle u := by
  obtain ⟨req, hr, hreq, hget, hcases⟩ := hl.fsStatCb_ok hok
  -- a connection for which a stat is under way is not about to go
  have hstay : ¬ Gone s req.data := by
    intro hgone
    exact (hs.gone _ hgone).stats req (List.mem_of_getElem? hreq) rfl
  have htold : Lifecycle (s.tell i req.data hr result) := (hs.dropStat i).setReq hget rfl
  have hstay' : ¬ Gone (s.tell i req.data hr result) req.data := mt (setReq_gone hget _).mp hstay
  rcases hcases with ⟨e, -, hagain⟩ | ⟨size, -, hpipe⟩
  · exact (htold.resolve hstay' hagain).1
  · exact htold.pipeFile hstay' hpipe

theorem Lifecycle.fileRead (hs : Lifecycle s) {f : ℕ} {r : ReadResult}
    (he : s.Enabled (.fileRead f r)) (horderly : r.nread ≠ 0) (hok : onFileRead s f r = .ok u) :
    Lifecycle u := by
  obtain ⟨p, block, -, hblock, ⟨hpos, hwrite⟩ | ⟨hle, hend⟩⟩ := onFileRead_ok hok
  · have hread := hs.readOn he.1 r
    have hset := hread.setBlock (p := p) hblock
      (show { block with nread := block.nread + r.data.length }.tcp = block.tcp from rfl)
    obtain ⟨hr, hget, rfl⟩ := writeData_ok hwrite
    exact hset.write hget ((hs.pipeTcp p block hblock).2 hr hget) _
  · -- the end of the file and a read error are no status that `on_pipe_file_complete` survives
    obtain ⟨hstatus, -⟩ := fileTcpPipeEnd_ok hend
    exact absurd hstatus horderly

theorem Lifecycle.written (hs : Lifecycle s) {status : ℤ} (horderly : ¬ EndsTransfer s h)
    (hok : onWriteRes s h status = .ok u) : Lifecycle u := by
  obtain ⟨-, w, ws, p, block, v, hw, hdata, hblock, rfl, ⟨hcaught, hsize, -⟩ | ⟨-, rfl⟩⟩ :=
    onWriteRes_ok hok
  · exact absurd ⟨w, ws, p, block, hw, hdata, hblock, hcaught, hsize⟩ horderly
  · exact (hs.popWrite hw).setBlock (p := p) hblock
      (show { block with nwritten := block.nwritten + w.buf.length }.tcp = block.tcp from rfl)

theorem Lifecycle.closed (hs : Lifecycle s) (hok : onClosed s h = .ok u) : Lifecycle u := by
  obtain ⟨v, hv, hcases⟩ := onClosed_ok hok
  have hlife : Lifecycle v := by
    rw [hv]
    refine hs.setTcp (hs.once h) ?_ ?_ ?_ ?_ (hs.fresh h)
    · intro hne
      exact absurd rfl hne
    · intro hr hget hnone
      exact (hs.idle h hr hget hnone).1
    · intro hgone
      have hfree : s.reqs.get? h = none := by
        rcases hgone with hfree | hcb
        · exact hfree
        · cases hcb
      obtain ⟨h1, h2, h3, h4⟩ := hs.gone h (.inl hfree)
      refine ⟨h1, h2, ?_, ?_⟩
      · rwa [setTcp_tcp, if_pos rfl]
      · rwa [setTcp_tcp, if_pos rfl]
    · intro _
      rfl
  rcases hcases with ⟨hdue, -, rfl⟩ | ⟨-, rfl⟩
  · have hquiet : Quiet v h := by
      obtain ⟨h1, h2, h3, h4⟩ := hs.gone h (.inr hdue)
      rw [hv]
      refine ⟨h1, h2, ?_, ?_⟩
      · rwa [setTcp_tcp, if_pos rfl]
      · rwa [setTcp_tcp, if_pos rfl]
    refine hlife.free hquiet ?_
    rw [hv, setTcp_tcp, if_pos rfl]
  · exact hlife

/-- **One event** of an orderly run keeps the invariant. -/
theorem Lifecycle.step (hs : Lifecycle s) (hl : Linked s) {e : ServerEvent}
    (he : server.enabled s e) (horderly : Orderly s e) (hok : server.dispatch s e = .ok u) :
    Lifecycle u := by
  cases e with
  | connect status accept junk info => exact hs.connect hok
  | reqRead h r => exact hs.reqRead hl he.2.1 horderly hok
  | stat i result env pipe contents => exact hs.stat hl hok
  | fileRead f r => exact hs.fileRead he horderly hok
  | written h status => exact hs.written horderly hok
  | closed h => exact hs.closed hok

end

/-- The callback of the event comes to the connection `h`. -/
def Reaches (s : Server) (h : ℕ) : ServerEvent → Prop
  | .connect _ _ _ _ => False
  | .reqRead h' _ => h' = h
  | .stat i _ _ _ _ => s.stats[i]?.map StatReq.data = some h
  | .fileRead f _ => (s.streams f).tcp = h
  | .written h' _ => h' = h
  | .closed h' => h' = h

/-- No tcp handle was closed twice, and no callback is due that comes to a freed connection. -/
structure LifecycleOk (s : Server) : Prop where
  once : ∀ h, (s.tcp h).closeCalls ≤ 1
  late : ∀ h, s.reqs.get? h = none → ∀ e, server.enabled s e → ¬ Reaches s h e

theorem Lifecycle.ok {s : Server} (hs : Lifecycle s) : LifecycleOk s where
  once := hs.once
  late := by
    intro h hfree e he hreach
    have hquiet := hs.gone h (.inl hfree)
    cases e with
    | connect status accept junk info => exact hreach
    | reqRead h' r =>
      obtain rfl : h' = h := hreach
      exact hquiet.reads he.1 he.2.1
    | stat i result env pipe contents =>
      obtain ⟨req, hreq, hdata⟩ := Option.map_eq_some_iff.mp hreach
      exact hquiet.stats req (List.mem_of_getElem? hreq) hdata
    | fileRead f r => exact hquiet.streams f he.1 hreach
    | written h' status =>
      obtain rfl : h' = h := hreach
      exact he.1 hquiet.writes
    | closed h' =>
      obtain rfl : h' = h := hreach
      exact he (hs.freed _ hfree)

end Server

open Server

/-- **The life of a connection.**  In every run in which a parse error meets an idle connection
only, no response is completed and no file stream reports an empty read, every tcp handle is
closed at most once and no callback comes to a freed connection. -/
theorem lifecycle_of_orderly {es : List ServerEvent} {s : Server}
    (hrun : (server.restrict Orderly).Run init es s) : LifecycleOk s := by
  have hs := hrun.invariant (P := fun s => Lifecycle s ∧ Linked s) ⟨init_lifecycle, init_linked⟩
    fun _ _ _ hs he hok => ⟨hs.1.step hs.2 he.1 he.2 hok, hs.2.step hok⟩
  exact hs.1.ok

/-- Three clients: the first one sends what is no HTTP, and is freed while a file is being sent to
the second one and a stat is under way for the third. -/
theorem lifecycle_of_orderly_freed : ∃ es s, (server.restrict Orderly).Run init es s ∧
    s.reqs.get? 0 = none ∧ (s.tcp 1).writes ≠ [] ∧ s.stats.map StatReq.data = [2] ∧
      LifecycleOk s := by
  obtain ⟨s, hrun, hs⟩ := EventLoop.exists_run_of_plays
    (show ((server.restrict Orderly).plays init
        [clientConnects, clientConnects, .reqRead 1 (.data 36 (getRequest "/a") 36), clientConnects,
          fileFound [65, 66, 67], .fileRead 0 (.chunk [65]),
          .reqRead 2 (.data 36 (getRequest "/b") 36), .fileRead 0 (.chunk [66]), .written 1 0,
          .reqRead 0 (.data 4 [] 0), .fileRead 0 (.chunk [67]), .closed 0, .written 1 0]).any
      (fun s => (s.reqs.get? 0).isNone && (s.tcp 1).writes.length == 1 &&
        s.stats.map StatReq.data == [2]) = true by decide +kernel)
  simp only [Bool.and_eq_true, Option.isNone_iff_eq_none, beq_iff_eq] at hs
  obtain ⟨⟨hfree, hwrites⟩, hstats⟩ := hs
  have hpending : (s.tcp 1).writes ≠ [] := List.ne_nil_of_length_pos (by omega)
  exact ⟨_, s, hrun, hfree, hpending, hstats, lifecycle_of_orderly hrun⟩

/-- Four bytes of garbage after a request: the connection is freed while its stat is under way. -/
theorem garbage_after_request_late : ¬ ∀ es s, server.Run init es s → LifecycleOk s := by
  intro h
  obtain ⟨s, hrun, hs⟩ := EventLoop.exists_run_of_plays
    (show (server.plays init
        [clientConnects, .reqRead 0 (.data 40 (getRequest "/x") 36), .closed 0]).any
      (fun s => (s.reqs.get? 0).isNone && s.stats.map StatReq.data == [0]) = true by decide +kernel)
  simp only [Bool.and_eq_true, Option.isNone_iff_eq_none, beq_iff_eq] at hs
  obtain ⟨hfree, hstats⟩ := hs
  obtain ⟨req, hreq, hdata⟩ := List.map_eq_singleton_iff.mp hstats
  refine (h _ _ hrun).late 0 hfree (fileFound []) ?_ ?_
  · show 0 < s.stats.length
    rw [hreq]
    exact Nat.zero_lt_one
  · show s.stats[0]?.map StatReq.data = some 0
    rw [hreq]
    exact congrArg some hdata

end LibuvDox.StaticWebServer
