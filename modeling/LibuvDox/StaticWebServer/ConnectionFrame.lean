import LibuvDox.StaticWebServer.BackPointers

/-!
# Steps that leave the transfers alone

Connections come, are parsed, are closed and go, and nothing of it touches a transfer: only
`on_resolve_resource` sets one up, and only the callbacks of the file and of the writes move it on.

* `Frame`: what such a step leaves as it was.
* `Frame.connect`, `Frame.reqRead`, `Frame.tell`, `Frame.resolve`, `Frame.closed`: the callbacks
  that are such steps.
-/

namespace LibuvDox.StaticWebServer

namespace Server

variable {s t u : Server} {h : ℕ} {hr : SwsHandleReq}

/-- The transfers do not change, nor what was queued; connections keep their `tcp->data`, new ones
have none; and a connection that is closing is not opened again. -/
structure Frame (s u : Server) : Prop where
  pipes : u.pipes = s.pipes
  filePipes : u.filePipes = s.filePipes
  streams : u.streams = s.streams
  grows : s.reqs.next ≤ u.reqs.next
  old : ∀ h hr, u.reqs.get? h = some hr → h < s.reqs.next →
    ∃ hr', s.reqs.get? h = some hr' ∧ hr'.data = hr.data
  fresh : ∀ h hr, u.reqs.get? h = some hr → s.reqs.next ≤ h → hr.data = none
  writes : ∀ h, (u.tcp h).writes = (s.tcp h).writes
  queued : ∀ h, (u.tcp h).queued = (s.tcp h).queued
  closing : ∀ h, (s.tcp h).closeCalls ≤ (u.tcp h).closeCalls

/-- Nothing but the stats, the root and the flags of the handles. -/
theorem Frame.of_reqs (hpipes : u.pipes = s.pipes) (hfiles : u.filePipes = s.filePipes)
    (hstreams : u.streams = s.streams) (hreqs : u.reqs = s.reqs)
    (htcp : ∀ h, (u.tcp h).writes = (s.tcp h).writes ∧ (u.tcp h).queued = (s.tcp h).queued ∧
      (s.tcp h).closeCalls ≤ (u.tcp h).closeCalls) : Frame s u where
  pipes := hpipes
  filePipes := hfiles
  streams := hstreams
  grows := by rw [hreqs]
  old h hr hget _ := ⟨hr, hreqs ▸ hget, rfl⟩
  fresh h hr hget hle := by
    have hlt := Heap.lt_next hget
    rw [hreqs] at hlt
    omega
  writes h := (htcp h).1
  queued h := (htcp h).2.1
  closing h := (htcp h).2.2

theorem Frame.refl (s : Server) : Frame s s :=
  .of_reqs rfl rfl rfl rfl fun _ => ⟨rfl, rfl, le_rfl⟩

theorem Frame.trans (h1 : Frame s t) (h2 : Frame t u) : Frame s u where
  pipes := h2.pipes.trans h1.pipes
  filePipes := h2.filePipes.trans h1.filePipes
  streams := h2.streams.trans h1.streams
  grows := h1.grows.trans h2.grows
  old h hr hget hlt := by
    obtain ⟨hr', hget', hdata'⟩ := h2.old h hr hget (lt_of_lt_of_le hlt h1.grows)
    obtain ⟨hr'', hget'', hdata''⟩ := h1.old h hr' hget' hlt
    exact ⟨hr'', hget'', hdata''.trans hdata'⟩
  fresh h hr hget hle := by
    by_cases hlt : h < t.reqs.next
    · obtain ⟨hr', hget', hdata'⟩ := h2.old h hr hget hlt
      exact hdata'.symm.trans (h1.fresh h hr' hget' hle)
    · exact h2.fresh h hr hget (Nat.le_of_not_lt hlt)
  writes h := (h2.writes h).trans (h1.writes h)
  queued h := (h2.queued h).trans (h1.queued h)
  closing h := (h1.closing h).trans (h2.closing h)

theorem Frame.setReq (hget : s.reqs.get? h = some hr) {hr' : SwsHandleReq}
    (hdata : hr'.data = hr.data) : Frame s (s.setReq h hr') where
  pipes := rfl
  filePipes := rfl
  streams := rfl
  grows := (setReq_next s h hr').ge
  old h' hr'' hget' _ := by
    rcases setReq_cases hget hget' with ⟨rfl, rfl⟩ | ⟨-, hget'⟩
    · exact ⟨hr, hget, hdata.symm⟩
    · exact ⟨hr'', hget', rfl⟩
  fresh h' hr'' hget' hle := by
    have hlt := Heap.lt_next hget'
    rw [setReq_next] at hlt
    omega
  writes _ := rfl
  queued _ := rfl
  closing _ := le_rfl

theorem Frame.newReq (s : Server) (junk : Garbage) (info : SwsResourceInfo) :
    Frame s (s.newReq junk info) where
  pipes := rfl
  filePipes := rfl
  streams := rfl
  grows := by
    rw [newReq_next]
    omega
  old h hr hget hlt := by
    rw [newReq_get?, if_neg hlt.ne] at hget
    exact ⟨hr, hget, rfl⟩
  fresh h hr hget hle := by
    rcases newReq_cases hget with ⟨-, rfl⟩ | hget
    · rfl
    · have hlt := Heap.lt_next hget
      omega
  writes _ := rfl
  queued _ := rfl
  closing _ := le_rfl

theorem Frame.free (s : Server) (h : ℕ) : Frame s { s with reqs := s.reqs.free h } where
  pipes := rfl
  filePipes := rfl
  streams := rfl
  grows := (Heap.next_free _ _).ge
  old _ hr hget _ := ⟨hr, (Heap.free_cases hget).2, rfl⟩
  fresh h' hr hget hle := by
    have hlt := Heap.lt_next hget
    rw [Heap.next_free] at hlt
    omega
  writes _ := rfl
  queued _ := rfl
  closing _ := le_rfl

theorem Frame.setTcp {t : TcpHandle} (hwrites : t.writes = (s.tcp h).writes)
    (hqueued : t.queued = (s.tcp h).queued) (hclosing : (s.tcp h).closeCalls ≤ t.closeCalls) :
    Frame s (s.setTcp h t) := by
  refine .of_reqs rfl rfl rfl rfl fun h' => ?_
  rw [setTcp_tcp]
  split
  · rename_i heq
    rw [heq]
    exact ⟨hwrites, hqueued, hclosing⟩
  · exact ⟨rfl, rfl, le_rfl⟩

theorem Frame.uvClose {cb : CloseCb} (hok : uvClose s h cb = .ok u) : Frame s u := by
  obtain ⟨-, rfl⟩ := uvClose_ok hok
  exact .setTcp rfl rfl (Nat.le_succ _)

theorem Frame.resolve {env : ResolveEnv} {url : Bytes}
    (hok : resolveResource s h env url = .ok u) : Frame s u := by
  obtain ⟨hr, root, hget, -, rfl⟩ := resolveResource_ok hok
  have hset : Frame s (s.setReq h { hr with resourceInfo :=
      { hr.resourceInfo with result := 0, fullPath := resolveUrl root url } }) := .setReq hget rfl
  exact hset.trans (.of_reqs rfl rfl rfl rfl fun _ => ⟨rfl, rfl, le_rfl⟩)

theorem Frame.parserCallback {c : ParserCallback × ResolveEnv}
    (hok : parserCallback h s c = .ok u) : Frame s u := by
  obtain ⟨hr, st, hget, -, ⟨-, rfl⟩ | ⟨-, h', -, url, -, -, -, hstart⟩⟩ := parserCallback_ok hok
  · exact .setReq hget rfl
  · have hset : Frame s (s.setReq h { hr with parseReq := st }) := .setReq hget rfl
    exact hset.trans (.resolve hstart)

theorem Frame.connect {status accept : ℤ} {junk : Garbage} {info : SwsResourceInfo}
    (hok : onConnect s status accept junk info = .ok u) : Frame s u := by
  have hnew := Frame.newReq s junk info
  obtain ⟨-, ⟨-, hclose⟩ | ⟨-, rfl⟩⟩ := onConnect_ok hok
  · exact hnew.trans (.uvClose hclose)
  · exact hnew.trans (.setTcp rfl rfl le_rfl)

theorem Frame.parserCallbacks {calls : List (ParserCallback × ResolveEnv)}
    (hok : calls.foldlM (Server.parserCallback h) s = .ok u) : Frame s u :=
  foldlM_ok_invariant hok (.refl s) fun _ _ _ _ hb hc => hb.trans (.parserCallback hc)

theorem Frame.reqRead {r : ReqRead} (hok : onReqRead s h r = .ok u) : Frame s u := by
  cases r with
  | eof => exact .uvClose hok
  | other nread =>
    cases hok
    exact .refl _
  | data nread calls parsed =>
    obtain ⟨-, v, -, hcalls, hend⟩ := onReqRead_data_ok hok
    have hv : Frame s v := .parserCallbacks hcalls
    rcases hend with ⟨-, hclose⟩ | ⟨-, rfl⟩
    · exact hv.trans (.uvClose hclose)
    · exact hv

theorem Frame.closed (hok : onClosed s h = .ok u) : Frame s u := by
  obtain ⟨v, hv, hcases⟩ := onClosed_ok hok
  have hset : Frame s v := hv ▸ .setTcp rfl rfl le_rfl
  rcases hcases with ⟨-, -, rfl⟩ | ⟨-, rfl⟩
  · exact hset.trans (.free v h)
  · exact hset

theorem Frame.tell {i : ℕ} {req : StatReq} (hget : s.reqs.get? req.data = some hr)
    (result : StatResult) : Frame s (s.tell i req.data hr result) := by
  let t := { s with stats := s.stats.eraseIdx i }
  have hdrop : Frame s t := .of_reqs rfl rfl rfl rfl fun _ => ⟨rfl, rfl, le_rfl⟩
  have hset : Frame t (s.tell i req.data hr result) := .setReq (s := t) hget rfl
  exact hdrop.trans hset

end Server

end LibuvDox.StaticWebServer
