import LibuvDox.StaticWebServer.RequestFrame

/-!
# Back pointers

Whatever the events of a run are, `parse_req.data` and `resource_info.data` of a live connection
lead back to it, and as long as a stat is under way for it `resource_info.result` is 0, so the
answer of the stat alone decides how `on_resolve_resource` goes on.

* `Linked`: the invariant.
* `linked_of_run`: it holds in every run of the server.
* `statsFor_parserCallbacks`: each message that ends in a buffer has one more stat under way.
-/

namespace LibuvDox.StaticWebServer

namespace Server

/-- **The invariant.** -/
structure Linked (s : Server) : Prop where
  self : ∀ h hr, s.reqs.get? h = some hr →
    hr.parseReq.req.data = some h ∧ hr.resourceInfo.data = some h
  below : ∀ req ∈ s.stats, req.data < s.reqs.next
  untold : ∀ req ∈ s.stats, ∀ hr, s.reqs.get? req.data = some hr → hr.resourceInfo.result = 0

theorem init_linked : Linked init where
  self := by simp [init]
  below := by simp [init]
  untold := by simp [init]

section

variable {s u : Server} {h : ℕ} {hr : SwsHandleReq}

/-! ### Updates that keep the invariant -/

/-- The connections do not change, and no stat is issued. -/
theorem Linked.of_same (hs : Linked s) (hreqs : u.reqs = s.reqs)
    (hstats : u.stats.Sublist s.stats) : Linked u := by
  obtain ⟨h1, h2, h3⟩ := hs
  rw [← hreqs] at h1 h2 h3
  exact ⟨h1, fun req hreq => h2 req (hstats.subset hreq),
    fun req hreq => h3 req (hstats.subset hreq)⟩

/-- Connections come and go. -/
theorem Linked.keeps (hs : Linked s) (hk : KeepsRequests s u) : Linked u where
  self := by
    intro h hr hget
    rcases hk.old h hr hget with hget | ⟨-, id, junk, info, rfl⟩
    · exact hs.self h hr hget
    · exact ⟨rfl, rfl⟩
  below := by
    intro req hreq
    rw [hk.stats] at hreq
    exact (hs.below req hreq).trans_le hk.grows
  untold := by
    intro req hreq hr hget
    rw [hk.stats] at hreq
    rcases hk.old req.data hr hget with hget | ⟨heq, -⟩
    · exact hs.untold req hreq hr hget
    · exact absurd heq (hs.below req hreq).ne

/-- The block of a connection changes, but not its back pointers. -/
theorem Linked.setReq (hs : Linked s) (hget : s.reqs.get? h = some hr) (hr' : SwsHandleReq)
    (hparse : hr'.parseReq.req.data = hr.parseReq.req.data)
    (hinfo : hr'.resourceInfo.data = hr.resourceInfo.data)
    (hresult : hr.resourceInfo.result = 0 → hr'.resourceInfo.result = 0) :
    Linked (s.setReq h hr') where
  self := by
    intro h' hr'' hget'
    rcases setReq_cases hget hget' with ⟨rfl, rfl⟩ | ⟨-, hget'⟩
    · rw [hparse, hinfo]
      exact hs.self h' hr hget
    · exact hs.self h' hr'' hget'
  below := by
    intro req hreq
    rw [setReq_next]
    exact hs.below req hreq
  untold := by
    intro req hreq hr'' hget'
    rcases setReq_cases hget hget' with ⟨heq, rfl⟩ | ⟨-, hget'⟩
    · exact hresult (hs.untold req hreq hr (heq ▸ hget))
    · exact hs.untold req hreq hr'' hget'

theorem Linked.addStat (hs : Linked s) (hget : s.reqs.get? h = some hr)
    (hresult : hr.resourceInfo.result = 0) (root path : Bytes) :
    Linked { s with root := root, stats := s.stats ++ [⟨h, path⟩] } where
  self := hs.self
  below := by
    intro req hreq
    rcases List.mem_append.mp hreq with hold | hnew
    · exact hs.below req hold
    · rw [List.mem_singleton.mp hnew]
      exact Heap.lt_next hget
  untold := by
    intro req hreq hr' hget'
    rcases List.mem_append.mp hreq with hold | hnew
    · exact hs.untold req hold hr' hget'
    · rw [List.mem_singleton.mp hnew] at hget'
      have heq := Option.some.inj (hget'.symm.trans hget)
      rw [heq]
      exact hresult

/-- A resolution is started, whatever the result of the last one was. -/
theorem Linked.resolve (hs : Linked s) (hget : s.reqs.get? h = some hr) (hr' : SwsHandleReq)
    (hparse : hr'.parseReq.req.data = hr.parseReq.req.data)
    (hinfo : hr'.resourceInfo.data = hr.resourceInfo.data) {env : ResolveEnv} {url : Bytes}
    (hok : resolveResource (s.setReq h hr') h env url = .ok u) : Linked u := by
  obtain ⟨hr'', root, hget', -, rfl⟩ := resolveResource_ok hok
  rw [setReq_self hget] at hget'
  cases hget'
  rw [setReq_setReq]
  refine Linked.addStat (hs.setReq hget _ ?_ ?_ ?_) (setReq_self hget _) ?_ root _
  · exact hparse
  · exact hinfo
  · intro _
    rfl
  · rfl

/-! ### Where the pointers lead -/

/-- The end of a message starts a resolution of the URL that was stored, for the connection that
http_parser was called for. -/
theorem Linked.parserCallback_ok (hs : Linked s) {c : ParserCallback × ResolveEnv}
    (hok : parserCallback h s c = .ok u) :
    ∃ hr st, s.reqs.get? h = some hr ∧ onCallback hr.parseReq c.1 = .ok st ∧
      ((c.1.completes = false ∧ u = s.setReq h { hr with parseReq := st }) ∨
        (c.1.completes = true ∧ ∃ url, st.req.url.text? = some url ∧
          resolveResource (s.setReq h { hr with parseReq := st }) h c.2 url = .ok u)) := by
  obtain ⟨hr, st, hget, hst, hgoesOn | ⟨hends, h', hr', url, hdata, hget', hurl, hstart⟩⟩ :=
    Server.parserCallback_ok hok
  · exact ⟨hr, st, hget, hst, .inl hgoesOn⟩
  · have hself : h' = h := by
      rw [(hs.self h hr hget).1] at hdata
      exact (Option.some.inj hdata).symm
    rw [hself] at hget' hstart
    rw [setReq_self hget] at hget'
    cases hget'
    exact ⟨hr, st, hget, hst, .inr ⟨hends, url, hurl, hstart⟩⟩

variable {i : ℕ} {req : StatReq} {env : ResolveEnv} {pipe : PipeFileEnv} {contents : Bytes}

/-- A stat that fails has the 404 page looked up for the connection it was issued for. -/
theorem Linked.fsStatCb_fail (hs : Linked s) (hreq : s.stats[i]? = some req)
    (hget : s.reqs.get? req.data = some hr) (e : UvError) :
    fsStatCb s i (.error e) env pipe contents =
      resolveResource (s.tell i req.data hr (.error e)) req.data env NOT_FOUND := by
  have hne : (StaticWebServer.fsStatCb hr.resourceInfo (.error e)).result ≠ 0 :=
    toUnsigned_ne_zero e
  rw [fsStatCb_eq hreq hget]
  refine onResolveResource_again (hs.self _ hr hget).2 ?_
  rw [resolution, if_pos hne]

/-- A stat that succeeds has the file piped, whose path the resource names, to the connection it
was issued for. -/
theorem Linked.fsStatCb_found (hs : Linked s) (hreq : s.stats[i]? = some req)
    (hget : s.reqs.get? req.data = some hr) (size : ℕ) :
    fsStatCb s i (.ok size) env pipe contents = (do
      let (u, r) ← swsPipeFile (s.tell i req.data hr (.ok size)) req.data hr.resourceInfo.fullPath
        size pipe contents
      check r "pipe file"
      .ok u) := by
  have hzero : ¬ (StaticWebServer.fsStatCb hr.resourceInfo (.ok size)).result ≠ 0 :=
    not_not.mpr (hs.untold req (List.mem_of_getElem? hreq) hr hget)
  rw [fsStatCb_eq hreq hget]
  refine onResolveResource_pipe (hs.self _ hr hget).2 ?_
  rw [resolution, if_neg hzero]
  rfl

/-- What the answer to a stat has done when its callback returns. -/
theorem Linked.fsStatCb_ok (hs : Linked s) {result : StatResult}
    (hok : fsStatCb s i result env pipe contents = .ok u) :
    ∃ req hr, s.stats[i]? = some req ∧ s.reqs.get? req.data = some hr ∧
      ((∃ e, result = .error e ∧
          resolveResource (s.tell i req.data hr result) req.data env NOT_FOUND = .ok u) ∨
        ∃ size, result = .ok size ∧
          swsPipeFile (s.tell i req.data hr result) req.data hr.resourceInfo.fullPath size pipe
            contents = .ok (u, 0)) := by
  obtain ⟨req, hr, hreq, hget⟩ := Server.fsStatCb_ok hok
  refine ⟨req, hr, hreq, hget, ?_⟩
  cases result with
  | error e =>
    rw [hs.fsStatCb_fail hreq hget] at hok
    exact .inl ⟨e, rfl, hok⟩
  | ok size =>
    rw [hs.fsStatCb_found hreq hget] at hok
    obtain ⟨⟨v, r⟩, hcall, hok⟩ := bind_ok_iff.mp hok
    obtain ⟨_, hr, hv⟩ := bind_ok_iff.mp hok
    obtain rfl := check_ok_iff.mp hr
    cases hv
    exact .inr ⟨size, rfl, hcall⟩

/-! ### One event -/

theorem Linked.parserCallback (hs : Linked s) {c : ParserCallback × ResolveEnv}
    (hok : parserCallback h s c = .ok u) : Linked u := by
  obtain ⟨hr, st, hget, hst, ⟨-, rfl⟩ | ⟨-, url, -, hstart⟩⟩ := hs.parserCallback_ok hok
  · exact hs.setReq hget { hr with parseReq := st } (onCallback_data hst) rfl (fun hzero => hzero)
  · exact hs.resolve hget { hr with parseReq := st } (onCallback_data hst) rfl hstart

theorem Linked.stat (hs : Linked s) {result : StatResult}
    (hok : fsStatCb s i result env pipe contents = .ok u) : Linked u := by
  have hdrop : Linked { s with stats := s.stats.eraseIdx i } :=
    hs.of_same rfl (List.eraseIdx_sublist _ _)
  obtain ⟨req, hr, -, hget, ⟨e, rfl, hagain⟩ | ⟨size, rfl, hpipe⟩⟩ := hs.fsStatCb_ok hok
  · exact hdrop.resolve hget
      { hr with resourceInfo := StaticWebServer.fsStatCb hr.resourceInfo (.error e) } rfl rfl hagain
  · obtain ⟨hr', hget', -, rfl⟩ := swsPipeFile_ok hpipe
    have htold : Linked (s.tell i req.data hr (.ok size)) :=
      hdrop.setReq hget _ rfl rfl (fun hzero => hzero)
    have hpiped := htold.setReq hget' { hr' with data := some s.pipes.next } rfl rfl
      (fun hzero => hzero)
    exact hpiped.of_same rfl (.refl _)

/-- **One event** keeps the invariant. -/
theorem Linked.step (hs : Linked s) {e : ServerEvent} (hok : server.dispatch s e = .ok u) :
    Linked u := by
  rcases dispatch_cases hok with ⟨-, hk⟩ | ⟨h, nread, calls, parsed, v, -, hcalls, hk⟩ |
    ⟨i, result, env, pipe, contents, -, hanswer⟩
  · exact hs.keeps hk
  · have hv : Linked v := foldlM_ok_invariant hcalls hs fun _ _ _ _ hb hc => hb.parserCallback hc
    exact hv.keeps hk
  · exact hs.stat hanswer

/-! ### Stats under way -/

/-- The number of messages that end in a buffer. -/
def messages (calls : List (ParserCallback × ResolveEnv)) : ℕ :=
  calls.countP fun c => c.1.completes

/-- The number of stats under way for the connection `h`. -/
def statsFor (h : ℕ) (stats : List StatReq) : ℕ := stats.countP fun req => req.data = h

@[simp] theorem statsFor_append (h : ℕ) (stats stats' : List StatReq) :
    statsFor h (stats ++ stats') = statsFor h stats + statsFor h stats' := List.countP_append

theorem statsFor_pos_iff {stats : List StatReq} :
    0 < statsFor h stats ↔ ∃ req ∈ stats, req.data = h := by
  simp [statsFor]

/-- The stat that is answered is the only one that goes. -/
theorem statsFor_eraseIdx {stats : List StatReq} {i : ℕ} {req : StatReq}
    (hreq : stats[i]? = some req) :
    statsFor req.data (stats.eraseIdx i) + 1 = statsFor req.data stats := by
  obtain ⟨hlt, rfl⟩ := List.getElem?_eq_some_iff.mp hreq
  have hsplit := congrArg (statsFor stats[i].data) (List.take_append_drop i stats)
  rw [List.drop_eq_getElem_cons hlt, statsFor_append] at hsplit
  have hcons : statsFor stats[i].data (stats[i] :: stats.drop (i + 1)) =
      statsFor stats[i].data (stats.drop (i + 1)) + 1 :=
    List.countP_cons_of_pos (decide_eq_true rfl)
  rw [List.eraseIdx_eq_take_drop_succ, statsFor_append]
  omega

/-- Each message that ends in a buffer starts a stat for its connection, and `tcp->data` stays. -/
theorem statsFor_parserCallbacks {calls : List (ParserCallback × ResolveEnv)} (hl : Linked s)
    (hget : s.reqs.get? h = some hr) (hok : calls.foldlM (parserCallback h) s = .ok u) :
    Linked u ∧ statsFor h u.stats = statsFor h s.stats + messages calls ∧
      ∃ hr', u.reqs.get? h = some hr' ∧ hr'.data = hr.data := by
  induction calls generalizing s hr with
  | nil =>
    cases hok
    exact ⟨hl, rfl, hr, hget, rfl⟩
  | cons c calls ih =>
    rw [List.foldlM_cons] at hok
    obtain ⟨v, hc, hok⟩ := bind_ok_iff.mp hok
    have hlv : Linked v := hl.parserCallback hc
    obtain ⟨hr', st, hget', -, hcases⟩ := hl.parserCallback_ok hc
    obtain rfl : hr = hr' := Option.some.inj (hget.symm.trans hget')
    have hset := setReq_self hget { hr with parseReq := st }
    rcases hcases with ⟨hgoesOn, rfl⟩ | ⟨hends, url, -, hstart⟩
    · obtain ⟨hlu, hcount, hr', hget', hdata⟩ := ih hlv hset hok
      refine ⟨hlu, ?_, hr', hget', hdata⟩
      have hmessages : messages (c :: calls) = messages calls := by simp [messages, hgoesOn]
      rw [hmessages]
      exact hcount
    · obtain ⟨hr'', root, hget'', -, hv⟩ := resolveResource_ok hstart
      obtain rfl := Option.some.inj (hset.symm.trans hget'')
      have hlive := setReq_self hset { hr with
        parseReq := st
        resourceInfo := { hr.resourceInfo with result := 0, fullPath := resolveUrl root url } }
      have hone : statsFor h v.stats = statsFor h s.stats + 1 := by
        rw [hv]
        simp [statsFor]
      rw [hv] at hok hlv
      obtain ⟨hlu, hcount, hr', hget', hdata⟩ := ih hlv hlive hok
      refine ⟨hlu, ?_, hr', hget', hdata⟩
      have hmessages : messages (c :: calls) = messages calls + 1 := by simp [messages, hends]
      rw [← hv] at hcount
      omega

end

/-- **Every run** of the server keeps its connections linked. -/
theorem linked_of_run {es : List ServerEvent} {s : Server} (hrun : server.Run init es s) :
    Linked s :=
  hrun.invariant init_linked fun _ _ _ hs _ hok => hs.step hok

end Server

end LibuvDox.StaticWebServer
