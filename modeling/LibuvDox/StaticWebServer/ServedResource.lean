import LibuvDox.StaticWebServer.CrossTalk

/-!
# The resource that is served

The `sws_resource_info_t` of a connection is used for one stat after another: its result is cleared
when a stat is issued and set when one fails, its path is set when a stat is issued, its size when
one succeeds.  Here one connection that carries one request is followed among any others, whatever
these carry.

* `OneChain`: the invariant.  At most one stat is under way, for the path of the resource; all that
  were answered have failed.
* `issuedOf`, `answersOf`: the stats of the connection that were issued and answered in a run.
* `servedResource`: every call of `sws_pipe_file` is for what the last stat was for.
-/

namespace LibuvDox.StaticWebServer

/-- A stat that was answered: the path it was issued for, and the answer. -/
structure StatAnswer where
  path : Bytes
  result : StatResult
  deriving DecidableEq, Repr

namespace Server

/-- The stat of the connection `h` that an event answers. -/
def answerIn (h : ℕ) (s : Server) : ServerEvent → List StatAnswer
  | .stat i result _ _ _ => s.stats[i]?.toList.filterMap fun req =>
      if req.data = h then some ⟨req.path, result⟩ else none
  | _ => []

/-- The stats of the connection `h` that were answered, in order. -/
def answersOf (h : ℕ) (es : List ServerEvent) : List StatAnswer :=
  server.observe (answerIn h) init es

/-- The stats under way that an event does not answer. -/
def unanswered (s : Server) : ServerEvent → List StatReq
  | .stat i _ _ _ _ => s.stats.eraseIdx i
  | _ => s.stats

/-- The paths of the stats that are for the connection `h`. -/
def pathsFor (h : ℕ) (stats : List StatReq) : List Bytes :=
  (stats.filter fun req => req.data = h).map StatReq.path

/-- The paths that an event issues stats for, for the connection `h`. -/
def issuedIn (h : ℕ) (s : Server) (e : ServerEvent) : List Bytes :=
  match server.dispatch s e with
  | .ok u => pathsFor h (u.stats.drop (unanswered s e).length)
  | .error _ => []

/-- The paths that stats were issued for, for the connection `h`, in order. -/
def issuedOf (h : ℕ) (es : List ServerEvent) : List Bytes :=
  server.observe (issuedIn h) init es

/-- The stat under way for a request is its first, for the path of its URL, or all before have
failed and it is for the 404 page. -/
structure Awaited (root : Bytes) (past : List ParserCallback) (answers : List StatAnswer)
    (path : Bytes) : Prop where
  known : root ≠ []
  failed : ∀ a ∈ answers, a.result.isOk = false
  path : ∃ url, ownUrl past = some url ∧
    ((answers = [] ∧ path = resolveUrl root url) ∨
      (answers.head?.map StatAnswer.path = some (resolveUrl root url) ∧
        path = resolveUrl root NOT_FOUND))

/-- **The invariant** for the connection `h`. -/
structure OneChain (h : ℕ) (past : List ParserCallback) (answers : List StatAnswer) (s : Server) :
    Prop where
  url : ∀ hr, s.reqs.get? h = some hr → hr.parseReq.req.url.text? = ownUrl past
  fresh : s.reqs.next ≤ h → past = []
  idle : (∀ c ∈ past, c.completes = false) → answers = [] ∧ ∀ req ∈ s.stats, req.data ≠ h
  one : statsFor h s.stats ≤ 1
  awaited : ∀ req ∈ s.stats, req.data = h → Awaited s.root past answers req.path
  paired : ∀ req ∈ s.stats, req.data = h → ∀ hr, s.reqs.get? h = some hr →
    hr.resourceInfo.fullPath = req.path

theorem answerIn_of_isQuiet {h : ℕ} {s : Server} {e : ServerEvent} (hquiet : e.isQuiet = true) :
    answerIn h s e = [] := by
  cases e with
  | stat i result env pipe contents => cases hquiet
  | connect status accept junk info => rfl
  | reqRead h' r => rfl
  | fileRead f r => rfl
  | written h' status => rfl
  | closed h' => rfl

theorem unanswered_of_isQuiet {s : Server} {e : ServerEvent} (hquiet : e.isQuiet = true) :
    unanswered s e = s.stats := by
  cases e with
  | stat i result env pipe contents => cases hquiet
  | connect status accept junk info => rfl
  | reqRead h' r => rfl
  | fileRead f r => rfl
  | written h' status => rfl
  | closed h' => rfl

theorem init_oneChain (h : ℕ) : OneChain h [] [] init where
  url := by simp [init]
  fresh := fun _ => rfl
  idle := by simp [init]
  one := by simp [init, statsFor]
  awaited := by simp [init]
  paired := by simp [init]

section

variable {h : ℕ} {past : List ParserCallback} {answers : List StatAnswer} {s u : Server}
variable {hr : SwsHandleReq}

/-! ### Updates that keep the invariant -/

/-- What the invariant looks at is as it was, or the connection is new. -/
theorem OneChain.of_same (hs : OneChain h past answers s)
    (hreqs : ∀ hr, u.reqs.get? h = some hr →
      (∃ hr', s.reqs.get? h = some hr' ∧ hr.parseReq.req.url = hr'.parseReq.req.url ∧
        hr.resourceInfo.fullPath = hr'.resourceInfo.fullPath) ∨
      (s.reqs.next ≤ h ∧ hr.parseReq.req.url.text? = none))
    (hnext : s.reqs.next ≤ u.reqs.next)
    (hstats : (u.stats.filter fun req => req.data = h).Sublist
      (s.stats.filter fun req => req.data = h))
    (hroot : s.root ≠ [] → u.root = s.root) : OneChain h past answers u := by
  have hmem : ∀ req ∈ u.stats, req.data = h → req ∈ s.stats := by
    intro req hreq hdata
    have hfiltered : req ∈ u.stats.filter fun req => req.data = h :=
      List.mem_filter.mpr ⟨hreq, decide_eq_true hdata⟩
    exact (List.mem_filter.mp (hstats.subset hfiltered)).1
  constructor
  case url =>
    intro hr hget
    rcases hreqs hr hget with ⟨hr', hget', hurl, -⟩ | ⟨hle, hurl⟩
    · rw [hurl]
      exact hs.url hr' hget'
    · rw [hs.fresh hle, hurl]
      rfl
  case fresh => exact fun hle => hs.fresh (hnext.trans hle)
  case idle =>
    intro hpast
    obtain ⟨hanswers, hnone⟩ := hs.idle hpast
    exact ⟨hanswers, fun req hreq hdata => hnone req (hmem req hreq hdata) hdata⟩
  case one =>
    have hle := hstats.length_le
    have hone := hs.one
    rw [statsFor, List.countP_eq_length_filter] at hone ⊢
    omega
  case awaited =>
    intro req hreq hdata
    have hwait := hs.awaited req (hmem req hreq hdata) hdata
    rw [hroot hwait.known]
    exact hwait
  case paired =>
    intro req hreq hdata hr hget
    have hold := hmem req hreq hdata
    rcases hreqs hr hget with ⟨hr', hget', -, hpath⟩ | ⟨hle, -⟩
    · rw [hpath]
      exact hs.paired req hold hdata hr' hget'
    · -- no stat is under way for a connection that was not there
      have hnone := (hs.idle fun c hc => by rw [hs.fresh hle] at hc; cases hc).2
      exact absurd hdata (hnone req hold)

/-- Connections come and go, and transfers move on. -/
theorem OneChain.keeps (hs : OneChain h past answers s) (hk : KeepsRequests s u) :
    OneChain h past answers u := by
  refine hs.of_same (fun hr hget => ?_) hk.grows ?_ fun _ => hk.root
  · rcases hk.old h hr hget with hget | ⟨rfl, id, junk, info, rfl⟩
    · exact .inl ⟨hr, hget, rfl, rfl⟩
    · exact .inr ⟨le_rfl, rfl⟩
  · rw [hk.stats]

/-- The block changes, but neither the URL nor the path in it. -/
theorem OneChain.setReq (hs : OneChain h past answers s) {h' : ℕ} (hget : s.reqs.get? h' = some hr)
    (hr' : SwsHandleReq) (hsame : h' = h → hr'.parseReq.req.url = hr.parseReq.req.url ∧
      hr'.resourceInfo.fullPath = hr.resourceInfo.fullPath) :
    OneChain h past answers (s.setReq h' hr') := by
  refine hs.of_same (fun hr'' hget' => ?_) (setReq_next _ _ _).ge (.refl _) fun _ => rfl
  rcases setReq_cases hget hget' with ⟨rfl, rfl⟩ | ⟨-, hget'⟩
  · obtain ⟨hurl, hpath⟩ := hsame rfl
    exact .inl ⟨hr, hget, hurl, hpath⟩
  · exact .inl ⟨hr'', hget', rfl, rfl⟩

/-- A resolution is started for another connection. -/
theorem OneChain.resolveOther (hs : OneChain h past answers s) {h' : ℕ} (hne : h' ≠ h)
    {env : ResolveEnv} {url : Bytes} (hok : resolveResource s h' env url = .ok u) :
    OneChain h past answers u := by
  obtain ⟨hr, root, hget, hstarts, rfl⟩ := resolveResource_ok hok
  refine hs.of_same (fun hr' hget' => ?_) (setReq_next _ _ _).ge ?_ (root_of_starts hstarts)
  · rcases setReq_cases hget hget' with ⟨heq, -⟩ | ⟨-, hget'⟩
    · exact absurd heq.symm hne
    · exact .inl ⟨hr', hget', rfl, rfl⟩
  · simp [List.filter_append, hne]

/-- A resolution is started for the connection, which has no stat under way. -/
theorem OneChain.resolve (hs : OneChain h past answers s) {env : ResolveEnv} {url : Bytes}
    (hnone : ∀ req ∈ s.stats, req.data ≠ h) (hended : ∃ c ∈ past, c.completes = true)
    (hawaited : ∀ root, root ≠ [] → (s.root ≠ [] → root = s.root) →
      Awaited root past answers (resolveUrl root url))
    (hok : resolveResource s h env url = .ok u) : OneChain h past answers u := by
  obtain ⟨hr, root, hget, hstarts, rfl⟩ := resolveResource_ok hok
  have hnew : ∀ req ∈ s.stats ++ [⟨h, resolveUrl root url⟩], req.data = h →
      req.path = resolveUrl root url := by
    intro req hreq hdata
    rcases List.mem_append.mp hreq with hold | hlast
    · exact absurd hdata (hnone req hold)
    · rw [List.mem_singleton.mp hlast]
  constructor
  case url =>
    intro hr' hget'
    rw [show _ = _ from setReq_self hget _] at hget'
    cases hget'
    exact hs.url hr hget
  case fresh => exact fun hle => hs.fresh ((setReq_next s h _).ge.trans hle)
  case idle => exact fun hpast => absurd hpast (ended_iff.mp hended)
  case one =>
    have hzero : statsFor h s.stats = 0 := by
      by_contra hpos
      obtain ⟨req, hreq, hdata⟩ := statsFor_pos_iff.mp (Nat.pos_of_ne_zero hpos)
      exact hnone req hreq hdata
    rw [statsFor_append, hzero]
    simp [statsFor]
  case awaited =>
    intro req hreq hdata
    rw [hnew req hreq hdata]
    exact hawaited root (resolveRoot_idem hstarts.root env).1 (root_of_starts hstarts)
  case paired =>
    intro req hreq hdata hr' hget'
    rw [hnew req hreq hdata]
    rw [show _ = _ from setReq_self hget _] at hget'
    cases hget'
    rfl

/-- The last stat of the connection has been answered. -/
theorem OneChain.answered (hs : OneChain h past answers s) (hnone : ∀ req ∈ s.stats, req.data ≠ h)
    (hended : ∃ c ∈ past, c.completes = true) (answers' : List StatAnswer) :
    OneChain h past answers' s where
  url := hs.url
  fresh := hs.fresh
  idle := fun hpast => absurd hpast (ended_iff.mp hended)
  one := hs.one
  awaited := fun req hreq hdata => absurd hdata (hnone req hreq)
  paired := hs.paired

/-! ### One event -/

/-- What is stored for a callback, while the request goes on. -/
theorem OneChain.parse (hs : OneChain h past answers s) (hget : s.reqs.get? h = some hr)
    {st : ParserState} {c : ParserCallback} (hst : onCallback hr.parseReq c = .ok st)
    (hrun : ∀ c ∈ past, c.completes = false) :
    OneChain h (past ++ [c]) answers (s.setReq h { hr with parseReq := st }) := by
  obtain ⟨hanswers, hnone⟩ := hs.idle hrun
  constructor
  case url =>
    intro hr' hget'
    rw [show _ = _ from setReq_self hget _] at hget'
    cases hget'
    rw [ownUrl_concat, ← hs.url hr hget]
    exact onCallback_url hst
  case fresh =>
    intro hle
    rw [setReq_next] at hle
    have hlt := Heap.lt_next hget
    omega
  case idle => exact fun _ => ⟨hanswers, hnone⟩
  case one => exact hs.one
  case awaited => exact fun req hreq hdata => absurd hdata (hnone req hreq)
  case paired => exact fun req hreq hdata => absurd hdata (hnone req hreq)

/-- One callback of http_parser for the connection, while its request goes on. -/
theorem OneChain.parserCallback (hs : OneChain h past answers s) (hl : Linked s)
    {c : ParserCallback × ResolveEnv} (hrun : ∀ c ∈ past, c.completes = false)
    (hok : Server.parserCallback h s c = .ok u) : OneChain h (past ++ [c.1]) answers u := by
  obtain ⟨hr, st, hget, hst, ⟨-, rfl⟩ | ⟨hends, url, hurl, hstart⟩⟩ := hl.parserCallback_ok hok
  · exact hs.parse hget hst hrun
  · obtain ⟨rfl, hnone⟩ := hs.idle hrun
    have hset := hs.parse hget hst hrun
    refine hset.resolve hnone ⟨c.1, List.mem_concat_self, hends⟩ ?_ hstart
    intro root hknown _
    refine ⟨hknown, by simp, url, ?_, .inl ⟨rfl, rfl⟩⟩
    rw [← hset.url _ (setReq_self hget _)]
    exact hurl

/-- The callbacks for one buffer of the connection. -/
theorem OneChain.parserCallbacks (hs : OneChain h past answers s) (hl : Linked s)
    {calls : List (ParserCallback × ResolveEnv)} (hone : OneRequest (past ++ calls.map Prod.fst))
    (hok : calls.foldlM (Server.parserCallback h) s = .ok u) :
    OneChain h (past ++ calls.map Prod.fst) answers u := by
  induction calls generalizing s past with
  | nil =>
    cases hok
    rw [List.map_nil, List.append_nil]
    exact hs
  | cons c calls ih =>
    rw [List.foldlM_cons] at hok
    obtain ⟨v, hc, hok⟩ := bind_ok_iff.mp hok
    have hv := hs.parserCallback hl (hone.running (List.cons_ne_nil _ _)) hc
    have happend : past ++ (c :: calls).map Prod.fst = past ++ [c.1] ++ calls.map Prod.fst := by
      simp
    rw [happend] at hone ⊢
    exact ih hv (hl.parserCallback hc) hone hok

/-- One callback of http_parser for another connection. -/
theorem OneChain.otherCallback (hs : OneChain h past answers s) (hl : Linked s) {h' : ℕ}
    (hne : h' ≠ h) {c : ParserCallback × ResolveEnv}
    (hok : Server.parserCallback h' s c = .ok u) : OneChain h past answers u := by
  obtain ⟨hr, st, hget, -, ⟨-, rfl⟩ | ⟨-, url, -, hstart⟩⟩ := hl.parserCallback_ok hok
  · exact hs.setReq hget _ fun heq => absurd heq hne
  · exact (hs.setReq hget _ fun heq => absurd heq hne).resolveOther hne hstart

/-- The stat of the connection that is answered was the only one. -/
theorem OneChain.none_left (hs : OneChain h past answers s) {i : ℕ} {req : StatReq}
    (hreq : s.stats[i]? = some req) (hdata : req.data = h) :
    ∀ req ∈ s.stats.eraseIdx i, req.data ≠ h := by
  intro req' hreq' hdata'
  have hleft : 0 < statsFor h (s.stats.eraseIdx i) := statsFor_pos_iff.mpr ⟨req', hreq', hdata'⟩
  have hgone := statsFor_eraseIdx hreq
  have hone := hs.one
  rw [hdata] at hgone
  omega

/-- The answer to the stat of a connection is stored. -/
theorem OneChain.tell (hs : OneChain h past answers s) {h' i : ℕ}
    (hget : s.reqs.get? h' = some hr) (result : StatResult) :
    OneChain h past answers (s.tell i h' hr result) := by
  refine hs.of_same (fun hr' hget' => ?_) (setReq_next _ _ _).ge ?_ fun _ => rfl
  · rw [tell_get? hget] at hget'
    split at hget'
    · rename_i heq
      cases hget'
      exact .inl ⟨hr, heq ▸ hget, rfl, fsStatCb_fullPath _ _⟩
    · exact .inl ⟨hr', hget', rfl, rfl⟩
  · exact (List.eraseIdx_sublist _ _).filter _

/-- A transfer is set up for some connection. -/
theorem OneChain.pipeFile (hs : OneChain h past answers s) {h' size : ℕ} {path contents : Bytes}
    {env : PipeFileEnv} (hok : Server.swsPipeFile s h' path size env contents = .ok (u, 0)) :
    OneChain h past answers u := by
  obtain ⟨hr, hget, -, rfl⟩ := swsPipeFile_ok hok
  refine hs.of_same (fun hr' hget' => ?_) (piped_reqs_next s).ge (.refl _) fun _ => rfl
  rcases piped_req_cases hget hget' with ⟨rfl, rfl⟩ | ⟨-, hget'⟩
  · exact .inl ⟨hr, hget, rfl, rfl⟩
  · exact .inl ⟨hr', hget', rfl, rfl⟩

/-- The answer to a stat, of the connection or of another one. -/
theorem OneChain.answer (hs : OneChain h past answers s) (hl : Linked s) {i : ℕ}
    {result : StatResult} {env : ResolveEnv} {pipe : PipeFileEnv} {contents : Bytes}
    (hok : fsStatCb s i result env pipe contents = .ok u) :
    OneChain h past (answers ++ answerIn h s (.stat i result env pipe contents)) u := by
  obtain ⟨req, hr, hreq, hget, hcases⟩ := hl.fsStatCb_ok hok
  have htold : OneChain h past answers (s.tell i req.data hr result) := hs.tell hget result
  by_cases hdata : req.data = h
  case neg =>
    have hnot : answerIn h s (.stat i result env pipe contents) = [] := by
      simp [answerIn, hreq, hdata]
    rw [hnot, List.append_nil]
    rcases hcases with ⟨err, rfl, hagain⟩ | ⟨size, rfl, hpipe⟩
    · exact htold.resolveOther hdata hagain
    · exact htold.pipeFile hpipe
  case pos =>
    have hanswer : answerIn h s (.stat i result env pipe contents) = [⟨req.path, result⟩] := by
      simp [answerIn, hreq, hdata]
    rw [hanswer]
    have hmem := List.mem_of_getElem? hreq
    have hnone := hs.none_left hreq hdata
    have hended : ∃ c ∈ past, c.completes = true :=
      ended_iff.mpr fun hnot => (hs.idle hnot).2 req hmem hdata
    have hsettled := htold.answered hnone hended (answers ++ [⟨req.path, result⟩])
    rcases hcases with ⟨err, rfl, hagain⟩ | ⟨size, rfl, hpipe⟩
    · -- the stat has failed: the 404 page is looked up
      rw [hdata] at hagain hsettled
      refine hsettled.resolve hnone hended (fun root hknown hsame => ?_) hagain
      obtain ⟨hroot, hfailed, url, hurl, hpath⟩ := hs.awaited req hmem hdata
      rw [show root = s.root from hsame hroot]
      refine ⟨hroot, ?_, url, hurl, .inr ⟨?_, rfl⟩⟩
      · intro a ha
        rcases List.mem_append.mp ha with hold | hlast
        · exact hfailed a hold
        · rw [List.mem_singleton.mp hlast]
          rfl
      · rcases hpath with ⟨rfl, hpath⟩ | ⟨hfirst, -⟩
        · simp [hpath]
        · rw [← hfirst]
          cases answers with
          | nil => cases hfirst
          | cons a answers => rfl
    · exact hsettled.pipeFile hpipe

/-- **One event.** -/
theorem OneChain.step (hs : OneChain h past answers s) (hl : Linked s) {e : ServerEvent}
    (hone : OneRequest (past ++ callsIn h e)) (hok : server.dispatch s e = .ok u) :
    OneChain h (past ++ callsIn h e) (answers ++ answerIn h s e) u := by
  rcases dispatch_cases hok with ⟨hquiet, hk⟩ | ⟨h', nread, calls, parsed, v, rfl, hcalls, hk⟩ |
    ⟨i, result, env, pipe, contents, rfl, hanswer⟩
  · rw [callsIn_of_isQuiet h hquiet, answerIn_of_isQuiet hquiet, List.append_nil, List.append_nil]
    exact hs.keeps hk
  · have hanswers : answerIn h s (.reqRead h' (.data nread calls parsed)) = [] := rfl
    rw [hanswers, List.append_nil]
    by_cases heq : h' = h
    · subst heq
      rw [callsIn, if_pos rfl] at hone ⊢
      exact (hs.parserCallbacks hl hone hcalls).keeps hk
    · rw [callsIn, if_neg heq, List.append_nil]
      have hv := foldlM_ok_invariant hcalls (P := fun s => OneChain h past answers s ∧ Linked s)
        ⟨hs, hl⟩ fun _ _ _ _ hb hc => ⟨hb.1.otherCallback hb.2 heq hc, hb.2.parserCallback hc⟩
      exact hv.1.keeps hk
  · have hcalls : callsIn h (.stat i result env pipe contents) = [] := rfl
    rw [hcalls, List.append_nil]
    exact hs.answer hl hanswer

/-! ### Stats are issued last -/

@[simp] theorem pathsFor_append (h : ℕ) (stats stats' : List StatReq) :
    pathsFor h (stats ++ stats') = pathsFor h stats ++ pathsFor h stats' := by
  simp [pathsFor]

theorem pathsFor_eq_nil {stats : List StatReq} (hnone : ∀ req ∈ stats, req.data ≠ h) :
    pathsFor h stats = [] := by
  rw [pathsFor, List.filter_eq_nil_iff.mpr fun req hreq => by simpa using hnone req hreq]
  rfl

theorem resolveResource_stats {h' : ℕ} {env : ResolveEnv} {url : Bytes}
    (hok : resolveResource s h' env url = .ok u) : s.stats <+: u.stats := by
  obtain ⟨hr, root, -, -, rfl⟩ := resolveResource_ok hok
  exact List.prefix_append _ _

theorem parserCallback_stats {h' : ℕ} {c : ParserCallback × ResolveEnv}
    (hok : Server.parserCallback h' s c = .ok u) : s.stats <+: u.stats := by
  obtain ⟨hr, st, -, -, ⟨-, rfl⟩ | ⟨-, h'', hr', url, -, -, -, hstart⟩⟩ := parserCallback_ok hok
  · exact List.prefix_rfl
  · have hissued := resolveResource_stats hstart
    exact hissued

/-- A new stat comes after those under way. -/
theorem unanswered_prefix (hl : Linked s) {e : ServerEvent}
    (hok : server.dispatch s e = .ok u) : unanswered s e <+: u.stats := by
  rcases dispatch_cases hok with ⟨hquiet, hk⟩ | ⟨h', nread, calls, parsed, v, rfl, hcalls, hk⟩ |
    ⟨i, result, env, pipe, contents, rfl, hanswer⟩
  · rw [unanswered_of_isQuiet hquiet, hk.stats]
  · have hv := foldlM_ok_invariant hcalls (P := fun u => s.stats <+: u.stats) List.prefix_rfl
      fun _ _ _ _ hb hc => hb.trans (parserCallback_stats hc)
    rw [← hk.stats] at hv
    exact hv
  · obtain ⟨req, hr, -, -, ⟨err, rfl, hagain⟩ | ⟨size, rfl, hpipe⟩⟩ := hl.fsStatCb_ok hanswer
    · exact resolveResource_stats hagain
    · obtain ⟨hr', -, -, rfl⟩ := swsPipeFile_ok hpipe
      exact List.prefix_rfl

/-- What is under way after an event was not answered by it, or was issued by it. -/
theorem pathsFor_dispatch (hl : Linked s) {e : ServerEvent} (hok : server.dispatch s e = .ok u) :
    pathsFor h u.stats = pathsFor h (unanswered s e) ++ issuedIn h s e := by
  obtain ⟨new, hnew⟩ := unanswered_prefix hl hok
  have hissued : issuedIn h s e = pathsFor h new := by
    rw [issuedIn, hok]
    show pathsFor h (u.stats.drop (unanswered s e).length) = _
    rw [← hnew, List.drop_left]
  rw [hissued, ← hnew, pathsFor_append]

/-- A stat under way is answered by an event, or still under way after it. -/
theorem OneChain.pathsFor_unanswered (hs : OneChain h past answers s) (e : ServerEvent) :
    pathsFor h s.stats = (answerIn h s e).map StatAnswer.path ++ pathsFor h (unanswered s e) := by
  cases e with
  | stat i result env pipe contents =>
    show pathsFor h s.stats = _ ++ pathsFor h (s.stats.eraseIdx i)
    cases hreq : s.stats[i]? with
    | none =>
      rw [List.eraseIdx_of_length_le (List.getElem?_eq_none_iff.mp hreq)]
      simp [answerIn, hreq]
    | some req =>
      have hsplit : s.stats = s.stats.take i ++ req :: s.stats.drop (i + 1) := by
        obtain ⟨hlt, rfl⟩ := List.getElem?_eq_some_iff.mp hreq
        rw [← List.drop_eq_getElem_cons hlt, List.take_append_drop]
      by_cases hdata : req.data = h
      · have hnone := pathsFor_eq_nil (hs.none_left hreq hdata)
        rw [List.eraseIdx_eq_take_drop_succ] at hnone ⊢
        rw [hnone, hsplit]
        rw [pathsFor_append, List.append_eq_nil_iff] at hnone
        rw [pathsFor_append, hnone.1, show req :: s.stats.drop (i + 1) =
          [req] ++ s.stats.drop (i + 1) from rfl, pathsFor_append, hnone.2]
        simp [answerIn, pathsFor, hreq, hdata]
      · rw [List.eraseIdx_eq_take_drop_succ]
        conv_lhs => rw [hsplit]
        simp [answerIn, pathsFor, hreq, hdata]
  | connect status accept junk info => rfl
  | reqRead h' r => rfl
  | fileRead f r => rfl
  | written h' status => rfl
  | closed h' => rfl

end

/-! ### Every run -/

/-- **Every run**, in which one connection carries one request. -/
theorem oneChain_of_run {h : ℕ} {es : List ServerEvent} {s : Server}
    (hrun : server.Run init es s) (hone : OneRequest (callsOf h es)) :
    OneChain h (callsOf h es) (answersOf h es) s := by
  induction hrun with
  | nil => exact init_oneChain h
  | @snoc es t e u hrun he hok ih =>
    rw [callsOf_concat] at hone ⊢
    rw [answersOf, hrun.observe_concat e]
    exact (ih hone.left).step (linked_of_run hrun) hone hok

/-- A stat that was issued was answered, or is still under way. -/
theorem issuedOf_eq {h : ℕ} {es : List ServerEvent} {s : Server} (hrun : server.Run init es s)
    (hone : OneRequest (callsOf h es)) :
    issuedOf h es = (answersOf h es).map StatAnswer.path ++ pathsFor h s.stats := by
  induction hrun with
  | nil => rfl
  | @snoc es t e u hrun he hok ih =>
    rw [callsOf_concat] at hone
    have hl := linked_of_run hrun
    have hs := oneChain_of_run hrun hone.left
    calc issuedOf h (es ++ [e])
        = issuedOf h es ++ issuedIn h t e := hrun.observe_concat e
      _ = (answersOf h es).map StatAnswer.path ++ pathsFor h t.stats ++ issuedIn h t e := by
          rw [ih hone.left]
      _ = (answersOf h es ++ answerIn h t e).map StatAnswer.path ++
            (pathsFor h (unanswered t e) ++ issuedIn h t e) := by
          rw [hs.pathsFor_unanswered e, List.map_append]
          simp only [List.append_assoc]
      _ = (answersOf h (es ++ [e])).map StatAnswer.path ++ pathsFor h u.stats := by
          rw [← pathsFor_dispatch hl hok, answersOf, answersOf, hrun.observe_concat e]

end Server

open Server

/-- What a call of `sws_pipe_file` is given comes from the stats that were issued and answered for
its connection. -/
structure FromLastStat (root url : Bytes) (issued : List Bytes) (answers : List StatAnswer)
    (path : Bytes) (size : ℕ) : Prop where
  /-- The first stat was for the path of the URL; if it has failed, the file is the 404 page. -/
  chosen : ∃ first, answers.head? = some first ∧ first.path = resolveUrl root url ∧
    path = if first.result.isOk then resolveUrl root url else root ++ NOT_FOUND
  /-- Every stat that was issued has been answered. -/
  answered : issued = answers.map StatAnswer.path
  /-- The last one was for the very path, and has reported the size. -/
  last : issued.getLast? = some path ∧ answers.getLast? = some ⟨path, .ok size⟩
  /-- All before it have failed. -/
  earlier : ∀ a ∈ answers.dropLast, a.result.isOk = false

/-- The stat that is awaited succeeds: it was for the path of the URL if it was the first, and for
the 404 page if not. -/
theorem Server.Awaited.chosen {root url path : Bytes} {past : List ParserCallback}
    {answers : List StatAnswer} (hwait : Awaited root past answers path)
    (hurl : ownUrl past = some url) (size : ℕ) :
    ∃ first, (answers ++ [(⟨path, .ok size⟩ : StatAnswer)]).head? = some first ∧
      first.path = resolveUrl root url ∧
      path = if first.result.isOk then resolveUrl root url else root ++ NOT_FOUND := by
  obtain ⟨-, hfailed, url', hurl', hpath⟩ := hwait
  obtain rfl := Option.some.inj (hurl.symm.trans hurl')
  cases answers with
  | nil =>
    rcases hpath with ⟨-, hown⟩ | ⟨hnil, -⟩
    · exact ⟨_, rfl, hown, hown⟩
    · cases hnil
  | cons first answers =>
    rcases hpath with ⟨hnil, -⟩ | ⟨hfirst, hnotFound⟩
    · cases hnil
    · refine ⟨first, rfl, Option.some.inj hfirst, ?_⟩
      rw [hfailed first List.mem_cons_self, hnotFound, resolveUrl_notFound]
      rfl

/-- **Served resource.**  On a connection that carries one request, among any others,
`sws_pipe_file` is called with the path and the size of the stat that was issued last, which is that
of the URL or, if that has failed, of the 404 page.  Whether it is called is decided by the answer
to that stat alone: a stat that fails has the 404 page looked up. -/
theorem servedResource {h : ℕ} {es : List ServerEvent} {t : Server}
    (hrun : server.Run init es t) (hone : OneRequest (callsOf h es)) :
    (∀ e path size, pipeFileCall t e = some (h, path, size) →
      (∃ v env contents,
        server.dispatch t e = (do
          let (u, r) ← Server.swsPipeFile v h path size env contents
          check r "pipe file"
          .ok u) ∧
        ∀ h', (v.reqs.get? h').map SwsHandleReq.data = (t.reqs.get? h').map SwsHandleReq.data) ∧
      ∃ url, ownUrl (callsOf h es) = some url ∧
        FromLastStat t.root url (issuedOf h es) (answersOf h (es ++ [e])) path size) ∧
    ∀ i req hr, t.stats[i]? = some req → req.data = h → t.reqs.get? h = some hr →
      ∀ result env pipe contents,
        pipeFileCall t (.stat i result env pipe contents) =
          (result.toOption.map fun size => (h, req.path, size)) ∧
        ∀ err, result = .error err →
          server.dispatch t (.stat i result env pipe contents) =
            resolveResource (t.tell i h hr result) h env NOT_FOUND := by
  have hl := linked_of_run hrun
  have hs := oneChain_of_run hrun hone
  constructor
  case right =>
    intro i req hr hreq hdata hget result env pipe contents
    subst hdata
    refine ⟨?_, ?_⟩
    · rw [pipeFileCall_stat hl hreq hget, hs.paired req (List.mem_of_getElem? hreq) rfl hr hget]
    · rintro err rfl
      exact hl.fsStatCb_fail hreq hget err
  case left =>
    intro e path size hcall
    refine ⟨dispatch_pipeFileCall hcall, ?_⟩
    obtain ⟨i, env, pipe, contents, req, hr, rfl, hreq, rfl, hget, rfl⟩ :=
      pipeFileCall_cases hl hcall
    have hmem := List.mem_of_getElem? hreq
    have hwait := hs.awaited req hmem rfl
    have hanswer : answerIn req.data t (.stat i (.ok size) env pipe contents) =
        [⟨req.path, .ok size⟩] := by
      simp [answerIn, hreq]
    have hanswers : answersOf req.data (es ++ [.stat i (.ok size) env pipe contents]) =
        answersOf req.data es ++ [⟨req.path, .ok size⟩] := by
      rw [answersOf, hrun.observe_concat, hanswer]
      rfl
    -- the stat that is answered was the only one under way
    have hlast : pathsFor req.data t.stats = [req.path] := by
      rw [hs.pathsFor_unanswered (.stat i (.ok size) env pipe contents), hanswer]
      show _ ++ pathsFor req.data (t.stats.eraseIdx i) = _
      rw [pathsFor_eq_nil (hs.none_left hreq rfl)]
      rfl
    have hissued : issuedOf req.data es = (answersOf req.data es).map StatAnswer.path ++
        [req.path] := by
      rw [issuedOf_eq hrun hone, hlast]
    obtain ⟨url, hurl, -⟩ := hwait.path
    refine ⟨url, hurl, ?_⟩
    rw [hanswers, hs.paired req hmem rfl hr hget, hissued]
    constructor
    case chosen => exact hwait.chosen hurl size
    case answered => simp
    case last => simp
    case earlier =>
      rw [List.dropLast_concat]
      exact hwait.failed

/-- The file is missing, and the 404 page is there. -/
theorem servedResource_notFound : ∃ es s, server.Run init es s ∧
    pipeFileCall s (fileFound [1]) = some (0, ascii "/srv/static/404.html", 1) ∧
    ∃ url, ownUrl (callsOf 0 es) = some url ∧ FromLastStat s.root url (issuedOf 0 es)
      (answersOf 0 (es ++ [fileFound [1]])) (ascii "/srv/static/404.html") 1 := by
  obtain ⟨s, hrun, hcall⟩ := EventLoop.exists_run_of_plays
    (show (server.plays init [clientConnects, .reqRead 0 (.data 36 (getRequest "/x") 36),
        .stat 0 (.error ⟨-2, by decide, by decide⟩) ⟨.ok (ascii "/srv"), 0⟩ ⟨0, 0, 0⟩ []]).any
      (fun s => pipeFileCall s (fileFound [1]) == some (0, ascii "/srv/static/404.html", 1)) =
        true by decide +kernel)
  have hserved := (servedResource (h := 0) hrun (by decide +kernel)).1
  exact ⟨_, s, hrun, beq_iff_eq.mp hcall, (hserved _ _ _ (beq_iff_eq.mp hcall)).2⟩

end LibuvDox.StaticWebServer
