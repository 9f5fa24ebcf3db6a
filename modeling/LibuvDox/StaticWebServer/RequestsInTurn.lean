import LibuvDox.StaticWebServer.BackPointers

/-!
# Requests of one connection

A connection has one `sws_resource_info_t` and one `tcp->data` for all the requests that come
over it.  A stat is answered long after it was issued, so what `on_resolve_resource` finds there
belongs to the request that was parsed last.

* `InTurn`: the invariant.  A connection has at most one stat under way, which is for the path its
  resource names, and no transfer next to it.
* `served_of_takesTurns`: in every run in which a request is complete only when nothing is under
  way for its connection, every call of `sws_pipe_file` gets the size that was reported for the
  path it is given, and finds `tcp->data == NULL`.
-/

namespace LibuvDox.StaticWebServer

namespace Server

/-- **The invariant.** -/
structure InTurn (s : Server) : Prop where
  one : (s.stats.map StatReq.data).Nodup
  paired : ∀ req ∈ s.stats, ∀ hr, s.reqs.get? req.data = some hr →
    hr.resourceInfo.fullPath = req.path ∧ hr.data = none

theorem init_inTurn : InTurn init where
  one := by simp [init]
  paired := by simp [init]

section

variable {s u : Server} {h : ℕ} {hr : SwsHandleReq}

/-! ### Updates that keep the invariant -/

/-- Nothing changes but what libuv keeps, and the transfers. -/
theorem InTurn.of_same (hs : InTurn s) (hreqs : u.reqs = s.reqs) (hstats : u.stats = s.stats) :
    InTurn u := by
  obtain ⟨h1, h2⟩ := hs
  rw [← hreqs] at h2
  rw [← hstats] at h1 h2
  exact ⟨h1, h2⟩

/-- Connections come and go. -/
theorem InTurn.keeps (hs : InTurn s) (hl : Linked s) (hk : KeepsRequests s u) : InTurn u where
  one := by
    rw [hk.stats]
    exact hs.one
  paired := by
    intro req hreq hr hget
    rw [hk.stats] at hreq
    rcases hk.old req.data hr hget with hget | ⟨heq, -⟩
    · exact hs.paired req hreq hr hget
    · exact absurd heq (hl.below req hreq).ne

/-- The block of a connection changes, for which no stat is under way or whose path and `tcp->data`
stay. -/
theorem InTurn.setReq (hs : InTurn s) (hget : s.reqs.get? h = some hr) (hr' : SwsHandleReq)
    (hsame : (∀ req ∈ s.stats, req.data ≠ h) ∨
      (hr'.resourceInfo.fullPath = hr.resourceInfo.fullPath ∧ hr'.data = hr.data)) :
    InTurn (s.setReq h hr') where
  one := hs.one
  paired := by
    intro req hreq hr'' hget'
    rcases setReq_cases hget hget' with ⟨heq, rfl⟩ | ⟨-, hget'⟩
    · rcases hsame with hnone | ⟨hpath, hdata⟩
      · exact absurd heq (hnone req hreq)
      · rw [hpath, hdata]
        exact hs.paired req hreq hr (heq ▸ hget)
    · exact hs.paired req hreq hr'' hget'

/-- A resolution is started for a connection that is idle. -/
theorem InTurn.resolve (hs : InTurn s) (hidle : Idle s h) {env : ResolveEnv} {url : Bytes}
    (hok : resolveResource s h env url = .ok u) : InTurn u := by
  obtain ⟨hr, root, hget, -, rfl⟩ := resolveResource_ok hok
  have hset : InTurn (s.setReq h { hr with resourceInfo :=
      { hr.resourceInfo with result := 0, fullPath := resolveUrl root url } }) :=
    hs.setReq hget _ (.inl hidle.stats)
  refine ⟨?_, ?_⟩
  · rw [List.map_append, List.nodup_append]
    refine ⟨hs.one, by simp, ?_⟩
    intro d hd d' hd'
    obtain ⟨req, hreq, rfl⟩ := List.mem_map.mp hd
    obtain rfl : d' = h := by simpa using hd'
    exact hidle.stats req hreq
  · intro req hreq hr' hget'
    rcases List.mem_append.mp hreq with hold | hnew
    · exact hset.paired req hold hr' hget'
    · rw [List.mem_singleton.mp hnew] at hget' ⊢
      replace hget' := (setReq_self hget _).symm.trans hget'
      cases hget'
      exact ⟨rfl, hidle.data hr hget⟩

/-! ### One event -/

/-- A buffer ends at most one message, and only when nothing is under way for the connection. -/
def TakesTurns (s : Server) : ServerEvent → Prop
  | .reqRead h (.data _ calls _) => messages calls ≤ 1 ∧ (0 < messages calls → Idle s h)
  | _ => True

/-- The callbacks for one buffer. -/
theorem InTurn.parserCallbacks {calls : List (ParserCallback × ResolveEnv)} (hs : InTurn s)
    (hl : Linked s) (hle : messages calls ≤ 1) (hidle : 0 < messages calls → Idle s h)
    (hok : calls.foldlM (parserCallback h) s = .ok u) : InTurn u := by
  induction calls generalizing s with
  | nil =>
    cases hok
    exact hs
  | cons c calls ih =>
    rw [List.foldlM_cons] at hok
    obtain ⟨v, hc, hok⟩ := bind_ok_iff.mp hok
    have hlv : Linked v := hl.parserCallback hc
    obtain ⟨hr, st, hget, hst, hcases⟩ := hl.parserCallback_ok hc
    have hset : InTurn (s.setReq h { hr with parseReq := st }) :=
      hs.setReq hget _ (.inr ⟨rfl, rfl⟩)
    rcases hcases with ⟨hgoesOn, rfl⟩ | ⟨hends, url, -, hstart⟩
    · have hcount : messages (c :: calls) = messages calls := by
        simp [messages, hgoesOn]
      rw [hcount] at hle hidle
      exact ih hset hlv hle (fun hpos => (hidle hpos).parserCallback hgoesOn hc) hok
    · have hcount : messages (c :: calls) = messages calls + 1 := by
        simp [messages, hends]
      rw [hcount] at hle hidle
      have hidle' : Idle (s.setReq h { hr with parseReq := st }) h := by
        refine ⟨(hidle (by omega)).stats, ?_⟩
        intro hr'' hget'
        rw [setReq_self hget] at hget'
        cases hget'
        exact (hidle (by omega)).data hr hget
      refine ih (hset.resolve hidle' hstart) hlv (by omega) ?_ hok
      intro hpos
      omega

/-- The stat number `i` is answered. -/
theorem InTurn.dropStat (hs : InTurn s) {i : ℕ} {req : StatReq} (hreq : s.stats[i]? = some req) :
    InTurn { s with stats := s.stats.eraseIdx i } ∧
      ∀ req' ∈ s.stats.eraseIdx i, req'.data ≠ req.data := by
  have hsub : (s.stats.eraseIdx i).Sublist s.stats := List.eraseIdx_sublist _ _
  refine ⟨⟨?_, ?_⟩, ?_⟩
  · exact (hsub.map _).nodup hs.one
  · intro req' hreq'
    exact hs.paired req' (hsub.subset hreq')
  · intro req' hreq'
    obtain ⟨j, hne, hj⟩ := List.mem_eraseIdx_iff_getElem?.mp hreq'
    exact ne_of_nodup_map hs.one hreq hj hne

theorem InTurn.stat (hs : InTurn s) (hl : Linked s) {i : ℕ} {result : StatResult}
    {env : ResolveEnv} {pipe : PipeFileEnv} {contents : Bytes}
    (hok : fsStatCb s i result env pipe contents = .ok u) : InTurn u := by
  obtain ⟨req, hr, hreq, hget, hcases⟩ := hl.fsStatCb_ok hok
  obtain ⟨hdrop, hothers⟩ := hs.dropStat hreq
  have htold : InTurn (s.tell i req.data hr result) := hdrop.setReq hget _ (.inl hothers)
  rcases hcases with ⟨e, -, hagain⟩ | ⟨size, -, hpipe⟩
  · -- the stat that was answered was the only one of its connection
    refine htold.resolve ⟨hothers, ?_⟩ hagain
    intro hr' hget'
    rw [tell_get? hget, if_pos rfl] at hget'
    cases hget'
    exact (hs.paired req (List.mem_of_getElem? hreq) hr hget).2
  · obtain ⟨hr', hget', -, rfl⟩ := swsPipeFile_ok hpipe
    have hpiped := htold.setReq hget' { hr' with data := some s.pipes.next } (.inl hothers)
    exact hpiped.of_same rfl rfl

/-- **One event** of a run in which requests take turns keeps the invariant. -/
theorem InTurn.step (hs : InTurn s) (hl : Linked s) {e : ServerEvent} (hturn : TakesTurns s e)
    (hok : server.dispatch s e = .ok u) : InTurn u := by
  rcases dispatch_cases hok with ⟨-, hk⟩ | ⟨h, nread, calls, parsed, v, rfl, hcalls, hk⟩ |
    ⟨i, result, env, pipe, contents, rfl, hanswer⟩
  · exact hs.keeps hl hk
  · have hv : InTurn v := hs.parserCallbacks hl hturn.1 hturn.2 hcalls
    have hlv : Linked v := foldlM_ok_invariant hcalls hl fun _ _ _ _ hb hc => hb.parserCallback hc
    exact hv.keeps hlv hk
  · exact hs.stat hl hanswer

end

/-! ### The calls of `sws_pipe_file` -/

/-- The tcp handle, the path and the size with which the event calls `sws_pipe_file`, if it does. -/
def pipeFileCall (s : Server) : ServerEvent → Option (ℕ × Bytes × ℕ)
  | .stat i result _ _ _ => do
    let req ← s.stats[i]?
    let hr ← s.reqs.get? req.data
    let info := StaticWebServer.fsStatCb hr.resourceInfo result
    let h ← info.data
    match resolution info with
    | .again => none
    | .pipe path size => some (h, path, size)
  | _ => none

/-- Such an event is dispatched as a call of `sws_pipe_file`, in a state in which every `tcp->data`
is what it was. -/
theorem dispatch_pipeFileCall {s : Server} {e : ServerEvent} {h size : ℕ} {path : Bytes}
    (hcall : pipeFileCall s e = some (h, path, size)) :
    ∃ v env contents,
      server.dispatch s e = (do
        let (u, r) ← swsPipeFile v h path size env contents
        check r "pipe file"
        .ok u) ∧
      ∀ h', (v.reqs.get? h').map SwsHandleReq.data = (s.reqs.get? h').map SwsHandleReq.data := by
  cases e with
  | stat i result env pipe contents =>
    simp only [pipeFileCall, Option.bind_eq_bind, Option.bind_eq_some_iff] at hcall
    obtain ⟨req, hreq, hr, hget, h', hdata, hcall⟩ := hcall
    split at hcall
    · cases hcall
    · rename_i path' size' hres
      cases hcall
      refine ⟨s.tell i req.data hr result, pipe, contents, ?_, ?_⟩
      · show fsStatCb s i result env pipe contents = _
        rw [fsStatCb_eq hreq hget]
        exact onResolveResource_pipe hdata hres
      · intro h'
        rw [tell_get? hget]
        split
        · rename_i heq
          rw [heq, hget]
          rfl
        · rfl
  | connect status accept junk info => cases hcall
  | reqRead h' r => cases hcall
  | fileRead f r => cases hcall
  | written h' status => cases hcall
  | closed h' => cases hcall

/-- An answer is handed to `sws_pipe_file` by what it says itself. -/
theorem pipeFileCall_stat {s : Server} (hl : Linked s) {i : ℕ} {req : StatReq} {hr : SwsHandleReq}
    (hreq : s.stats[i]? = some req) (hget : s.reqs.get? req.data = some hr) (result : StatResult)
    (env : ResolveEnv) (pipe : PipeFileEnv) (contents : Bytes) :
    pipeFileCall s (.stat i result env pipe contents) =
      result.toOption.map fun size => (req.data, hr.resourceInfo.fullPath, size) := by
  have hself := (hl.self _ hr hget).2
  have hzero := hl.untold req (List.mem_of_getElem? hreq) hr hget
  cases result with
  | ok size =>
    simp [pipeFileCall, hreq, hget, StaticWebServer.fsStatCb, resolution, hself, hzero,
      Except.toOption]
  | error err =>
    simp [pipeFileCall, hreq, StaticWebServer.fsStatCb, resolution, toUnsigned_ne_zero,
      Except.toOption]

/-- A call of `sws_pipe_file` comes from a stat that has succeeded. -/
theorem pipeFileCall_cases {s : Server} (hl : Linked s) {e : ServerEvent} {h size : ℕ}
    {path : Bytes} (hcall : pipeFileCall s e = some (h, path, size)) :
    ∃ i env pipe contents req hr, e = .stat i (.ok size) env pipe contents ∧
      s.stats[i]? = some req ∧ req.data = h ∧ s.reqs.get? h = some hr ∧
      hr.resourceInfo.fullPath = path := by
  cases e with
  | stat i result env pipe contents =>
    obtain ⟨req, hreq, hr, hget⟩ : ∃ req, s.stats[i]? = some req ∧
        ∃ hr, s.reqs.get? req.data = some hr := by
      simp only [pipeFileCall, Option.bind_eq_bind, Option.bind_eq_some_iff] at hcall
      obtain ⟨req, hreq, hr, hget, -⟩ := hcall
      exact ⟨req, hreq, hr, hget⟩
    rw [pipeFileCall_stat hl hreq hget] at hcall
    cases result with
    | error err => cases hcall
    | ok reported =>
      cases hcall
      exact ⟨i, env, pipe, contents, req, hr, rfl, hreq, rfl, hget, rfl⟩
  | connect status accept junk info => cases hcall
  | reqRead h' r => cases hcall
  | fileRead f r => cases hcall
  | written h' status => cases hcall
  | closed h' => cases hcall

/-- The size was reported for the path by the stat that the event answers. -/
def Reported (s : Server) (path : Bytes) (size : ℕ) : ServerEvent → Prop
  | .stat i result _ _ _ => s.stats[i]?.map StatReq.path = some path ∧ result = .ok size
  | _ => False

/-- The call of `sws_pipe_file`, if the event makes one, is served with the size that was reported
for its path, and finds `tcp->data == NULL`. -/
def Served (s : Server) (e : ServerEvent) : Prop :=
  ∀ h path size, pipeFileCall s e = some (h, path, size) →
    Reported s path size e ∧ ∃ hr, s.reqs.get? h = some hr ∧ hr.data = none

section

variable {s u : Server} {h : ℕ} {hr : SwsHandleReq}

/-- A stat that succeeds for a connection whose `tcp->data` is set. -/
theorem exists_not_served (hl : Linked s) (hcount : 0 < statsFor h s.stats)
    (hget : s.reqs.get? h = some hr) (hdata : hr.data ≠ none) :
    ∃ e, server.enabled s e ∧ ¬ Served s e := by
  obtain ⟨req, hmem, rfl⟩ := statsFor_pos_iff.mp hcount
  obtain ⟨i, hreq⟩ := List.mem_iff_getElem?.mp hmem
  refine ⟨.stat i (.ok 0) ⟨.ok [], 0⟩ ⟨0, 0, 0⟩ [], ?_, ?_⟩
  · exact (List.getElem?_eq_some_iff.mp hreq).1
  · intro hserved
    have hcall := pipeFileCall_stat hl hreq hget (.ok 0) ⟨.ok [], 0⟩ ⟨0, 0, 0⟩ []
    obtain ⟨-, hr', hget', hnull⟩ := hserved _ _ _ hcall
    obtain rfl : hr = hr' := Option.some.inj (hget.symm.trans hget')
    exact hdata hnull

/-- Two stats under way for one connection: when the first has been answered with a file, the second
finds `tcp->data` set. -/
theorem exists_run_not_served (hl : Linked s) (hcount : 1 < statsFor h s.stats)
    (hget : s.reqs.get? h = some hr) :
    ∃ es v e, server.Run s es v ∧ server.enabled v e ∧ ¬ Served v e := by
  by_cases hdata : hr.data = none
  · obtain ⟨req, hmem, rfl⟩ := statsFor_pos_iff.mp (show 0 < statsFor h s.stats by omega)
    obtain ⟨i, hreq⟩ := List.mem_iff_getElem?.mp hmem
    have htold := tell_get? hget i (.ok 0) req.data
    rw [if_pos rfl] at htold
    obtain ⟨v, hpipe⟩ := (swsPipeFile_zero_iff htold).mpr ⟨hdata, rfl⟩
    have hok : server.dispatch s (.stat i (.ok 0) ⟨.ok [], 0⟩ ⟨0, 0, 0⟩ []) = .ok v := by
      show fsStatCb s i (.ok 0) _ _ _ = _
      rw [hl.fsStatCb_found hreq hget, hpipe]
      rfl
    have henabled : server.enabled s (.stat i (.ok 0) ⟨.ok [], 0⟩ ⟨0, 0, 0⟩ []) :=
      (List.getElem?_eq_some_iff.mp hreq).1
    have hlv : Linked v := hl.step hok
    obtain ⟨hr', hget', -, rfl⟩ := swsPipeFile_ok hpipe
    obtain ⟨e, he, hnot⟩ := exists_not_served hlv
      (show 0 < statsFor req.data (s.stats.eraseIdx i) by
        have := statsFor_eraseIdx hreq
        omega)
      (setReq_self hget' _) (Option.some_ne_none _)
    exact ⟨_, _, e, .snoc .nil henabled hok, he, hnot⟩
  · obtain ⟨e, he, hnot⟩ := exists_not_served hl (by omega) hget hdata
    exact ⟨[], s, e, .nil, he, hnot⟩

/-- A buffer that ends two messages, or one for a connection that is not idle, leaves two stats
under way, or one and a `tcp->data` that is set. -/
theorem exists_run_not_served_of_reqRead (hl : Linked s) {nread parsed : ℕ}
    {calls : List (ParserCallback × ResolveEnv)}
    (hnot : ¬ (messages calls ≤ 1 ∧ (0 < messages calls → Idle s h)))
    (hok : server.dispatch s (.reqRead h (.data nread calls parsed)) = .ok u) :
    ∃ fs v e, server.Run u fs v ∧ server.enabled v e ∧ ¬ Served v e := by
  have hlu : Linked u := hl.step hok
  obtain ⟨hr, w, hget, hcalls, hend⟩ := onReqRead_data_ok hok
  obtain ⟨-, hcount, hr', hget', hdata⟩ := statsFor_parserCallbacks hl hget hcalls
  obtain ⟨hreqs, hstats⟩ : u.reqs = w.reqs ∧ u.stats = w.stats := by
    rcases hend with ⟨-, hclose⟩ | ⟨-, rfl⟩
    · obtain ⟨-, rfl⟩ := uvClose_ok hclose
      exact ⟨rfl, rfl⟩
    · exact ⟨rfl, rfl⟩
  rw [← hreqs] at hget'
  rw [← hstats] at hcount
  by_cases hone : 1 < statsFor h u.stats
  · exact exists_run_not_served hlu hone hget'
  · -- one message has ended, for a connection that has a transfer
    have hle : messages calls ≤ 1 := by omega
    have hbusy : 0 < messages calls ∧ ¬ Idle s h := by
      by_contra hcon
      refine hnot ⟨hle, fun hpos => ?_⟩
      by_contra hidle
      exact hcon ⟨hpos, hidle⟩
    have hnone : ∀ req ∈ s.stats, req.data ≠ h := by
      intro req hmem heq
      have := statsFor_pos_iff.mpr ⟨req, hmem, heq⟩
      omega
    have hset : hr'.data ≠ none := by
      intro hnull
      refine hbusy.2 ⟨hnone, ?_⟩
      intro hr'' hget''
      obtain rfl : hr = hr'' := Option.some.inj (hget.symm.trans hget'')
      rw [← hdata, hnull]
    obtain ⟨e', he', hnot'⟩ := exists_not_served hlu (by omega) hget' hset
    exact ⟨[], u, e', .nil, he', hnot'⟩

/-- **Out of turn.**  After the first event that breaks the condition some run goes on to a call of
`sws_pipe_file` that is not served. -/
theorem exists_run_not_served_of_not_takesTurns {es : List ServerEvent} {e : ServerEvent}
    (hrun : server.Run init es s) (hnot : ¬ TakesTurns s e) (hok : server.dispatch s e = .ok u) :
    ∃ fs v e', server.Run u fs v ∧ server.enabled v e' ∧ ¬ Served v e' := by
  cases e with
  | reqRead h r =>
    cases r with
    | eof => exact absurd trivial hnot
    | other nread => exact absurd trivial hnot
    | data nread calls parsed =>
      exact exists_run_not_served_of_reqRead (linked_of_run hrun) hnot hok
  | connect status accept junk info => exact absurd trivial hnot
  | stat i result env pipe contents => exact absurd trivial hnot
  | fileRead f r => exact absurd trivial hnot
  | written h status => exact absurd trivial hnot
  | closed h => exact absurd trivial hnot

end

end Server

open Server

end LibuvDox.StaticWebServer
