import LibuvDox.StaticWebServer.RequestsInTurn
import LibuvDox.StaticWebServer.TransferLinks

/-!
# One request for each connection

Many connections share the root and the ids, and are told apart by `data` pointers alone.  If each
of them carries one request, then whatever the order of the events is, a file that is looked up for
a connection, or sent on it, is the one that its own URL was resolved to, or the 404 page after a
stat of that file has failed.

* `RequestsApart`: the invariant.  Every stat under way and every file stream is for a path that
  was resolved for its own connection.
* `requestsApart_of_run`: it holds in every run in which each connection carries one request.
-/

namespace LibuvDox.StaticWebServer

/-! ### What a connection carries -/

/-- `parse_req.url` after a callback of http_parser. -/
def urlAfter (url : Option Bytes) : ParserCallback → Option Bytes
  | .url hdr => some (hdr.takeWhile (· ≠ 0))
  | _ => url

/-- What `parse_req.url` holds in the end: the fragment of the URL that was stored last. -/
def ownUrl (calls : List ParserCallback) : Option Bytes := calls.foldl urlAfter none

/-- Nothing is called back for after the end of the first message. -/
def OneRequest (calls : List ParserCallback) : Prop := ∀ c ∈ calls.dropLast, c.completes = false

instance (calls : List ParserCallback) : Decidable (OneRequest calls) :=
  inferInstanceAs (Decidable (∀ c ∈ calls.dropLast, c.completes = false))

/-- The callbacks that http_parser makes for the connection `h` in an event. -/
def callsIn (h : ℕ) : ServerEvent → List ParserCallback
  | .reqRead h' (.data _ calls _) => if h' = h then calls.map Prod.fst else []
  | _ => []

/-- The callbacks that http_parser has made for the connection `h`. -/
def callsOf (h : ℕ) (es : List ServerEvent) : List ParserCallback := es.flatMap (callsIn h)

@[simp] theorem ownUrl_concat (calls : List ParserCallback) (c : ParserCallback) :
    ownUrl (calls ++ [c]) = urlAfter (ownUrl calls) c := by
  simp [ownUrl]

@[simp] theorem callsOf_concat (h : ℕ) (es : List ServerEvent) (e : ServerEvent) :
    callsOf h (es ++ [e]) = callsOf h es ++ callsIn h e := by
  simp [callsOf]

theorem callsIn_of_isQuiet (h : ℕ) {e : ServerEvent} (hquiet : e.isQuiet = true) :
    callsIn h e = [] := by
  cases e with
  | reqRead h' r =>
    cases r with
    | data nread calls parsed => cases hquiet
    | eof => rfl
    | other nread => rfl
  | connect status accept junk info => rfl
  | stat i result env pipe contents => rfl
  | fileRead f r => rfl
  | written h' status => rfl
  | closed h' => rfl

/-- A message has ended, or none has. -/
theorem ended_iff {calls : List ParserCallback} :
    (∃ c ∈ calls, c.completes = true) ↔ ¬ ∀ c ∈ calls, c.completes = false := by
  simp

/-- A request goes on: it had not ended. -/
theorem OneRequest.running {calls more : List ParserCallback} (hone : OneRequest (calls ++ more))
    (hmore : more ≠ []) : ∀ c ∈ calls, c.completes = false := by
  intro c hc
  refine hone c ?_
  rw [List.dropLast_append_of_ne_nil hmore]
  exact List.mem_append_left _ hc

theorem OneRequest.left {calls more : List ParserCallback} (hone : OneRequest (calls ++ more)) :
    OneRequest calls := by
  by_cases hmore : more = []
  · rwa [hmore, List.append_nil] at hone
  · exact fun c hc => hone.running hmore c (List.dropLast_subset _ hc)

open Server in
/-- A buffer ends one message at most. -/
theorem OneRequest.messages_le_one {past : List ParserCallback}
    {calls : List (ParserCallback × ResolveEnv)}
    (hone : OneRequest (past ++ calls.map Prod.fst)) : messages calls ≤ 1 := by
  rcases List.eq_nil_or_concat calls with rfl | ⟨front, c, rfl⟩
  · exact Nat.zero_le 1
  · rw [List.concat_eq_append, List.map_append, ← List.append_assoc] at hone
    have hfront : messages front = 0 := by
      refine List.countP_eq_zero.mpr fun c' hc' => ?_
      have hgoesOn := hone.running (List.cons_ne_nil _ _) c'.1
        (List.mem_append_right _ (List.mem_map_of_mem hc'))
      rw [hgoesOn]
      exact Bool.false_ne_true
    rw [List.concat_eq_append, messages, List.countP_append]
    have hlast : List.countP (fun c => c.1.completes) [c] ≤ 1 := List.countP_le_length
    unfold messages at hfront
    omega

theorem onCallback_url {st st' : ParserState} {c : ParserCallback}
    (hok : onCallback st c = .ok st') :
    st'.req.url.text? = urlAfter st.req.url.text? c := by
  cases c with
  | headerValue hdr => exact congrArg CharPtr.text? (onHeaderValue_same hok).2.1
  | messageBegin => cases hok; rfl
  | url hdr => cases hok; rfl
  | headerField hdr => cases hok; rfl
  | headersComplete => cases hok; rfl
  | messageComplete method => cases hok; rfl

/-- The path of a file that may be sent on the connection `h`: what its URL is resolved to, or the
404 page if the stat of that has failed. -/
def OwnPath (failed : ℕ → Bytes → Prop) (root : Bytes) (calls : List ParserCallback) (h : ℕ)
    (path : Bytes) : Prop :=
  ∃ url, ownUrl calls = some url ∧
    (path = resolveUrl root url ∨
      (path = resolveUrl root NOT_FOUND ∧ failed h (resolveUrl root url)))

namespace Server

/-- **The invariant**, for the callbacks `past` that were made for each connection and the stats
that have failed. -/
structure RequestsApart (past : ℕ → List ParserCallback) (failed : ℕ → Bytes → Prop)
    (s : Server) : Prop where
  url : ∀ h hr, s.reqs.get? h = some hr → hr.parseReq.req.url.text? = ownUrl (past h)
  fresh : ∀ h, s.reqs.next ≤ h → past h = []
  idle : ∀ h, (∀ c ∈ past h, c.completes = false) →
    Idle s h ∧ ∀ f < s.filePipes.next, (s.streams f).tcp ≠ h
  root : s.stats ≠ [] ∨ s.filePipes.next ≠ 0 → s.root ≠ []
  stat : ∀ req ∈ s.stats, OwnPath failed s.root (past req.data) req.data req.path
  stream : ∀ f < s.filePipes.next,
    OwnPath failed s.root (past (s.streams f).tcp) (s.streams f).tcp (s.streams f).path

theorem init_requestsApart (failed : ℕ → Bytes → Prop) :
    RequestsApart (fun _ => []) failed init where
  url := by simp [init]
  fresh := by simp
  idle := by
    intro h _
    exact ⟨⟨by simp [init], by simp [init]⟩, by simp [init]⟩
  root := by simp [init]
  stat := by simp [init]
  stream := by simp [init]

section

variable {past : ℕ → List ParserCallback} {failed : ℕ → Bytes → Prop} {s u : Server} {h : ℕ}
variable {hr : SwsHandleReq}

/-! ### Updates that keep the invariant -/

theorem RequestsApart.mono (hs : RequestsApart past failed s) {failed' : ℕ → Bytes → Prop}
    (hle : ∀ h path, failed h path → failed' h path) : RequestsApart past failed' s where
  url := hs.url
  fresh := hs.fresh
  idle := hs.idle
  root := hs.root
  stat req hreq := by
    obtain ⟨url, hurl, hown⟩ := hs.stat req hreq
    exact ⟨url, hurl, hown.imp_right (And.imp_right (hle _ _))⟩
  stream f hf := by
    obtain ⟨url, hurl, hown⟩ := hs.stream f hf
    exact ⟨url, hurl, hown.imp_right (And.imp_right (hle _ _))⟩

/-- Connections come and go, and file streams read on. -/
theorem RequestsApart.of_same (hs : RequestsApart past failed s) (hstats : u.stats ⊆ s.stats)
    (hroot : u.root = s.root) (hfiles : u.filePipes.next = s.filePipes.next)
    (hstreams : ∀ f, (u.streams f).tcp = (s.streams f).tcp ∧
      (u.streams f).path = (s.streams f).path)
    (hnext : s.reqs.next ≤ u.reqs.next)
    (hreqs : ∀ h hr, u.reqs.get? h = some hr →
      (∃ hr', s.reqs.get? h = some hr' ∧ hr'.data = hr.data ∧ hr'.parseReq = hr.parseReq) ∨
        (s.reqs.next ≤ h ∧ hr.data = none ∧ hr.parseReq.req.url.text? = none)) :
    RequestsApart past failed u where
  url h hr hget := by
    rcases hreqs h hr hget with ⟨hr', hget', -, hparse⟩ | ⟨hle, -, hurl⟩
    · rw [← hparse]
      exact hs.url h hr' hget'
    · rw [hs.fresh h hle, hurl]
      rfl
  fresh h hle := hs.fresh h (hnext.trans hle)
  idle h hpast := by
    obtain ⟨hidle, hnone⟩ := hs.idle h hpast
    refine ⟨⟨?_, fun hr hget => ?_⟩, fun f hf => ?_⟩
    · exact fun req hreq => hidle.stats req (hstats hreq)
    · rcases hreqs h hr hget with ⟨hr', hget', hdata, -⟩ | ⟨-, hdata, -⟩
      · rw [← hdata]
        exact hidle.data hr' hget'
      · exact hdata
    · rw [hfiles] at hf
      rw [(hstreams f).1]
      exact hnone f hf
  root := by
    rw [hfiles, hroot]
    have hsome : u.stats ≠ [] → s.stats ≠ [] := fun hne hnil =>
      hne (List.subset_nil.mp (hnil ▸ hstats))
    exact fun hused => hs.root (hused.imp_left hsome)
  stat req hreq := by
    rw [hroot]
    exact hs.stat req (hstats hreq)
  stream f hf := by
    rw [hfiles] at hf
    rw [(hstreams f).1, (hstreams f).2, hroot]
    exact hs.stream f hf

/-- What is stored for a callback, while the request of the connection goes on. -/
theorem RequestsApart.parse (hs : RequestsApart past failed s) (hget : s.reqs.get? h = some hr)
    {st : ParserState} {c : ParserCallback} (hst : onCallback hr.parseReq c = .ok st)
    (hrun : ∀ c ∈ past h, c.completes = false) :
    RequestsApart (Function.update past h (past h ++ [c])) failed
      (s.setReq h { hr with parseReq := st }) := by
  obtain ⟨hidle, hnone⟩ := hs.idle h hrun
  have hother : ∀ h', h' ≠ h → Function.update past h (past h ++ [c]) h' = past h' :=
    fun h' hne => Function.update_of_ne hne _ _
  constructor
  case url =>
    intro h' hr' hget'
    rcases setReq_cases hget hget' with ⟨rfl, rfl⟩ | ⟨hne, hget'⟩
    · rw [Function.update_self, ownUrl_concat, ← hs.url h' hr hget]
      exact onCallback_url hst
    · rw [hother h' hne]
      exact hs.url h' hr' hget'
  case fresh =>
    intro h' hle
    rw [setReq_next] at hle
    have hlt := Heap.lt_next hget
    rw [hother h' (by omega)]
    exact hs.fresh h' hle
  case idle =>
    intro h' hpast
    have hidle' : Idle s h' ∧ ∀ f < s.filePipes.next, (s.streams f).tcp ≠ h' := by
      by_cases heq : h' = h
      · rw [heq]
        exact ⟨hidle, hnone⟩
      · rw [hother h' heq] at hpast
        exact hs.idle h' hpast
    refine ⟨⟨hidle'.1.stats, fun hr' hget' => ?_⟩, hidle'.2⟩
    rcases setReq_cases hget hget' with ⟨-, rfl⟩ | ⟨-, hget'⟩
    · exact hidle.data hr hget
    · exact hidle'.1.data hr' hget'
  case root => exact hs.root
  case stat =>
    intro req hreq
    rw [hother _ (hidle.stats req hreq)]
    exact hs.stat req hreq
  case stream =>
    intro f hf
    have hown := hs.stream f hf
    rwa [← hother _ (hnone f hf)] at hown

/-- A connection whose request goes on is not one whose request has ended. -/
theorem ne_of_ended {h' : ℕ} (hended : ∃ c ∈ past h, c.completes = true)
    (hpast : ∀ c ∈ past h', c.completes = false) : h' ≠ h := by
  rintro rfl
  exact ended_iff.mp hended hpast

/-- A known root is not resolved again. -/
theorem root_of_starts {root root' url : Bytes} {env : ResolveEnv}
    (hstarts : Starts root env root' url) (hne : root ≠ []) : root' = root := by
  have hroot := hstarts.root
  rw [resolveRoot, if_neg hne] at hroot
  exact (Except.ok.inj hroot).symm

/-- A resolution is started for a connection whose request has ended. -/
theorem RequestsApart.resolve (hs : RequestsApart past failed s) {env : ResolveEnv} {url : Bytes}
    (hended : ∃ c ∈ past h, c.completes = true)
    (hown : ∀ root, (s.root ≠ [] → root = s.root) →
      OwnPath failed root (past h) h (resolveUrl root url))
    (hok : resolveResource s h env url = .ok u) : RequestsApart past failed u := by
  obtain ⟨hr, root, hget, hstarts, rfl⟩ := resolveResource_ok hok
  have hroot : s.root ≠ [] → root = s.root := root_of_starts hstarts
  constructor
  case url =>
    intro h' hr' hget'
    rcases setReq_cases hget hget' with ⟨rfl, rfl⟩ | ⟨-, hget'⟩
    · exact hs.url h' hr hget
    · exact hs.url h' hr' hget'
  case fresh =>
    intro h' hle
    exact hs.fresh h' ((setReq_next s h _).ge.trans hle)
  case idle =>
    intro h' hpast
    have hne := ne_of_ended hended hpast
    obtain ⟨hidle, hnone⟩ := hs.idle h' hpast
    refine ⟨⟨fun req hreq => ?_, fun hr' hget' => ?_⟩, hnone⟩
    · rcases List.mem_append.mp hreq with hold | hnew
      · exact hidle.stats req hold
      · rw [List.mem_singleton.mp hnew]
        exact hne.symm
    · rcases setReq_cases hget hget' with ⟨heq, -⟩ | ⟨-, hget'⟩
      · exact absurd heq hne
      · exact hidle.data hr' hget'
  case root => exact fun _ => (resolveRoot_idem hstarts.root env).1
  case stat =>
    intro req hreq
    rcases List.mem_append.mp hreq with hold | hnew
    · rw [hroot (hs.root (.inl (List.ne_nil_of_mem hold)))]
      exact hs.stat req hold
    · rw [List.mem_singleton.mp hnew]
      exact hown root hroot
  case stream =>
    intro f hf
    have hlt : f < s.filePipes.next := hf
    rw [hroot (hs.root (.inr (Nat.ne_zero_of_lt hlt)))]
    exact hs.stream f hlt

/-! ### One event -/

/-- One callback of http_parser, while the request of the connection goes on. -/
theorem RequestsApart.parserCallback (hs : RequestsApart past failed s) (hl : Linked s)
    {c : ParserCallback × ResolveEnv} (hrun : ∀ c ∈ past h, c.completes = false)
    (hok : parserCallback h s c = .ok u) :
    RequestsApart (Function.update past h (past h ++ [c.1])) failed u := by
  obtain ⟨hr, st, hget, hst, ⟨-, rfl⟩ | ⟨hends, url, hurl, hstart⟩⟩ := hl.parserCallback_ok hok
  · exact hs.parse hget hst hrun
  · have hset := hs.parse hget hst hrun
    refine hset.resolve ⟨c.1, ?_, hends⟩ ?_ hstart
    · rw [Function.update_self]
      exact List.mem_append_right _ (List.mem_singleton_self _)
    · intro root _
      refine ⟨url, ?_, .inl rfl⟩
      rw [← hset.url h _ (setReq_self hget _)]
      exact hurl

/-- The callbacks for one buffer. -/
theorem RequestsApart.parserCallbacks (hs : RequestsApart past failed s) (hl : Linked s)
    {calls : List (ParserCallback × ResolveEnv)}
    (hone : OneRequest (past h ++ calls.map Prod.fst))
    (hok : calls.foldlM (Server.parserCallback h) s = .ok u) :
    RequestsApart (Function.update past h (past h ++ calls.map Prod.fst)) failed u := by
  induction calls generalizing s past with
  | nil =>
    cases hok
    rw [List.map_nil, List.append_nil, Function.update_eq_self]
    exact hs
  | cons c calls ih =>
    rw [List.foldlM_cons] at hok
    obtain ⟨v, hc, hok⟩ := bind_ok_iff.mp hok
    have hv := hs.parserCallback hl (hone.running (List.cons_ne_nil _ _)) hc
    have happend : past h ++ (c :: calls).map Prod.fst =
        past h ++ [c.1] ++ calls.map Prod.fst := by simp
    have hpast : Function.update past h (past h ++ [c.1]) h = past h ++ [c.1] :=
      Function.update_self _ _ _
    have hu := ih hv (hl.parserCallback hc) (by rw [hpast, ← happend]; exact hone) hok
    rw [hpast, Function.update_idem, ← happend] at hu
    exact hu

/-- A transfer is set up for a connection whose request has ended. -/
theorem RequestsApart.pipeFile (hs : RequestsApart past failed s) {path contents : Bytes}
    {size : ℕ} {env : PipeFileEnv} (hended : ∃ c ∈ past h, c.completes = true)
    (hroot : s.root ≠ []) (hown : OwnPath failed s.root (past h) h path)
    (hok : swsPipeFile s h path size env contents = .ok (u, 0)) :
    RequestsApart past failed u := by
  obtain ⟨hr, hget, -, rfl⟩ := swsPipeFile_ok hok
  constructor
  case url =>
    intro h' hr' hget'
    rcases piped_req_cases hget hget' with ⟨rfl, rfl⟩ | ⟨-, hget'⟩
    · exact hs.url h' hr hget
    · exact hs.url h' hr' hget'
  case fresh =>
    intro h' hle
    exact hs.fresh h' ((piped_reqs_next s).ge.trans hle)
  case idle =>
    intro h' hpast
    have hne := ne_of_ended hended hpast
    obtain ⟨hidle, hnone⟩ := hs.idle h' hpast
    refine ⟨⟨hidle.stats, fun hr' hget' => ?_⟩, fun f hf => ?_⟩
    · rw [piped_req_of_ne s hne] at hget'
      exact hidle.data hr' hget'
    · rcases piped_stream_cases hf with ⟨-, hnew⟩ | ⟨hlt, hold⟩
      · rw [hnew]
        exact hne.symm
      · rw [hold]
        exact hnone f hlt
  case root => exact fun _ => hroot
  case stat => exact hs.stat
  case stream =>
    intro f hf
    rcases piped_stream_cases hf with ⟨-, hnew⟩ | ⟨hlt, hold⟩
    · rw [hnew]
      exact hown
    · rw [hold]
      exact hs.stream f hlt

/-- The answer to a stat; a file that is missing is noted. -/
theorem RequestsApart.answer (hs : RequestsApart past failed s) (hl : Linked s) (hturn : InTurn s)
    {i : ℕ} {result : StatResult} {env : ResolveEnv} {pipe : PipeFileEnv} {contents : Bytes}
    (hmissing : ∀ req err, s.stats[i]? = some req → result = .error err →
      failed req.data req.path)
    (hok : fsStatCb s i result env pipe contents = .ok u) : RequestsApart past failed u := by
  obtain ⟨req, hr, hreq, hget, hcases⟩ := hl.fsStatCb_ok hok
  have hmem := List.mem_of_getElem? hreq
  have hroot := hs.root (.inl (List.ne_nil_of_mem hmem))
  obtain ⟨url, hurl, hpath⟩ := hs.stat req hmem
  have hended : ∃ c ∈ past req.data, c.completes = true :=
    ended_iff.mpr fun hnone => (hs.idle req.data hnone).1.stats req hmem rfl
  have htold : RequestsApart past failed (s.tell i req.data hr result) := by
    refine hs.of_same (List.eraseIdx_sublist _ _).subset rfl rfl (fun f => ⟨rfl, rfl⟩) ?_ ?_
    · exact (setReq_next _ _ _).ge
    · intro h' hr' hget'
      rw [tell_get? hget] at hget'
      split at hget'
      · rename_i heq
        cases hget'
        exact .inl ⟨hr, heq ▸ hget, rfl, rfl⟩
      · exact .inl ⟨hr', hget', rfl, rfl⟩
  rcases hcases with ⟨err, rfl, hagain⟩ | ⟨size, rfl, hpipe⟩
  · refine htold.resolve hended ?_ hagain
    intro root hsame
    rw [hsame hroot]
    refine ⟨url, hurl, .inr ⟨rfl, ?_⟩⟩
    rcases hpath with hown | ⟨-, hfailed⟩
    · have := hmissing req err hreq rfl
      rwa [hown] at this
    · exact hfailed
  · refine htold.pipeFile hended hroot ?_ hpipe
    rw [(hturn.paired req hmem hr hget).1]
    exact ⟨url, hurl, hpath⟩

/-- Connections come and go, and transfers move on. -/
theorem RequestsApart.keeps (hs : RequestsApart past failed s) (hk : KeepsRequests s u) :
    RequestsApart past failed u := by
  refine hs.of_same ?_ hk.root hk.next hk.streams hk.grows fun h hr hget => ?_
  · rw [hk.stats]
    exact List.Subset.refl _
  · rcases hk.old h hr hget with hget | ⟨rfl, id, junk, info, rfl⟩
    · exact .inl ⟨hr, hget, rfl, rfl⟩
    · exact .inr ⟨le_rfl, rfl, rfl⟩

/-- Connections that carry one request each take turns. -/
theorem RequestsApart.takesTurns (hs : RequestsApart past failed s) {e : ServerEvent}
    (hone : ∀ h, OneRequest (past h ++ callsIn h e)) : TakesTurns s e := by
  cases e with
  | reqRead h r =>
    cases r with
    | data nread calls parsed =>
      have hcalls := hone h
      rw [callsIn, if_pos rfl] at hcalls
      refine ⟨hcalls.messages_le_one, fun hpos => (hs.idle h (hcalls.running ?_)).1⟩
      rintro hnil
      rw [List.map_eq_nil_iff.mp hnil] at hpos
      exact absurd hpos (Nat.lt_irrefl 0)
    | eof => trivial
    | other nread => trivial
  | connect status accept junk info => trivial
  | stat i result env pipe contents => trivial
  | fileRead f r => trivial
  | written h status => trivial
  | closed h => trivial

/-- **One event.** -/
theorem RequestsApart.step (hs : RequestsApart past failed s) (hl : Linked s) (hturn : InTurn s)
    {e : ServerEvent} (hone : ∀ h, OneRequest (past h ++ callsIn h e))
    (hmissing : ∀ i err env pipe contents req, e = .stat i (.error err) env pipe contents →
      s.stats[i]? = some req → failed req.data req.path)
    (hok : server.dispatch s e = .ok u) :
    RequestsApart (fun h => past h ++ callsIn h e) failed u := by
  rcases dispatch_cases hok with ⟨hquiet, hk⟩ | ⟨h, nread, calls, parsed, v, rfl, hcalls, hk⟩ |
    ⟨i, result, env, pipe, contents, rfl, hanswer⟩
  · simp only [callsIn_of_isQuiet _ hquiet, List.append_nil]
    exact hs.keeps hk
  · have hpast : (fun h' => past h' ++ callsIn h' (.reqRead h (.data nread calls parsed))) =
        Function.update past h (past h ++ calls.map Prod.fst) := by
      funext h'
      rw [callsIn, Function.update_apply]
      by_cases heq : h = h'
      · rw [if_pos heq, if_pos heq.symm, heq]
      · rw [if_neg heq, if_neg (Ne.symm heq), List.append_nil]
    have hcallsOne := hone h
    rw [callsIn, if_pos rfl] at hcallsOne
    rw [hpast]
    exact (hs.parserCallbacks hl hcallsOne hcalls).keeps hk
  · have hnone : ∀ h, callsIn h (.stat i result env pipe contents) = [] := fun _ => rfl
    simp only [hnone, List.append_nil]
    refine hs.answer hl hturn ?_ hanswer
    rintro req err hreq rfl
    exact hmissing i err env pipe contents req rfl hreq

end

/-! ### Every run -/

/-- In the run a stat has failed that was under way for the connection `h`. -/
def StatFailed (es : List ServerEvent) (h : ℕ) (path : Bytes) : Prop :=
  ∃ es₁ es₂ s i err env pipe contents,
    es = es₁ ++ .stat i (.error err) env pipe contents :: es₂ ∧
      server.Run init es₁ s ∧ s.stats[i]? = some ⟨h, path⟩

theorem StatFailed.concat {es : List ServerEvent} {h : ℕ} {path : Bytes}
    (hfailed : StatFailed es h path) (e : ServerEvent) : StatFailed (es ++ [e]) h path := by
  obtain ⟨es₁, es₂, s, i, err, env, pipe, contents, rfl, hrun, hstat⟩ := hfailed
  exact ⟨es₁, es₂ ++ [e], s, i, err, env, pipe, contents, by simp, hrun, hstat⟩

/-- **Every run** in which each connection carries one request keeps the requests apart. -/
theorem requestsApart_of_run {es : List ServerEvent} {s : Server} (hrun : server.Run init es s)
    (hone : ∀ h, OneRequest (callsOf h es)) :
    RequestsApart (fun h => callsOf h es) (StatFailed es) s ∧ InTurn s := by
  induction hrun with
  | nil => exact ⟨init_requestsApart _, init_inTurn⟩
  | @snoc es t e u hrun he hok ih =>
    simp only [callsOf_concat] at hone ⊢
    obtain ⟨hs, hturn⟩ := ih fun h => (hone h).left
    have hl := linked_of_run hrun
    refine ⟨?_, hturn.step hl (hs.takesTurns hone) hok⟩
    refine (hs.mono fun h path hfailed => hfailed.concat e).step hl hturn hone ?_ hok
    rintro i err env pipe contents req rfl hreq
    exact ⟨es, [], t, i, err, env, pipe, contents, rfl, hrun, hreq⟩

end Server

end LibuvDox.StaticWebServer
