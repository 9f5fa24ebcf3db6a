import LibuvDox.Lib.Raises
import LibuvDox.StaticWebServer.ParserFragmentation
import LibuvDox.StaticWebServer.ResolutionChain
import LibuvDox.StaticWebServer.StringOwnership

/-!
# Arrays of a fixed size

A request passes through four arrays whose size does not depend on it: the five header arrays, the
string that `sws_req_parser_result_str` formats, the static root, and `full_path`.  None of the
writes into them checks a length.

* `withinBounds_lines_iff`: the header lines are copied without an overrun exactly if each value
  that is reached fits.
* `withinBounds_chain_iff`: so are the paths of the URL and of the 404 page.
* `staysInBounds_iff`: a request overruns none of the arrays exactly if there is `Room` for it.
-/

namespace LibuvDox.StaticWebServer

/-- A write past the end of one of the arrays. -/
def isOverrun : Stop → Bool
  | .undefined what => what ∈ ["strcpy past the end of a header array",
      "sprintf past the end of the result string", "strcat past the end of root",
      "sprintf past the end of full_path"]
  | .exit _ => false
  | .assertFailed _ => false

/-- No array is overrun. -/
def WithinBounds {α : Type} (x : Except Stop α) : Prop := Raises (fun e => isOverrun e = false) x

/-- The way of a request: its callbacks, the log line of `on_parse_complete`, and the resolution of
its URL, up to some answer of the file system. -/
def handleRequest (st : ParserState) (root : Bytes) (info : SwsResourceInfo)
    (calls : List ParserCallback) (env : ℕ → ResolveEnv) (fs : ℕ → Bytes → StatResult) (n : ℕ) :
    Except Stop Chain := do
  let st ← swsReqParserExecute st calls
  let _ ← swsReqParserResultStr st.req
  let url ← deref st.req.url.text? "handle_req->parse_req.url"
  resolveChain env fs root info url n

/-- In the working directory `cwd` the request overruns no array, whatever libuv and the file system
answer. -/
def StaysInBounds (st : ParserState) (root cwd : Bytes) (calls : List ParserCallback) : Prop :=
  ∀ info env fs n, (∀ k, (env k).cwd = .ok cwd) →
    WithinBounds (handleRequest st root info calls env fs n)

/-- The root after the first resolution in the working directory `cwd`. -/
def rootText (root cwd : Bytes) : Bytes := if root = [] then cwd ++ STATIC else root

/-- How many bytes `resolve_url` puts behind the root. -/
def servedLength (urlPath : Bytes) : ℕ :=
  if noQuery urlPath = ascii "/" then INDEX_HTML.length else (noQuery urlPath).length

/-- The length of the text of `sws_req_parser_result_str`, from the texts in the five arrays: an
array without a NUL is shown with those behind it, up to the method. -/
def resultLength (method : HttpMethod) (url : Bytes) (header : HeaderName → Bytes) : ℕ :=
  let length := fun name => (shown header method.bytes name).length
  method.name.length + url.length + length .userAgent + length .host + length .accept
    + length .acceptEncoding + length .acceptLanguage + 105

/-! ### The header arrays -/

/-- The first fragment of the value, if there is a name, fits into the array of that name. -/
def LineFragments.Bounded (l : LineFragments) : Prop :=
  l.lastName ≠ [] → Fits (l.lastName, l.value.headD [])

/-- Every line that is reached is bounded: the one after a line is, if that line's callbacks
return. -/
def LinesBounded : List LineFragments → Prop
  | [] => True
  | l :: ls => l.Bounded ∧ (l.Passes → LinesBounded ls)

section

variable {α : Type} {st : ParserState}

theorem withinBounds_ok (a : α) : WithinBounds (.ok a) := raises_ok a

theorem withinBounds_check (r : ℤ) (msg : String) : WithinBounds (check r msg) := by
  unfold check
  exact Raises.ite (fun _ => raises_error rfl) (fun _ => raises_ok ())

theorem withinBounds_copyHeader_iff (f : HeaderFields) (name : HeaderName) (value : Bytes) :
    WithinBounds (copyHeader f name value) ↔ value.length < MAX_HEADER_VALUE := by
  unfold copyHeader
  by_cases hlt : value.length < MAX_HEADER_VALUE
  · rw [if_pos hlt]
    exact iff_of_true (raises_ok _) hlt
  · rw [if_neg hlt]
    refine iff_of_false (fun h => ?_) hlt
    exact absurd (h _ rfl) (by decide)

/-- A value after its field. -/
theorem withinBounds_onHeaderValue_iff {v f : Bytes} {i : ℕ}
    (hf : st.req.headerLine.field = .block i f) (hlen : 0 < st.req.headerLine.fieldLen)
    (hi : i ∉ st.strings.freed) (hv : 0 ∉ v) :
    WithinBounds (onHeaderValue st v) ↔ Fits (f, v) := by
  rw [onHeaderValue_eq st v f i hf hlen hi hv, Fits]
  cases hn : headerOf (strtolower f) with
  | none => simp [withinBounds_ok]
  | some name =>
    have hcopy := withinBounds_copyHeader_iff st.req.headers name v
    simp only [ne_eq, reduceCtorEq, not_false_eq_true, true_implies, ← hcopy]
    cases copyHeader st.req.headers name v with
    | error e =>
      constructor
      · exact fun h => raises_error (h e rfl)
      · exact fun h => raises_error (h e rfl)
    | ok headers => exact iff_of_true (raises_ok _) (raises_ok _)

/-- One line. -/
theorem withinBounds_line_iff (hs : st.strings.Sane) {l : LineFragments} (hc : l.Clean) :
    WithinBounds (swsReqParserExecute st l.calls) ↔ l.Bounded := by
  obtain ⟨b, i, v, vs, hname, hvalue, hvc, hrun⟩ := execute_line_eq st hs hc
  have hrest : ∀ c, onHeaderValue b v = .ok c →
      WithinBounds (swsReqParserExecute c (vs.map .headerValue)) := by
    intro c hcv
    cases vs with
    | nil => exact raises_ok c
    | cons w ws =>
      rw [execute_secondValue ws hcv]
      exact raises_error rfl
  rw [hrun, WithinBounds, raises_bind_iff]
  refine (and_iff_left hrest).trans ?_
  rw [LineFragments.Bounded, hvalue, List.headD_cons]
  by_cases hnil : l.lastName = []
  · refine iff_of_true ?_ fun hne => absurd hnil hne
    rw [onHeaderValue_noField (by rw [hname.fieldLen, hnil, List.length_nil])]
    exact raises_error rfl
  · have hpos : 0 < b.req.headerLine.fieldLen := by
      rw [hname.fieldLen]
      exact List.length_pos_of_ne_nil hnil
    rw [imp_iff_right hnil]
    exact withinBounds_onHeaderValue_iff hname.field hpos hname.live hvc

/-- **The header arrays.** -/
theorem withinBounds_lines_iff (hs : st.strings.Sane) {ls : List LineFragments}
    (hc : ∀ l ∈ ls, l.Clean) :
    WithinBounds (swsReqParserExecute st (ls.flatMap LineFragments.calls)) ↔ LinesBounded ls := by
  induction ls generalizing st with
  | nil => exact iff_of_true (raises_ok st) trivial
  | cons l ls ih =>
    have hl := hc l List.mem_cons_self
    have hls := fun k hk => hc k (List.mem_cons_of_mem l hk)
    rw [List.flatMap_cons, execute_append, WithinBounds, raises_bind_iff, LinesBounded]
    refine and_congr (withinBounds_line_iff hs hl) ?_
    constructor
    · intro h hp
      obtain ⟨b, hb, -, -, hsane⟩ := execute_line st l hs hl hp
      exact (ih hsane hls).mp (h b hb)
    · intro h b hb
      have hp := passes_of_execute_line st b l hs hl hb
      obtain ⟨b', hb', -, -, hsane⟩ := execute_line st l hs hl hp
      obtain rfl : b' = b := by simpa [hb] using hb'.symm
      exact (ih hsane hls).mpr (h hp)

/-! ### The result string -/

theorem resultText_length (r : SwsParseReq) (url : Bytes) :
    (resultText r url).length = resultLength r.method url r.headers.get := by
  simp only [resultText, resultLength, List.length_append]
  have h₁ : (ascii "\x1b[1;33m").length = 7 := by decide
  have h₂ : (ascii " ").length = 1 := by decide
  have h₃ : (ascii "\x1b[0m\n\x1b[90m  User-Agent: ").length = 24 := by decide
  have h₄ : (ascii "\n  Host: \x27").length = 10 := by decide
  have h₅ : (ascii "\x27\n  Accept: \x27").length = 13 := by decide
  have h₆ : (ascii "\x27\n  Accept-Encoding: \x27").length = 22 := by decide
  have h₇ : (ascii "\x27\n  Accept-Language: \x27").length = 22 := by decide
  have h₈ : (ascii "\x27\x1b[39m").length = 6 := by decide
  omega

theorem withinBounds_resultStr_iff {r : SwsParseReq} {url : Bytes} (hurl : r.url.text? = some url) :
    WithinBounds (swsReqParserResultStr r) ↔
      resultLength r.method url r.headers.get < resultRoom := by
  rw [← resultText_length]
  simp only [swsReqParserResultStr, hurl, deref, bind, Except.bind]
  by_cases hlt : (resultText r url).length < resultRoom
  · rw [if_pos hlt]
    exact iff_of_true (raises_ok _) hlt
  · rw [if_neg hlt]
    refine iff_of_false (fun h => ?_) hlt
    exact absurd (h _ rfl) (by decide)

/-! ### The root and the path -/

theorem resolveUrl_length (root urlPath : Bytes) :
    (resolveUrl root urlPath).length = root.length + servedLength urlPath := by
  unfold resolveUrl servedLength
  split
  · exact List.length_append
  · exact List.length_append

theorem rootText_idem (root cwd : Bytes) :
    rootText (rootText root cwd) cwd = rootText root cwd := by
  have hne : rootText root cwd ≠ [] := by
    unfold rootText
    split
    · simp [STATIC, ascii]
    · assumption
  rw [rootText, if_neg hne]

theorem resolveRoot_ok {root cwd r : Bytes} {env : ResolveEnv} (hcwd : env.cwd = .ok cwd)
    (h : resolveRoot root env = .ok r) : r = rootText root cwd := by
  unfold resolveRoot at h
  unfold rootText
  split at h
  · rename_i hroot
    simp only [hcwd] at h
    split at h
    · cases h
      rw [if_pos hroot]
    · cases h
  · rename_i hroot
    cases h
    rw [if_neg hroot]

/-- The root, and the path behind it. -/
theorem withinBounds_start_iff {root cwd urlPath : Bytes} {env : ResolveEnv}
    {info : SwsResourceInfo} (hcwd : env.cwd = .ok cwd) :
    WithinBounds (swsResolveResourceStart root env info urlPath) ↔
      (rootText root cwd).length + servedLength urlPath < PATH_MAX := by
  rw [← resolveUrl_length]
  unfold swsResolveResourceStart
  by_cases hfits : root ≠ [] ∨ (rootText root cwd).length < PATH_MAX
  · have hroot : resolveRoot root env = .ok (rootText root cwd) := by
      unfold resolveRoot rootText at *
      by_cases hknown : root = []
      · simp_all
      · simp [hknown]
    rw [hroot]
    simp only [bind, Except.bind]
    by_cases hpath : (resolveUrl (rootText root cwd) urlPath).length < PATH_MAX
    · rw [if_pos hpath]
      exact iff_of_true ((withinBounds_check _ _).bind fun _ _ => raises_ok _) hpath
    · rw [if_neg hpath]
      refine iff_of_false (fun h => ?_) hpath
      exact absurd (h _ rfl) (by decide)
  · -- the working directory is too long
    rw [not_or, not_not] at hfits
    obtain ⟨hunknown, hlong⟩ := hfits
    have hroot : resolveRoot root env = .error (.undefined "strcat past the end of root") := by
      unfold resolveRoot rootText at *
      simp_all
    rw [hroot, resolveUrl_length]
    refine iff_of_false (fun h => ?_) (by omega)
    exact absurd (h _ rfl) (by decide)

theorem withinBounds_issueStat_iff {root cwd urlPath : Bytes} {env : ℕ → ResolveEnv} {k : ℕ}
    {info : SwsResourceInfo} (hcwd : (env k).cwd = .ok cwd) :
    WithinBounds (issueStat env k root info urlPath) ↔
      (rootText root cwd).length + servedLength urlPath < PATH_MAX := by
  rw [← withinBounds_start_iff hcwd, issueStat, WithinBounds, raises_bind_iff]
  exact and_iff_left fun _ _ => raises_ok _

/-- The root of a chain. -/
theorem resolveChain_root {env : ℕ → ResolveEnv} {fs : ℕ → Bytes → StatResult}
    {root cwd urlPath : Bytes} {info : SwsResourceInfo} {n : ℕ} {c : Chain}
    (hcwd : ∀ k, (env k).cwd = .ok cwd)
    (h : resolveChain env fs root info urlPath n = .ok c) : c.root = rootText root cwd := by
  induction n generalizing c with
  | zero =>
    obtain ⟨hstarts, -⟩ := issueStat_ok_iff.mp h
    exact resolveRoot_ok (hcwd 0) hstarts.root
  | succ n ih =>
    obtain ⟨b, hb, h⟩ := bind_ok_iff.mp h
    have hroot := ih hb
    split at h
    · simp only [answerStat] at h
      split at h
      · obtain ⟨hstarts, -⟩ := issueStat_ok_iff.mp h
        rw [resolveRoot_ok (hcwd b.issued) hstarts.root, hroot, rootText_idem]
      · cases h
        exact hroot
    · cases h
      exact hroot

/-- **The paths.** -/
theorem withinBounds_chain_iff {root cwd urlPath : Bytes} :
    (∀ info env fs n, (∀ k, (env k).cwd = .ok cwd) →
      WithinBounds (resolveChain env fs root info urlPath n)) ↔
    (rootText root cwd).length + servedLength urlPath < PATH_MAX ∧
      (rootText root cwd).length + servedLength NOT_FOUND < PATH_MAX := by
  constructor
  · intro h
    -- no file is there
    let env : ℕ → ResolveEnv := fun _ => ⟨.ok cwd, 0⟩
    let fs : ℕ → Bytes → StatResult := fun _ _ => .error ⟨-2, by decide, by decide⟩
    let info : SwsResourceInfo := ⟨[], 0, 0, none⟩
    have hcwd : ∀ k, (env k).cwd = .ok cwd := fun _ => rfl
    have hurl : (rootText root cwd).length + servedLength urlPath < PATH_MAX :=
      (withinBounds_issueStat_iff (hcwd 0)).mp (h info env fs 0 hcwd)
    refine ⟨hurl, ?_⟩
    have hstart : swsResolveResourceStart root (env 0) (swsResolveResourceInit info) urlPath
        = .ok (rootText root cwd, ⟨resolveUrl (rootText root cwd) urlPath, 0, 0, none⟩) := by
      refine swsResolveResourceStart_ok_iff.mpr ⟨⟨?_, ?_, rfl⟩, rfl⟩
      · unfold resolveRoot
        unfold rootText at hurl ⊢
        split
        · rename_i hunknown
          rw [if_pos hunknown] at hurl
          exact if_pos (by omega)
        · rfl
      · rwa [resolveUrl_length]
    have hone := h info env fs 1 hcwd
    rw [resolveChain, resolveChain, issueStat, hstart] at hone
    rw [← rootText_idem]
    exact (withinBounds_issueStat_iff (hcwd 1)).mp hone
  · rintro ⟨hurl, hnotFound⟩ info env fs n hcwd
    induction n with
    | zero => exact (withinBounds_issueStat_iff (hcwd 0)).mpr hurl
    | succ n ih =>
      refine ih.bind fun c hc => Raises.ite (fun _ => ?_) fun _ => raises_ok c
      simp only [answerStat]
      split
      · refine (withinBounds_issueStat_iff (hcwd c.issued)).mpr ?_
        rwa [resolveChain_root hcwd hc, rootText_idem]
      · exact raises_ok _

/-! ### Whole requests -/

/-- The callbacks of a request, up to its first header line. -/
theorem execute_request (hs : st.strings.Sane) {d : Delivery} (hc : d.Clean)
    (method : HttpMethod) :
    ∃ b i, b.strings.Sane ∧ b.req.url = .block i (d.url.getLastD []) ∧
      b.req.headers = st.req.headers ∧
      swsReqParserExecute st (d.calls method) =
        swsReqParserExecute b (d.lines.flatMap LineFragments.calls) >>= fun c =>
          .ok ⟨{ c.req with method := method }, c.strings⟩ := by
  obtain ⟨fs, g, hurl⟩ : ∃ fs g, d.url = fs ++ [g] :=
    ⟨d.url.dropLast, d.url.getLast hc.url, (List.dropLast_append_getLast hc.url).symm⟩
  have hgc : 0 ∉ g := hc.urlText g (by simp [hurl])
  obtain ⟨b, i, hb, hburl, hheaders, hsane⟩ := execute_urls st fs g
  rw [takeWhile_clean hgc] at hburl
  refine ⟨b, i, hsane hs, by simpa [hurl] using hburl, hheaders, ?_⟩
  show swsReqParserExecute st (d.url.map .url ++ _) = _
  rw [execute_append, hurl, hb]
  exact execute_append b _ _

theorem withinBounds_parse_iff (hs : st.strings.Sane) {d : Delivery} (hc : d.Clean)
    (method : HttpMethod) :
    WithinBounds (swsReqParserExecute st (d.calls method)) ↔ LinesBounded d.lines := by
  obtain ⟨b, i, hsane, -, -, hrun⟩ := execute_request hs hc method
  rw [hrun, ← withinBounds_lines_iff hsane hc.lines, WithinBounds, raises_bind_iff]
  exact and_iff_left fun _ _ => raises_ok _

/-- If every line passes, the callbacks of the request return. -/
theorem execute_request_passes (hs : st.strings.Sane) {d : Delivery} (hc : d.Clean)
    (method : HttpMethod) (hpasses : ∀ l ∈ d.lines, l.Passes) :
    ∃ a, swsReqParserExecute st (d.calls method) = .ok a := by
  obtain ⟨b, i, hsane, -, -, hrun⟩ := execute_request hs hc method
  obtain ⟨c, hlines, -⟩ := execute_lines b d.lines hsane hc.lines hpasses
  rw [hrun, hlines]
  exact ⟨_, rfl⟩

/-- The header values that `on_parse_complete` finds. -/
def headerAfter (st : ParserState) (d : Delivery) (name : HeaderName) : Bytes :=
  (recorded d.seen name).getD (st.req.headers.get name)

/-- What the request leaves, if its callbacks return. -/
theorem execute_request_ok (hs : st.strings.Sane) {d : Delivery} (hc : d.Clean)
    {method : HttpMethod} {a : ParserState} (h : swsReqParserExecute st (d.calls method) = .ok a) :
    (∀ l ∈ d.lines, l.Passes) ∧ a.req.url.text? = some (d.url.getLastD []) ∧
      a.req.method = method ∧ ∀ name, a.req.headers.get name = headerAfter st d name := by
  obtain ⟨b, i, hsane, hurl, hheaders, hrun⟩ := execute_request hs hc method
  rw [hrun] at h
  obtain ⟨c, hlines, h⟩ := bind_ok_iff.mp h
  cases h
  have hpasses := passes_of_execute_lines b c d.lines hsane hc.lines hlines
  obtain ⟨c', hlines', hurl', hheaders', -⟩ := execute_lines b d.lines hsane hc.lines hpasses
  obtain rfl : c' = c := by simpa [hlines] using hlines'.symm
  refine ⟨hpasses, ?_, rfl, fun name => ?_⟩
  · simp only [hurl', hurl, CharPtr.text?]
  · show c'.req.headers.get name = _
    rw [hheaders', hheaders]
    exact get_foldl_putLine _ _ (seen_fits hpasses) hc.seen

/-- From `on_parse_complete` on. -/
theorem withinBounds_answer_iff {r : SwsParseReq} {url root cwd : Bytes}
    (hurl : r.url.text? = some url) :
    (∀ info env fs n, (∀ k, (env k).cwd = .ok cwd) → WithinBounds (do
      let _ ← swsReqParserResultStr r
      let url ← deref r.url.text? "handle_req->parse_req.url"
      resolveChain env fs root info url n)) ↔
    resultLength r.method url r.headers.get < resultRoom ∧
      (rootText root cwd).length + servedLength url < PATH_MAX ∧
      (rootText root cwd).length + servedLength NOT_FOUND < PATH_MAX := by
  rw [← withinBounds_chain_iff, ← withinBounds_resultStr_iff hurl, hurl]
  simp only [deref, bind, Except.bind]
  cases hstr : swsReqParserResultStr r with
  | ok text => exact (and_iff_right (raises_ok text)).symm
  | error e =>
    constructor
    · intro h
      have he := h ⟨[], 0, 0, none⟩ (fun _ => ⟨.ok cwd, 0⟩) (fun _ _ => .ok 0) 0 (fun _ => rfl) e
        rfl
      refine ⟨raises_error he, fun info env fs n hcwd => ?_⟩
      -- the text is formatted or overruns its block
      rw [swsReqParserResultStr, hurl] at hstr
      simp only [deref, bind, Except.bind] at hstr
      split at hstr
      · cases hstr
      · cases hstr
        exact absurd he (by decide)
    · rintro ⟨he, -⟩ info env fs n -
      exact raises_error (he e rfl)

end

/-- There is room for a request: every header value fits that is copied; and if the callbacks
return, so do the result string, the path of the URL, and that of the 404 page. -/
structure Room (st : ParserState) (root cwd : Bytes) (d : Delivery) (method : HttpMethod) :
    Prop where
  headers : LinesBounded d.lines
  result : (∀ l ∈ d.lines, l.Passes) →
    resultLength method (d.url.getLastD []) (headerAfter st d) < resultRoom
  path : (∀ l ∈ d.lines, l.Passes) →
    (rootText root cwd).length + servedLength (d.url.getLastD []) < PATH_MAX
  notFound : (∀ l ∈ d.lines, l.Passes) →
    (rootText root cwd).length + servedLength NOT_FOUND < PATH_MAX

/-- **The arrays of a fixed size.**  On a connection in any state, in any working directory, and
whatever the file system answers, a request overruns no array exactly if there is room for it. -/
theorem staysInBounds_iff (junk : Garbage) (id : ℕ) (before : List ParserCallback)
    (st : ParserState) (h : swsReqParserExecute (swsReqParserInit junk id) before = .ok st)
    (root cwd : Bytes) (r : Request) (hr : r.WellFormed) (bufs : List Bytes) (d : Delivery)
    (hd : Delivers r bufs d) :
    StaysInBounds st root cwd (d.calls r.method) ↔ Room st root cwd d r.method := by
  have hs : st.strings.Sane := (owned_of_execute h).bound
  have hc := hd.clean hr
  have hparse := withinBounds_parse_iff hs hc r.method
  have hanswer : ∀ a, swsReqParserExecute st (d.calls r.method) = .ok a →
      ((∀ info env fs n, (∀ k, (env k).cwd = .ok cwd) → WithinBounds (do
        let _ ← swsReqParserResultStr a.req
        let url ← deref a.req.url.text? "handle_req->parse_req.url"
        resolveChain env fs root info url n)) ↔
      resultLength r.method (d.url.getLastD []) (headerAfter st d) < resultRoom ∧
        (rootText root cwd).length + servedLength (d.url.getLastD []) < PATH_MAX ∧
        (rootText root cwd).length + servedLength NOT_FOUND < PATH_MAX) := by
    intro a ha
    obtain ⟨-, hurl, hmethod, hheaders⟩ := execute_request_ok hs hc ha
    rw [withinBounds_answer_iff hurl, hmethod, funext hheaders]
  constructor
  · intro hstays
    have hboth := fun info env fs n hcwd => raises_bind_iff.mp (hstays info env fs n hcwd)
    have hlines := hboth ⟨[], 0, 0, none⟩ (fun _ => ⟨.ok cwd, 0⟩) (fun _ _ => .ok 0) 0 fun _ => rfl
    have hafter : (∀ l ∈ d.lines, l.Passes) →
        resultLength r.method (d.url.getLastD []) (headerAfter st d) < resultRoom ∧
          (rootText root cwd).length + servedLength (d.url.getLastD []) < PATH_MAX ∧
          (rootText root cwd).length + servedLength NOT_FOUND < PATH_MAX := by
      intro hpasses
      obtain ⟨a, ha⟩ := execute_request_passes hs hc r.method hpasses
      exact (hanswer a ha).mp fun info env fs n hcwd => (hboth info env fs n hcwd).2 a ha
    exact ⟨hparse.mp hlines.1, fun hp => (hafter hp).1, fun hp => (hafter hp).2.1,
      fun hp => (hafter hp).2.2⟩
  · intro hroom info env fs n hcwd
    refine raises_bind_iff.mpr ⟨hparse.mpr hroom.headers, fun a ha => ?_⟩
    obtain ⟨hpasses, -⟩ := execute_request_ok hs hc ha
    exact (hanswer a ha).mpr
      ⟨hroom.result hpasses, hroom.path hpasses, hroom.notFound hpasses⟩ info env fs n hcwd

/-- A request in one buffer is reported in one fragment for each element. -/
theorem whole_delivers (r : Request) : Delivers r [r.bytes] r.whole := by
  have hone : ∀ (o : ℕ) (text : Bytes), Fragments [r.bytes] o text [text] := by
    intro o text
    refine ⟨List.cons_ne_nil text [], by simp, fun c hc hlt _ => ?_⟩
    obtain rfl : c = 0 := by simpa [starts] using hc
    omega
  refine ⟨by simp, hone _ _, ?_⟩
  have hlines : ∀ (o : ℕ) (ls : List HeaderLine),
      LinesDelivered [r.bytes] o ls (ls.map fun l => ⟨[l.name], [l.value]⟩) := by
    intro o ls
    induction ls generalizing o with
    | nil => exact trivial
    | cons l ls ih => exact ⟨hone _ _, hone _ _, ih _⟩
  exact hlines _ r.lines

/-- There is room for a short request. -/
theorem staysInBounds_iff_index :
    StaysInBounds (swsReqParserInit usedBlock 0) [] (ascii "/srv/www")
      (indexRequest.whole.calls indexRequest.method) := by
  refine (staysInBounds_iff usedBlock 0 [] (swsReqParserInit usedBlock 0) rfl [] (ascii "/srv/www")
    indexRequest indexRequest_wellFormed [indexRequest.bytes] indexRequest.whole
    (whole_delivers indexRequest)).mpr ⟨⟨fun _ => ?_, fun _ => trivial⟩, fun _ => ?_, fun _ => ?_,
    fun _ => ?_⟩
  · decide
  · decide
  · decide
  · decide

/-- `GET /` with a host of 500 bytes. -/
def longHost : Request where
  start := ascii "GET "
  method := HTTP_GET
  url := ascii "/"
  version := ascii " HTTP/1.1\x0d\n"
  lines := [⟨ascii "Host", ascii ": ", List.replicate 500 97, ascii "\x0d\n"⟩]
  finish := ascii "\x0d\n"

theorem longHost_wellFormed : longHost.WellFormed where
  url := by decide
  names := by decide
  values l hl h0 := by
    obtain rfl := List.mem_singleton.mp hl
    exact absurd (List.eq_of_mem_replicate h0) (by decide)

/-- A host of 500 bytes does not fit with its NUL. -/
theorem longHost_overruns : ¬ ∀ junk id before st root cwd (r : Request) bufs d,
    swsReqParserExecute (swsReqParserInit junk id) before = .ok st → r.WellFormed →
      Delivers r bufs d → StaysInBounds st root cwd (d.calls r.method) := by
  intro h
  have hd := whole_delivers longHost
  have hstays := h usedBlock 0 [] _ [] (ascii "/srv/www") longHost _ _ rfl longHost_wellFormed hd
  have hboth := raises_bind_iff.mp (hstays ⟨[], 0, 0, none⟩
    (fun _ => ⟨.ok (ascii "/srv/www"), 0⟩) (fun _ _ => .ok 0) 0 fun _ => rfl)
  have hlines := (withinBounds_parse_iff (init_sane usedBlock 0) (hd.clean longHost_wellFormed)
    longHost.method).mp hboth.1
  have hfits : (List.replicate 500 (97 : UInt8)).length < 500 := hlines.1 (by decide) (by decide)
  rw [List.length_replicate] at hfits
  exact lt_irrefl 500 hfits

end LibuvDox.StaticWebServer
