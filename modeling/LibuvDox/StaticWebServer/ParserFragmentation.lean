import LibuvDox.StaticWebServer.RequestParser

/-!
# Requests that arrive in pieces

http_parser reports the URL, each header field and each header value in one or more consecutive
fragments, with a new fragment at least wherever a new read buffer begins.  The callbacks treat
every fragment as a whole element, so a request that is cut inside an element can leave another
result than the same request in one buffer, or fail the first assertion of `on_header_value`,
which finds the field length cleared by the fragment before.

* `Delivers` says which fragments http_parser may report for a request and a list of buffers.
* `execute_lines`, `passes_of_execute_lines`: what running the callbacks of header lines does, and
  which lines they return for.
* `sameAsOneBuffer_iff`: a delivery leaves the result of the one-buffer run if and only if it is
  `Harmless`.
-/

namespace LibuvDox.StaticWebServer

/-! ### Requests and their fragments -/

/-- A header line as it is sent: the name, the colon and blanks, the value, the line end. -/
structure HeaderLine where
  name : Bytes
  colon : Bytes
  value : Bytes
  eol : Bytes
  deriving DecidableEq, Repr

def HeaderLine.bytes (l : HeaderLine) : Bytes := l.name ++ l.colon ++ l.value ++ l.eol

/-- A request as it is sent.  `start` is everything before the URL, `version` the rest of the
request line, `finish` what follows the header lines. -/
structure Request where
  start : Bytes
  method : HttpMethod
  url : Bytes
  version : Bytes
  lines : List HeaderLine
  finish : Bytes
  deriving DecidableEq, Repr

def Request.bytes (r : Request) : Bytes :=
  r.start ++ r.url ++ r.version ++ r.lines.flatMap HeaderLine.bytes ++ r.finish

/-- What every request http_parser accepts satisfies: names are not empty, and no element
contains a NUL. -/
structure Request.WellFormed (r : Request) : Prop where
  url : 0 ∉ r.url
  names : ∀ l ∈ r.lines, l.name ≠ [] ∧ 0 ∉ l.name
  values : ∀ l ∈ r.lines, 0 ∉ l.value

/-- The fragments of one header line: those of its name and those of its value. -/
structure LineFragments where
  name : List Bytes
  value : List Bytes
  deriving DecidableEq, Repr

/-- The fragments http_parser reports for a request. -/
structure Delivery where
  url : List Bytes
  lines : List LineFragments
  deriving DecidableEq, Repr

/-- The offsets at which consecutive pieces begin. -/
def starts : ℕ → List Bytes → List ℕ
  | _, [] => []
  | o, b :: bs => o :: starts (o + b.length) bs

/-- `frags` are fragments of the element `text` at offset `o`: at least one, consecutive, and
with a new one wherever a buffer begins inside the element. -/
def Fragments (bufs : List Bytes) (o : ℕ) (text : Bytes) (frags : List Bytes) : Prop :=
  frags ≠ [] ∧ frags.flatten = text ∧
    ∀ c ∈ starts 0 bufs, o < c → c < o + text.length → c ∈ starts o frags

instance (bufs : List Bytes) (o : ℕ) (text : Bytes) (frags : List Bytes) :
    Decidable (Fragments bufs o text frags) := by
  unfold Fragments
  infer_instance

/-- The header lines from offset `o` on are reported in the given fragments. -/
def LinesDelivered (bufs : List Bytes) : ℕ → List HeaderLine → List LineFragments → Prop
  | _, [], [] => True
  | o, l :: ls, d :: ds =>
    Fragments bufs o l.name d.name ∧
      Fragments bufs (o + (l.name ++ l.colon).length) l.value d.value ∧
      LinesDelivered bufs (o + l.bytes.length) ls ds
  | _, _, _ => False

/-- http_parser reports the request, read in the buffers `bufs`, in the fragments of `d`. -/
structure Delivers (r : Request) (bufs : List Bytes) (d : Delivery) : Prop where
  bytes : bufs.flatten = r.bytes
  url : Fragments bufs r.start.length r.url d.url
  lines : LinesDelivered bufs (r.start ++ r.url ++ r.version).length r.lines d.lines

/-- The callbacks for one header line. -/
def LineFragments.calls (l : LineFragments) : List ParserCallback :=
  l.name.map .headerField ++ l.value.map .headerValue

/-- The callbacks for one request, in message order. -/
def Delivery.calls (d : Delivery) (method : HttpMethod) : List ParserCallback :=
  .messageBegin :: (d.url.map .url ++
    (d.lines.flatMap LineFragments.calls ++ [.headersComplete, .messageComplete method]))

/-- Every element in one fragment, as in a request that arrives in one buffer. -/
def Request.whole (r : Request) : Delivery where
  url := [r.url]
  lines := r.lines.map fun l => ⟨[l.name], [l.value]⟩

/-- `on_req_read` for one buffer after another, up to the end of the message. -/
def readBuffers (st : ParserState) (calls : List (List ParserCallback)) :
    Except Stop ParserState := calls.foldlM swsReqParserExecute st

/-- The fields of the request that `on_parse_complete` is handed. -/
structure ParseResult where
  url : Option Bytes
  headers : HeaderFields
  deriving DecidableEq, Repr

def SwsParseReq.result (r : SwsParseReq) : ParseResult := ⟨r.url.text?, r.headers⟩

/-- Both runs get to `on_parse_complete`, no assertion fails, and the results agree, whatever
the block of the request held before. -/
def SameAsOneBuffer (r : Request) (calls : List (List ParserCallback)) : Prop :=
  ∀ junk id, ∃ a b, readBuffers (swsReqParserInit junk id) calls = .ok a ∧
    readBuffers (swsReqParserInit junk id) [r.whole.calls r.method] = .ok b ∧
    a.req.result = b.req.result

/-! ### Running callbacks -/

theorem execute_append (st : ParserState) (xs ys : List ParserCallback) :
    swsReqParserExecute st (xs ++ ys) =
      swsReqParserExecute st xs >>= fun a => swsReqParserExecute a ys := by
  simp [swsReqParserExecute, List.foldlM_append]

/-- Where the buffers end does not matter, only what http_parser reports does. -/
theorem readBuffers_flatten (st : ParserState) (calls : List (List ParserCallback)) :
    readBuffers st calls = swsReqParserExecute st calls.flatten := by
  induction calls generalizing st with
  | nil => rfl
  | cons c cs ih =>
    rw [List.flatten_cons, execute_append]
    show (swsReqParserExecute st c >>= fun a => readBuffers a cs) = _
    exact congrArg _ (funext ih)

/-- Blocks are numbered in the order of allocation. -/
def StringHeap.Sane (h : StringHeap) : Prop := ∀ i ∈ h.freed, i < h.next

/-- What consecutive fragments of a header field leave: the last one. -/
theorem execute_fields (st : ParserState) (frags : List Bytes) (g : Bytes) :
    ∃ a, swsReqParserExecute st ((frags ++ [g]).map .headerField) = .ok a ∧
      a.req.url = st.req.url ∧ a.req.headers = st.req.headers ∧
      a.req.headerLine.fieldLen = g.length ∧
      (∃ i, a.req.headerLine.field = .block i (g.takeWhile (· ≠ 0)) ∧
        (st.strings.Sane → a.strings.Sane ∧ i < a.strings.next ∧ i ∉ a.strings.freed)) := by
  induction frags generalizing st with
  | nil =>
    refine ⟨onHeaderField st g, rfl, rfl, rfl, rfl, st.strings.next, rfl, fun hs => ⟨?_, ?_, ?_⟩⟩
    · intro i hi
      exact Nat.lt_succ_of_lt (hs i hi)
    · exact Nat.lt_succ_self _
    · intro hmem
      exact absurd (hs _ hmem) (lt_irrefl _)
  | cons f fs ih =>
    obtain ⟨a, ha, hurl, hhdr, hlen, i, hi, hsane⟩ := ih (onHeaderField st f)
    refine ⟨a, ?_, hurl, hhdr, hlen, i, hi, fun hs => hsane ?_⟩
    · show (swsReqParserExecute (onHeaderField st f) ((fs ++ [g]).map .headerField)) = _
      exact ha
    · intro j hj
      exact Nat.lt_succ_of_lt (hs j hj)

/-- The same for a value without a NUL. -/
theorem onHeaderValue_eq (st : ParserState) (v f : Bytes) (i : ℕ)
    (hf : st.req.headerLine.field = .block i f) (hlen : 0 < st.req.headerLine.fieldLen)
    (hi : i ∉ st.strings.freed) (hv : 0 ∉ v) :
    onHeaderValue st v =
      match headerOf (strtolower f) with
      | some name => (copyHeader st.req.headers name v).map fun headers =>
          ⟨{ st.req with
              headers := headers
              headerLine := ⟨.null, 0, .block st.strings.next v, v.length⟩ },
            ⟨st.strings.next + 1, i :: st.strings.freed⟩⟩
      | none => .ok
          ⟨{ st.req with headerLine := ⟨.null, 0, .block st.strings.next v, v.length⟩ },
            ⟨st.strings.next + 1, i :: st.strings.freed⟩⟩ := by
  have hblock := onHeaderValue_block st v f i hf hlen hi
  rw [takeWhile_clean hv] at hblock
  exact hblock

/-- What `on_header_field` last stored for a line: the last fragment of the name. -/
def LineFragments.lastName (l : LineFragments) : Bytes := l.name.getLastD []

/-- The name and the value `process_header_line` gets to see for a line. -/
def LineFragments.seen (l : LineFragments) : Bytes × Bytes := (l.lastName, l.value.flatten)

/-- What `process_header_line` makes of a line. -/
def putLine (f : HeaderFields) (line : Bytes × Bytes) : HeaderFields :=
  match headerOf (strtolower line.1) with
  | some name => f.set name line.2
  | none => f

/-- The value of a recognised line fits in its array. -/
def Fits (line : Bytes × Bytes) : Prop :=
  headerOf (strtolower line.1) ≠ none → line.2.length < MAX_HEADER_VALUE

instance (line : Bytes × Bytes) : Decidable (Fits line) := by
  unfold Fits
  infer_instance

/-- The callbacks of the line return. -/
structure LineFragments.Passes (l : LineFragments) : Prop where
  name : l.lastName ≠ []
  value : l.value.length = 1
  fits : Fits l.seen

/-- At least one fragment of each element, and no NUL in any. -/
structure LineFragments.Clean (l : LineFragments) : Prop where
  name : l.name ≠ []
  value : l.value ≠ []
  nameText : ∀ f ∈ l.name, 0 ∉ f
  valueText : ∀ f ∈ l.value, 0 ∉ f

theorem copyHeader_fits {line : Bytes × Bytes} {name : HeaderName} (f : HeaderFields)
    (hn : headerOf (strtolower line.1) = some name) (h : Fits line) :
    copyHeader f name line.2 = .ok (putLine f line) := by
  have hlt : line.2.length < MAX_HEADER_VALUE := h (by simp [hn])
  simp [copyHeader, hlt, putLine, hn]

theorem onHeaderValue_passes (st : ParserState) (v f : Bytes) (i : ℕ)
    (hf : st.req.headerLine.field = .block i f) (hlen : 0 < st.req.headerLine.fieldLen)
    (hi : i ∉ st.strings.freed) (hv : 0 ∉ v) (hfit : Fits (f, v)) :
    ∃ b, onHeaderValue st v = .ok b ∧ b.req.url = st.req.url ∧
      b.req.headers = putLine st.req.headers (f, v) ∧
      b.strings = ⟨st.strings.next + 1, i :: st.strings.freed⟩ := by
  rw [onHeaderValue_eq st v f i hf hlen hi hv]
  cases hn : headerOf (strtolower f) with
  | none => exact ⟨_, rfl, rfl, by simp [putLine, hn], rfl⟩
  | some name =>
    have hc : copyHeader st.req.headers name v = .ok (putLine st.req.headers (f, v)) :=
      copyHeader_fits st.req.headers hn hfit
    simp only [hc, Except.map]
    exact ⟨_, rfl, rfl, rfl, rfl⟩

/-- After the fragments of the name of a line: `header_line.field` is the last one. -/
structure AfterName (st : ParserState) (l : LineFragments) (b : ParserState) (i : ℕ) : Prop where
  url : b.req.url = st.req.url
  headers : b.req.headers = st.req.headers
  fieldLen : b.req.headerLine.fieldLen = l.lastName.length
  field : b.req.headerLine.field = .block i l.lastName
  below : i < b.strings.next
  live : i ∉ b.strings.freed
  sane : b.strings.Sane

/-- The callbacks of a line come down to those for its value. -/
theorem execute_line_eq (st : ParserState) {l : LineFragments} (hs : st.strings.Sane)
    (hc : l.Clean) :
    ∃ b i v vs, AfterName st l b i ∧ l.value = v :: vs ∧ 0 ∉ v ∧
      swsReqParserExecute st l.calls =
        onHeaderValue b v >>= fun c => swsReqParserExecute c (vs.map .headerValue) := by
  obtain ⟨fs, g, hname⟩ : ∃ fs g, l.name = fs ++ [g] :=
    ⟨l.name.dropLast, l.name.getLast hc.name, (List.dropLast_append_getLast hc.name).symm⟩
  obtain ⟨v, vs, hvalue⟩ := List.exists_cons_of_ne_nil hc.value
  have hlast : l.lastName = g := by simp [LineFragments.lastName, hname]
  have hgc : 0 ∉ g := hc.nameText g (by simp [hname])
  have hvc : 0 ∉ v := hc.valueText v (by simp [hvalue])
  obtain ⟨b, hb, hurl, hheaders, hlen, i, hi, hsane⟩ := execute_fields st fs g
  rw [takeWhile_clean hgc] at hi
  obtain ⟨hsb, hlt, hlive⟩ := hsane hs
  rw [← hlast] at hlen hi
  refine ⟨b, i, v, vs, ⟨hurl, hheaders, hlen, hi, hlt, hlive, hsb⟩, hvalue, hvc, ?_⟩
  rw [LineFragments.calls, hname, hvalue, execute_append, hb]
  rfl

/-- A line that passes stores what `process_header_line` sees of it, and nothing else. -/
theorem execute_line (st : ParserState) (l : LineFragments) (hs : st.strings.Sane)
    (hc : l.Clean) (hp : l.Passes) :
    ∃ a, swsReqParserExecute st l.calls = .ok a ∧ a.req.url = st.req.url ∧
      a.req.headers = putLine st.req.headers l.seen ∧ a.strings.Sane := by
  obtain ⟨a, i, v, vs, hname, hvalue, hvc, hrun⟩ := execute_line_eq st hs hc
  obtain rfl : vs = [] := by
    have hone := hp.value
    rw [hvalue, List.length_cons, Nat.add_eq_right] at hone
    exact List.eq_nil_of_length_eq_zero hone
  have hseen : l.seen = (l.lastName, v) := by simp [LineFragments.seen, hvalue]
  have hpos : 0 < a.req.headerLine.fieldLen := by
    rw [hname.fieldLen]
    exact List.length_pos_of_ne_nil hp.name
  obtain ⟨b, hb, hburl, hbhdr, hbs⟩ := onHeaderValue_passes a v l.lastName i hname.field hpos
    hname.live hvc (hseen ▸ hp.fits)
  refine ⟨b, ?_, hburl.trans hname.url, by rw [hbhdr, hname.headers, hseen], ?_⟩
  · rw [hrun, hb]
    rfl
  · rw [hbs]
    intro j hj
    rcases List.mem_cons.mp hj with rfl | hj
    · exact Nat.lt_succ_of_lt hname.below
    · exact Nat.lt_succ_of_lt (hname.sane j hj)

/-- A second fragment of a value finds the field gone. -/
theorem execute_secondValue {b c : ParserState} {v w : Bytes} (ws : List Bytes)
    (h : onHeaderValue b v = .ok c) :
    swsReqParserExecute c ((w :: ws).map .headerValue) =
      .error (.assertFailed "req->header_line.field_len > 0") := by
  show (onHeaderValue c w >>= fun d => swsReqParserExecute d (ws.map .headerValue)) = _
  rw [onHeaderValue_noField (onHeaderValue_same h).2.2]
  rfl

/-- A line whose callbacks return passes. -/
theorem passes_of_execute_line (st a : ParserState) (l : LineFragments) (hs : st.strings.Sane)
    (hc : l.Clean) (h : swsReqParserExecute st l.calls = .ok a) : l.Passes := by
  obtain ⟨b, i, v, vs, hname, hvalue, hvc, hrun⟩ := execute_line_eq st hs hc
  rw [hrun] at h
  obtain ⟨c, hcv, hrest⟩ := bind_ok_iff.mp h
  have hvs : vs = [] := by
    cases vs with
    | nil => rfl
    | cons w ws =>
      rw [execute_secondValue ws hcv] at hrest
      cases hrest
  have hne : l.lastName ≠ [] := by
    intro hnil
    rw [onHeaderValue_noField (by rw [hname.fieldLen, hnil, List.length_nil])] at hcv
    cases hcv
  have hpos : 0 < b.req.headerLine.fieldLen := by
    rw [hname.fieldLen]
    exact List.length_pos_of_ne_nil hne
  have hseen : l.seen = (l.lastName, v) := by simp [LineFragments.seen, hvalue, hvs]
  refine ⟨hne, by rw [hvalue, hvs]; rfl, ?_⟩
  rw [hseen]
  intro hn
  obtain ⟨name, hheader⟩ := Option.ne_none_iff_exists'.mp hn
  simp only at hheader
  rw [onHeaderValue_eq b v l.lastName i hname.field hpos hname.live hvc, hheader] at hcv
  by_contra hlong
  simp [copyHeader, hlong, Except.map] at hcv

theorem execute_lines (st : ParserState) (ls : List LineFragments) (hs : st.strings.Sane)
    (hc : ∀ l ∈ ls, l.Clean) (hp : ∀ l ∈ ls, l.Passes) :
    ∃ a, swsReqParserExecute st (ls.flatMap LineFragments.calls) = .ok a ∧
      a.req.url = st.req.url ∧
      a.req.headers = (ls.map LineFragments.seen).foldl putLine st.req.headers ∧
      a.strings.Sane := by
  induction ls generalizing st with
  | nil => exact ⟨st, rfl, rfl, rfl, hs⟩
  | cons l ls ih =>
    obtain ⟨b, hb, hburl, hbhdr, hbs⟩ :=
      execute_line st l hs (hc l List.mem_cons_self) (hp l List.mem_cons_self)
    obtain ⟨a, ha, haurl, hahdr, has⟩ := ih b hbs
      (fun k hk => hc k (List.mem_cons_of_mem _ hk)) (fun k hk => hp k (List.mem_cons_of_mem _ hk))
    refine ⟨a, ?_, haurl.trans hburl, ?_, has⟩
    · rw [List.flatMap_cons, execute_append, hb]
      exact ha
    · rw [hahdr, hbhdr]
      rfl

theorem passes_of_execute_lines (st a : ParserState) (ls : List LineFragments)
    (hs : st.strings.Sane) (hc : ∀ l ∈ ls, l.Clean)
    (h : swsReqParserExecute st (ls.flatMap LineFragments.calls) = .ok a) :
    ∀ l ∈ ls, l.Passes := by
  induction ls generalizing st with
  | nil => simp
  | cons l ls ih =>
    rw [List.flatMap_cons, execute_append] at h
    obtain ⟨b, hb, hrest⟩ := bind_ok_iff.mp h
    have hl := hc l List.mem_cons_self
    have hp := passes_of_execute_line st b l hs hl hb
    obtain ⟨b', hb', -, -, hbs⟩ := execute_line st l hs hl hp
    obtain rfl : b' = b := by simpa [hb] using hb'.symm
    intro k hk
    rcases List.mem_cons.mp hk with rfl | hk
    · exact hp
    · exact ih b' hbs (fun k hk => hc k (List.mem_cons_of_mem _ hk)) hrest k hk

/-! ### Whole requests -/

/-- The value of the last line with the given name, among lines as `process_header_line` sees
them. -/
def recorded (lines : List (Bytes × Bytes)) (name : HeaderName) : Option Bytes :=
  ((lines.filter fun l => headerOf (strtolower l.1) = some name).getLast?).map Prod.snd

/-- After the last line a field has the value of the last line with its name, or what it had
before. -/
theorem get_foldl_putLine {lines : List (Bytes × Bytes)} (f : HeaderFields) (name : HeaderName)
    (hfits : ∀ l ∈ lines, Fits l) (hclean : ∀ l ∈ lines, 0 ∉ l.2) :
    (lines.foldl putLine f).get name = (recorded lines name).getD (f.get name) := by
  induction lines using List.reverseRecOn with
  | nil => rfl
  | append_singleton lines l ih =>
    have hbefore := ih (fun k hk => hfits k (List.mem_append_left _ hk))
      fun k hk => hclean k (List.mem_append_left _ hk)
    have hlast : l ∈ lines ++ [l] := List.mem_append_right _ (List.mem_singleton_self l)
    rw [List.foldl_append, List.foldl_cons, List.foldl_nil, putLine]
    cases hn : headerOf (strtolower l.1) with
    | none => simp [hbefore, recorded, List.filter_append, hn]
    | some other =>
      have htext : (HeaderArray.ofBytes l.2).text = l.2 :=
        HeaderArray.ofBytes_text (hclean l hlast) (hfits l hlast (by simp [hn])).le
      simp only [HeaderFields.get_set]
      by_cases ho : name = other
      · simp [recorded, List.filter_append, hn, ho, htext]
      · have ho' : ¬ other = name := fun h => ho h.symm
        rw [if_neg ho, hbefore]
        simp [recorded, List.filter_append, hn, ho']

/-- What consecutive fragments of the URL leave: the last one. -/
theorem execute_urls (st : ParserState) (frags : List Bytes) (g : Bytes) :
    ∃ a i, swsReqParserExecute st ((frags ++ [g]).map .url) = .ok a ∧
      a.req.url = .block i (g.takeWhile (· ≠ 0)) ∧ a.req.headers = st.req.headers ∧
      (st.strings.Sane → a.strings.Sane) := by
  induction frags generalizing st with
  | nil =>
    exact ⟨onUrl st g, st.strings.next, rfl, rfl, rfl, fun hs i hi => Nat.lt_succ_of_lt (hs i hi)⟩
  | cons f fs ih =>
    obtain ⟨a, i, ha, hurl, hhdr, hsane⟩ := ih (onUrl st f)
    exact ⟨a, i, ha, hurl, hhdr, fun hs => hsane fun j hj => Nat.lt_succ_of_lt (hs j hj)⟩

/-- At least one fragment of each element, and no NUL in any. -/
structure Delivery.Clean (d : Delivery) : Prop where
  url : d.url ≠ []
  urlText : ∀ f ∈ d.url, 0 ∉ f
  lines : ∀ l ∈ d.lines, l.Clean

/-- The lines of a delivery, as `process_header_line` sees them. -/
def Delivery.seen (d : Delivery) : List (Bytes × Bytes) := d.lines.map LineFragments.seen

/-- No value has a NUL. -/
theorem Delivery.Clean.seen {d : Delivery} (h : d.Clean) : ∀ l ∈ d.seen, 0 ∉ l.2 := by
  intro l hl h0
  obtain ⟨k, hk, rfl⟩ := List.mem_map.mp hl
  obtain ⟨f, hf, hmem⟩ := List.mem_flatten.mp h0
  exact (h.lines k hk).valueText f hf hmem

/-- Every value that is stored fits. -/
theorem seen_fits {d : Delivery} (h : ∀ l ∈ d.lines, l.Passes) : ∀ l ∈ d.seen, Fits l := by
  intro l hl
  obtain ⟨k, hk, rfl⟩ := List.mem_map.mp hl
  exact (h k hk).fits

theorem init_sane (junk : Garbage) (id : ℕ) : (swsReqParserInit junk id).strings.Sane := by
  intro i hi
  cases hi

/-- **What a delivery leaves.**  The callbacks of a whole request return exactly when those of
its lines do; the URL is then the last fragment of the URL, and each header has the value of the
last line seen with its name. -/
theorem execute_delivery (junk : Garbage) (id : ℕ) (d : Delivery) (method : HttpMethod)
    (hc : d.Clean) :
    ((∃ a, swsReqParserExecute (swsReqParserInit junk id) (d.calls method) = .ok a) ↔
      ∀ l ∈ d.lines, l.Passes) ∧
    ∀ a, swsReqParserExecute (swsReqParserInit junk id) (d.calls method) = .ok a →
      a.req.result = ⟨some (d.url.getLastD []), d.seen.foldl putLine junk.headers⟩ := by
  obtain ⟨fs, g, hurl⟩ : ∃ fs g, d.url = fs ++ [g] :=
    ⟨d.url.dropLast, d.url.getLast hc.url, (List.dropLast_append_getLast hc.url).symm⟩
  have hgc : 0 ∉ g := hc.urlText g (by simp [hurl])
  obtain ⟨b, i, hb, hburl, hbhdr, hbs⟩ := execute_urls (swsReqParserInit junk id) fs g
  rw [takeWhile_clean hgc] at hburl
  have hbs := hbs (init_sane junk id)
  -- the callbacks up to the first header line
  have hrun : swsReqParserExecute (swsReqParserInit junk id) (d.calls method) =
      swsReqParserExecute b
        (d.lines.flatMap LineFragments.calls ++ [.headersComplete, .messageComplete method]) := by
    show swsReqParserExecute (swsReqParserInit junk id) (d.url.map .url ++ _) = _
    rw [execute_append, hurl, hb]
    rfl
  have hlast : d.url.getLastD [] = g := by simp [hurl]
  have hok : (∀ l ∈ d.lines, l.Passes) →
      ∃ a, swsReqParserExecute (swsReqParserInit junk id) (d.calls method) = .ok a ∧
        a.req.result = ⟨some (d.url.getLastD []), d.seen.foldl putLine junk.headers⟩ := by
    intro hp
    obtain ⟨a, ha, haurl, hahdr, -⟩ := execute_lines b d.lines hbs hc.lines hp
    refine ⟨⟨{ a.req with method := method }, a.strings⟩, ?_, ?_⟩
    · rw [hrun, execute_append, ha]
      rfl
    · rw [hlast]
      simp only [SwsParseReq.result, haurl, hburl, hahdr, hbhdr, CharPtr.text?]
      rfl
  have hpasses : ∀ a, swsReqParserExecute (swsReqParserInit junk id) (d.calls method) = .ok a →
      ∀ l ∈ d.lines, l.Passes := by
    intro a ha
    rw [hrun, execute_append] at ha
    obtain ⟨c, hcl, -⟩ := bind_ok_iff.mp ha
    exact passes_of_execute_lines b c d.lines hbs hc.lines hcl
  refine ⟨⟨?_, fun hp => ?_⟩, fun a ha => ?_⟩
  · rintro ⟨a, ha⟩
    exact hpasses a ha
  · obtain ⟨a, ha, -⟩ := hok hp
    exact ⟨a, ha⟩
  · obtain ⟨a', ha', hres⟩ := hok (hpasses a ha)
    obtain rfl : a' = a := by simpa [ha] using ha'.symm
    exact hres

/-! ### When pieces do no harm -/

/-- The lines of a request, as they are written. -/
def Request.written (r : Request) : List (Bytes × Bytes) := r.lines.map fun l => (l.name, l.value)

/-- **The deliveries that leave the result of the one-buffer run.**  The URL and the values
arrive uncut, no name ends in an empty fragment, what is copied fits, and for each of the five
headers the last line whose name *ends* (after the last cut) in the header's name carries the
value of the last line that *has* the header's name. -/
structure Harmless (r : Request) (d : Delivery) : Prop where
  url : d.url.dropLast.flatten = []
  names : ∀ l ∈ d.lines, l.lastName ≠ []
  values : ∀ l ∈ d.lines, l.value.length = 1
  fits : ∀ l ∈ d.seen ++ r.written, Fits l
  headers : ∀ name, recorded d.seen name = recorded r.written name

theorem clean_of_linesDelivered {bufs : List Bytes} {o : ℕ} {ls : List HeaderLine}
    {ds : List LineFragments} (h : LinesDelivered bufs o ls ds)
    (hn : ∀ l ∈ ls, 0 ∉ l.name) (hv : ∀ l ∈ ls, 0 ∉ l.value) : ∀ d ∈ ds, d.Clean := by
  induction ls generalizing o ds with
  | nil =>
    cases ds with
    | nil => simp
    | cons d ds => exact h.elim
  | cons l ls ih =>
    cases ds with
    | nil => exact h.elim
    | cons d ds =>
      obtain ⟨hname, hvalue, hrest⟩ := h
      intro k hk
      rcases List.mem_cons.mp hk with rfl | hk
      · refine ⟨hname.1, hvalue.1, fun f hf h0 => ?_, fun f hf h0 => ?_⟩
        · exact hn l List.mem_cons_self (hname.2.1 ▸ List.mem_flatten.mpr ⟨f, hf, h0⟩)
        · exact hv l List.mem_cons_self (hvalue.2.1 ▸ List.mem_flatten.mpr ⟨f, hf, h0⟩)
      · exact ih hrest (fun k hk => hn k (List.mem_cons_of_mem _ hk))
          (fun k hk => hv k (List.mem_cons_of_mem _ hk)) k hk

theorem Delivers.clean {r : Request} {bufs : List Bytes} {d : Delivery} (h : Delivers r bufs d)
    (hr : r.WellFormed) : d.Clean where
  url := h.url.1
  urlText f hf h0 := hr.url (h.url.2.1 ▸ List.mem_flatten.mpr ⟨f, hf, h0⟩)
  lines := clean_of_linesDelivered h.lines (fun l hl => (hr.names l hl).2) hr.values

theorem whole_clean {r : Request} (hr : r.WellFormed) : r.whole.Clean where
  url := by simp [Request.whole]
  urlText f hf := by
    rw [List.mem_singleton.mp hf]
    exact hr.url
  lines l hl := by
    obtain ⟨k, hk, rfl⟩ := List.mem_map.mp hl
    exact ⟨by simp, by simp, by simpa using (hr.names k hk).2, by simpa using hr.values k hk⟩

theorem whole_seen (r : Request) : r.whole.seen = r.written := by
  simp [Delivery.seen, Request.whole, Request.written, LineFragments.seen,
    LineFragments.lastName, Function.comp_def]

theorem whole_passes_iff {r : Request} (hr : r.WellFormed) :
    (∀ l ∈ r.whole.lines, l.Passes) ↔ ∀ l ∈ r.written, Fits l := by
  constructor
  · intro h l hl
    rw [← whole_seen] at hl
    obtain ⟨k, hk, rfl⟩ := List.mem_map.mp hl
    exact (h k hk).fits
  · intro h l hl
    have hfit : Fits l.seen := h l.seen (by
      rw [← whole_seen]
      exact List.mem_map_of_mem hl)
    obtain ⟨k, hk, rfl⟩ := List.mem_map.mp hl
    exact ⟨by simpa [LineFragments.lastName] using (hr.names k hk).1, rfl, hfit⟩

/-- Only equal records agree whatever was there before. -/
theorem option_eq_of_getD_eq {x y : Option Bytes} {a b : Bytes} (hab : a ≠ b)
    (ha : x.getD a = y.getD a) (hb : x.getD b = y.getD b) : x = y := by
  cases x with
  | none =>
    cases y with
    | none => rfl
    | some v => exact absurd (ha.trans hb.symm) hab
  | some u =>
    cases y with
    | none => exact absurd (ha.symm.trans hb) hab
    | some v => exact congrArg some ha

theorem dropLast_flatten_eq_nil_iff {frags : List Bytes} (hne : frags ≠ []) :
    frags.dropLast.flatten = [] ↔ frags.getLastD [] = frags.flatten := by
  obtain ⟨fs, g, rfl⟩ : ∃ fs g, frags = fs ++ [g] :=
    ⟨frags.dropLast, frags.getLast hne, (List.dropLast_append_getLast hne).symm⟩
  simp

/-- **Pieces do no harm exactly when the delivery is harmless.**  For every well-formed request,
every list of buffers it arrives in, and every way http_parser may report it, the run over the
buffers gets to `on_parse_complete` with the result of the one-buffer run if and only if the
delivery is `Harmless`. -/
theorem sameAsOneBuffer_iff (r : Request) (hr : r.WellFormed) (bufs : List Bytes) (d : Delivery)
    (hd : Delivers r bufs d) (calls : List (List ParserCallback))
    (hcalls : calls.flatten = d.calls r.method) :
    SameAsOneBuffer r calls ↔ Harmless r d := by
  have hc := hd.clean hr
  have hcut : ∀ junk id, readBuffers (swsReqParserInit junk id) calls =
      swsReqParserExecute (swsReqParserInit junk id) (d.calls r.method) := by
    intro junk id
    rw [readBuffers_flatten, hcalls]
  have hone : ∀ junk id, readBuffers (swsReqParserInit junk id) [r.whole.calls r.method] =
      swsReqParserExecute (swsReqParserInit junk id) (r.whole.calls r.method) := by
    intro junk id
    rw [readBuffers_flatten, List.flatten_cons, List.flatten_nil, List.append_nil]
  have hrun := fun junk id => execute_delivery junk id d r.method hc
  have href := fun junk id => execute_delivery junk id r.whole r.method (whole_clean hr)
  have hwhole : r.whole.url.getLastD [] = r.url := rfl
  have hseen := hc.seen
  have hwritten : ∀ l ∈ r.written, 0 ∉ l.2 := whole_seen r ▸ (whole_clean hr).seen
  constructor
  · intro h
    -- both runs return, whatever the block held
    have hboth : ∀ junk : Garbage, (∀ l ∈ d.lines, l.Passes) ∧ (∀ l ∈ r.whole.lines, l.Passes) ∧
        ParseResult.mk (some (d.url.getLastD [])) (d.seen.foldl putLine junk.headers) =
          ⟨some r.url, r.written.foldl putLine junk.headers⟩ := by
      intro junk
      obtain ⟨a, b, ha, hb, hab⟩ := h junk 0
      rw [hcut] at ha
      rw [hone] at hb
      refine ⟨(hrun junk 0).1.mp ⟨a, ha⟩, (href junk 0).1.mp ⟨b, hb⟩, ?_⟩
      rw [← (hrun junk 0).2 a ha, hab, (href junk 0).2 b hb, hwhole, whole_seen]
    obtain ⟨hp, hw, hres⟩ := hboth zeroed
    refine ⟨?_, fun l hl => (hp l hl).name, fun l hl => (hp l hl).value, ?_, ?_⟩
    · have hlast : d.url.getLastD [] = r.url := Option.some.inj (congrArg ParseResult.url hres)
      rw [dropLast_flatten_eq_nil_iff hc.url, hlast, hd.url.2.1]
    · intro l hl
      rcases List.mem_append.mp hl with hl | hl
      · obtain ⟨k, hk, rfl⟩ := List.mem_map.mp hl
        exact (hp k hk).fits
      · exact (whole_passes_iff hr).mp hw l hl
    · intro name
      -- an unrecorded header keeps what the block held, so compare over all contents
      have hget : ∀ junk : Garbage, (recorded d.seen name).getD (junk.headers.get name) =
          (recorded r.written name).getD (junk.headers.get name) := by
        intro junk
        obtain ⟨-, -, hold⟩ := hboth junk
        have hsame := congrArg (fun p : ParseResult => p.headers.get name) hold
        rwa [get_foldl_putLine _ _ (seen_fits hp) hseen,
          get_foldl_putLine _ _ ((whole_passes_iff hr).mp hw) hwritten] at hsame
      exact option_eq_of_getD_eq (zeroed_ne_usedBlock name) (hget zeroed) (hget usedBlock)
  · intro h junk id
    have hp : ∀ l ∈ d.lines, l.Passes := fun l hl =>
      ⟨h.names l hl, h.values l hl,
        h.fits l.seen (List.mem_append_left _ (List.mem_map_of_mem hl))⟩
    have hw : ∀ l ∈ r.whole.lines, l.Passes :=
      (whole_passes_iff hr).mpr fun l hl => h.fits l (List.mem_append_right _ hl)
    obtain ⟨a, ha⟩ := (hrun junk id).1.mpr hp
    obtain ⟨b, hb⟩ := (href junk id).1.mpr hw
    refine ⟨a, b, (hcut junk id).trans ha, (hone junk id).trans hb, ?_⟩
    rw [(hrun junk id).2 a ha, (href junk id).2 b hb, hwhole, whole_seen]
    have hlast : d.url.getLastD [] = r.url := by
      rw [(dropLast_flatten_eq_nil_iff hc.url).mp h.url, hd.url.2.1]
    have hheaders : d.seen.foldl putLine junk.headers = r.written.foldl putLine junk.headers :=
      HeaderFields.ext_get fun name => by
        rw [get_foldl_putLine _ _ (seen_fits hp) hseen,
          get_foldl_putLine _ _ ((whole_passes_iff hr).mp hw) hwritten, h.headers]
    rw [hlast, hheaders]

/-- `GET /index.html`, with one header line. -/
def indexRequest : Request where
  start := ascii "GET "
  method := HTTP_GET
  url := ascii "/index.html"
  version := ascii " HTTP/1.1\x0d\n"
  lines := [⟨ascii "Host", ascii ": ", ascii "localhost", ascii "\x0d\n"⟩]
  finish := ascii "\x0d\n"

theorem indexRequest_wellFormed : indexRequest.WellFormed := ⟨by decide, by decide, by decide⟩

/-- The first buffer ends inside the URL. -/
def cutUrl : Delivery where
  url := [ascii "/index", ascii ".html"]
  lines := [⟨[ascii "Host"], [ascii "localhost"]⟩]

def cutUrlBuffers : List Bytes :=
  [ascii "GET /index", ascii ".html HTTP/1.1\x0d\nHost: localhost\x0d\n\x0d\n"]

/-- The callbacks http_parser makes for the two buffers. -/
def cutUrlCalls : List (List ParserCallback) :=
  [(cutUrl.calls HTTP_GET).take 2, (cutUrl.calls HTTP_GET).drop 2]

theorem cutUrlCalls_flatten : cutUrlCalls.flatten = cutUrl.calls indexRequest.method := by decide

theorem cutUrl_delivers : Delivers indexRequest cutUrlBuffers cutUrl where
  bytes := by decide
  url := by decide
  lines := ⟨by decide, by decide, trivial⟩

theorem sameAsOneBuffer_iff_cutUrl :
    SameAsOneBuffer indexRequest cutUrlCalls ↔ Harmless indexRequest cutUrl :=
  sameAsOneBuffer_iff indexRequest indexRequest_wellFormed cutUrlBuffers cutUrl cutUrl_delivers
    cutUrlCalls cutUrlCalls_flatten

/-- A URL cut in two leaves its second half. -/
theorem cutUrl_not_same :
    ¬ ∀ (r : Request) (bufs : List Bytes) (d : Delivery) (calls : List (List ParserCallback)),
      r.WellFormed → Delivers r bufs d → calls.flatten = d.calls r.method →
        SameAsOneBuffer r calls := by
  intro h
  have hsame := h indexRequest cutUrlBuffers cutUrl cutUrlCalls
    indexRequest_wellFormed cutUrl_delivers cutUrlCalls_flatten
  obtain ⟨a, b, ha, hb, hab⟩ := hsame zeroed 0
  have hra : (readBuffers (swsReqParserInit zeroed 0)
      cutUrlCalls).toOption.map (fun a => a.req.result.url) =
        some (some (ascii ".html")) := by decide
  have hrb : (readBuffers (swsReqParserInit zeroed 0)
      [indexRequest.whole.calls indexRequest.method]).toOption.map (fun a => a.req.result.url) =
        some (some (ascii "/index.html")) := by decide
  rw [ha] at hra
  rw [hb] at hrb
  simp only [Except.toOption, Option.map_some, Option.some.injEq] at hra hrb
  rw [hab, hrb] at hra
  exact absurd hra (by decide)

end LibuvDox.StaticWebServer
