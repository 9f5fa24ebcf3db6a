import LibuvDox.StaticWebServer.RequestParser

/-!
# What a request block held before

`sws_req_parser_init` sets neither the pointers nor the header arrays of a request, so what the log
line at the end of a message shows, and what is freed at the end of the connection, is what `malloc`
left there wherever no callback has assigned it.

* `SameReads`: two runs that differ in what `malloc` left read the same.
* `Related.step`: a callback keeps two such runs together, on all that it is known to have assigned.
* `sameReads_iff`: they read the same exactly if everything was assigned in time.
-/

namespace LibuvDox.StaticWebServer

/-- What the end of a message reads: the fields that `sws_req_parser_result_str` formats; and what
the end of a connection reads: the pointers that `sws_cleanup_parse_req` frees. -/
inductive Observed where
  | result (url : CharPtr) (headers : HeaderFields) (method : HttpMethod)
  | freed (url field value : CharPtr)
  deriving DecidableEq, Repr

def reported (st : ParserState) : ParserCallback → List Observed
  | .messageComplete _ => [.result st.req.url st.req.headers st.req.method]
  | _ => []

/-- All that is read in a run of callbacks that goes on until it stops the process; `resEnd` says
whether `on_res_end` is called at its end. -/
def observe (resEnd : Bool) : ParserState → List ParserCallback → List Observed
  | st, [] =>
    if resEnd then [.freed st.req.url st.req.headerLine.field st.req.headerLine.value] else []
  | st, c :: cs =>
    match onCallback st c with
    | .error _ => []
    | .ok st => reported st c ++ observe resEnd st cs

/-- Whatever was in the block of the request before, the same is read. -/
def SameReads (resEnd : Bool) (calls : List ParserCallback) : Prop :=
  ∀ junk junk' id, observe resEnd (swsReqParserInit junk id) calls
    = observe resEnd (swsReqParserInit junk' id) calls

/-- What has been assigned: the URL, the field of the header line (with what it was assigned last,
empty when it was cleared), its value, and header arrays. -/
structure Known where
  url : Bool
  field : Option Bytes
  value : Bool
  headers : List HeaderName
  deriving DecidableEq, Repr

def Known.nothing : Known := ⟨false, none, false, []⟩

/-- The text of a slice that `strslice` copies. -/
def sliceText (s : Bytes) : Bytes := s.takeWhile (· ≠ 0)

/-- What a callback assigns, unless it stops the process: a header value needs a header field that
is not empty, and has to fit if the header is one of the five. -/
def Known.step (k : Known) : ParserCallback → Option Known
  | .messageBegin => some k
  | .url _ => some { k with url := true }
  | .headerField hdr => some { k with field := some hdr }
  | .headerValue v =>
    match k.field with
    | none => none
    | some [] => none
    | some (b :: bs) =>
      match headerOf (strtolower (sliceText (b :: bs))) with
      | none => some { k with field := some [], value := true }
      | some name =>
        if (sliceText v).length < MAX_HEADER_VALUE then
          some { k with field := some [], value := true, headers := name :: k.headers }
        else none
  | .headersComplete => some k
  | .messageComplete _ => some k

/-- What the end of a message needs: the URL and all five headers. -/
def Known.Reports (k : Known) : ParserCallback → Prop
  | .messageComplete _ => k.url = true ∧ ∀ name, name ∈ k.headers
  | _ => True

/-- Everything is assigned in time: the URL and the five headers at the end of each message; the
URL, a header field and a header value at the end of the connection. -/
def Initialised (resEnd : Bool) : Known → List ParserCallback → Prop
  | k, [] => resEnd = true → k.url = true ∧ k.field.isSome = true ∧ k.value = true
  | k, c :: cs =>
    match k.step c with
    | none => True
    | some k => k.Reports c ∧ Initialised resEnd k cs

/-! ### Two runs -/

/-- Two runs that agree on what is known to be assigned. -/
structure Related (k : Known) (a b : ParserState) : Prop where
  strings : a.strings = b.strings
  sane : ∀ i ∈ a.strings.freed, i < a.strings.next
  url : k.url = true → a.req.url = b.req.url
  unassigned : k.field = none →
    (∃ x, a.req.headerLine.field = .wild x) ∧ ∃ y, b.req.headerLine.field = .wild y
  assigned : ∀ f, k.field = some f → a.req.headerLine.field = b.req.headerLine.field ∧
    a.req.headerLine.fieldLen = f.length ∧ b.req.headerLine.fieldLen = f.length ∧
    (f ≠ [] → ∃ i, a.req.headerLine.field = .block i (sliceText f) ∧ i < a.strings.next ∧
      i ∉ a.strings.freed)
  value : k.value = true → a.req.headerLine.value = b.req.headerLine.value
  headers : ∀ name ∈ k.headers, a.req.headers.get name = b.req.headers.get name

/-- Two runs that agree on nothing else. -/
structure Apart (k : Known) (a b : ParserState) : Prop where
  url : a.req.url = b.req.url → k.url = true
  field : a.req.headerLine.field = b.req.headerLine.field → k.field.isSome = true
  value : a.req.headerLine.value = b.req.headerLine.value → k.value = true
  headers : ∀ name, a.req.headers.get name = b.req.headers.get name → name ∈ k.headers

section

variable {k k' : Known} {a b : ParserState}

theorem init_related (junk junk' : Garbage) (id : ℕ) :
    Related .nothing (swsReqParserInit junk id) (swsReqParserInit junk' id) where
  strings := rfl
  sane := nofun
  url := nofun
  unassigned _ := ⟨⟨_, rfl⟩, ⟨_, rfl⟩⟩
  assigned := nofun
  value := nofun
  headers := nofun

/-- A header value is not accepted before a header field was. -/
theorem onHeaderValue_wild {x : ℕ} (h : a.req.headerLine.field = .wild x) (v : Bytes) :
    ∃ e, onHeaderValue a v = .error e := by
  by_cases hlen : 0 < a.req.headerLine.fieldLen
  · unfold onHeaderValue
    by_cases hnull : a.req.headerLine.field.isNull = false
    · refine ⟨.undefined "strdup of a string that is not there", ?_⟩
      have hassert : cAssert (a.req.headerLine.field.isNull = false) "req->header_line.field"
          = .ok () := if_pos hnull
      rw [hassert]
      simp [cAssert, hlen, h, processHeaderLine, CharPtr.text?, deref, bind, Except.bind]
    · exact ⟨.assertFailed "req->header_line.field",
        by simp [cAssert, hlen, hnull, bind, Except.bind]⟩
  · exact ⟨_, onHeaderValue_noField (Nat.eq_zero_of_not_pos hlen) v⟩

/-- How a callback takes two runs on: both stop, or both go on, agree on what is known then, and
report the same exactly if what they report is known. -/
def Takes (k : Known) (a b : ParserState) (c : ParserCallback) : Prop :=
  match k.step c with
  | none => (∃ e, onCallback a c = .error e) ∧ ∃ e, onCallback b c = .error e
  | some k' => ∃ a' b', onCallback a c = .ok a' ∧ onCallback b c = .ok b' ∧ Related k' a' b' ∧
      (k'.Reports c → reported a' c = reported b' c) ∧
      (Apart k a b → Apart k' a' b' ∧ (reported a' c = reported b' c → k'.Reports c))

theorem Related.url_step (h : Related k a b) (hdr : Bytes) : Takes k a b (.url hdr) := by
  refine ⟨onUrl a hdr, onUrl b hdr, rfl, rfl, ⟨?_, ?_, ?_, h.unassigned, ?_, h.value,
    h.headers⟩, fun _ => rfl, fun hapart => ⟨⟨fun _ => rfl, hapart.field, hapart.value,
    hapart.headers⟩, fun _ => trivial⟩⟩
  · show (strslice a.strings hdr).1 = (strslice b.strings hdr).1
    rw [h.strings]
  · intro i hi
    exact Nat.lt_succ_of_lt (h.sane i hi)
  · intro _
    show (strslice a.strings hdr).2 = (strslice b.strings hdr).2
    rw [h.strings]
  · intro f hf
    obtain ⟨hsame, hlen, hlen', hblock⟩ := h.assigned f hf
    refine ⟨hsame, hlen, hlen', fun hne => ?_⟩
    obtain ⟨i, hi, hlt, hfreed⟩ := hblock hne
    exact ⟨i, hi, Nat.lt_succ_of_lt hlt, hfreed⟩

theorem Related.headerField_step (h : Related k a b) (hdr : Bytes) :
    Takes k a b (.headerField hdr) := by
  refine ⟨onHeaderField a hdr, onHeaderField b hdr, rfl, rfl,
    ⟨?_, ?_, h.url, nofun, ?_, h.value, h.headers⟩, fun _ => rfl,
    fun hapart => ⟨⟨hapart.url, fun _ => rfl, hapart.value, hapart.headers⟩, fun _ => trivial⟩⟩
  · show (strslice a.strings hdr).1 = (strslice b.strings hdr).1
    rw [h.strings]
  · intro i hi
    exact Nat.lt_succ_of_lt (h.sane i hi)
  · intro f hf
    obtain rfl : hdr = f := Option.some.inj hf
    refine ⟨?_, rfl, rfl, fun _ => ⟨a.strings.next, rfl, Nat.lt_succ_self _, fun hmem => ?_⟩⟩
    · show (strslice a.strings hdr).2 = (strslice b.strings hdr).2
      rw [h.strings]
    · exact absurd (h.sane _ hmem) (lt_irrefl _)

/-- What a header value leaves of two runs, `headers` being their header arrays. -/
theorem Related.cleared {names : List HeaderName} {i : ℕ} {fa fb : HeaderFields} {v : Bytes}
    (h : Related k a b) (hi : i < a.strings.next)
    (hheaders : ∀ name ∈ names, fa.get name = fb.get name) :
    Related { k with field := some [], value := true, headers := names }
      ⟨{ a.req with
          headers := fa
          headerLine := ⟨.null, 0, .block a.strings.next (v.takeWhile (· ≠ 0)), v.length⟩ },
        ⟨a.strings.next + 1, i :: a.strings.freed⟩⟩
      ⟨{ b.req with
          headers := fb
          headerLine := ⟨.null, 0, .block b.strings.next (v.takeWhile (· ≠ 0)), v.length⟩ },
        ⟨b.strings.next + 1, i :: b.strings.freed⟩⟩ where
  strings := by rw [h.strings]
  sane j hj := by
    show j < a.strings.next + 1
    rcases List.mem_cons.mp hj with rfl | hj
    · omega
    · have hlt := h.sane j hj
      omega
  url := h.url
  unassigned := nofun
  assigned f hf := by
    obtain rfl : [] = f := Option.some.inj hf
    exact ⟨rfl, rfl, rfl, fun hne => absurd rfl hne⟩
  value _ := by
    show CharPtr.block a.strings.next _ = CharPtr.block b.strings.next _
    rw [h.strings]
  headers := hheaders

theorem Related.headerValue_step (h : Related k a b) (v : Bytes) :
    Takes k a b (.headerValue v) := by
  unfold Takes
  cases hfield : k.field with
  | none =>
    obtain ⟨⟨x, hx⟩, y, hy⟩ := h.unassigned hfield
    have hstep : k.step (.headerValue v) = none := by simp [Known.step, hfield]
    rw [hstep]
    exact ⟨onHeaderValue_wild hx v, onHeaderValue_wild hy v⟩
  | some f =>
    obtain ⟨hsame, hlen, hlen', hblock⟩ := h.assigned f hfield
    cases f with
    | nil =>
      have hstep : k.step (.headerValue v) = none := by simp [Known.step, hfield]
      rw [hstep]
      exact ⟨⟨_, onHeaderValue_noField hlen v⟩, _, onHeaderValue_noField hlen' v⟩
    | cons c cs =>
      obtain ⟨i, hi, hlt, hfreed⟩ := hblock (List.cons_ne_nil c cs)
      have hpos : 0 < (c :: cs).length := Nat.succ_pos _
      have ha := onHeaderValue_block a v _ i hi (by rw [hlen]; exact hpos) hfreed
      have hb := onHeaderValue_block b v _ i (hsame ▸ hi) (by rw [hlen']; exact hpos)
        (h.strings ▸ hfreed)
      cases hname : headerOf (strtolower (sliceText (c :: cs))) with
      | none =>
        have hstep : k.step (.headerValue v) = some { k with field := some [], value := true } := by
          simp [Known.step, hfield, hname]
        rw [hname] at ha hb
        rw [hstep]
        exact ⟨_, _, ha, hb, h.cleared hlt h.headers, fun _ => rfl, fun hapart =>
          ⟨⟨hapart.url, fun _ => rfl, fun _ => rfl, hapart.headers⟩, fun _ => trivial⟩⟩
      | some name =>
        rw [hname] at ha hb
        dsimp only at ha hb
        by_cases hfit : (sliceText v).length < MAX_HEADER_VALUE
        · have hstep : k.step (.headerValue v) = some { k with
              field := some [], value := true, headers := name :: k.headers } := by
            simp [Known.step, hfield, hname, hfit]
          have hcopy : ∀ f, copyHeader f name (v.takeWhile (· ≠ 0)) =
              .ok (f.set name (sliceText v)) := fun f => if_pos hfit
          rw [hcopy] at ha hb
          rw [hstep]
          refine ⟨_, _, ha, hb, h.cleared hlt ?_, fun _ => rfl, fun hapart =>
            ⟨⟨hapart.url, fun _ => rfl, fun _ => rfl, ?_⟩, fun _ => trivial⟩⟩
          · intro name' hmem
            rw [HeaderFields.get_set, HeaderFields.get_set]
            split
            · rfl
            · rename_i hne
              exact h.headers name' ((List.mem_cons.mp hmem).resolve_left hne)
          · intro name' heq
            by_cases hne : name' = name
            · exact List.mem_cons.mpr (.inl hne)
            · have heq' : (a.req.headers.set name (sliceText v)).get name'
                  = (b.req.headers.set name (sliceText v)).get name' := heq
              rw [HeaderFields.get_set, HeaderFields.get_set, if_neg hne, if_neg hne] at heq'
              exact List.mem_cons.mpr (.inr (hapart.headers name' heq'))
        · have hstep : k.step (.headerValue v) = none := by
            simp [Known.step, hfield, hname, hfit]
          have hcopy : ∀ f, copyHeader f name (v.takeWhile (· ≠ 0))
              = .error (.undefined "strcpy past the end of a header array") := fun f => if_neg hfit
          rw [hcopy] at ha hb
          rw [hstep]
          exact ⟨⟨_, ha⟩, ⟨_, hb⟩⟩

theorem Related.messageComplete_step (h : Related k a b) (method : HttpMethod) :
    Takes k a b (.messageComplete method) := by
  refine ⟨_, _, rfl, rfl, ⟨h.strings, h.sane, h.url, h.unassigned, h.assigned, h.value,
    h.headers⟩, fun hall => ?_, fun hapart => ⟨⟨hapart.url, hapart.field, hapart.value,
    hapart.headers⟩, fun hsame => ?_⟩⟩
  · have hurl := h.url hall.1
    have hheaders : a.req.headers = b.req.headers :=
      HeaderFields.ext_get fun name => h.headers name (hall.2 name)
    show [Observed.result a.req.url a.req.headers method] = [.result b.req.url b.req.headers method]
    rw [hurl, hheaders]
  · have hsame' : Observed.result a.req.url a.req.headers method
        = .result b.req.url b.req.headers method := List.head_eq_of_cons_eq hsame
    injection hsame' with hurl hheaders
    refine ⟨hapart.url hurl, fun name => hapart.headers name ?_⟩
    rw [hheaders]

/-- **One callback.** -/
theorem Related.step (h : Related k a b) (c : ParserCallback) : Takes k a b c := by
  cases c with
  | messageBegin =>
    exact ⟨a, b, rfl, rfl, h, fun _ => rfl, fun hapart => ⟨hapart, fun _ => trivial⟩⟩
  | url hdr => exact h.url_step hdr
  | headerField hdr => exact h.headerField_step hdr
  | headerValue v => exact h.headerValue_step v
  | headersComplete =>
    exact ⟨a, b, rfl, rfl, h, fun _ => rfl, fun hapart => ⟨hapart, fun _ => trivial⟩⟩
  | messageComplete method => exact h.messageComplete_step method

/-- **What is known is read the same, and nothing else is.** -/
theorem Related.observe_eq (resEnd : Bool) (calls : List ParserCallback) (h : Related k a b)
    (hinit : Initialised resEnd k calls) : observe resEnd a calls = observe resEnd b calls := by
  induction calls generalizing k a b with
  | nil =>
    unfold observe
    cases resEnd with
    | false => rfl
    | true =>
      obtain ⟨hurl, hfield, hvalue⟩ := hinit rfl
      obtain ⟨f, hf⟩ := Option.isSome_iff_exists.mp hfield
      simp [h.url hurl, (h.assigned f hf).1, h.value hvalue]
  | cons c cs ih =>
    have hstep := h.step c
    unfold Takes at hstep
    unfold Initialised at hinit
    unfold observe
    cases hk : k.step c with
    | none =>
      rw [hk] at hstep
      obtain ⟨⟨e, he⟩, e', he'⟩ := hstep
      rw [he, he']
    | some k' =>
      rw [hk] at hstep hinit
      obtain ⟨a', b', ha, hb, hrel, hreport, -⟩ := hstep
      rw [ha, hb]
      show reported a' c ++ observe resEnd a' cs = reported b' c ++ observe resEnd b' cs
      rw [hreport hinit.1, ih hrel hinit.2]

theorem reported_length (a b : ParserState) (c : ParserCallback) :
    (reported a c).length = (reported b c).length := by
  cases c <;> rfl

theorem Related.initialised (resEnd : Bool) (calls : List ParserCallback) (h : Related k a b)
    (hapart : Apart k a b) (hsame : observe resEnd a calls = observe resEnd b calls) :
    Initialised resEnd k calls := by
  induction calls generalizing k a b with
  | nil =>
    intro hend
    subst hend
    have hfreed : [Observed.freed a.req.url a.req.headerLine.field a.req.headerLine.value]
        = [.freed b.req.url b.req.headerLine.field b.req.headerLine.value] := hsame
    injection List.head_eq_of_cons_eq hfreed with hurl hfield hvalue
    exact ⟨hapart.url hurl, hapart.field hfield, hapart.value hvalue⟩
  | cons c cs ih =>
    have hstep := h.step c
    unfold Takes at hstep
    unfold observe at hsame
    unfold Initialised
    cases hk : k.step c with
    | none => trivial
    | some k' =>
      rw [hk] at hstep
      obtain ⟨a', b', ha, hb, hrel, -, happly⟩ := hstep
      obtain ⟨hapart', hreport⟩ := happly hapart
      rw [ha, hb] at hsame
      obtain ⟨hnow, hlater⟩ := List.append_inj hsame (reported_length a' b' c)
      exact ⟨hreport hnow, ih hrel hapart' hlater⟩

end

/-- Two blocks that have nothing in common. -/
theorem init_apart (id : ℕ) :
    Apart .nothing (swsReqParserInit zeroed id) (swsReqParserInit usedBlock id) where
  url h := absurd h (by simp [swsReqParserInit, zeroed, usedBlock])
  field h := absurd h (by simp [swsReqParserInit, zeroed, usedBlock])
  value h := absurd h (by simp [swsReqParserInit, zeroed, usedBlock])
  headers name h := absurd h (zeroed_ne_usedBlock name)

/-- **Stale memory.**  What is read at the end of each message, and freed at the end of the
connection, does not depend on what the block of the request held before, exactly if all of it was
assigned in time. -/
theorem sameReads_iff (resEnd : Bool) (calls : List ParserCallback) :
    SameReads resEnd calls ↔ Initialised resEnd .nothing calls := by
  constructor
  · intro hsame
    exact (init_related zeroed usedBlock 0).initialised resEnd calls (init_apart 0)
      (hsame zeroed usedBlock 0)
  · intro hinit junk junk' id
    exact (init_related junk junk' id).observe_eq resEnd calls hinit

/-- A request that has a Host header only: four other arrays are logged as they were found.  And a
connection whose first byte is no HTTP: three pointers that were never assigned are freed. -/
theorem stale_memory_is_read :
    ¬ SameReads false [.messageBegin, .url [47], .headerField (ascii "Host"), .headerValue [120],
      .headersComplete, .messageComplete HTTP_GET] ∧ ¬ SameReads true [] := by
  constructor
  · intro h
    exact absurd (h zeroed usedBlock 0) (by decide +kernel)
  · intro h
    exact absurd (h zeroed usedBlock 0) (by decide +kernel)

end LibuvDox.StaticWebServer
