import LibuvDox.Uv
import Mathlib.Data.List.TakeWhile

/-!
# request-parser.c

The server hands every buffer it reads to http_parser, which calls back for the URL, the header
fields and the header values of the request.  The callbacks store what they are given in a
`sws_parse_req_t`: the URL and the current header line as freshly allocated strings, and the
values of five headers in arrays of `MAX_HEADER_VALUE` bytes.

The request block comes from `malloc`, and `sws_req_parser_init` sets only a part of it.  A
pointer that was not assigned yet is `wild`, and the header arrays start out with whatever the block
held.  The five arrays and `method` lie one behind the other, so `%s` does not stop at the end of an
array that holds no NUL.
-/

namespace LibuvDox.StaticWebServer

def MAX_HEADER_VALUE : ℕ := 500

/-- A `char *`: never assigned, `NULL`, or a string that `strslice` allocated. -/
inductive CharPtr where
  | wild (bits : ℕ)
  | null
  | block (id : ℕ) (text : Bytes)
  deriving DecidableEq, Repr

/-- The string behind a pointer. -/
def CharPtr.text? : CharPtr → Option Bytes
  | .block _ text => some text
  | _ => none

/-- `if (p)`. -/
def CharPtr.isNull : CharPtr → Bool
  | .wild bits => bits == 0
  | .null => true
  | .block _ _ => false

/-- The strings `strslice` has allocated for one request, by number, and those freed again. -/
structure StringHeap where
  next : ℕ
  freed : List ℕ
  deriving DecidableEq, Repr

/-- `free(p)`, which does nothing to `NULL`. -/
def StringHeap.free (h : StringHeap) : CharPtr → Except Stop StringHeap
  | .wild bits =>
    if bits = 0 then .ok h else .error (.undefined "free of an uninitialised pointer")
  | .null => .ok h
  | .block id _ =>
    if id ∈ h.freed then .error (.undefined "double free")
    else .ok { h with freed := id :: h.freed }

/-- `strslice`: copies up to the first NUL of the slice and terminates. -/
def strslice (h : StringHeap) (s : Bytes) : StringHeap × CharPtr :=
  ({ h with next := h.next + 1 }, .block h.next (s.takeWhile (· ≠ 0)))

structure SwsHeaderLine where
  field : CharPtr
  fieldLen : ℕ
  value : CharPtr
  valueLen : ℕ
  deriving DecidableEq, Repr

/-- The headers whose values are kept. -/
inductive HeaderName where
  | userAgent
  | host
  | accept
  | acceptEncoding
  | acceptLanguage
  deriving DecidableEq, Repr

/-- The arrays from that of a header on, in the order of `SWS_PARSE_RESULT_FIELDS`. -/
def HeaderName.onward : HeaderName → List HeaderName
  | .userAgent => [.userAgent, .host, .accept, .acceptEncoding, .acceptLanguage]
  | .host => [.host, .accept, .acceptEncoding, .acceptLanguage]
  | .accept => [.accept, .acceptEncoding, .acceptLanguage]
  | .acceptEncoding => [.acceptEncoding, .acceptLanguage]
  | .acceptLanguage => [.acceptLanguage]

/-- A text without a NUL is copied as it is. -/
theorem takeWhile_clean {s : Bytes} (h : 0 ∉ s) : s.takeWhile (· ≠ 0) = s := by
  rw [List.takeWhile_eq_self_iff]
  intro c hc
  simp only [decide_eq_true_eq]
  rintro rfl
  exact h hc

/-- A `char[MAX_HEADER_VALUE]`, by the bytes before its first NUL.  If there are `MAX_HEADER_VALUE`
of them, the array holds no NUL. -/
@[ext] structure HeaderArray where
  text : Bytes
  noNul : 0 ∉ text
  fits : text.length ≤ MAX_HEADER_VALUE
  deriving DecidableEq, Repr

/-- An array that bytes were written to from its beginning, up to a NUL or to its end. -/
def HeaderArray.ofBytes (value : Bytes) : HeaderArray where
  text := (value.takeWhile (· ≠ 0)).take MAX_HEADER_VALUE
  noNul h := by simpa using List.mem_takeWhile_imp (List.mem_of_mem_take h)
  fits := List.length_take_le _ _

theorem HeaderArray.ofBytes_text {value : Bytes} (hnul : 0 ∉ value)
    (hfits : value.length ≤ MAX_HEADER_VALUE) : (ofBytes value).text = value := by
  show (value.takeWhile (· ≠ 0)).take MAX_HEADER_VALUE = value
  rw [takeWhile_clean hnul, List.take_of_length_le hfits]

/-- The five header arrays. -/
structure HeaderFields where
  userAgent : HeaderArray
  host : HeaderArray
  accept : HeaderArray
  acceptEncoding : HeaderArray
  acceptLanguage : HeaderArray
  deriving DecidableEq, Repr

/-- Every array begins with the same text. -/
def HeaderFields.all (text : Bytes) : HeaderFields :=
  ⟨.ofBytes text, .ofBytes text, .ofBytes text, .ofBytes text, .ofBytes text⟩

/-- The text of an array, without what lies behind it. -/
def HeaderFields.get (f : HeaderFields) : HeaderName → Bytes
  | .userAgent => f.userAgent.text
  | .host => f.host.text
  | .accept => f.accept.text
  | .acceptEncoding => f.acceptEncoding.text
  | .acceptLanguage => f.acceptLanguage.text

def HeaderFields.set (f : HeaderFields) (name : HeaderName) (value : Bytes) : HeaderFields :=
  match name with
  | .userAgent => { f with userAgent := .ofBytes value }
  | .host => { f with host := .ofBytes value }
  | .accept => { f with accept := .ofBytes value }
  | .acceptEncoding => { f with acceptEncoding := .ofBytes value }
  | .acceptLanguage => { f with acceptLanguage := .ofBytes value }

theorem HeaderFields.get_set (f : HeaderFields) (name name' : HeaderName) (v : Bytes) :
    (f.set name v).get name' = if name' = name then (HeaderArray.ofBytes v).text
      else f.get name' := by
  cases name <;> cases name' <;> rfl

theorem HeaderFields.ext_get {f g : HeaderFields} (h : ∀ name, f.get name = g.get name) :
    f = g := by
  obtain ⟨a, b, c, d, e⟩ := f
  obtain ⟨a', b', c', d', e'⟩ := g
  have h1 : a = a' := HeaderArray.ext (h .userAgent)
  have h2 : b = b' := HeaderArray.ext (h .host)
  have h3 : c = c' := HeaderArray.ext (h .accept)
  have h4 : d = d' := HeaderArray.ext (h .acceptEncoding)
  have h5 : e = e' := HeaderArray.ext (h .acceptLanguage)
  rw [h1, h2, h3, h4, h5]

/-- What `%s` reads from an array whose text is given, with other memory behind it. -/
def runOn (text behind : Bytes) : Bytes :=
  if text.length < MAX_HEADER_VALUE then text else text ++ behind

/-- What `%s` reads from the array of a header, with `behind` after the last array. -/
def shown (header : HeaderName → Bytes) (behind : Bytes) (name : HeaderName) : Bytes :=
  (name.onward.map header).foldr runOn behind

/-- A method: its number, and the name that `http_method_str` has for it. -/
structure HttpMethod where
  number : UInt8
  name : Bytes
  deriving DecidableEq, Repr

def HTTP_GET : HttpMethod := ⟨1, ascii "GET"⟩

/-- The bytes of an `enum http_method` before its first NUL: its number is less than 256, and the
lowest byte comes first. -/
def HttpMethod.bytes (m : HttpMethod) : Bytes := if m.number = 0 then [] else [m.number]

/-- `sws_parse_req_t`, without the parser and the callback, which never change. -/
structure SwsParseReq where
  url : CharPtr
  headers : HeaderFields
  method : HttpMethod
  headerLine : SwsHeaderLine
  id : ℕ
  data : Option ℕ
  deriving DecidableEq, Repr

/-- A request under way: its block, and the strings allocated for it. -/
structure ParserState where
  req : SwsParseReq
  strings : StringHeap
  deriving DecidableEq, Repr

/-- What `malloc` left in the block of a new request. -/
structure Garbage where
  url : ℕ
  field : ℕ
  fieldLen : ℕ
  value : ℕ
  valueLen : ℕ
  headers : HeaderFields
  method : HttpMethod
  deriving DecidableEq, Repr

/-- A block of zeroes. -/
def zeroed : Garbage := ⟨0, 0, 0, 0, 0, .all [], ⟨0, []⟩⟩

/-- A block that was in use: none of its pointers is `NULL`. -/
def usedBlock : Garbage := ⟨7, 7, 7, 7, 7, .all [7], ⟨7, [7]⟩⟩

/-- The two blocks differ in every array. -/
theorem zeroed_ne_usedBlock (name : HeaderName) :
    zeroed.headers.get name ≠ usedBlock.headers.get name := by
  cases name <;> decide

/-- `sws_req_parser_init`: of the fields kept here only the id is set. -/
def swsReqParserInit (junk : Garbage) (id : ℕ) : ParserState where
  req :=
    { url := .wild junk.url
      headers := junk.headers
      method := junk.method
      headerLine := ⟨.wild junk.field, junk.fieldLen, .wild junk.value, junk.valueLen⟩
      id := id
      data := none }
  strings := ⟨0, []⟩

def onUrl (st : ParserState) (hdr : Bytes) : ParserState :=
  let s := strslice st.strings hdr
  ⟨{ st.req with url := s.2 }, s.1⟩

def onHeaderField (st : ParserState) (hdr : Bytes) : ParserState :=
  let s := strslice st.strings hdr
  ⟨{ st.req with headerLine := { st.req.headerLine with field := s.2, fieldLen := hdr.length } },
    s.1⟩

/-- `tolower` in the C locale. -/
def toLower (c : UInt8) : UInt8 := if 65 ≤ c ∧ c ≤ 90 then c + 32 else c

def strtolower (s : Bytes) : Bytes := s.map toLower

/-- The `strcmp` chain of `process_header_line`. -/
def headerOf (key : Bytes) : Option HeaderName :=
  if key = ascii "user-agent" then some .userAgent
  else if key = ascii "host" then some .host
  else if key = ascii "accept" then some .accept
  else if key = ascii "accept-encoding" then some .acceptEncoding
  else if key = ascii "accept-language" then some .acceptLanguage
  else none

/-- `strcpy` into one of the header arrays, which has room for the text and its NUL or is
overrun. -/
def copyHeader (f : HeaderFields) (name : HeaderName) (value : Bytes) :
    Except Stop HeaderFields :=
  if value.length < MAX_HEADER_VALUE then .ok (f.set name value)
  else .error (.undefined "strcpy past the end of a header array")

def processHeaderLine (req : SwsParseReq) : Except Stop SwsParseReq := do
  let field ← deref req.headerLine.field.text? "strdup of a string that is not there"
  match headerOf (strtolower field) with
  | some name =>
    let value ← deref req.headerLine.value.text? "strcpy of a string that is not there"
    let headers ← copyHeader req.headers name value
    .ok { req with headers := headers }
  | none => .ok req

/-- Only the headers change. -/
theorem processHeaderLine_ok {req req' : SwsParseReq} (hok : processHeaderLine req = .ok req') :
    ∃ headers, req' = { req with headers := headers } := by
  obtain ⟨field, -, hok⟩ := bind_ok_iff.mp hok
  split at hok
  · obtain ⟨value, -, hok⟩ := bind_ok_iff.mp hok
    obtain ⟨headers, -, hreq⟩ := bind_ok_iff.mp hok
    cases hreq
    exact ⟨headers, rfl⟩
  · cases hok
    exact ⟨req.headers, rfl⟩

def onHeaderValue (st : ParserState) (hdr : Bytes) : Except Stop ParserState := do
  cAssert (0 < st.req.headerLine.fieldLen) "req->header_line.field_len > 0"
  cAssert (st.req.headerLine.field.isNull = false) "req->header_line.field"
  let s := strslice st.strings hdr
  let line := { st.req.headerLine with value := s.2, valueLen := hdr.length }
  let req ← processHeaderLine { st.req with headerLine := line }
  let strings ← s.1.free req.headerLine.field
  .ok ⟨{ req with headerLine := { req.headerLine with field := .null, fieldLen := 0 } }, strings⟩

/-- A value that is stored leaves no field behind, and neither the back pointer nor the URL
changes. -/
theorem onHeaderValue_same {st a : ParserState} {v : Bytes} (hok : onHeaderValue st v = .ok a) :
    a.req.data = st.req.data ∧ a.req.url = st.req.url ∧ a.req.headerLine.fieldLen = 0 := by
  obtain ⟨_, -, hok⟩ := bind_ok_iff.mp hok
  obtain ⟨_, -, hok⟩ := bind_ok_iff.mp hok
  obtain ⟨req, hreq, hok⟩ := bind_ok_iff.mp hok
  obtain ⟨strings, -, ha⟩ := bind_ok_iff.mp hok
  obtain ⟨headers, rfl⟩ := processHeaderLine_ok hreq
  cases ha
  exact ⟨rfl, rfl, rfl⟩

/-- A value without a field: the first assertion fails. -/
theorem onHeaderValue_noField {st : ParserState} (hlen : st.req.headerLine.fieldLen = 0)
    (v : Bytes) :
    onHeaderValue st v = .error (.assertFailed "req->header_line.field_len > 0") := by
  simp [onHeaderValue, cAssert, hlen, bind, Except.bind]

/-- A header value after its field: what is stored, or why the process stops. -/
theorem onHeaderValue_block (st : ParserState) (v f : Bytes) (i : ℕ)
    (hf : st.req.headerLine.field = .block i f) (hlen : 0 < st.req.headerLine.fieldLen)
    (hi : i ∉ st.strings.freed) :
    onHeaderValue st v =
      match headerOf (strtolower f) with
      | some name => (copyHeader st.req.headers name (v.takeWhile (· ≠ 0))).map fun headers =>
          ⟨{ st.req with
              headers := headers
              headerLine := ⟨.null, 0, .block st.strings.next (v.takeWhile (· ≠ 0)), v.length⟩ },
            ⟨st.strings.next + 1, i :: st.strings.freed⟩⟩
      | none => .ok
          ⟨{ st.req with
              headerLine := ⟨.null, 0, .block st.strings.next (v.takeWhile (· ≠ 0)), v.length⟩ },
            ⟨st.strings.next + 1, i :: st.strings.freed⟩⟩ := by
  simp only [onHeaderValue, cAssert, hlen, hf, CharPtr.isNull, strslice, processHeaderLine,
    CharPtr.text?, deref, bind, Except.bind, if_true]
  cases headerOf (strtolower f) with
  | none => simp [StringHeap.free, hi]
  | some name =>
    dsimp only
    generalize copyHeader st.req.headers name (v.takeWhile (· ≠ 0)) = copied
    cases copied with
    | error e => rfl
    | ok headers => simp [StringHeap.free, hi, Except.map]

/-- What http_parser calls back for.  `messageComplete` carries the method of the message. -/
inductive ParserCallback where
  | messageBegin
  | url (hdr : Bytes)
  | headerField (hdr : Bytes)
  | headerValue (hdr : Bytes)
  | headersComplete
  | messageComplete (method : HttpMethod)
  deriving DecidableEq, Repr

/-- `on_message_begin` and `on_headers_complete` only log. `on_message_complete` sets the method
before it hands the request on. -/
def onCallback (st : ParserState) : ParserCallback → Except Stop ParserState
  | .messageBegin => .ok st
  | .url hdr => .ok (onUrl st hdr)
  | .headerField hdr => .ok (onHeaderField st hdr)
  | .headerValue hdr => onHeaderValue st hdr
  | .headersComplete => .ok st
  | .messageComplete method => .ok ⟨{ st.req with method := method }, st.strings⟩

/-- `sws_req_parser_execute`, by the callbacks http_parser makes for the buffer. -/
def swsReqParserExecute (st : ParserState) (calls : List ParserCallback) :
    Except Stop ParserState := calls.foldlM onCallback st

/-- `sws_cleanup_parse_req`. -/
def swsCleanupParseReq (st : ParserState) : Except Stop StringHeap := do
  let h ← st.strings.free st.req.url
  let h ← h.free st.req.headerLine.field
  h.free st.req.headerLine.value

/-- The text `sws_req_parser_result_str` formats. -/
def resultText (r : SwsParseReq) (url : Bytes) : Bytes :=
  let header := shown r.headers.get r.method.bytes
  ascii "\x1b[1;33m" ++ r.method.name ++ ascii " " ++ url
    ++ ascii "\x1b[0m\n\x1b[90m  User-Agent: " ++ header .userAgent
    ++ ascii "\n  Host: \x27" ++ header .host
    ++ ascii "\x27\n  Accept: \x27" ++ header .accept
    ++ ascii "\x27\n  Accept-Encoding: \x27" ++ header .acceptEncoding
    ++ ascii "\x27\n  Accept-Language: \x27" ++ header .acceptLanguage
    ++ ascii "\x27\x1b[39m"

/-- What is left of the allocation of `sws_req_parser_result_str` behind the pointer it formats
to: the 10 and the 150 are added to the pointer, not to the size. -/
def resultRoom : ℕ := MAX_HEADER_VALUE * 6 - (10 + 150)

def swsReqParserResultStr (r : SwsParseReq) : Except Stop Bytes := do
  let url ← deref r.url.text? "the url is not a string"
  if (resultText r url).length < resultRoom then .ok (resultText r url)
  else .error (.undefined "sprintf past the end of the result string")

end LibuvDox.StaticWebServer
