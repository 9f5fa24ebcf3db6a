import LibuvDox.Lib.Ownership
import LibuvDox.StaticWebServer.RequestParser

/-!
# Who frees the strings of a request

`on_url`, `on_header_field` and `on_header_value` keep every string that `strslice` allocates in a
pointer of the request.  `on_header_value` frees the field it belongs to; the URL and the value are
freed by `sws_cleanup_parse_req` only, and whatever the next callback overwrites before that is
lost.

* `owned_of_execute`: no string is freed twice, and no two pointers share one.
* `Tracks.step`: which pointers are assigned after each callback, and whether a string was lost.
* `freedOnce_iff`: all strings are freed, each once, exactly if the callbacks were for no more than
  one URL and one header line, and the pointers they did not assign were left `NULL` by `malloc`.
-/

namespace LibuvDox.StaticWebServer

/-- The pointers of a request that own a string. -/
inductive StringSlot where
  | url
  | field
  | value
  deriving DecidableEq, Repr

/-- The block behind a pointer. -/
def CharPtr.id? : CharPtr → Option ℕ
  | .block id _ => some id
  | _ => none

/-- A pointer that was never assigned, and that `free` would not take for `NULL`. -/
def CharPtr.IsWild : CharPtr → Prop
  | .wild bits => bits ≠ 0
  | _ => False

namespace ParserState

def ptr (st : ParserState) : StringSlot → CharPtr
  | .url => st.req.url
  | .field => st.req.headerLine.field
  | .value => st.req.headerLine.value

/-- The strings of a request, and the pointers that own them. -/
def blocks (st : ParserState) : Blocks StringSlot :=
  ⟨st.strings.next, st.strings.freed, fun k => (st.ptr k).id?⟩

end ParserState

/-- `sws_cleanup_parse_req` returns, and then every string that was allocated has been freed, and
was freed once. -/
def FreedOnce (st : ParserState) : Prop :=
  ∃ h, swsCleanupParseReq st = .ok h ∧ ∀ i < h.next, h.freed.count i = 1

/-! ### The callbacks -/

section

variable {st a : ParserState}

theorem blocks_init (junk : Garbage) (id : ℕ) : (swsReqParserInit junk id).blocks = .init := by
  simp only [ParserState.blocks, swsReqParserInit, Blocks.init]
  congr 1
  funext k
  cases k <;> rfl

theorem blocks_onUrl (st : ParserState) (hdr : Bytes) :
    (onUrl st hdr).blocks = st.blocks.assign .url := by
  simp only [ParserState.blocks, onUrl, strslice, Blocks.assign]
  congr 1
  funext k
  cases k <;> rfl

theorem blocks_onHeaderField (st : ParserState) (hdr : Bytes) :
    (onHeaderField st hdr).blocks = st.blocks.assign .field := by
  simp only [ParserState.blocks, onHeaderField, strslice, Blocks.assign]
  congr 1
  funext k
  cases k <;> rfl

/-- `free` takes `NULL` and any pointer that was assigned, unless its string was freed before. -/
theorem free_ok_iff {h h' : StringHeap} {p : CharPtr} :
    h.free p = .ok h' ↔ ¬ p.IsWild ∧ (∀ i ∈ p.id?, i ∉ h.freed) ∧
      h' = { h with freed := p.id?.toList ++ h.freed } := by
  cases p with
  | wild bits =>
    by_cases hbits : bits = 0
    · simp only [StringHeap.free, CharPtr.IsWild, CharPtr.id?, hbits, if_true, Except.ok.injEq,
        ne_eq, not_true_eq_false, not_false_eq_true, Option.not_mem_none, false_implies,
        implies_true, true_and]
      exact eq_comm
    · simp [StringHeap.free, CharPtr.IsWild, hbits]
  | null =>
    simp only [StringHeap.free, CharPtr.IsWild, CharPtr.id?, Except.ok.injEq, not_false_eq_true,
      Option.not_mem_none, false_implies, implies_true, true_and]
    exact eq_comm
  | block i f =>
    by_cases hi : i ∈ h.freed
    · simp [StringHeap.free, CharPtr.IsWild, CharPtr.id?, hi]
    · simp [StringHeap.free, CharPtr.IsWild, CharPtr.id?, hi, eq_comm]

/-- `sws_cleanup_parse_req` returns exactly if every pointer was assigned or is `NULL`; it has
released all of them then. -/
theorem cleanup_ok_iff (h : st.blocks.Owned) {strings : StringHeap} :
    swsCleanupParseReq st = .ok strings ↔ (∀ k, ¬ (st.ptr k).IsWild) ∧ strings =
      ⟨st.strings.next, (((st.blocks.release .url).release .field).release .value).freed⟩ := by
  have hurl : ∀ i ∈ st.req.url.id?, i ∉ st.strings.freed := fun i hi => (h.live .url i hi).2
  have hfield : ∀ i ∈ st.req.headerLine.field.id?, i ∉ (st.blocks.release .url).freed := by
    refine fun i hi => ((h.release .url).live .field i ?_).2
    rwa [Blocks.release_slot_of_ne (by decide)]
  have hvalue : ∀ i ∈ st.req.headerLine.value.id?,
      i ∉ ((st.blocks.release .url).release .field).freed := by
    refine fun i hi => (((h.release .url).release .field).live .value i ?_).2
    rwa [Blocks.release_slot_of_ne (by decide), Blocks.release_slot_of_ne (by decide)]
  have hfreed : (((st.blocks.release .url).release .field).release .value).freed
      = st.req.headerLine.value.id?.toList ++ (st.req.headerLine.field.id?.toList ++
        (st.req.url.id?.toList ++ st.strings.freed)) := by
    rw [Blocks.release_freed, Blocks.release_freed, Blocks.release_freed,
      Blocks.release_slot_of_ne (by decide), Blocks.release_slot_of_ne (by decide),
      Blocks.release_slot_of_ne (by decide)]
    rfl
  rw [Blocks.release_freed] at hfield
  rw [Blocks.release_freed, Blocks.release_freed, Blocks.release_slot_of_ne (by decide)] at hvalue
  rw [swsCleanupParseReq, hfreed]
  simp only [bind_ok_iff, free_ok_iff]
  constructor
  · rintro ⟨h₁, ⟨hwild₁, -, rfl⟩, h₂, ⟨hwild₂, -, rfl⟩, hwild₃, -, rfl⟩
    exact ⟨fun k => by cases k <;> assumption, rfl⟩
  · intro ⟨hassigned, hstrings⟩
    exact ⟨_, ⟨hassigned .url, hurl, rfl⟩, _, ⟨hassigned .field, hfield, rfl⟩,
      hassigned .value, hvalue, hstrings⟩

/-- What `on_header_value` has done when it returns: the value is a new string, and the field was
freed. -/
theorem onHeaderValue_ok {hdr : Bytes} (h : onHeaderValue st hdr = .ok a) :
    ∃ i f, st.req.headerLine.field = .block i f ∧ a.req.headerLine.field = .null ∧
      a.req.headerLine.fieldLen = 0 ∧
      a.req.url = st.req.url ∧ a.blocks = (st.blocks.assign .value).release .field := by
  simp only [onHeaderValue, bind_ok_iff, cAssert_ok_iff] at h
  obtain ⟨_, -, _, -, req, hreq, strings, hfree, ha⟩ := h
  obtain ⟨f, hf, -⟩ := bind_ok_iff.mp hreq
  obtain ⟨headers, rfl⟩ := processHeaderLine_ok hreq
  cases hptr : st.req.headerLine.field with
  | wild bits => simp [hptr, CharPtr.text?] at hf
  | null => simp [hptr, CharPtr.text?] at hf
  | block i f =>
    obtain ⟨-, -, rfl⟩ := free_ok_iff.mp hfree
    cases ha
    have hslot : (st.blocks.assign .value).slot .field = some i := by
      rw [Blocks.assign_slot_of_ne (by decide)]
      simp [ParserState.blocks, ParserState.ptr, hptr, CharPtr.id?]
    refine ⟨i, f, rfl, rfl, rfl, rfl, ?_⟩
    rw [Blocks.release_of_some hslot]
    simp only [ParserState.blocks, strslice, Blocks.assign, hptr, CharPtr.id?]
    congr 1
    funext k
    cases k <;> rfl

/-! ### The blocks in a run -/

/-- The pointers and the strings stay in order. -/
theorem owned_onCallback {c : ParserCallback} (h : st.blocks.Owned)
    (hok : onCallback st c = .ok a) :
    a.blocks.Owned := by
  cases c with
  | messageBegin =>
    cases hok
    exact h
  | url hdr =>
    cases hok
    rw [blocks_onUrl]
    exact h.assign .url
  | headerField hdr =>
    cases hok
    rw [blocks_onHeaderField]
    exact h.assign .field
  | headerValue hdr =>
    obtain ⟨i, f, -, -, -, -, hblocks⟩ := onHeaderValue_ok hok
    rw [hblocks]
    exact (h.assign .value).release .field
  | headersComplete =>
    cases hok
    exact h
  | messageComplete method =>
    cases hok
    exact h

theorem owned_of_execute {junk : Garbage} {id : ℕ} {calls : List ParserCallback}
    (h : swsReqParserExecute (swsReqParserInit junk id) calls = .ok a) : a.blocks.Owned := by
  refine foldlM_ok_invariant (P := fun st => st.blocks.Owned) h ?_
    fun st c a _ hst hok => owned_onCallback hst hok
  rw [blocks_init]
  exact Blocks.init_owned

/-- All strings are freed once exactly if no pointer is wild and no string was lost. -/
theorem freedOnce_iff_noneLost (h : st.blocks.Owned) :
    FreedOnce st ↔ (∀ k, ¬ (st.ptr k).IsWild) ∧ st.blocks.NoneLost := by
  set b := ((st.blocks.release .url).release .field).release .value with hb
  have howned : b.Owned := ((h.release .url).release .field).release .value
  have hnext : b.next = st.strings.next := by simp [hb, ParserState.blocks]
  have hnone : ∀ k, b.slot k = none := by
    intro k
    cases k with
    | value => simp [hb]
    | field => rw [hb, Blocks.release_slot_of_ne (by decide), Blocks.release_slot_self]
    | url =>
      rw [hb, Blocks.release_slot_of_ne (by decide), Blocks.release_slot_of_ne (by decide),
        Blocks.release_slot_self]
  have hlost : b.NoneLost ↔ st.blocks.NoneLost := by
    rw [hb, Blocks.noneLost_release_iff, Blocks.noneLost_release_iff, Blocks.noneLost_release_iff]
  rw [← hlost, ← howned.released_once_iff hnone, hnext]
  constructor
  · intro ⟨strings, hok, hcount⟩
    obtain ⟨hassigned, rfl⟩ := (cleanup_ok_iff h).mp hok
    exact ⟨hassigned, hcount⟩
  · intro ⟨hassigned, hcount⟩
    exact ⟨_, (cleanup_ok_iff h).mpr ⟨hassigned, rfl⟩, hcount⟩

end

/-! ### What the callbacks were for -/

/-- A callback for the name or for the value of a header line. -/
inductive HeaderKind where
  | field
  | value
  deriving DecidableEq, Repr

def ParserCallback.headerKind? : ParserCallback → Option HeaderKind
  | .headerField _ => some .field
  | .headerValue _ => some .value
  | _ => none

def ParserCallback.isUrl : ParserCallback → Bool
  | .url _ => true
  | _ => false

/-- How often `on_url` was called. -/
def urls (calls : List ParserCallback) : ℕ := calls.countP ParserCallback.isUrl

/-- The callbacks for header lines. -/
def headerKinds (calls : List ParserCallback) : List HeaderKind :=
  calls.filterMap ParserCallback.headerKind?

/-- One URL, and one header line, whose name and value come in one fragment each; perhaps a
fragment of the name of a second line.  What is missing of them was `NULL` from the start. -/
def OneLine (junk : Garbage) (calls : List ParserCallback) : Prop :=
  (urls calls = 1 ∨ urls calls = 0 ∧ junk.url = 0) ∧
    (headerKinds calls = [.field, .value] ∨ headerKinds calls = [.field, .value, .field] ∨
      headerKinds calls = [.field] ∧ junk.value = 0 ∨
      headerKinds calls = [] ∧ junk.field = 0 ∧ junk.value = 0)

instance (junk : Garbage) (calls : List ParserCallback) : Decidable (OneLine junk calls) :=
  inferInstanceAs (Decidable (_ ∧ _))

/-- No callback for a header line overwrites the string of another. -/
def Keeps (kinds : List HeaderKind) : Prop :=
  kinds = [] ∨ kinds = [.field] ∨ kinds = [.field, .value] ∨ kinds = [.field, .value, .field]

theorem keeps_field {kinds : List HeaderKind} :
    Keeps (kinds ++ [.field]) ↔ Keeps kinds ∧ kinds.getLast? ≠ some .field := by
  constructor
  · rintro (h | h | h | h)
    · simp at h
    · obtain rfl : kinds = [] := by simpa using h
      simp [Keeps]
    · have hsplit : kinds ++ [.field] = [.field] ++ [.value] := h
      have hlast := (List.append_inj' hsplit rfl).2
      simp at hlast
    · have hsplit : kinds ++ [.field] = [.field, .value] ++ [.field] := h
      obtain rfl := (List.append_inj' hsplit rfl).1
      simp [Keeps]
  · rintro ⟨rfl | rfl | rfl | rfl, hlast⟩ <;> simp [Keeps] at hlast ⊢

theorem keeps_value {kinds : List HeaderKind} (h : kinds.getLast? = some .field) :
    Keeps (kinds ++ [.value]) ↔ Keeps kinds ∧ .value ∉ kinds := by
  constructor
  · rintro (h' | h' | h' | h')
    · simp at h'
    · have hsplit : kinds ++ [.value] = [] ++ [.field] := h'
      have hlast := (List.append_inj' hsplit rfl).2
      simp at hlast
    · have hsplit : kinds ++ [.value] = [.field] ++ [.value] := h'
      obtain rfl := (List.append_inj' hsplit rfl).1
      simp [Keeps]
    · have hsplit : kinds ++ [.value] = [.field, .value] ++ [.field] := h'
      have hlast := (List.append_inj' hsplit rfl).2
      simp at hlast
  · rintro ⟨rfl | rfl | rfl | rfl, hvalue⟩
    · simp at h
    · simp [Keeps]
    · simp at hvalue
    · simp at hvalue

/-- Which pointers own a string after some callbacks, and when a string was lost in them. -/
structure Tracks (junk : Garbage) (calls : List ParserCallback) (st : ParserState) : Prop where
  owned : st.blocks.Owned
  url : st.req.url.IsWild ↔ urls calls = 0 ∧ junk.url ≠ 0
  urlNone : st.req.url.id? = none ↔ urls calls = 0
  field : st.req.headerLine.field.IsWild ↔ headerKinds calls = [] ∧ junk.field ≠ 0
  fieldNone : st.req.headerLine.field.id? = none ↔ (headerKinds calls).getLast? ≠ some .field
  value : st.req.headerLine.value.IsWild ↔ .value ∉ headerKinds calls ∧ junk.value ≠ 0
  valueNone : st.req.headerLine.value.id? = none ↔ .value ∉ headerKinds calls
  noneLost : st.blocks.NoneLost ↔ urls calls ≤ 1 ∧ Keeps (headerKinds calls)

section

variable {junk : Garbage} {st a : ParserState} {calls : List ParserCallback} {c : ParserCallback}

theorem urls_concat (calls : List ParserCallback) (c : ParserCallback) :
    urls (calls ++ [c]) = urls calls + if c.isUrl then 1 else 0 := by
  simp [urls, List.countP_append, List.countP_singleton]

theorem headerKinds_concat (calls : List ParserCallback) (c : ParserCallback) :
    headerKinds (calls ++ [c]) = headerKinds calls ++ c.headerKind?.toList := by
  cases c <;> simp [headerKinds, ParserCallback.headerKind?]

theorem init_tracks (junk : Garbage) (id : ℕ) : Tracks junk [] (swsReqParserInit junk id) where
  owned := by
    rw [blocks_init]
    exact Blocks.init_owned
  url := by simp [swsReqParserInit, CharPtr.IsWild, urls]
  urlNone := by simp [swsReqParserInit, CharPtr.id?, urls]
  field := by simp [swsReqParserInit, CharPtr.IsWild, headerKinds]
  fieldNone := by simp [swsReqParserInit, CharPtr.id?, headerKinds]
  value := by simp [swsReqParserInit, CharPtr.IsWild, headerKinds]
  valueNone := by simp [swsReqParserInit, CharPtr.id?, headerKinds]
  noneLost := by
    rw [blocks_init]
    exact iff_of_true Blocks.init_noneLost ⟨Nat.zero_le 1, .inl rfl⟩

/-- A callback that is for neither a URL nor a header line, and touches no pointer. -/
theorem Tracks.other (h : Tracks junk calls st) (hurl : c.isUrl = false) (hkind : c.headerKind? = none)
    (hptr : a.ptr = st.ptr) (hstrings : a.strings = st.strings) : Tracks junk (calls ++ [c]) a := by
  have hurls : urls (calls ++ [c]) = urls calls := by simp [urls_concat, hurl]
  have hkinds : headerKinds (calls ++ [c]) = headerKinds calls := by
    simp [headerKinds_concat, hkind]
  have hblocks : a.blocks = st.blocks := by
    simp only [ParserState.blocks, hptr, hstrings]
  have h₁ : a.req.url = st.req.url := congrFun hptr .url
  have h₂ : a.req.headerLine.field = st.req.headerLine.field := congrFun hptr .field
  have h₃ : a.req.headerLine.value = st.req.headerLine.value := congrFun hptr .value
  constructor
  case owned =>
    rw [hblocks]
    exact h.owned
  case url =>
    rw [h₁, hurls]
    exact h.url
  case urlNone =>
    rw [h₁, hurls]
    exact h.urlNone
  case field =>
    rw [h₂, hkinds]
    exact h.field
  case fieldNone =>
    rw [h₂, hkinds]
    exact h.fieldNone
  case value =>
    rw [h₃, hkinds]
    exact h.value
  case valueNone =>
    rw [h₃, hkinds]
    exact h.valueNone
  case noneLost =>
    rw [hblocks, hurls, hkinds]
    exact h.noneLost

theorem Tracks.onUrl (h : Tracks junk calls st) (hdr : Bytes) :
    Tracks junk (calls ++ [.url hdr]) (onUrl st hdr) := by
  have hurls : urls (calls ++ [.url hdr]) = urls calls + 1 := by
    simp [urls_concat, ParserCallback.isUrl]
  have hkinds : headerKinds (calls ++ [.url hdr]) = headerKinds calls := by
    simp [headerKinds_concat, ParserCallback.headerKind?]
  constructor
  case owned =>
    rw [blocks_onUrl]
    exact h.owned.assign .url
  case url =>
    simp [StaticWebServer.onUrl, strslice, CharPtr.IsWild, hurls]
  case urlNone =>
    simp [StaticWebServer.onUrl, strslice, CharPtr.id?, hurls]
  case field =>
    rw [hkinds]
    exact h.field
  case fieldNone =>
    rw [hkinds]
    exact h.fieldNone
  case value =>
    rw [hkinds]
    exact h.value
  case valueNone =>
    rw [hkinds]
    exact h.valueNone
  case noneLost =>
    have hnone : st.blocks.slot .url = none ↔ urls calls = 0 := h.urlNone
    rw [blocks_onUrl, h.owned.noneLost_assign_iff, h.noneLost, hnone, hurls, hkinds]
    constructor
    · rintro ⟨⟨hle, hkeeps⟩, hzero⟩
      exact ⟨by omega, hkeeps⟩
    · rintro ⟨hle, hkeeps⟩
      exact ⟨⟨by omega, hkeeps⟩, by omega⟩

theorem Tracks.onHeaderField (h : Tracks junk calls st) (hdr : Bytes) :
    Tracks junk (calls ++ [.headerField hdr]) (onHeaderField st hdr) := by
  have hurls : urls (calls ++ [.headerField hdr]) = urls calls := by
    simp [urls_concat, ParserCallback.isUrl]
  have hkinds : headerKinds (calls ++ [.headerField hdr]) = headerKinds calls ++ [.field] := by
    simp [headerKinds_concat, ParserCallback.headerKind?]
  constructor
  case owned =>
    rw [blocks_onHeaderField]
    exact h.owned.assign .field
  case url =>
    rw [hurls]
    exact h.url
  case urlNone =>
    rw [hurls]
    exact h.urlNone
  case field =>
    simp [StaticWebServer.onHeaderField, strslice, CharPtr.IsWild, hkinds]
  case fieldNone =>
    simp [StaticWebServer.onHeaderField, strslice, CharPtr.id?, hkinds]
  case value =>
    simpa [hkinds, StaticWebServer.onHeaderField] using h.value
  case valueNone =>
    simpa [hkinds, StaticWebServer.onHeaderField] using h.valueNone
  case noneLost =>
    have hnone : st.blocks.slot .field = none ↔ (headerKinds calls).getLast? ≠ some .field :=
      h.fieldNone
    rw [blocks_onHeaderField, h.owned.noneLost_assign_iff, h.noneLost, hnone, hurls, hkinds,
      keeps_field, and_assoc]

theorem Tracks.onHeaderValue {hdr : Bytes} (h : Tracks junk calls st)
    (hok : onHeaderValue st hdr = .ok a) : Tracks junk (calls ++ [.headerValue hdr]) a := by
  obtain ⟨i, f, hfield, hnull, -, hurl, hblocks⟩ := onHeaderValue_ok hok
  have hurls : urls (calls ++ [.headerValue hdr]) = urls calls := by
    simp [urls_concat, ParserCallback.isUrl]
  have hkinds : headerKinds (calls ++ [.headerValue hdr]) = headerKinds calls ++ [.value] := by
    simp [headerKinds_concat, ParserCallback.headerKind?]
  have hlast : (headerKinds calls).getLast? = some .field := by
    by_contra hne
    have hnone := h.fieldNone.mpr hne
    rw [hfield] at hnone
    cases hnone
  have hvalue : a.req.headerLine.value.id? = some st.strings.next := by
    have hslot := congrArg (fun b => b.slot .value) hblocks
    rw [Blocks.release_slot_of_ne (by decide), Blocks.assign_slot_self] at hslot
    exact hslot
  have hwild : ¬ a.req.headerLine.value.IsWild := by
    intro hwild
    cases hv : a.req.headerLine.value <;> simp [hv, CharPtr.id?, CharPtr.IsWild] at hvalue hwild
  constructor
  case owned =>
    rw [hblocks]
    exact (h.owned.assign .value).release .field
  case url =>
    rw [hurl, hurls]
    exact h.url
  case urlNone =>
    rw [hurl, hurls]
    exact h.urlNone
  case field =>
    simp [hnull, CharPtr.IsWild, hkinds]
  case fieldNone =>
    simp [hnull, CharPtr.id?, hkinds]
  case value =>
    simp [hwild, hkinds]
  case valueNone =>
    simp [hvalue, hkinds]
  case noneLost =>
    have hnone : st.blocks.slot .value = none ↔ .value ∉ headerKinds calls := h.valueNone
    rw [hblocks, Blocks.noneLost_release_iff, h.owned.noneLost_assign_iff, h.noneLost, hnone, hurls,
      hkinds, keeps_value hlast, and_assoc]

/-- **One callback.** -/
theorem Tracks.step (h : Tracks junk calls st) (hok : onCallback st c = .ok a) :
    Tracks junk (calls ++ [c]) a := by
  cases c with
  | messageBegin =>
    cases hok
    exact h.other rfl rfl rfl rfl
  | url hdr =>
    cases hok
    exact h.onUrl hdr
  | headerField hdr =>
    cases hok
    exact h.onHeaderField hdr
  | headerValue hdr => exact h.onHeaderValue hok
  | headersComplete =>
    cases hok
    exact h.other rfl rfl rfl rfl
  | messageComplete method =>
    cases hok
    exact h.other rfl rfl rfl rfl

/-- **A run of callbacks.** -/
theorem tracks_of_execute {id : ℕ}
    (h : swsReqParserExecute (swsReqParserInit junk id) calls = .ok a) :
    Tracks junk calls a := by
  induction calls using List.reverseRecOn generalizing a with
  | nil =>
    cases h
    exact init_tracks junk id
  | append_singleton calls c ih =>
    rw [swsReqParserExecute, List.foldlM_append] at h
    obtain ⟨b, hb, h⟩ := bind_ok_iff.mp h
    obtain ⟨a', hc, h⟩ := bind_ok_iff.mp h
    cases h
    exact (ih hb).step hc

/-- The callbacks for header lines that lose no string, and leave no pointer wild. -/
theorem keeps_assigned_iff {kinds : List HeaderKind} :
    Keeps kinds ∧ (kinds = [] → junk.field = 0) ∧ (.value ∉ kinds → junk.value = 0) ↔
      kinds = [.field, .value] ∨ kinds = [.field, .value, .field] ∨
        kinds = [.field] ∧ junk.value = 0 ∨ kinds = [] ∧ junk.field = 0 ∧ junk.value = 0 := by
  constructor
  · rintro ⟨rfl | rfl | rfl | rfl, hfield, hvalue⟩
    · exact .inr (.inr (.inr ⟨rfl, hfield rfl, hvalue (by decide)⟩))
    · exact .inr (.inr (.inl ⟨rfl, hvalue (by decide)⟩))
    · exact .inl rfl
    · exact .inr (.inl rfl)
  · rintro (rfl | rfl | ⟨rfl, hvalue⟩ | ⟨rfl, hfield, hvalue⟩) <;> simp_all [Keeps]

end

/-- **Ownership of the strings.**  When the callbacks of a connection have returned, the clean-up
frees every string that was allocated, each once, exactly if they were for one URL and one header
line, or what is missing of these was `NULL` from the start. -/
theorem freedOnce_iff (junk : Garbage) (id : ℕ) (calls : List ParserCallback) (st : ParserState)
    (h : swsReqParserExecute (swsReqParserInit junk id) calls = .ok st) :
    FreedOnce st ↔ OneLine junk calls := by
  have ht := tracks_of_execute h
  have hassigned : (∀ k, ¬ (st.ptr k).IsWild) ↔
      (urls calls = 0 → junk.url = 0) ∧ (headerKinds calls = [] → junk.field = 0) ∧
        (.value ∉ headerKinds calls → junk.value = 0) := by
    constructor
    · intro hall
      exact ⟨fun h0 => not_not.mp fun hne => hall .url (ht.url.mpr ⟨h0, hne⟩),
        fun h0 => not_not.mp fun hne => hall .field (ht.field.mpr ⟨h0, hne⟩),
        fun h0 => not_not.mp fun hne => hall .value (ht.value.mpr ⟨h0, hne⟩)⟩
    · intro ⟨hurl, hfield, hvalue⟩ k
      cases k with
      | url => exact fun hw => (ht.url.mp hw).2 (hurl (ht.url.mp hw).1)
      | field => exact fun hw => (ht.field.mp hw).2 (hfield (ht.field.mp hw).1)
      | value => exact fun hw => (ht.value.mp hw).2 (hvalue (ht.value.mp hw).1)
  rw [freedOnce_iff_noneLost ht.owned, ht.noneLost, hassigned, OneLine, ← keeps_assigned_iff]
  constructor
  · intro ⟨⟨hurl, hfield, hvalue⟩, hle, hkeeps⟩
    refine ⟨?_, hkeeps, hfield, hvalue⟩
    rcases Nat.le_one_iff_eq_zero_or_eq_one.mp hle with h0 | h1
    · exact .inr ⟨h0, hurl h0⟩
    · exact .inl h1
  · rintro ⟨h1 | ⟨h0, hurl⟩, hkeeps, hfield, hvalue⟩
    · exact ⟨⟨fun h0 => absurd h0 (by omega), hfield, hvalue⟩, by omega, hkeeps⟩
    · exact ⟨⟨fun _ => hurl, hfield, hvalue⟩, by omega, hkeeps⟩

/-- The callbacks for a request with one header line. -/
def hostOnly : List ParserCallback :=
  [.messageBegin, .url (ascii "/"), .headerField (ascii "Host"), .headerValue (ascii "a"),
    .headersComplete, .messageComplete HTTP_GET]

/-- From `malloc` to the clean-up: a request with one header line, and one without any in a block
of zeroes. -/
theorem freedOnce_iff_hostOnly :
    (∃ st, swsReqParserExecute (swsReqParserInit usedBlock 0) hostOnly = .ok st ∧ FreedOnce st) ∧
      ∃ st, swsReqParserExecute (swsReqParserInit zeroed 0) [.url (ascii "/")] = .ok st ∧
        FreedOnce st := by
  obtain ⟨st, hst⟩ : ∃ st, swsReqParserExecute (swsReqParserInit usedBlock 0) hostOnly = .ok st :=
    ⟨_, rfl⟩
  obtain ⟨st', hst'⟩ :
      ∃ st, swsReqParserExecute (swsReqParserInit zeroed 0) [.url (ascii "/")] = .ok st := ⟨_, rfl⟩
  exact ⟨⟨st, hst, (freedOnce_iff usedBlock 0 hostOnly st hst).mpr (by decide)⟩,
    ⟨st', hst', (freedOnce_iff zeroed 0 [.url (ascii "/")] st' hst').mpr (by decide)⟩⟩

/-- Two header lines: the value of the first one is never freed. -/
theorem second_value_leaks : ¬ ∀ junk id calls st,
    swsReqParserExecute (swsReqParserInit junk id) calls = .ok st → FreedOnce st := by
  intro h
  have hfreed := h usedBlock 0
    [.url (ascii "/"), .headerField (ascii "Host"), .headerValue (ascii "a"),
      .headerField (ascii "Accept"), .headerValue (ascii "b")] _ rfl
  obtain ⟨strings, hok, hcount⟩ := hfreed
  cases hok
  exact absurd (hcount 2 (by decide)) (by decide)

end LibuvDox.StaticWebServer
