import LibuvDox.Lib.EventLoop
import LibuvDox.Uv

/-!
# 02-uvcat/main.c

`uvcat` copies a file to stdout by a cycle of asynchronous requests: a read fills the one shared
buffer, its callback writes what was read, and the callback of the write starts the next read.
`write_cb` looks at the result of the write only for its sign, so what a short write has left over
is read over.

* `requests_length_le_one`: at most one request is under way, so nothing touches the buffer while
  a write from it is pending.
* `fullWrites_iff`: what has been written keeps up with what has been read exactly in the runs
  whose writes were all complete.
* `catsFile_iff`: so the whole file was copied when the close callback runs exactly then.
-/

namespace LibuvDox.Uvcat

/-- `sizeof(buffer)`. -/
def BUFSIZE : ℕ := 1024

/-- A request under way.  Each kind has its own `uv_fs_t`, so the kind says which object it is,
and that is what the callbacks assert about `req`; a read and a close are given a file. -/
inductive FsReq where
  | openFile
  | read (fd : ℤ)
  | write (len : ℕ)
  | close (fd : ℤ)
  deriving DecidableEq, Repr

/-- The number of bytes of the buffer that a request is to write. -/
def FsReq.len : FsReq → ℕ
  | .write len => len
  | _ => 0

/-- The file and the position of its descriptor, `open_req.result`, the shared buffer, the
requests under way, what has arrived on stdout, the files passed to `uv_fs_close`, and whether
`close_cb` has run. -/
structure Cat where
  content : Bytes
  offset : ℕ
  openResult : ℤ
  buffer : Bytes
  requests : List FsReq
  out : Bytes
  closes : List ℤ
  closed : Bool
  deriving DecidableEq, Repr

/-- `main`: the file is being opened. -/
def init (content : Bytes) : Cat :=
  ⟨content, 0, 0, List.replicate BUFSIZE 0, [.openFile], [], [], false⟩

/-- The request number `i` is called back with a result. -/
inductive FsEvent where
  | done (i : ℕ) (result : ℤ)
  deriving DecidableEq, Repr

/-- `ERROR(msg, code)`. -/
def errorMacro : Stop := .assertFailed "0"

namespace Cat

/-- What is left of the file, as far as it fits into the buffer. -/
def next (s : Cat) (n : ℕ) : Bytes := (s.content.drop s.offset).take n

def request (s : Cat) (r : FsReq) : Cat := { s with requests := s.requests ++ [r] }

end Cat

def openCb (s : Cat) (result : ℤ) : Except Stop Cat :=
  let s := { s with openResult := result }
  if result < 0 then .error errorMacro
  else .ok (s.request (.read result))

def readCb (s : Cat) (result : ℤ) : Except Stop Cat :=
  if result < 0 then .error errorMacro
  else if result = 0 then
    .ok { s.request (.close s.openResult) with closes := s.closes ++ [s.openResult] }
  else .ok (s.request (.write result.toNat))

def writeCb (s : Cat) (result : ℤ) : Except Stop Cat :=
  if result < 0 then .error errorMacro
  else .ok (s.request (.read s.openResult))

def closeCb (s : Cat) (result : ℤ) : Except Stop Cat :=
  if result < 0 then .error errorMacro
  else .ok { s with closed := true }

/-- The results the system may answer with: an error, or for a read up to 1024 of the bytes that
are left and 0 only at the end, and for a write some of the bytes. -/
def Answers (s : Cat) (result : ℤ) : FsReq → Prop
  | .openFile => True
  | .read _ =>
    result.toNat ≤ BUFSIZE ∧ s.offset + result.toNat ≤ s.content.length ∧
      (result = 0 → s.offset = s.content.length)
  | .write len => result ≠ 0 ∧ result ≤ len
  | .close _ => True

instance (s : Cat) (result : ℤ) (r : FsReq) : Decidable (Answers s result r) := by
  cases r <;> unfold Answers <;> infer_instance

def Enabled (s : Cat) : FsEvent → Prop
  | .done i result => ∃ r ∈ s.requests[i]?, Answers s result r

instance (s : Cat) (e : FsEvent) : Decidable (Enabled s e) := by
  cases e
  unfold Enabled
  infer_instance

/-- What the system has done when a request is called back: a read has filled the front of the
buffer, a write has taken bytes from it. -/
def carryOut (s : Cat) (result : ℤ) : FsReq → Cat
  | .read _ =>
    { s with
      buffer := s.next result.toNat ++ s.buffer.drop result.toNat
      offset := s.offset + result.toNat }
  | .write _ => { s with out := s.out ++ s.buffer.take result.toNat }
  | _ => s

/-- The callback that each request was issued with. -/
def callback (s : Cat) (result : ℤ) : FsReq → Except Stop Cat
  | .openFile => openCb s result
  | .read _ => readCb s result
  | .write _ => writeCb s result
  | .close _ => closeCb s result

def dispatch (s : Cat) : FsEvent → Except Stop Cat
  | .done i result => do
    let r ← deref s.requests[i]? "req"
    callback (carryOut { s with requests := s.requests.eraseIdx i } result r) result r

def uvcat : EventLoop Cat FsEvent Stop := ⟨Enabled, dispatch⟩

instance (s : Cat) (e : FsEvent) : Decidable (uvcat.enabled s e) :=
  inferInstanceAs (Decidable (Enabled s e))

/-! ### The phases of the copy -/

/-- The number of bytes of the pending write, if there is one. -/
def inFlight (s : Cat) : ℕ := (s.requests.map FsReq.len).sum

/-- Where the program is: one request is under way, or the close has been called back. -/
inductive Phase (s : Cat) : Prop
  | opening (hreq : s.requests = [.openFile]) (hopen : s.closes = [] ∧ s.closed = false)
  | reading (hreq : s.requests = [.read s.openResult]) (hopen : s.closes = [] ∧ s.closed = false)
  | writing (len : ℕ) (hreq : s.requests = [.write len]) (hlen : 0 < len ∧ len ≤ s.offset)
      (hbuf : s.buffer.take len = (s.content.drop (s.offset - len)).take len)
      (hopen : s.closes = [] ∧ s.closed = false)
  | closing (hreq : s.requests = [.close s.openResult]) (hend : s.offset = s.content.length)
      (hopen : s.closes = [s.openResult] ∧ s.closed = false)
  | finished (hreq : s.requests = []) (hend : s.offset = s.content.length)
      (hopen : s.closes = [s.openResult] ∧ s.closed = true)

/-- What holds in every run: no more has been written than was read, and if nothing was dropped
it is the file up to where it was read. -/
structure Sound (s : Cat) : Prop where
  phase : Phase s
  within : s.offset ≤ s.content.length
  size : s.buffer.length = BUFSIZE
  behind : s.out.length + inFlight s ≤ s.offset
  exact : s.out.length + inFlight s = s.offset → s.out = s.content.take s.out.length

theorem Phase.requests_length_le {s : Cat} (h : Phase s) : s.requests.length ≤ 1 := by
  cases h with
  | opening hreq => rw [hreq]; rfl
  | reading hreq => rw [hreq]; rfl
  | writing len hreq => rw [hreq]; rfl
  | closing hreq => rw [hreq]; rfl
  | finished hreq => rw [hreq]; exact Nat.zero_le 1

theorem init_sound (content : Bytes) : Sound (init content) where
  phase := .opening rfl ⟨rfl, rfl⟩
  within := Nat.zero_le _
  size := by simp [init]
  behind := le_rfl
  exact := by simp [init]

/-- The write that is called back has written all it was asked to. -/
def FullWrites (s : Cat) : FsEvent → Prop
  | .done i result => ∀ len, s.requests[i]? = some (.write len) → result = len

/-- Nothing that was read has been dropped. -/
def KeepsUp (s : Cat) : Prop := s.out.length + inFlight s = s.offset

/-- With one request under way, that is the one called back. -/
theorem dispatch_only {s : Cat} {i : ℕ} {result : ℤ} {r : FsReq} (hreq : s.requests = [r])
    (he : uvcat.enabled s (.done i result)) :
    Answers s result r ∧ s.requests[i]? = some r ∧
      uvcat.dispatch s (.done i result) =
        callback (carryOut { s with requests := [] } result r) result r := by
  obtain ⟨r', hr', hans⟩ := he
  rw [hreq, Option.mem_def] at hr'
  cases i with
  | succ i => cases hr'
  | zero =>
    cases hr'
    refine ⟨hans, by rw [hreq]; rfl, ?_⟩
    show (do
      let r ← deref s.requests[0]? "req"
      callback (carryOut { s with requests := s.requests.eraseIdx 0 } result r) result r) = _
    rw [hreq]
    rfl

/-- A callback that starts with the error check goes on only without an error. -/
theorem noError_of_ok {u : Cat} {result : ℤ} {x : Except Stop Cat}
    (h : (if result < 0 then .error errorMacro else x) = .ok u) : 0 ≤ result ∧ x = .ok u := by
  split at h
  · cases h
  · exact ⟨by omega, h⟩

theorem take_next (s : Cat) (n : ℕ) (h : s.offset + n ≤ s.content.length) :
    (s.next n).length = n := by
  rw [Cat.next, List.length_take, List.length_drop]
  omega

/-- A callback that leaves the buffer and the output alone, with nothing to be written before or
after it. -/
theorem Sound.quiet {s u : Cat} (h : Sound s) (hphase : Phase u) (hin : inFlight s = 0)
    (hin' : inFlight u = 0)
    (hsame : u.content = s.content ∧ u.offset = s.offset ∧ u.buffer = s.buffer ∧ u.out = s.out) :
    Sound u ∧ (KeepsUp u ↔ KeepsUp s) := by
  obtain ⟨hcontent, hoffset, hbuffer, hout⟩ := hsame
  have hbehind := h.behind
  have hexact := h.exact
  rw [hin] at hbehind hexact
  refine ⟨⟨hphase, ?_, ?_, ?_, ?_⟩, ?_⟩
  · rw [hoffset, hcontent]
    exact h.within
  · rw [hbuffer]
    exact h.size
  · rw [hin', hout, hoffset]
    exact hbehind
  · rw [hin', hout, hoffset, hcontent]
    exact hexact
  · rw [KeepsUp, KeepsUp, hin, hin', hout, hoffset]

/-- Only the callback of a write can be that of a short one. -/
theorem fullWrites_of_get {s : Cat} {i : ℕ} {result : ℤ} {r : FsReq}
    (hget : s.requests[i]? = some r) (hr : ∀ len, r ≠ .write len) :
    FullWrites s (.done i result) := by
  intro len hlen
  rw [hget] at hlen
  exact absurd (Option.some.inj hlen) (hr len)

/-- The same, as the callback of the only request, which is not a write. -/
theorem Sound.quietDone {s u : Cat} {i : ℕ} {result : ℤ} {r : FsReq} (h : Sound s)
    (hreq : s.requests = [r]) (hr : ∀ len, r ≠ .write len) (hget : s.requests[i]? = some r)
    (hphase : Phase u) (hin' : inFlight u = 0)
    (hsame : u.content = s.content ∧ u.offset = s.offset ∧ u.buffer = s.buffer ∧ u.out = s.out) :
    Sound u ∧ (KeepsUp u ↔ KeepsUp s ∧ FullWrites s (.done i result)) := by
  have hin : inFlight s = 0 := by
    cases r with
    | write len => exact absurd rfl (hr len)
    | openFile => simp [inFlight, hreq, FsReq.len]
    | read fd => simp [inFlight, hreq, FsReq.len]
    | close fd => simp [inFlight, hreq, FsReq.len]
  rw [and_iff_left (fullWrites_of_get hget hr)]
  exact h.quiet hphase hin hin' hsame

/-- A read that returns `n` bytes, from the state in which it was the only request. -/
theorem Sound.read {s u : Cat} {result : ℤ} (h : Sound s)
    (hreq : s.requests = [.read s.openResult]) (hopen : s.closes = [] ∧ s.closed = false)
    (hans : Answers s result (.read s.openResult))
    (hok : readCb (carryOut { s with requests := [] } result (.read s.openResult)) result = .ok u) :
    Sound u ∧ (KeepsUp u ↔ KeepsUp s) := by
  obtain ⟨hfits, hleft, hend⟩ := hans
  obtain ⟨hpos, hok⟩ := noError_of_ok hok
  have hlen := take_next s result.toNat hleft
  have hin : inFlight s = 0 := by simp [inFlight, hreq, FsReq.len]
  have hbehind := h.behind
  have hexact := h.exact
  rw [hin] at hbehind hexact
  have hsize : (s.next result.toNat ++ s.buffer.drop result.toNat).length = BUFSIZE := by
    rw [List.length_append, List.length_drop, hlen, h.size]
    omega
  by_cases hzero : result = 0
  · -- the end of the file
    subst hzero
    cases hok
    have hkeeps : KeepsUp s ↔ s.out.length = s.offset := by rw [KeepsUp, hin, Nat.add_zero]
    refine ⟨⟨.closing rfl (hend rfl) ⟨?_, hopen.2⟩, h.within, hsize, ?_, ?_⟩, ?_⟩
    · show s.closes ++ [s.openResult] = [s.openResult]
      rw [hopen.1, List.nil_append]
    · exact hbehind
    · exact hexact
    · rw [hkeeps]
      exact Iff.rfl
  · rw [if_neg hzero] at hok
    cases hok
    have hbuf : (s.next result.toNat ++ s.buffer.drop result.toNat).take result.toNat
        = (s.content.drop (s.offset + result.toNat - result.toNat)).take result.toNat := by
      rw [List.take_left' hlen, Nat.add_sub_cancel, Cat.next]
    have hflight : inFlight (Cat.request (carryOut { s with requests := [] } result
        (.read s.openResult)) (.write result.toNat)) = result.toNat := by
      simp [inFlight, Cat.request, carryOut, FsReq.len]
    refine ⟨⟨.writing result.toNat rfl ⟨by omega, ?_⟩ hbuf hopen, hleft, hsize, ?_, ?_⟩, ?_⟩
    · show result.toNat ≤ s.offset + result.toNat
      omega
    · rw [hflight]
      show s.out.length + result.toNat ≤ s.offset + result.toNat
      omega
    · rw [hflight]
      intro heq
      have heq' : s.out.length + result.toNat = s.offset + result.toNat := heq
      exact hexact (by omega)
    · unfold KeepsUp
      rw [hflight, hin]
      show s.out.length + result.toNat = s.offset + result.toNat ↔ _
      omega

/-- A write of `len` bytes that wrote `result` of them. -/
theorem Sound.write {s u : Cat} {result : ℤ} {len : ℕ} (h : Sound s)
    (hreq : s.requests = [.write len]) (hlen : 0 < len ∧ len ≤ s.offset)
    (hbuf : s.buffer.take len = (s.content.drop (s.offset - len)).take len)
    (hopen : s.closes = [] ∧ s.closed = false) (hans : Answers s result (.write len))
    (hok : writeCb (carryOut { s with requests := [] } result (.write len)) result = .ok u) :
    Sound u ∧ (KeepsUp u ↔ KeepsUp s ∧ result = len) := by
  obtain ⟨hne, hle⟩ := hans
  obtain ⟨hpos, hok⟩ := noError_of_ok hok
  cases hok
  have hin : inFlight s = len := by simp [inFlight, hreq, FsReq.len]
  have hin' : inFlight (Cat.request (carryOut { s with requests := [] } result (.write len))
      (.read s.openResult)) = 0 := by simp [inFlight, Cat.request, carryOut, FsReq.len]
  have hbehind := h.behind
  rw [hin] at hbehind
  have hout : (s.out ++ s.buffer.take result.toNat).length = s.out.length + result.toNat := by
    have hfull : len ≤ s.buffer.length := by
      have hl := congrArg List.length hbuf
      rw [List.length_take, List.length_take, List.length_drop] at hl
      have := h.within
      omega
    rw [List.length_append, List.length_take]
    omega
  have hkeeps : KeepsUp (Cat.request (carryOut { s with requests := [] } result (.write len))
      (.read s.openResult)) ↔ KeepsUp s ∧ result = len := by
    unfold KeepsUp
    rw [hin', hin]
    show (s.out ++ s.buffer.take result.toNat).length + 0 = s.offset ↔ _
    rw [hout]
    omega
  refine ⟨⟨.reading rfl hopen, h.within, h.size, ?_, ?_⟩, hkeeps⟩
  · show (s.out ++ s.buffer.take result.toNat).length + 0 ≤ s.offset
    rw [hout]
    omega
  · intro hk
    obtain ⟨hks, hres⟩ := hkeeps.mp hk
    have hks' : s.out.length + len = s.offset := hin ▸ hks
    show s.out ++ s.buffer.take result.toNat = s.content.take (s.out ++ s.buffer.take _).length
    have hn : result.toNat = len := by omega
    have hstart : s.offset - len = s.out.length := by omega
    have hall := h.exact hks
    rw [hout, hn, List.take_add, ← hall, hbuf, hstart]

/-- **One callback.**  It keeps the invariant, and the output keeps up after it exactly if it did
before and the callback is not that of a short write. -/
theorem Sound.step {s u : Cat} {e : FsEvent} (h : Sound s) (he : uvcat.enabled s e)
    (hok : uvcat.dispatch s e = .ok u) :
    Sound u ∧ (KeepsUp u ↔ KeepsUp s ∧ FullWrites s e) := by
  cases e with
  | done i result =>
    cases h.phase with
    | opening hreq hopen =>
      obtain ⟨-, hget, hd⟩ := dispatch_only hreq he
      rw [hd] at hok
      obtain ⟨-, hok⟩ := noError_of_ok hok
      cases hok
      exact h.quietDone hreq nofun hget (.reading rfl hopen) rfl ⟨rfl, rfl, rfl, rfl⟩
    | reading hreq hopen =>
      obtain ⟨hans, hget, hd⟩ := dispatch_only hreq he
      rw [hd] at hok
      have hfull : FullWrites s (.done i result) := fullWrites_of_get hget nofun
      rw [and_iff_left hfull]
      exact h.read hreq hopen hans hok
    | writing len hreq hlen hbuf hopen =>
      obtain ⟨hans, hget, hd⟩ := dispatch_only hreq he
      rw [hd] at hok
      have hfull : FullWrites s (.done i result) ↔ result = len := by
        constructor
        · intro hf
          exact hf len hget
        · intro hres len' hlen'
          rw [hget] at hlen'
          cases hlen'
          exact hres
      rw [hfull]
      exact h.write hreq hlen hbuf hopen hans hok
    | closing hreq hend hopen =>
      obtain ⟨-, hget, hd⟩ := dispatch_only hreq he
      rw [hd] at hok
      obtain ⟨-, hok⟩ := noError_of_ok hok
      cases hok
      exact h.quietDone hreq nofun hget (.finished rfl hend ⟨hopen.1, rfl⟩) rfl
        ⟨rfl, rfl, rfl, rfl⟩
    | finished hreq hend hopen =>
      obtain ⟨r, hr, -⟩ := he
      rw [hreq] at hr
      cases hr

/-! ### Whole runs -/

theorem sound_of_run {content : Bytes} {es : List FsEvent} {s : Cat}
    (h : uvcat.Run (init content) es s) : Sound s :=
  h.invariant (init_sound content) fun _ _ _ hs he hok => (hs.step he hok).1

theorem content_of_dispatch {s u : Cat} {e : FsEvent} (h : uvcat.dispatch s e = .ok u) :
    u.content = s.content := by
  cases e with
  | done i result =>
    obtain ⟨r, -, h⟩ := bind_ok_iff.mp h
    cases r with
    | openFile =>
      obtain ⟨-, h⟩ := noError_of_ok h
      cases h
      rfl
    | read fd =>
      obtain ⟨-, h⟩ := noError_of_ok h
      split at h
      · cases h
        rfl
      · cases h
        rfl
    | write len =>
      obtain ⟨-, h⟩ := noError_of_ok h
      cases h
      rfl
    | close fd =>
      obtain ⟨-, h⟩ := noError_of_ok h
      cases h
      rfl

/-- The file itself is never touched. -/
theorem content_of_run {content : Bytes} {es : List FsEvent} {s : Cat}
    (h : uvcat.Run (init content) es s) : s.content = content :=
  h.invariant (P := fun s => s.content = content) rfl
    fun _ _ _ hs _ hok => (content_of_dispatch hok).trans hs

/-- **One request at a time.**  At most one request is under way in every state. -/
theorem requests_length_le_one {content : Bytes} {es : List FsEvent} {s : Cat}
    (h : uvcat.Run (init content) es s) : s.requests.length ≤ 1 :=
  (sound_of_run h).phase.requests_length_le

/-- **Keeping up.**  In every run nothing that was read has been dropped exactly if every write
wrote all it was asked to. -/
theorem fullWrites_iff {content : Bytes} {es : List FsEvent} {s : Cat}
    (h : uvcat.Run (init content) es s) :
    (uvcat.restrict FullWrites).Run (init content) es s ↔ KeepsUp s := by
  induction h with
  | nil => exact ⟨fun _ => rfl, fun _ => .nil⟩
  | snoc h he hok ih =>
    obtain ⟨-, hiff⟩ := (sound_of_run h).step he hok
    rw [h.restrict_snoc_iff he hok, ih, hiff]

/-- What `uvcat` is for: when `close_cb` has run the output is the file, the file was closed once,
and all along no two requests were under way. -/
def CatsFile (content : Bytes) (es : List FsEvent) (s : Cat) : Prop :=
  s.out = content ∧ s.closes = [s.openResult] ∧
    ∀ fs t, fs <+: es → uvcat.Run (init content) fs t → t.requests.length ≤ 1

/-- **Copying.**  In every run in which `close_cb` has run, the file was copied exactly if every
write wrote all it was asked to. -/
theorem catsFile_iff (content : Bytes) (es : List FsEvent) (s : Cat)
    (h : uvcat.Run (init content) es s) (hclosed : s.closed = true) :
    CatsFile content es s ↔ (uvcat.restrict FullWrites).Run (init content) es s := by
  rw [fullWrites_iff h]
  have hs := sound_of_run h
  have hcontent := content_of_run h
  have hin : s.requests = [] ∧ s.offset = s.content.length ∧ s.closes = [s.openResult] := by
    cases hs.phase with
    | opening hreq hopen => simp [hclosed] at hopen
    | reading hreq hopen => simp [hclosed] at hopen
    | writing len hreq hlen hbuf hopen => simp [hclosed] at hopen
    | closing hreq hend hopen => simp [hclosed] at hopen
    | finished hreq hend hopen => exact ⟨hreq, hend, hopen.1⟩
  obtain ⟨hreq, hend, hcloses⟩ := hin
  have hflight : inFlight s = 0 := by simp [inFlight, hreq]
  constructor
  · intro hcat
    rw [KeepsUp, hflight, hend, hcat.1, hcontent, Nat.add_zero]
  · intro hk
    have hall := hs.exact hk
    rw [KeepsUp, hflight, hend, Nat.add_zero] at hk
    refine ⟨?_, hcloses, fun fs t _ ht => requests_length_le_one ht⟩
    rw [hall, hk, List.take_length, hcontent]

/-- A file of two bytes that is written in one go is copied. -/
theorem catsFile_iff_oneWrite : ∃ es s, uvcat.Run (init [65, 66]) es s ∧ s.closed = true ∧
    CatsFile [65, 66] es s := by
  obtain ⟨s, hrun, hp⟩ : ∃ s, uvcat.Run (init [65, 66])
      [.done 0 3, .done 0 2, .done 0 2, .done 0 0, .done 0 0] s ∧
      (s.closed && decide (s.out.length + inFlight s = s.offset)) = true :=
    EventLoop.exists_run_of_plays (by decide +kernel)
  rw [Bool.and_eq_true, decide_eq_true_eq] at hp
  exact ⟨_, s, hrun, hp.1, (catsFile_iff _ _ s hrun hp.1).mpr ((fullWrites_iff hrun).mpr hp.2)⟩

/-- A file of two bytes whose first write takes only one of them: the second one is lost. -/
theorem short_write_loses : ¬ ∀ content es s, uvcat.Run (init content) es s → s.closed = true →
    CatsFile content es s := by
  intro h
  obtain ⟨s, hrun, hp⟩ : ∃ s, uvcat.Run (init [65, 66])
      [.done 0 3, .done 0 2, .done 0 1, .done 0 0, .done 0 0] s ∧
      (s.closed && s.out == [65]) = true :=
    EventLoop.exists_run_of_plays (by decide +kernel)
  rw [Bool.and_eq_true, beq_iff_eq] at hp
  have hout := (h _ _ s hrun hp.1).1
  rw [hp.2] at hout
  exact absurd hout (by decide)

end LibuvDox.Uvcat
