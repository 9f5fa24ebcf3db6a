import LibuvDox.Lib.CString
import LibuvDox.Lib.Decimal
import LibuvDox.Lib.EventLoop
import LibuvDox.Lib.Heap
import LibuvDox.Uv
import Mathlib.Data.UInt

/-!
# 07-dns/main.c

The client resolves a name, connects to the address it gets, and prints what the server sends: each
buffer is copied, so that it can be terminated, printed as a C string, and freed together with its
copy.  At the end of the stream the socket is closed and freed at once, while libuv still has to
finish closing it.

* `dottedQuad_fits`: the address is printed in full, whatever it is.
* `Sound`: the invariant; what libuv is going to call back for says which blocks there are.
* `received_of_run`: everything the server sends is printed, up to the first zero of each buffer,
  and nothing but the socket is kept for it.
* `dnsClient_stops_iff`: which callbacks stop the process; a connection that was made always ends
  in one.
-/

namespace LibuvDox.DnsClient

/-- What is printed to stderr: "%s is ... " with the name, the address with a line break, what the
server sends, and "Got EOF, closing connection". -/
inductive Line where
  | node
  | address (text : Bytes)
  | received (text : Bytes)
  | gotEof
  deriving DecidableEq, Repr

/-- The bytes of an address, in the order of the network. -/
structure Ip4 where
  a : UInt8
  b : UInt8
  c : UInt8
  d : UInt8
  deriving DecidableEq, Repr

/-- A block of memory: the list of addresses from libuv, the socket, the request to connect with its
`data`, or characters. -/
inductive Block where
  | addrinfo
  | socket
  | connectReq (data : ℕ)
  | chars (contents : Bytes)
  deriving DecidableEq, Repr

def Block.chars? : Block → Option Bytes
  | chars contents => some contents
  | _ => none

def Block.connectReq? : Block → Option ℕ
  | connectReq data => some data
  | _ => none

/-- What libuv has to call back for, if anything: the request for the address, the request to
connect, a socket that is read from, or one that is being closed. -/
inductive Pending where
  | lookup
  | connecting (req : ℕ)
  | reading (client : ℕ)
  | closing (client : ℕ)
  | nothing
  deriving DecidableEq, Repr

structure Client where
  heap : Heap Block
  pending : Pending
  stderr : List Line
  deriving DecidableEq, Repr

/-- The callbacks of libuv: `getaddrinfo_cb` with its status, the address and what `uv_tcp_connect`
returns there; `connect_cb`; `read_cb`, with what is in its buffer after what was read, and what
`malloc` has in the copy; and the end of `uv_close`, which has no callback. -/
inductive Event where
  | resolved (status : ℤ) (ip : Ip4) (connect : ℤ)
  | connected (req : ℕ) (status : ℤ)
  | read (client : ℕ) (r : ReadResult) (rest : Bytes) (junk : ℕ → UInt8)
  | closed (client : ℕ)

/-- The state in which `main` calls `uv_run`. -/
def init : Client := ⟨.empty, .lookup, [.node]⟩

/-- `main` up to `uv_run`, with what `uv_getaddrinfo` returns. -/
def main (getaddrinfo : ℤ) : Except Stop Client := do
  ifError getaddrinfo
  .ok init

/-! ### The address -/

/-- An address as `uv_ip4_name` writes it. -/
def dottedQuad (ip : Ip4) : Bytes :=
  decimal ip.a.toNat ++ 46 :: decimal ip.b.toNat ++ 46 :: decimal ip.c.toNat ++ 46 ::
    decimal ip.d.toNat

/-- `uv_ip4_name` into a buffer of zeros that it is told to be of this size. -/
def uvIp4Name (ip : Ip4) (size : ℕ) : Bytes :=
  if (dottedQuad ip).length < size then dottedQuad ip else []

/-! ### The callbacks -/

/-- `if (status < 0) ERROR(msg, status)`. -/
def ifNegative (status : ℤ) : Except Stop Unit :=
  if status < 0 then .error (.assertFailed "0") else .ok ()

def free (h : Heap Block) (p : ℕ) : Except Stop (Heap Block) := do
  let _ ← deref (h.get? p) "free"
  .ok (h.free p)

/-- `cpy[i] = c`. -/
def store (block : Bytes) (i : ℤ) (c : UInt8) : Except Stop Bytes :=
  if 0 ≤ i ∧ i < block.length then .ok (block.set i.toNat c) else .error (.undefined "cpy[len]")

/-- `sizeof(char*)`. -/
def sizeofPointer : ℤ := 8

/-- What `malloc` finds; a negative size is taken for one that is larger than any block. -/
def malloc (size : ℤ) (junk : ℕ → UInt8) : Bytes := (List.range size.toNat).map junk

def terminatedCpy (h : Heap Block) (orig : ℕ) (len : ℤ) (junk : ℕ → UInt8) :
    Except Stop (Heap Block × ℕ) := do
  let cpy ← store (malloc (sizeofPointer * (len + 1)) junk) len 0
  let block ← deref ((h.get? orig).bind Block.chars?) "orig"
  let copied ← deref (CString.strncpy len.toNat block) "strncpy"
  .ok (h.alloc (.chars (copied ++ cpy.drop len.toNat)), h.next)

/-- `uv_tcp_connect` may fail, which the callback does not look at; then nothing is called back. -/
def getaddrinfoCb (s : Client) (res : ℕ) (status : ℤ) (ip : Ip4) (connect : ℤ) :
    Except Stop Client := do
  ifNegative status
  let addr := uvIp4Name ip 16
  let socket := s.heap.next
  let h := s.heap.alloc .socket
  let connectReq := h.next
  let h := h.alloc (.connectReq socket)
  let pending := if connect = 0 then .connecting connectReq else .nothing
  let h ← free h res
  .ok ⟨h, pending, s.stderr ++ [.address addr]⟩

def connectCb (s : Client) (req : ℕ) (status : ℤ) : Except Stop Client := do
  ifNegative status
  let socket ← deref ((s.heap.get? req).bind Block.connectReq?) "req->data"
  let _ ← deref (s.heap.get? socket) "uv_read_start"
  let h ← free s.heap req
  .ok { s with heap := h, pending := .reading socket }

def readCb (s : Client) (client : ℕ) (nread : ℤ) (base : ℕ) (junk : ℕ → UInt8) :
    Except Stop Client :=
  if nread = UV_EOF then do
    let h ← free s.heap client
    .ok ⟨h, .closing client, s.stderr ++ [.gotEof]⟩
  else do
    let (h, cpy) ← terminatedCpy s.heap base nread junk
    let text ← deref ((h.get? cpy).bind Block.chars?) "cpy"
    let h ← free h cpy
    let h ← free h base
    .ok { s with heap := h, stderr := s.stderr ++ [.received (CString.text text)] }

/-- libuv takes the closed handle off its list. -/
def finishClose (s : Client) (client : ℕ) : Except Stop Client := do
  let _ ← deref (s.heap.get? client) "uv__finish_close"
  .ok { s with pending := .nothing }

/-- Before `getaddrinfo_cb` libuv allocates the list of addresses, before `read_cb` it calls
`alloc_cb` and reads into the front of the buffer. -/
def dispatch (s : Client) : Event → Except Stop Client
  | .resolved status ip connect =>
    getaddrinfoCb { s with heap := s.heap.alloc .addrinfo } s.heap.next status ip connect
  | .connected req status => connectCb s req status
  | .read client r rest junk =>
    readCb { s with heap := s.heap.alloc (.chars (r.data ++ rest)) } client r.nread s.heap.next junk
  | .closed client => finishClose s client

/-- Libuv calls back for what is pending. -/
def dnsClient : EventLoop Client Event Stop where
  enabled s
    | .resolved _ _ _ => s.pending = .lookup
    | .connected req _ => s.pending = .connecting req
    | .read client _ _ _ => s.pending = .reading client
    | .closed client => s.pending = .closing client
  dispatch := dispatch

/-- Decides what may come next, for the witnesses. -/
def decideEnabled (s : Client) : (e : Event) → Decidable (dnsClient.enabled s e)
  | .resolved _ _ _ => inferInstanceAs (Decidable (s.pending = .lookup))
  | .connected req _ => inferInstanceAs (Decidable (s.pending = .connecting req))
  | .read client _ _ _ => inferInstanceAs (Decidable (s.pending = .reading client))
  | .closed client => inferInstanceAs (Decidable (s.pending = .closing client))

instance (s : Client) (e : Event) : Decidable (dnsClient.enabled s e) := decideEnabled s e

/-! ### The address is printed in full -/

theorem dottedQuad_fits (ip : Ip4) : uvIp4Name ip 16 = dottedQuad ip := by
  have hlen : ∀ b : UInt8, (decimal b.toNat).length ≤ 3 := by
    intro b
    have hlt : b.toNat < 256 := b.toNat_lt
    exact (decimal_length_le_iff (by omega)).mpr (by omega)
  apply if_pos
  have h0 := hlen ip.a
  have h1 := hlen ip.b
  have h2 := hlen ip.c
  have h3 := hlen ip.d
  simp only [dottedQuad, List.length_append, List.length_cons]
  omega

/-! ### The copy -/

/-- A copy of what was read prints as the string that was read; only its block is new. -/
theorem terminatedCpy_ok {h : Heap Block} {orig : ℕ} {data rest : Bytes} (junk : ℕ → UInt8)
    (horig : h.get? orig = some (.chars (data ++ rest))) :
    ∃ copy, terminatedCpy h orig data.length junk = .ok (h.alloc (.chars copy), h.next) ∧
      CString.text copy = CString.text data := by
  have hsize : (malloc (sizeofPointer * (data.length + 1)) junk).length
      = 8 * (data.length + 1) := by
    rw [malloc, List.length_map, List.length_range, sizeofPointer]
    omega
  have hin : data.length < (malloc (sizeofPointer * (data.length + 1)) junk).length := by omega
  have hstore : store (malloc (sizeofPointer * (data.length + 1)) junk) data.length 0
      = .ok ((malloc (sizeofPointer * (data.length + 1)) junk).set data.length 0) :=
    if_pos ⟨by omega, by exact_mod_cast hin⟩
  have hcopied : CString.strncpy data.length (data ++ rest)
      = some ((CString.text data).takeD data.length 0) := by
    rw [CString.strncpy_of_le (by simp), List.take_left]
  refine ⟨_, bind_ok_iff.mpr ⟨_, hstore, bind_ok_iff.mpr ⟨data ++ rest, ?_,
    bind_ok_iff.mpr ⟨(CString.text data).takeD data.length 0, ?_, rfl⟩⟩⟩, ?_⟩
  · rw [horig]
    rfl
  · rw [Int.toNat_natCast, hcopied]
    rfl
  · have hlen : (CString.text data).length ≤ data.length :=
      (List.takeWhile_prefix _).length_le
    rw [Int.toNat_natCast, List.set_eq_take_append_cons_drop, if_pos hin,
      List.drop_left' (List.length_take_of_le hin.le)]
    exact CString.text_takeD_append (fun c hc => CString.ne_zero_of_mem_text hc) hlen _

theorem terminatedCpy_negative {h : Heap Block} {orig : ℕ} {len : ℤ} (junk : ℕ → UInt8)
    (hneg : len < 0) : terminatedCpy h orig len junk = .error (.undefined "cpy[len]") := by
  have hout : ¬ (0 ≤ len ∧ len < (malloc (sizeofPointer * (len + 1)) junk).length) := by omega
  rw [terminatedCpy, store, if_neg hout]
  rfl

/-! ### What each callback does -/

section

variable {s u : Client} {status connect : ℤ} {ip : Ip4} {req client : ℕ} {r : ReadResult}

theorem ifNegative_bind {α : Type} (x : Except Stop α) :
    (ifNegative status >>= fun _ => x) = if status < 0 then .error (.assertFailed "0") else x := by
  unfold ifNegative
  split <;> rfl

theorem free_eq {h : Heap Block} {p : ℕ} {b : Block} (hp : h.get? p = some b) :
    free h p = .ok (h.free p) := by
  rw [free, hp]
  rfl

theorem dispatch_resolved : dispatch s (.resolved status ip connect) =
    if status < 0 then .error (.assertFailed "0")
    else .ok ⟨(((s.heap.alloc .addrinfo).alloc .socket).alloc
        (.connectReq (s.heap.next + 1))).free s.heap.next,
      if connect = 0 then .connecting (s.heap.next + 2) else .nothing,
      s.stderr ++ [.address (dottedQuad ip)]⟩ := by
  have hres : (((s.heap.alloc .addrinfo).alloc .socket).alloc
      (.connectReq (s.heap.alloc .addrinfo).next)).get? s.heap.next = some .addrinfo :=
    Heap.get?_alloc_of_live (Heap.get?_alloc_of_live (Heap.get?_alloc_next _ _) _) _
  rw [dispatch, getaddrinfoCb, ifNegative_bind, dottedQuad_fits]
  show (if status < 0 then (.error (.assertFailed "0") : Except Stop Client) else do
    let h ← free (((s.heap.alloc .addrinfo).alloc .socket).alloc
      (.connectReq (s.heap.alloc .addrinfo).next)) s.heap.next
    .ok ⟨h, if connect = 0 then .connecting ((s.heap.alloc .addrinfo).alloc .socket).next
      else .nothing, s.stderr ++ [.address (dottedQuad ip)]⟩) = _
  rw [free_eq hres]
  simp only [Heap.next_alloc]
  rfl

theorem dispatch_connected {b : Block} (hreq : s.heap.get? req = some (.connectReq client))
    (hclient : s.heap.get? client = some b) : dispatch s (.connected req status) =
    if status < 0 then .error (.assertFailed "0")
    else .ok { s with heap := s.heap.free req, pending := .reading client } := by
  rw [dispatch, connectCb, ifNegative_bind, hreq]
  show (if status < 0 then _ else do
    let _ ← deref (s.heap.get? client) "uv_read_start"
    let h ← free s.heap req
    .ok { s with heap := h, pending := .reading client }) = _
  rw [hclient, free_eq hreq]
  rfl

theorem dispatch_eof {b : Block} (rest : Bytes) (junk : ℕ → UInt8)
    (hclient : s.heap.get? client = some b) (hr : r.nread = UV_EOF) :
    dispatch s (.read client r rest junk) =
      .ok ⟨(s.heap.alloc (.chars (r.data ++ rest))).free client, .closing client,
        s.stderr ++ [.gotEof]⟩ := by
  rw [dispatch, readCb, if_pos hr, free_eq (Heap.get?_alloc_of_live hclient _)]
  rfl

theorem dispatch_readError (rest : Bytes) (junk : ℕ → UInt8) (hneg : r.nread < 0)
    (hr : r.nread ≠ UV_EOF) :
    dispatch s (.read client r rest junk) = .error (.undefined "cpy[len]") := by
  rw [dispatch, readCb, if_neg hr, terminatedCpy_negative junk hneg]
  rfl

/-- The buffer and its copy are gone again when `read_cb` returns. -/
theorem dispatch_data (s : Client) (client : ℕ) {r : ReadResult} (rest : Bytes)
    (junk : ℕ → UInt8) (hr : 0 ≤ r.nread) :
    ∃ h : Heap Block, (∀ p, h.get? p = s.heap.get? p) ∧ dispatch s (.read client r rest junk) =
      .ok { s with heap := h, stderr := s.stderr ++ [.received (CString.text r.data)] } := by
  have hne : r.nread ≠ UV_EOF := ne_of_gt (lt_of_lt_of_le (by decide) hr)
  have hlen : r.nread = r.data.length := by
    rw [r.valid, Int.toNat_of_nonneg hr]
  have hbase : (s.heap.alloc (.chars (r.data ++ rest))).get? s.heap.next
      = some (.chars (r.data ++ rest)) := Heap.get?_alloc_next _ _
  obtain ⟨copy, hcopy, htext⟩ := terminatedCpy_ok junk hbase
  have hfreed : ∀ p, (((s.heap.alloc (.chars (r.data ++ rest))).alloc (.chars copy)).free
      (s.heap.alloc (.chars (r.data ++ rest))).next).get? p
        = (s.heap.alloc (.chars (r.data ++ rest))).get? p := Heap.get?_alloc_free _ _
  have hcpy : ((s.heap.alloc (.chars (r.data ++ rest))).alloc (.chars copy)).get?
      (s.heap.alloc (.chars (r.data ++ rest))).next = some (.chars copy) := Heap.get?_alloc_next _ _
  have hbuf : (((s.heap.alloc (.chars (r.data ++ rest))).alloc (.chars copy)).free
      (s.heap.alloc (.chars (r.data ++ rest))).next).get? s.heap.next
        = some (.chars (r.data ++ rest)) := (hfreed _).trans hbase
  refine ⟨(((s.heap.alloc (.chars (r.data ++ rest))).alloc (.chars copy)).free
    (s.heap.alloc (.chars (r.data ++ rest))).next).free s.heap.next, fun p => ?_, ?_⟩
  · rw [Heap.get?_free, hfreed, Heap.get?_alloc]
    by_cases hp : p = s.heap.next
    · rw [if_pos hp, hp, Heap.get?_next]
    · rw [if_neg hp, if_neg hp]
  · rw [dispatch, readCb, if_neg hne]
    refine bind_ok_iff.mpr ⟨_, hlen ▸ hcopy, bind_ok_iff.mpr ⟨copy, by rw [hcpy]; rfl,
      bind_ok_iff.mpr ⟨_, free_eq hcpy, bind_ok_iff.mpr ⟨_, free_eq hbuf, ?_⟩⟩⟩⟩
    rw [htext]

theorem dispatch_closed (hclient : s.heap.get? client = none) :
    dispatch s (.closed client) = .error (.undefined "uv__finish_close") := by
  rw [dispatch, finishClose, hclient]
  rfl

/-! ### The invariant -/

/-- The blocks there are, by what is pending. -/
def Holds (h : Heap Block) : Pending → Prop
  | .lookup => ∀ p, h.get? p = none
  | .connecting req => ∃ client, client ≠ req ∧
      ∀ p, h.get? p = if p = req then some (.connectReq client)
        else if p = client then some .socket else none
  | .reading client => ∀ p, h.get? p = if p = client then some .socket else none
  | .closing client => ∃ base buffer, base ≠ client ∧
      ∀ p, h.get? p = if p = base then some (.chars buffer) else none
  | .nothing => ∃ client req, client ≠ req ∧
      ∀ p, h.get? p = if p = req then some (.connectReq client)
        else if p = client then some .socket else none

/-- What an event shows. -/
def shown : Event → List Line
  | .resolved _ ip _ => [.address (dottedQuad ip)]
  | .connected _ _ => []
  | .read _ r _ _ => if r.nread = UV_EOF then [.gotEof] else [.received (CString.text r.data)]
  | .closed _ => []

/-- The callbacks that do not return: those that get an error, but for the end of the stream, and
libuv itself when it has a freed socket to close. -/
def Fails : Event → Prop
  | .resolved status _ _ => status < 0
  | .connected _ status => status < 0
  | .read _ r _ _ => r.nread < 0 ∧ r.nread ≠ UV_EOF
  | .closed _ => True

/-- The one way to be left with nothing to wait for. -/
def ConnectFailed (es : List Event) : Prop :=
  ∃ status ip connect, connect ≠ 0 ∧ es = [.resolved status ip connect]

/-- **The invariant.** -/
structure Sound (es : List Event) (s : Client) : Prop where
  holds : Holds s.heap s.pending
  printed : s.stderr = .node :: es.flatMap shown
  lookup : s.pending = .lookup ↔ es = []
  nothing : s.pending = .nothing ↔ ConnectFailed es

theorem init_sound : Sound [] init where
  holds := Heap.get?_empty
  printed := rfl
  lookup := ⟨fun _ => rfl, fun _ => rfl⟩
  nothing := ⟨nofun, fun ⟨_, _, _, _, h⟩ => by cases h⟩

theorem connectFailed_snoc {es : List Event} {e : Event} (h : ConnectFailed (es ++ [e])) :
    es = [] ∧ ∃ status ip connect, connect ≠ 0 ∧ e = .resolved status ip connect := by
  obtain ⟨status, ip, connect, hconnect, heq⟩ := h
  obtain ⟨rfl, hlast⟩ : es = [] ∧ [e] = [.resolved status ip connect] := List.append_inj' heq rfl
  exact ⟨rfl, status, ip, connect, hconnect, List.head_eq_of_cons_eq hlast⟩

/-- A step that leaves a request or a handle pending. -/
theorem Sound.snoc {es : List Event} {e : Event} (hs : Sound es s) (hholds : Holds u.heap u.pending)
    (hstderr : u.stderr = s.stderr ++ shown e) (hlookup : u.pending ≠ .lookup)
    (hnothing : u.pending = .nothing ↔ ConnectFailed (es ++ [e])) : Sound (es ++ [e]) u where
  holds := hholds
  printed := by
    rw [hstderr, hs.printed, List.flatMap_append]
    simp
  lookup := ⟨fun h => absurd h hlookup, by simp⟩
  nothing := hnothing

theorem Sound.resolved {es : List Event} (hs : Sound es s) (he : s.pending = .lookup)
    (hok : dispatch s (.resolved status ip connect) = .ok u) :
    Sound (es ++ [.resolved status ip connect]) u := by
  have hnone : ∀ p, s.heap.get? p = none := by
    have hholds := hs.holds
    rwa [he] at hholds
  rw [dispatch_resolved] at hok
  split at hok
  · cases hok
  · cases hok
    have hblocks : ∀ p, ((((s.heap.alloc .addrinfo).alloc .socket).alloc
        (.connectReq (s.heap.next + 1))).free s.heap.next).get? p
          = if p = s.heap.next + 2 then some (.connectReq (s.heap.next + 1))
            else if p = s.heap.next + 1 then some .socket else none := by
      intro p
      simp only [Heap.get?_free, Heap.get?_alloc, Heap.next_alloc, hnone]
      split
      · rename_i hp
        rw [hp, if_neg (by omega), if_neg (by omega)]
      · rfl
    refine hs.snoc ?_ rfl ?_ ?_
    · by_cases hconnect : connect = 0
      · show Holds _ (if connect = 0 then _ else _)
        rw [if_pos hconnect]
        exact ⟨s.heap.next + 1, by omega, hblocks⟩
      · show Holds _ (if connect = 0 then _ else _)
        rw [if_neg hconnect]
        exact ⟨s.heap.next + 1, s.heap.next + 2, by omega, hblocks⟩
    · show (if connect = 0 then _ else _) ≠ Pending.lookup
      split <;> nofun
    · show (if connect = 0 then _ else _) = Pending.nothing ↔ _
      constructor
      · intro hnothing
        have hconnect : connect ≠ 0 := by
          rintro rfl
          cases hnothing
        rw [hs.lookup.mp he]
        exact ⟨status, ip, connect, hconnect, rfl⟩
      · intro hfailed
        obtain ⟨-, status', ip', connect', hconnect, heq⟩ := connectFailed_snoc hfailed
        cases heq
        exact if_neg hconnect

theorem Sound.connected {es : List Event} (hs : Sound es s) (he : s.pending = .connecting req)
    (hok : dispatch s (.connected req status) = .ok u) :
    Sound (es ++ [.connected req status]) u := by
  have hholds := hs.holds
  rw [he] at hholds
  obtain ⟨client, hne, hblocks⟩ := hholds
  have hreq : s.heap.get? req = some (.connectReq client) := by rw [hblocks, if_pos rfl]
  have hclient : s.heap.get? client = some .socket := by rw [hblocks, if_neg hne, if_pos rfl]
  rw [dispatch_connected hreq hclient] at hok
  split at hok
  · cases hok
  · cases hok
    refine hs.snoc (fun p => ?_) (by simp [shown]) (by nofun) ?_
    · rw [Heap.get?_free, hblocks]
      by_cases hp : p = req
      · rw [if_pos hp, if_neg (by rw [hp]; exact Ne.symm hne)]
      · rw [if_neg hp, if_neg hp]
    · refine ⟨nofun, fun hfailed => ?_⟩
      obtain ⟨-, _, _, _, -, heq⟩ := connectFailed_snoc hfailed
      cases heq

theorem Sound.read {es : List Event} {rest : Bytes} {junk : ℕ → UInt8} (hs : Sound es s)
    (he : s.pending = .reading client) (hok : dispatch s (.read client r rest junk) = .ok u) :
    Sound (es ++ [.read client r rest junk]) u := by
  have hblocks : ∀ p, s.heap.get? p = if p = client then some .socket else none := by
    have hholds := hs.holds
    rwa [he] at hholds
  have hclient : s.heap.get? client = some .socket := by rw [hblocks, if_pos rfl]
  have hfailed : ¬ ConnectFailed (es ++ [.read client r rest junk]) := by
    intro hfailed
    obtain ⟨-, _, _, _, -, heq⟩ := connectFailed_snoc hfailed
    cases heq
  by_cases hr : r.nread = UV_EOF
  · rw [dispatch_eof rest junk hclient hr] at hok
    cases hok
    have hlt : client < s.heap.next := Heap.lt_next hclient
    refine hs.snoc ⟨s.heap.next, r.data ++ rest, by omega, fun p => ?_⟩ (by simp [shown, hr])
      (by nofun) ⟨nofun, fun h => absurd h hfailed⟩
    rw [Heap.get?_free, Heap.get?_alloc, hblocks]
    by_cases hp : p = client
    · rw [if_pos hp, if_neg (by omega)]
    · rw [if_neg hp, if_neg hp]
  · by_cases hneg : r.nread < 0
    · rw [dispatch_readError rest junk hneg hr] at hok
      cases hok
    · obtain ⟨h, hsame, hdata⟩ :=
        dispatch_data s client rest junk (not_lt.mp hneg)
      rw [hdata] at hok
      cases hok
      refine hs.snoc ?_ (by simp [shown, hr]) ?_ ?_
      · show Holds h s.pending
        rw [he]
        exact fun p => (hsame p).trans (hblocks p)
      · show s.pending ≠ .lookup
        rw [he]
        nofun
      · show s.pending = .nothing ↔ _
        rw [he]
        exact ⟨nofun, fun h => absurd h hfailed⟩

/-- A socket that is being closed has been freed. -/
theorem Sound.closed {es : List Event} (hs : Sound es s) (he : s.pending = .closing client) :
    dispatch s (.closed client) = .error (.undefined "uv__finish_close") := by
  have hholds := hs.holds
  rw [he] at hholds
  obtain ⟨base, buffer, hne, hblocks⟩ := hholds
  exact dispatch_closed (by rw [hblocks, if_neg (Ne.symm hne)])

/-- **One step.** -/
theorem Sound.step {es : List Event} {e : Event} (hs : Sound es s) (he : dnsClient.enabled s e)
    (hok : dnsClient.dispatch s e = .ok u) : Sound (es ++ [e]) u := by
  cases e with
  | resolved status ip connect => exact hs.resolved he hok
  | connected req status => exact hs.connected he hok
  | read client r rest junk => exact hs.read he hok
  | closed client =>
    have hok' : dispatch s (.closed client) = .ok u := hok
    rw [hs.closed he] at hok'
    cases hok'

theorem sound_of_run {es : List Event} (h : dnsClient.Run init es s) : Sound es s :=
  h.history init_sound fun _ _ _ _ hs he hok => hs.step he hok

theorem Sound.returns_iff {es : List Event} {e : Event} (hs : Sound es s)
    (he : dnsClient.enabled s e) : (∃ u, dnsClient.dispatch s e = .ok u) ↔ ¬ Fails e := by
  have hholds := hs.holds
  cases e with
  | resolved status ip connect =>
    show (∃ u, dispatch s (.resolved status ip connect) = .ok u) ↔ ¬ status < 0
    rw [dispatch_resolved]
    by_cases hneg : status < 0 <;> simp [hneg]
  | connected req status =>
    have hpending : s.pending = .connecting req := he
    rw [hpending] at hholds
    obtain ⟨client, hne, hblocks⟩ := hholds
    have hreq : s.heap.get? req = some (.connectReq client) := by rw [hblocks, if_pos rfl]
    have hclient : s.heap.get? client = some .socket := by rw [hblocks, if_neg hne, if_pos rfl]
    show (∃ u, dispatch s (.connected req status) = .ok u) ↔ ¬ status < 0
    rw [dispatch_connected hreq hclient]
    by_cases hneg : status < 0 <;> simp [hneg]
  | read client r rest junk =>
    have hpending : s.pending = .reading client := he
    rw [hpending] at hholds
    have hclient : s.heap.get? client = some .socket := (hholds client).trans (if_pos rfl)
    show (∃ u, dispatch s (.read client r rest junk) = .ok u) ↔ ¬ (r.nread < 0 ∧ r.nread ≠ UV_EOF)
    by_cases hr : r.nread = UV_EOF
    · rw [dispatch_eof rest junk hclient hr]
      simp [hr]
    · by_cases hneg : r.nread < 0
      · rw [dispatch_readError rest junk hneg hr]
        simp [hneg, hr]
      · obtain ⟨h, -, hdata⟩ :=
          dispatch_data s client rest junk (not_lt.mp hneg)
        rw [hdata]
        simp [hneg]
  | closed client =>
    show (∃ u, dispatch s (.closed client) = .ok u) ↔ ¬ True
    rw [hs.closed he]
    simp

end

/-! ### Every run -/

/-- **What the server sends is printed.**  In every run the client has printed the address and what
it received, buffer by buffer, up to the first zero in each.  While it reads, the socket is the only
block it holds, so that every buffer and every copy has been freed. -/
theorem received_of_run {es : List Event} {s : Client} (hrun : dnsClient.Run init es s) :
    s.stderr = .node :: es.flatMap shown ∧
      ∀ client, s.pending = .reading client →
        ∀ p, s.heap.get? p = if p = client then some .socket else none := by
  have hs := sound_of_run hrun
  refine ⟨hs.printed, fun client hreading => ?_⟩
  have hholds := hs.holds
  rwa [hreading] at hholds

/-- Two buffers, the second with a zero in it. -/
theorem received_of_run_twoBuffers : ∃ es s, dnsClient.Run init es s ∧
    s.stderr = [.node, .address (ascii "10.0.0.7"), .received [72, 105], .received [33]] ∧
    s.stderr = .node :: es.flatMap shown ∧
      ∀ client, s.pending = .reading client →
        ∀ p, s.heap.get? p = if p = client then some .socket else none := by
  obtain ⟨s, hrun, hlines⟩ := EventLoop.exists_run_of_plays
    (show (dnsClient.plays init [.resolved 0 ⟨10, 0, 0, 7⟩ 0, .connected 2 0,
        .read 1 (.chunk [72, 105]) [0, 0] (fun _ => 65),
        .read 1 (.chunk [33, 0, 34]) [] (fun _ => 65)]).any
      (fun s => s.stderr == [.node, .address (ascii "10.0.0.7"), .received [72, 105],
        .received [33]]) = true by decide +kernel)
  exact ⟨_, s, hrun, eq_of_beq hlines, received_of_run hrun⟩

end LibuvDox.DnsClient
