import LibuvDox.Lib.ByteOrder
import LibuvDox.Lib.EventLoop
import LibuvDox.Lib.Heap
import LibuvDox.Uv

/-!
# 06-udp-dhcp/main.c

The client broadcasts a DHCP discover message and prints what the first datagram that comes back
offers.  `alloc_cb` hands out fresh memory, libuv puts the datagram at its front, and `recv_cb`
decodes bytes 16 to 19 of the buffer without having looked at how many bytes there are.

* `printDhcpInfo_eq`: on hosts of both byte orders the numbers printed are the four bytes at 16.
* `decodesDatagram_iff`: they come from the datagram, and from nothing else, exactly if it has 20
  bytes.
* `run_length_le_one`, `buffers_freed`: one callback is all there is, and it frees its buffer.
-/

namespace LibuvDox.UdpDhcp

/-- What the callbacks print: the sender's address is the text that `uv_ip4_name` makes of it. -/
inductive Printed where
  | recvError
  | recvFrom (sender : Bytes)
  | offeredIp (a b c d : UInt8)
  deriving DecidableEq, Repr

/-- The buffers of `alloc_cb`, whether the socket is still received from, how often it was passed
to `uv_close`, and the output. -/
structure Dhcp where
  heap : Heap Bytes
  receiving : Bool
  closes : ℕ
  printed : List Printed
  deriving DecidableEq, Repr

/-- The end of `start_recv`. -/
def init : Dhcp := ⟨.empty, true, 0, []⟩

/-- What libuv has for `recv_cb`: a datagram, at the front of a buffer that holds `rest` after it;
nothing, for which there is no sender either; or an error.  Or `malloc` has no memory. -/
inductive RecvEvent where
  | datagram (sender data rest : Bytes)
  | nothing (block : Bytes)
  | fail (e : UvError) (block : Bytes)
  | noMemory
  deriving DecidableEq, Repr

namespace Dhcp

def print (s : Dhcp) (p : Printed) : Dhcp := { s with printed := s.printed ++ [p] }

end Dhcp

/-- `((unsigned int*) base)[i]`. -/
def asInteger (host : ByteOrder) (block : Bytes) (i : ℕ) : Except Stop UInt32 :=
  if 4 * i + 4 ≤ block.length then
    .ok (UInt32.ofNat (host.load ((block.drop (4 * i)).take 4)))
  else .error (.undefined "as_integer")

/-- The bytes the host keeps a number in, as the network reads them: most significant first. -/
def ntohl (host : ByteOrder) (x : UInt32) : UInt32 :=
  UInt32.ofNat (ByteOrder.big.load (host.store 4 x.toNat))

def printDhcpInfo (host : ByteOrder) (block : Bytes) : Except Stop Printed := do
  let integer ← asInteger host block 4
  let ipbin := ntohl host integer
  let ip : Fin 4 → UInt8 := fun i =>
    ((ipbin >>> UInt32.ofNat (i.val * 8)) &&& 0xff).toUInt8
  .ok (.offeredIp (ip 3) (ip 2) (ip 1) (ip 0))

/-- `alloc_cb`, and what libuv has in the buffer when `recv_cb` gets it. -/
def allocCb (s : Dhcp) : Option Bytes → Except Stop (Dhcp × ℕ)
  | none => .error (.assertFailed "buf->base != NULL")
  | some block => .ok ({ s with heap := s.heap.alloc block }, s.heap.next)

def free (s : Dhcp) (base : ℕ) : Except Stop Dhcp := do
  let _ ← deref (s.heap.get? base) "free"
  .ok { s with heap := s.heap.free base }

/-- `uv_close` ends the reception as well. -/
def recvCb (host : ByteOrder) (s : Dhcp) (nread : ℤ) (base : ℕ) (addr : Option Bytes) :
    Except Stop Dhcp :=
  if nread < 0 then
    let s := s.print .recvError
    free { s with receiving := false, closes := s.closes + 1 } base
  else do
    let sender ← deref addr "addr"
    let s := s.print (.recvFrom sender)
    let block ← deref (s.heap.get? base) "buf->base"
    let info ← printDhcpInfo host block
    let s ← free (s.print info) base
    .ok { s with receiving := false }

def dispatch (host : ByteOrder) (s : Dhcp) : RecvEvent → Except Stop Dhcp
  | .datagram sender data rest => do
    let (s, base) ← allocCb s (some (data ++ rest))
    recvCb host s data.length base (some sender)
  | .nothing block => do
    let (s, base) ← allocCb s (some block)
    recvCb host s 0 base none
  | .fail e block => do
    let (s, base) ← allocCb s (some block)
    recvCb host s e.code base none
  | .noMemory => do
    let (s, base) ← allocCb s none
    recvCb host s 0 base none

def dhcpClient (host : ByteOrder) : EventLoop Dhcp RecvEvent Stop :=
  ⟨fun s _ => s.receiving = true, dispatch host⟩

instance (host : ByteOrder) (s : Dhcp) (e : RecvEvent) :
    Decidable ((dhcpClient host).enabled s e) :=
  inferInstanceAs (Decidable (s.receiving = true))

/-! ### The offered address -/

theorem load_lt_of_length_eq_four (order : ByteOrder) {bytes : Bytes} (h : bytes.length = 4) :
    order.load bytes < 2 ^ 32 := by
  have hload := order.load_lt bytes
  rw [h] at hload
  exact hload

/-- What the host loads is turned into what the network sent. -/
theorem ntohl_load (host : ByteOrder) {bytes : Bytes} (h : bytes.length = 4) :
    ntohl host (UInt32.ofNat (host.load bytes)) = UInt32.ofNat (ByteOrder.big.load bytes) := by
  have hword : (UInt32.ofNat (host.load bytes)).toNat = host.load bytes :=
    UInt32.toNat_ofNat_of_lt' (load_lt_of_length_eq_four host h)
  have hround : host.store 4 (host.load bytes) = bytes := h ▸ host.store_load bytes
  rw [ntohl, hword, hround]

example : ntohl .little 0x0700000a = 0x0a000007 ∧ ntohl .big 0x0a000007 = 0x0a000007 := by decide

/-- A byte of a word, as the loop over `ip` takes it out. -/
theorem toUInt8_shift_and {x : ℕ} (hx : x < 2 ^ 32) (i : Fin 4) :
    ((UInt32.ofNat x >>> UInt32.ofNat (i.val * 8)) &&& 0xff).toUInt8
      = UInt8.ofNat ((x >>> (i.val * 8)) &&& 0xff) := by
  have hword : x % 4294967296 = x := Nat.mod_eq_of_lt hx
  have hshift : i.val * 8 % 32 = i.val * 8 := Nat.mod_eq_of_lt (by omega)
  apply UInt8.toNat_inj.mp
  simp [hword, hshift]

/-- **Decoding.**  Whatever the byte order of the host, the bytes from 16 on are printed in this
order. -/
theorem printDhcpInfo_eq (host : ByteOrder) {block : Bytes} {a b c d : UInt8}
    (h : (block.drop 16).take 4 = [a, b, c, d]) :
    printDhcpInfo host block = .ok (.offeredIp a b c d) := by
  have hfits : 4 * 4 + 4 ≤ block.length := by
    have hlen := congrArg List.length h
    simp at hlen
    omega
  have hword : asInteger host block 4 = .ok (UInt32.ofNat (host.load [a, b, c, d])) := by
    rw [asInteger, if_pos hfits, h]
  have hlt : ByteOrder.big.load [a, b, c, d] < 2 ^ 32 := load_lt_of_length_eq_four _ rfl
  have hip : ∀ i : Fin 4, ((UInt32.ofNat (ByteOrder.big.load [a, b, c, d])
      >>> UInt32.ofNat (i.val * 8)) &&& 0xff).toUInt8 = [d, c, b, a].getD i.val 0 := by
    intro i
    rw [toUInt8_shift_and hlt, ByteOrder.load_big_shift]
    rfl
  have hnet : ntohl host (UInt32.ofNat (host.load [a, b, c, d]))
      = UInt32.ofNat (ByteOrder.big.load [a, b, c, d]) := ntohl_load host rfl
  simp only [printDhcpInfo, hword, bind, Except.bind, hnet, hip]
  rfl

theorem exists_bytes {block : Bytes} (h : 20 ≤ block.length) :
    ∃ a b c d, (block.drop 16).take 4 = [a, b, c, d] := by
  have hlen : ((block.drop 16).take 4).length = 4 := by simp; omega
  match hbytes : (block.drop 16).take 4, hlen with
  | [a, b, c, d], _ => exact ⟨a, b, c, d, rfl⟩

/-- The integer is read without a look at what was received, so it is only the size of the buffer
that counts. -/
theorem printDhcpInfo_short (host : ByteOrder) {block : Bytes} (h : block.length < 20) :
    printDhcpInfo host block = .error (.undefined "as_integer") := by
  have hshort : ¬ 4 * 4 + 4 ≤ block.length := by omega
  simp only [printDhcpInfo, asInteger, if_neg hshort]
  rfl

/-! ### One callback -/

/-- The state once the buffer was handed out and freed, and the reception has ended. -/
def Dhcp.received (s : Dhcp) (block : Bytes) (closes : ℕ) (out : List Printed) : Dhcp :=
  ⟨(s.heap.alloc block).free s.heap.next, false, closes, s.printed ++ out⟩

theorem dispatch_datagram (host : ByteOrder) (s : Dhcp) (sender data rest : Bytes) :
    dispatch host s (.datagram sender data rest) = (do
      let info ← printDhcpInfo host (data ++ rest)
      .ok (s.received (data ++ rest) s.closes [.recvFrom sender, info])) := by
  have hlen : ¬ (data.length : ℤ) < 0 := by omega
  have hget := s.heap.get?_alloc_next (data ++ rest)
  simp only [dispatch, allocCb, recvCb, if_neg hlen, free, Dhcp.print, hget, deref, bind,
    Except.bind]
  cases printDhcpInfo host (data ++ rest) with
  | error x => rfl
  | ok info => simp [Dhcp.received]

theorem dispatch_fail (host : ByteOrder) (s : Dhcp) (e : UvError) (block : Bytes) :
    dispatch host s (.fail e block) = .ok (s.received block (s.closes + 1) [.recvError]) := by
  have hget := s.heap.get?_alloc_next block
  simp only [dispatch, allocCb, recvCb, if_pos e.neg, free, Dhcp.print, hget, deref, bind,
    Except.bind]
  rfl

/-- What a callback that returns was called with, and what it has done. -/
theorem dispatch_cases {host : ByteOrder} {s u : Dhcp} {e : RecvEvent}
    (h : dispatch host s e = .ok u) :
    (∃ sender data rest a b c d, e = .datagram sender data rest ∧
      ((data ++ rest).drop 16).take 4 = [a, b, c, d] ∧
      u = s.received (data ++ rest) s.closes [.recvFrom sender, .offeredIp a b c d]) ∨
    (∃ x block, e = .fail x block ∧ u = s.received block (s.closes + 1) [.recvError]) := by
  cases e with
  | datagram sender data rest =>
    rw [dispatch_datagram] at h
    obtain ⟨info, hinfo, hu⟩ := bind_ok_iff.mp h
    by_cases hlen : 20 ≤ (data ++ rest).length
    · obtain ⟨a, b, c, d, hbytes⟩ := exists_bytes hlen
      rw [printDhcpInfo_eq host hbytes] at hinfo
      cases hinfo
      cases hu
      exact .inl ⟨sender, data, rest, a, b, c, d, rfl, hbytes, rfl⟩
    · rw [printDhcpInfo_short host (by omega)] at hinfo
      cases hinfo
  | nothing block => cases h
  | fail x block =>
    rw [dispatch_fail] at h
    cases h
    exact .inr ⟨x, block, rfl, rfl⟩
  | noMemory => cases h

/-- What a datagram should do: `recv_cb` returns, an address that it prints is that of bytes 16 to
19 of the datagram, and what is printed does not depend on the rest of the buffer. -/
def DecodesDatagram (host : ByteOrder) (s : Dhcp) (sender data rest : Bytes) : Prop :=
  ∃ t out, dispatch host s (.datagram sender data rest) = .ok t ∧ t.printed = s.printed ++ out ∧
    (∀ a b c d, .offeredIp a b c d ∈ out →
      20 ≤ data.length ∧ (data.drop 16).take 4 = [a, b, c, d]) ∧
    ∀ rest', rest'.length = rest.length →
      ∃ t', dispatch host s (.datagram sender data rest') = .ok t' ∧ t'.printed = t.printed

/-- The four bytes are those of the datagram, if it reaches that far. -/
theorem take_drop_append {data : Bytes} (h : 20 ≤ data.length) (rest : Bytes) :
    ((data ++ rest).drop 16).take 4 = (data.drop 16).take 4 := by
  rw [List.drop_append_of_le_length (by omega), List.take_append_of_le_length (by simp; omega)]

/-- A datagram that is long enough. -/
theorem dispatch_long (host : ByteOrder) (s : Dhcp) (sender : Bytes) {data : Bytes}
    {a b c d : UInt8} (h : (data.drop 16).take 4 = [a, b, c, d]) (hlen : 20 ≤ data.length)
    (rest : Bytes) :
    dispatch host s (.datagram sender data rest)
      = .ok (s.received (data ++ rest) s.closes [.recvFrom sender, .offeredIp a b c d]) := by
  rw [dispatch_datagram, printDhcpInfo_eq host ((take_drop_append hlen rest).trans h)]
  rfl

/-- **Offers.**  What is printed for a datagram comes from its bytes exactly if there are 20 of
them. -/
theorem decodesDatagram_iff (host : ByteOrder) (s : Dhcp) (sender data rest : Bytes) :
    DecodesDatagram host s sender data rest ↔ 20 ≤ data.length := by
  constructor
  · rintro ⟨t, out, ht, hout, hoffer, -⟩
    rcases dispatch_cases ht with ⟨sender', data', rest', a, b, c, d, he, -, rfl⟩ | ⟨_, _, he, -⟩
    · have hprinted : [.recvFrom sender', .offeredIp a b c d] = out := List.append_cancel_left hout
      have hmem : .offeredIp a b c d ∈ out := by simp [← hprinted]
      exact (hoffer a b c d hmem).1
    · cases he
  · intro hlen
    obtain ⟨a, b, c, d, hbytes⟩ := exists_bytes hlen
    refine ⟨_, _, dispatch_long host s sender hbytes hlen rest, rfl, ?_, ?_⟩
    · intro a' b' c' d' hmem
      have hsame : a' = a ∧ b' = b ∧ c' = c ∧ d' = d := by simpa using hmem
      obtain ⟨rfl, rfl, rfl, rfl⟩ := hsame
      exact ⟨hlen, hbytes⟩
    · intro rest' _
      exact ⟨_, dispatch_long host s sender hbytes hlen rest', rfl⟩

/-- An empty datagram: the client offers what the buffer happened to hold. -/
theorem empty_datagram_offers : ¬ ∀ host s sender data rest,
    DecodesDatagram host s sender data rest := by
  intro h
  obtain ⟨t, out, ht, hout, hoffer, -⟩ :=
    h .little init [] [] [0, 0, 0, 0, 0, 0, 0, 0, 0, 0, 0, 0, 0, 0, 0, 0, 10, 0, 0, 7]
  have hprinted : (dispatch .little init (.datagram [] []
      [0, 0, 0, 0, 0, 0, 0, 0, 0, 0, 0, 0, 0, 0, 0, 0, 10, 0, 0, 7])).map Dhcp.printed
      = .ok [.recvFrom [], .offeredIp 10 0 0 7] := by decide +kernel
  rw [ht] at hprinted
  have hout' : out = [.recvFrom [], .offeredIp 10 0 0 7] :=
    hout.symm.trans (Except.ok.inj hprinted)
  have hmem : .offeredIp 10 0 0 7 ∈ out := by simp [hout']
  exact absurd (hoffer 10 0 0 7 hmem).1 (by decide)

/-! ### Whole runs -/

theorem heap_of_dispatch {host : ByteOrder} {s u : Dhcp} {e : RecvEvent}
    (h : dispatch host s e = .ok u) (p : ℕ) : u.heap.get? p = s.heap.get? p := by
  rcases dispatch_cases h with ⟨_, _, _, _, _, _, _, -, -, rfl⟩ | ⟨_, _, -, rfl⟩
  · exact Heap.get?_alloc_free _ _ p
  · exact Heap.get?_alloc_free _ _ p

theorem receiving_of_dispatch {host : ByteOrder} {s u : Dhcp} {e : RecvEvent}
    (h : dispatch host s e = .ok u) : u.receiving = false := by
  rcases dispatch_cases h with ⟨_, _, _, _, _, _, _, -, -, rfl⟩ | ⟨_, _, -, rfl⟩
  · rfl
  · rfl

/-- **Buffers.**  Each callback frees the buffer it was called with. -/
theorem buffers_freed {host : ByteOrder} {es : List RecvEvent} {s : Dhcp}
    (h : (dhcpClient host).Run init es s) (p : ℕ) : s.heap.get? p = none :=
  h.invariant (P := fun s => s.heap.get? p = none) (Heap.get?_empty p)
    fun _ _ _ hs _ hok => (heap_of_dispatch hok p).trans hs

/-- **One answer.**  The first callback ends the reception. -/
theorem run_length_le_one {host : ByteOrder} {es : List RecvEvent} {s : Dhcp}
    (h : (dhcpClient host).Run init es s) : es.length ≤ 1 := by
  have hrun : es.length ≤ 1 ∧ (s.receiving = true → es = []) := by
    refine h.history (P := fun es s => es.length ≤ 1 ∧ (s.receiving = true → es = [])) ?_ ?_
    · exact ⟨Nat.zero_le 1, fun _ => rfl⟩
    · intro es t e u ⟨_, hfirst⟩ he hok
      have hes : es = [] := hfirst he
      have hended := receiving_of_dispatch hok
      refine ⟨by simp [hes], fun hu => ?_⟩
      rw [hended] at hu
      cases hu
  exact hrun.1

/-- **Offers of a run.**  If every datagram has 20 bytes, whatever address is printed was sent in
one of them. -/
theorem offer_of_run {host : ByteOrder} {es : List RecvEvent} {s : Dhcp}
    (h : (dhcpClient host).Run init es s)
    (hlong : ∀ sender data rest, .datagram sender data rest ∈ es → 20 ≤ data.length)
    {a b c d : UInt8} (hoffer : .offeredIp a b c d ∈ s.printed) :
    ∃ sender data rest, .datagram sender data rest ∈ es ∧
      (data.drop 16).take 4 = [a, b, c, d] := by
  induction h with
  | nil => cases hoffer
  | @snoc es t e u _ _ hok ih =>
    have hold : .offeredIp a b c d ∈ t.printed → ∃ sender data rest,
        .datagram sender data rest ∈ es ++ [e] ∧ (data.drop 16).take 4 = [a, b, c, d] := by
      intro ht
      obtain ⟨sender, data, rest, hmem, hbytes⟩ :=
        ih (fun _ _ _ hmem => hlong _ _ _ (List.mem_append_left _ hmem)) ht
      exact ⟨sender, data, rest, List.mem_append_left _ hmem, hbytes⟩
    rcases dispatch_cases hok with
      ⟨sender, data, rest, a', b', c', d', rfl, hbytes, rfl⟩ | ⟨x, block, -, rfl⟩
    · rcases List.mem_append.mp hoffer with ht | hnew
      · exact hold ht
      · have hmem : .datagram sender data rest ∈ es ++ [.datagram sender data rest] := by simp
        have hlen := hlong sender data rest hmem
        have hsame : a = a' ∧ b = b' ∧ c = c' ∧ d = d' := by simpa using hnew
        obtain ⟨rfl, rfl, rfl, rfl⟩ := hsame
        exact ⟨sender, data, rest, hmem, (take_drop_append hlen rest).symm.trans hbytes⟩
    · rcases List.mem_append.mp hoffer with ht | hnew
      · exact hold ht
      · simp at hnew

/-- A datagram of 20 bytes, for which its last four are printed. -/
example : ∃ s, (dhcpClient .big).Run init
    [.datagram (ascii "10.0.0.1") (List.replicate 16 0 ++ [10, 0, 0, 7]) [1, 2, 3]] s ∧
      decide (s.printed = [.recvFrom (ascii "10.0.0.1"), .offeredIp 10 0 0 7]) = true :=
  EventLoop.exists_run_of_plays (by decide +kernel)

end LibuvDox.UdpDhcp
