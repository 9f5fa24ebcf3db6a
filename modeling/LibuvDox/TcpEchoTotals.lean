import LibuvDox.TcpEchoServer

/-!
# The totals of 05-tcp-echo-server/main.c

`total_read` and `total_written` count the bytes read from all clients and those written back to
them, and both are set to zero whenever any client ends its stream.

* `totals_read`, `totals_written`: what one event does to the totals.
* `accounted_step`: an event keeps the totals meaningful unless it ends a stream while a write is
  pending to some client, or `total_read` leaves the range of `int`.
* `accounts_iff`: the totals are meaningful all along a run exactly if no event of it does that.
-/

namespace LibuvDox.TcpEchoServer

/-- The bytes in writes that are pending, over all clients. -/
def pendingBytes (s : TcpEcho) : ℕ := WriteQueue.inFlight (Finset.range s.clients) s.queue

/-- The totals differ by what is pending, and the next callback of a write will not overflow. -/
structure Accounted (s : TcpEcho) : Prop where
  nonneg : 0 ≤ s.totalWritten
  le : s.totalWritten ≤ s.totalRead
  pending : s.totalRead - s.totalWritten = pendingBytes s
  noOverflow : ∀ c status, echoServer.enabled s (.written c status) →
    echoServer.dispatch s (.written c status) ≠ .error (.undefined "int overflow")

/-- `total_read` and `total_written` are meaningful in every state of a run. -/
def Accounts (es : List EchoEvent) : Prop :=
  ∀ es₁ es₂ s, es = es₁ ++ es₂ → echoServer.Run init es₁ s → Accounted s

/-- An end of file comes when no write is pending to any client; `total_read` stays an `int`. -/
def KeepsTotals (s : TcpEcho) : EchoEvent → Prop
  | .connect _ _ => True
  | .read _ e => (e.nread = UV_EOF → ∀ c < s.clients, (s.queue c).pending = []) ∧
      (0 < e.nread → s.totalRead + e.nread < 2 ^ 31)
  | .written _ _ => True

instance (s : TcpEcho) : (e : EchoEvent) → Decidable (KeepsTotals s e)
  | .connect _ _ => isTrue trivial
  | .read _ e => inferInstanceAs (Decidable
      ((e.nread = UV_EOF → ∀ c < s.clients, (s.queue c).pending = []) ∧
        (0 < e.nread → s.totalRead + e.nread < 2 ^ 31)))
  | .written _ _ => isTrue trivial

/-! ### The counters -/

section

variable {s u : TcpEcho} {c : ℕ}

/-- A read callback sets both totals to zero, or adds to `total_read`. -/
theorem totals_read {nread : ℤ} {base : Option ℕ} (h : readCb s c nread base = .ok u) :
    u.totalRead = (if nread = UV_EOF then 0
        else if 0 < nread then toInt (s.totalRead + nread) else s.totalRead) ∧
      u.totalWritten = if nread = UV_EOF then 0 else s.totalWritten := by
  obtain ⟨r, hr, h⟩ := bind_ok_iff.mp h
  have hsame : u.totalRead = r.totalRead ∧ u.totalWritten = r.totalWritten := by
    split at h
    · rcases free_ok h with ⟨-, rfl⟩ | ⟨p, block, -, -, rfl⟩
      · exact ⟨rfl, rfl⟩
      · exact ⟨rfl, rfl⟩
    · cases h
      exact ⟨rfl, rfl⟩
  rw [hsame.1, hsame.2]
  unfold readResult at hr
  by_cases heof : nread = UV_EOF
  · rw [if_pos heof] at hr
    cases hr
    simp [heof]
  · by_cases hpos : 0 < nread
    · rw [if_neg heof, if_pos hpos] at hr
      obtain ⟨p, block, -, -, -, rfl⟩ := uvWrite_ok hr
      simp [heof, hpos, TcpEcho.setQueue]
    · rw [if_neg heof, if_neg hpos] at hr
      cases hr
      simp [heof, hpos]

/-- The callback of a write adds to `total_written`. -/
theorem totals_written {status : ℤ} {w : WriteOut UInt8} {ws : List (WriteOut UInt8)}
    (hpending : (s.queue c).pending = w :: ws) (h : written s c status = .ok u) :
    u.totalRead = s.totalRead ∧ u.totalWritten = s.totalWritten + toInt w.sent.length := by
  unfold written at h
  rw [hpending] at h
  obtain ⟨block, -, h⟩ := bind_ok_iff.mp h
  unfold writeCb at h
  by_cases hstatus : status = 0
  · subst hstatus
    obtain ⟨total, htotal, h⟩ := bind_ok_iff.mp h
    rcases free_ok h with ⟨hnone, -⟩ | ⟨p, _, -, -, rfl⟩
    · cases hnone
    · exact ⟨rfl, addInt_ok htotal⟩
  · have hne : ¬ status = 0 := hstatus
    simp only [ne_eq, hne, not_false_eq_true, if_true] at h
    cases h

/-- What a connection does to the writes and the totals. -/
theorem connectionCb_ok {status accept : ℤ} (h : connectionCb s status accept = .ok u) :
    u.clients = s.clients + 1 ∧ u.queue = s.queue ∧ u.totalRead = s.totalRead ∧
      u.totalWritten = s.totalWritten := by
  unfold connectionCb at h
  split at h
  · cases h
  · cases h
    exact ⟨rfl, rfl, rfl, rfl⟩

/-- A read callback submits a write of as many bytes as were read, if any were. -/
theorem readCb_queue {nread : ℤ} {base : Option ℕ} (h : readCb s c nread base = .ok u) :
    u.clients = s.clients ∧ (nread ≤ 0 ∧ u.queue = s.queue ∨
      ∃ w : WriteOut UInt8, 0 < nread ∧ (w.sent.length : ℤ) = nread ∧
        u.queue = Function.update s.queue c ((s.queue c).submit w)) := by
  cases readCb_ok h with
  | eof hn =>
    refine ⟨rfl, .inl ⟨?_, rfl⟩⟩
    rw [hn]
    decide
  | @data p block total hn hbase hblock hlen =>
    refine ⟨rfl, .inr ⟨⟨p, block.take nread.toNat⟩, hn, ?_, rfl⟩⟩
    simp only [List.length_take]
    omega
  | nothing hn hbase => exact ⟨rfl, .inl ⟨by omega, rfl⟩⟩
  | zero hn hbase => exact ⟨rfl, .inl ⟨by omega, rfl⟩⟩
  | error hn => exact ⟨rfl, .inl ⟨by omega, rfl⟩⟩

/-- `alloc_cb` concerns neither the writes nor the totals. -/
theorem allocCb_frame (s : TcpEcho) (buf : Option Bytes) :
    (allocCb s buf).1.clients = s.clients ∧ (allocCb s buf).1.queue = s.queue ∧
      (allocCb s buf).1.totalRead = s.totalRead ∧
      (allocCb s buf).1.totalWritten = s.totalWritten := by
  cases buf with
  | none => exact ⟨rfl, rfl, rfl, rfl⟩
  | some contents => exact ⟨rfl, rfl, rfl, rfl⟩

theorem dispatch_read_queue {e : BufferRead} (h : echoServer.dispatch s (.read c e) = .ok u) :
    u.clients = s.clients ∧ (e.nread ≤ 0 ∧ u.queue = s.queue ∨
      ∃ w : WriteOut UInt8, 0 < e.nread ∧ (w.sent.length : ℤ) = e.nread ∧
        u.queue = Function.update s.queue c ((s.queue c).submit w)) := by
  have hread : readCb (allocCb s e.buf).1 c e.nread (allocCb s e.buf).2 = .ok u := h
  obtain ⟨hclients, hqueue, -⟩ := allocCb_frame s e.buf
  have hdone := readCb_queue hread
  rwa [hclients, hqueue] at hdone

theorem dispatch_read_totals {e : BufferRead} (h : echoServer.dispatch s (.read c e) = .ok u) :
    u.totalRead = (if e.nread = UV_EOF then 0
        else if 0 < e.nread then toInt (s.totalRead + e.nread) else s.totalRead) ∧
      u.totalWritten = if e.nread = UV_EOF then 0 else s.totalWritten := by
  have hread : readCb (allocCb s e.buf).1 c e.nread (allocCb s e.buf).2 = .ok u := h
  obtain ⟨-, -, hr, hw⟩ := allocCb_frame s e.buf
  have hdone := totals_read hread
  rwa [hr, hw] at hdone

/-- The callback of a write takes it off its queue. -/
theorem written_queue {status : ℤ} (h : written s c status = .ok u) :
    ∃ w ws bytes, (s.queue c).pending = w :: ws ∧ u.clients = s.clients ∧
      u.queue = Function.update s.queue c ((s.queue c).complete bytes) := by
  obtain ⟨-, w, ws, block, total, hpending, -, rfl⟩ := written_ok h
  exact ⟨w, ws, _, hpending, rfl, rfl⟩

/-- The callback of a write stops at an overflow only where the sum leaves the range of `int`. -/
theorem written_overflow {status : ℤ}
    (h : written s c status = .error (.undefined "int overflow")) :
    ∃ w ws, (s.queue c).pending = w :: ws ∧
      ¬ (-2 ^ 31 ≤ s.totalWritten + toInt w.sent.length ∧
        s.totalWritten + toInt w.sent.length < 2 ^ 31) := by
  unfold written at h
  split at h
  · simp at h
  · rename_i w ws hpending
    refine ⟨w, ws, hpending, fun hfits => ?_⟩
    cases hblock : s.heap.get? w.base with
    | none => simp [deref, hblock, bind, Except.bind] at h
    | some block =>
      by_cases hstatus : status = 0
      · have hadd := addInt_of_fits hfits
        simp [deref, hblock, bind, Except.bind, writeCb, hstatus, hadd, free,
          TcpEcho.setQueue] at h
      · simp [deref, hblock, bind, Except.bind, writeCb, hstatus, errorMacro] at h

end

/-! ### One event -/

/-- What holds in every run beside the order of the bytes: no write is empty, and `total_read` is
an `int`. -/
structure Counted (es : List EchoEvent) (s : TcpEcho) : Prop where
  sound : Sound es s
  nonempty : ∀ c, ∀ w ∈ (s.queue c).pending, w.sent ≠ []
  fits : s.totalRead < 2 ^ 31

section

variable {es : List EchoEvent} {s u : TcpEcho} {c : ℕ}

/-- The bytes of the oldest write of a client are among those that are pending. -/
theorem Counted.length_le (h : Counted es s) {w : WriteOut UInt8} {ws : List (WriteOut UInt8)}
    (hpending : (s.queue c).pending = w :: ws) :
    c ∈ Finset.range s.clients ∧ w.sent.length ≤ pendingBytes s := by
  have hc : c ∈ Finset.range s.clients := by
    rw [Finset.mem_range]
    by_contra hle
    rw [(h.sound.fresh c (by omega)).1] at hpending
    cases hpending
  have hw : w.sent.length ≤ (s.queue c).bytesOut :=
    WriteQueue.length_le_bytesOut (by simp [hpending])
  exact ⟨hc, hw.trans (WriteQueue.bytesOut_le_inFlight hc)⟩

/-- Totals that differ by what is pending do not overflow. -/
theorem Counted.accounted_iff (h : Counted es s) :
    Accounted s ↔ 0 ≤ s.totalWritten ∧ s.totalWritten ≤ s.totalRead ∧
      s.totalRead - s.totalWritten = pendingBytes s := by
  constructor
  · intro hs
    exact ⟨hs.nonneg, hs.le, hs.pending⟩
  · intro ⟨hnonneg, hle, hpending⟩
    refine ⟨hnonneg, hle, hpending, fun c status _ hover => ?_⟩
    obtain ⟨w, ws, hw, hover⟩ := written_overflow hover
    have hlen := (h.length_le hw).2
    have hfits := h.fits
    rw [toInt_of_fits (by omega) (by omega)] at hover
    omega

/-- No write is pending to any client. -/
theorem Counted.pendingBytes_eq_zero_iff (h : Counted es s) :
    pendingBytes s = 0 ↔ ∀ c < s.clients, (s.queue c).pending = [] := by
  rw [pendingBytes, WriteQueue.inFlight_eq_zero_iff fun c _ => h.nonempty c]
  simp

/-- No write is empty, and `total_read` is an `int`, after another event. -/
theorem Counted.step {e : EchoEvent} (h : Counted es s) (he : echoServer.enabled s e)
    (hok : echoServer.dispatch s e = .ok u) : Counted (es ++ [e]) u := by
  cases e with
  | connect status accept =>
    obtain ⟨-, hqueue, hread, -⟩ := connectionCb_ok hok
    refine ⟨h.sound.connect hok, ?_, ?_⟩
    · rw [hqueue]
      exact h.nonempty
    · rw [hread]
      exact h.fits
  | read c e =>
    obtain ⟨-, hqueue⟩ := dispatch_read_queue hok
    obtain ⟨hread, -⟩ := dispatch_read_totals hok
    refine ⟨h.sound.read he hok, ?_, ?_⟩
    · rcases hqueue with ⟨-, hqueue⟩ | ⟨w, hpos, hlen, hqueue⟩
      · rw [hqueue]
        exact h.nonempty
      · intro d v hv
        rw [hqueue] at hv
        rcases WriteQueue.mem_pending_submit hv with hv | ⟨-, rfl⟩
        · exact h.nonempty d v hv
        · intro hnil
          rw [hnil, List.length_nil] at hlen
          omega
    · rw [hread]
      split
      · norm_num
      · split
        · exact toInt_lt _
        · exact h.fits
  | written c status =>
    obtain ⟨w, ws, bytes, hpending, -, hqueue⟩ := written_queue hok
    obtain ⟨hread, -⟩ := totals_written hpending hok
    refine ⟨h.sound.written hok, ?_, ?_⟩
    · intro d v hv
      rw [hqueue] at hv
      exact h.nonempty d v (WriteQueue.mem_pending_complete hv)
    · rw [hread]
      exact h.fits

/-- The bytes pending when a connection was accepted, a read was echoed, a write was called back. -/
theorem Counted.pendingBytes_connect (h : Counted es s) (hclients : u.clients = s.clients + 1)
    (hqueue : u.queue = s.queue) : pendingBytes u = pendingBytes s := by
  have hnew : (s.queue s.clients).bytesOut = 0 := by
    simp [WriteQueue.bytesOut, (h.sound.fresh s.clients le_rfl).1]
  unfold pendingBytes WriteQueue.inFlight
  rw [hclients, hqueue, Finset.sum_range_succ, hnew, Nat.add_zero]

theorem pendingBytes_submit {w : WriteOut UInt8} (hc : c < s.clients)
    (hclients : u.clients = s.clients)
    (hqueue : u.queue = Function.update s.queue c ((s.queue c).submit w)) :
    pendingBytes u = pendingBytes s + w.sent.length := by
  have hupdate := WriteQueue.inFlight_update (q := s.queue) (Finset.mem_range.mpr hc)
    ((s.queue c).submit w)
  rw [WriteQueue.bytesOut_submit] at hupdate
  unfold pendingBytes
  rw [hclients, hqueue]
  omega

theorem Counted.pendingBytes_complete (h : Counted es s) {w : WriteOut UInt8}
    {ws : List (WriteOut UInt8)} {bytes : Bytes} (hpending : (s.queue c).pending = w :: ws)
    (hclients : u.clients = s.clients)
    (hqueue : u.queue = Function.update s.queue c ((s.queue c).complete bytes)) :
    pendingBytes u + w.sent.length = pendingBytes s := by
  have hupdate := WriteQueue.inFlight_update (q := s.queue) (h.length_le hpending).1
    ((s.queue c).complete bytes)
  have hcomplete := WriteQueue.bytesOut_complete hpending bytes
  unfold pendingBytes
  rw [hclients, hqueue]
  omega

/-- A read of client `c`: the end of its stream, nothing or an error, or bytes. -/
theorem Counted.accounted_read {e : BufferRead} (h : Counted es s) (hs : Accounted s)
    (hc : c < s.clients) (hu : Counted (es ++ [.read c e]) u)
    (hok : echoServer.dispatch s (.read c e) = .ok u) :
    Accounted u ↔ KeepsTotals s (.read c e) := by
  obtain ⟨hclients, hqueue⟩ := dispatch_read_queue hok
  obtain ⟨hread, hwritten⟩ := dispatch_read_totals hok
  have hnonneg := hs.nonneg
  have hle := hs.le
  have hbytes := hs.pending
  rw [hu.accounted_iff, KeepsTotals, ← h.pendingBytes_eq_zero_iff]
  rcases hqueue with ⟨hneg, hqueue⟩ | ⟨w, hpos, hlen, hqueue⟩
  · have hsame : pendingBytes u = pendingBytes s := by
      unfold pendingBytes
      rw [hclients, hqueue]
    by_cases heof : e.nread = UV_EOF
    · have hr : u.totalRead = 0 := by simpa [heof] using hread
      have hw : u.totalWritten = 0 := by simpa [heof] using hwritten
      rw [hr, hw, hsame]
      constructor
      · intro ⟨_, _, hzero⟩
        exact ⟨fun _ => by omega, fun hpos => by omega⟩
      · intro ⟨hzero, _⟩
        have := hzero heof
        omega
    · have hr : u.totalRead = s.totalRead := by simpa [heof, hneg.not_gt] using hread
      have hw : u.totalWritten = s.totalWritten := by simpa [heof] using hwritten
      rw [hr, hw, hsame]
      constructor
      · intro _
        exact ⟨fun h => absurd h heof, fun hpos => by omega⟩
      · intro _
        exact ⟨hnonneg, hle, hbytes⟩
  · have hne : e.nread ≠ UV_EOF := by
      unfold UV_EOF
      omega
    have hr : u.totalRead = toInt (s.totalRead + e.nread) := by simpa [hne, hpos] using hread
    have hw : u.totalWritten = s.totalWritten := by simpa [hne] using hwritten
    have hsum := pendingBytes_submit hc hclients hqueue
    rw [hr, hw]
    constructor
    · intro ⟨_, _, hdiff⟩
      have hlt := toInt_lt (s.totalRead + e.nread)
      exact ⟨fun h => absurd h hne, fun _ => by omega⟩
    · intro ⟨_, hguard⟩
      have hfits := hguard hpos
      rw [toInt_of_fits (by omega) hfits]
      omega

/-- **One event.**  From totals that are meaningful it leads to such totals exactly if it keeps
them. -/
theorem Counted.accounted_step {e : EchoEvent} (h : Counted es s) (hs : Accounted s)
    (he : echoServer.enabled s e) (hok : echoServer.dispatch s e = .ok u) :
    Accounted u ↔ KeepsTotals s e := by
  have hu := h.step he hok
  cases e with
  | connect status accept =>
    obtain ⟨hclients, hqueue, hread, hwritten⟩ := connectionCb_ok hok
    rw [hu.accounted_iff, h.pendingBytes_connect hclients hqueue, hread, hwritten]
    exact ⟨fun _ => trivial, fun _ => ⟨hs.nonneg, hs.le, hs.pending⟩⟩
  | read c e => exact h.accounted_read hs (h.sound.lt_clients he.1) hu hok
  | written c status =>
    obtain ⟨w, ws, bytes, hpending, hclients, hqueue⟩ := written_queue hok
    obtain ⟨hread, hwritten⟩ := totals_written hpending hok
    have hsum := h.pendingBytes_complete hpending hclients hqueue
    have hlen := (h.length_le hpending).2
    have hfits := h.fits
    have hnonneg := hs.nonneg
    have hle := hs.le
    have hbytes := hs.pending
    rw [toInt_of_fits (by omega) (by omega)] at hwritten
    rw [hu.accounted_iff, hread, hwritten]
    refine ⟨fun _ => trivial, fun _ => ?_⟩
    omega

end

/-! ### Runs -/

theorem counted_of_run {es : List EchoEvent} {s : TcpEcho} (h : echoServer.Run init es s) :
    Counted es s := by
  have hinit : Counted [] init := ⟨init_sound, nofun, by decide⟩
  exact h.history hinit fun es s e u hs he hok => hs.step he hok

theorem accounted_init : Accounted init := by
  have hinit : Counted [] init := counted_of_run .nil
  exact hinit.accounted_iff.mpr ⟨le_rfl, le_rfl, rfl⟩

/-- The states before and after the last event of a run. -/
theorem accounts_snoc {es : List EchoEvent} {e : EchoEvent} {s : TcpEcho}
    (h : echoServer.Run init (es ++ [e]) s) : Accounts (es ++ [e]) ↔ Accounts es ∧ Accounted s := by
  constructor
  · intro hall
    refine ⟨fun es₁ es₂ t heq ht => ?_, hall _ [] s (List.append_nil _).symm h⟩
    exact hall es₁ (es₂ ++ [e]) t (by rw [heq, List.append_assoc]) ht
  · intro ⟨hbefore, hlast⟩ es₁ es₂ t heq ht
    rcases List.eq_nil_or_concat es₂ with rfl | ⟨es₃, e', rfl⟩
    · rw [List.append_nil] at heq
      subst heq
      exact h.unique ht ▸ hlast
    · rw [List.concat_eq_append, ← List.append_assoc] at heq
      exact hbefore es₁ es₃ t (List.append_inj' heq rfl).1 ht

/-- **The totals.**  They are meaningful in every state of a run exactly if every end of file in it
comes when no write is pending to any client, and `total_read` stays an `int`. -/
theorem accounts_iff (es : List EchoEvent) (s : TcpEcho) (h : echoServer.Run init es s) :
    Accounts es ↔ (echoServer.restrict KeepsTotals).Run init es s := by
  induction h with
  | nil =>
    refine ⟨fun _ => .nil, fun _ es₁ es₂ t heq ht => ?_⟩
    obtain ⟨rfl, -⟩ := List.append_eq_nil_iff.mp heq.symm
    exact ht.unique .nil ▸ accounted_init
  | @snoc es t e u h he hok ih =>
    rw [accounts_snoc (.snoc h he hok), h.restrict_snoc_iff he hok, ← ih]
    refine and_congr_right fun hall => ?_
    exact (counted_of_run h).accounted_step (hall es [] t (List.append_nil es).symm h) he hok

/-- Two clients, one of which ends its stream when the bytes of the other have gone back. -/
theorem accounts_iff_twoClients : ∃ es s, echoServer.Run init es s ∧ s.clients = 2 ∧
    Accounts es := by
  obtain ⟨s, hrun, hp⟩ : ∃ s, (echoServer.restrict KeepsTotals).Run init
      [.connect 0 0, .connect 0 0, .read 0 hi, .written 0 0, .read 1 endOfFile] s ∧
      (s.clients == 2) = true := EventLoop.exists_run_of_plays (by decide +kernel)
  exact ⟨_, s, hrun.of_restrict, beq_iff_eq.mp hp, (accounts_iff _ s hrun.of_restrict).mpr hrun⟩

/-- The second client ends its stream while the bytes of the first are on their way back: then more
is written than was read. -/
theorem eof_resets_totals : ¬ ∀ es s, echoServer.Run init es s → Accounted s := by
  intro h
  obtain ⟨s, hrun, hp⟩ : ∃ s, echoServer.Run init
      [.connect 0 0, .connect 0 0, .read 0 hi, .read 1 endOfFile, .written 0 0] s ∧
      decide (s.totalRead < s.totalWritten) = true :=
    EventLoop.exists_run_of_plays (by decide +kernel)
  have hle := (h _ s hrun).le
  have hlt := of_decide_eq_true hp
  omega

end LibuvDox.TcpEchoServer
