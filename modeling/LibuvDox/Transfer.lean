import LibuvDox.Lib.EventLoop
import LibuvDox.Lib.Pump
import LibuvDox.Uv

/-!
# Sending a file, chunk by chunk

`pipe-file.c` of the static web server and `send-file/main.c` send a file the same way: the file
is read as a stream, `on_file_read` hands each chunk to `uv_write`, and `on_write_res` compares
what was written with what was read to find out that the transfer is over.  They differ in what
they do then, and at the end of the file.  The callbacks are given here once, with these choices
as parameters, together with one transfer as a program of the event loop: the file and the writes
libuv has accepted, and the block `file_tcp_pipe_t` with its counters.

* `Transfer.sound`: in every run the counters of a live block are those of a balanced `Pump`.
* `Transfer.Sound.written_catches_up_iff`: a completed write makes the counters agree exactly when
  it was the only one pending, whatever is left of the file.
* `Transfer.Sound.written_endsComplete_iff`: so the response ends only when the file has been sent,
  and no assertion fails on the way, exactly where no write catches up with the reads too early.
-/

namespace LibuvDox

/-- `file_tcp_pipe_t`: the counters, and the two handles by address. -/
structure FileTcpPipe where
  nread : ℕ
  nwritten : ℕ
  size : ℕ
  filePipe : ℕ
  tcp : ℕ
  deriving DecidableEq, Repr

/-- The block before anything is read. -/
def FileTcpPipe.fresh (size filePipe tcp : ℕ) : FileTcpPipe := ⟨0, 0, size, filePipe, tcp⟩

/-- How a callback settles a transfer. -/
inductive Settle where
  | goOn
  /-- `file_tcp_pipe_end` with `CALLBACK`. -/
  | finish (status : ℤ)
  /-- `uv_close` of the tcp handle with `on_res_end`. -/
  | closeTcp
  deriving DecidableEq, Repr

/-- What a callback does besides changing the block. -/
inductive TransferAction where
  /-- `write_data`, with a copy of the bytes. -/
  | submit (data : Bytes)
  | settle (s : Settle)
  deriving DecidableEq, Repr

def sizeIsNread : String := "file_tcp_pipe->size == file_tcp_pipe->nread"

/-- What the programs do at the end of the file, on a result that is no data, and when all that
was read is written. -/
structure TransferProgram where
  atEof : ℤ → Except Stop Settle
  otherwise : ℤ → Except Stop Settle
  atEnd : ℤ → Settle

namespace TransferProgram

variable (prog : TransferProgram)

/-- `on_file_read`; `block` is what `file_pipe->data` points to. -/
def onFileRead (block : Option FileTcpPipe) (r : ReadResult) :
    Except Stop (FileTcpPipe × TransferAction) := do
  let p ← deref block "file_pipe->data"
  if r.nread = UV_EOF then
    let s ← prog.atEof r.nread
    .ok (p, .settle s)
  else if r.nread > 0 then
    .ok ({ p with nread := p.nread + r.nread.toNat }, .submit r.data)
  else
    let s ← prog.otherwise r.nread
    .ok (p, .settle s)

/-- `on_write_res`; `block` is what `write_req->data` points to, `len` the `buf.len` of the
request. -/
def onWriteRes (block : Option FileTcpPipe) (len : ℕ) (status : ℤ) :
    Except Stop (FileTcpPipe × TransferAction) := do
  check status "writing file data to response"
  let p ← deref block "write_req->data"
  let p := { p with nwritten := p.nwritten + len }
  if p.nwritten = p.nread then
    cAssert (p.size = p.nread) sizeIsNread
    .ok (p, .settle (prog.atEnd status))
  else .ok (p, .settle .goOn)

/-- What `on_file_read` does on a result that is no data. -/
def atNoData (nread : ℤ) : Except Stop Settle :=
  if nread = UV_EOF then prog.atEof nread else prog.otherwise nread

theorem onFileRead_data (p : FileTcpPipe) {r : ReadResult} (hr : 0 < r.nread) :
    prog.onFileRead (some p) r =
      .ok ({ p with nread := p.nread + r.data.length }, .submit r.data) := by
  have heof : r.nread ≠ UV_EOF := by
    unfold UV_EOF
    omega
  show (if r.nread = UV_EOF then _ else _) = _
  rw [if_neg heof, if_pos hr, r.valid]

theorem onFileRead_noData (p : FileTcpPipe) {r : ReadResult} (hr : r.nread ≤ 0) :
    prog.onFileRead (some p) r = (do
      let s ← prog.atNoData r.nread
      .ok (p, .settle s)) := by
  have hpos : ¬ r.nread > 0 := by omega
  unfold atNoData
  show (if r.nread = UV_EOF then _ else if r.nread > 0 then _ else _) = _
  by_cases heof : r.nread = UV_EOF
  · rw [if_pos heof, if_pos heof]
  · rw [if_neg heof, if_neg heof, if_neg hpos]

/-- A successful write whose block is live, by the outcome of comparing the counters. -/
theorem onWriteRes_live (p : FileTcpPipe) (len : ℕ) :
    prog.onWriteRes (some p) len 0 =
      if p.nwritten + len = p.nread then
        if p.size = p.nread then
          .ok ({ p with nwritten := p.nwritten + len }, .settle (prog.atEnd 0))
        else .error (.assertFailed sizeIsNread)
      else .ok ({ p with nwritten := p.nwritten + len }, .settle .goOn) := by
  show (if p.nwritten + len = p.nread then _ else _) = _
  refine if_congr Iff.rfl ?_ rfl
  by_cases hsize : p.size = p.nread
  · have hok : cAssert (p.size = p.nread) sizeIsNread = .ok () := if_pos hsize
    rw [if_pos hsize, hok]
    rfl
  · have hfail : cAssert (p.size = p.nread) sizeIsNread = .error (.assertFailed sizeIsNread) :=
      if_neg hsize
    rw [if_neg hsize, hfail]
    rfl

variable {prog} {block : Option FileTcpPipe} {res : FileTcpPipe × TransferAction}

/-- What `on_file_read` has done when it returns. -/
theorem onFileRead_ok {r : ReadResult} (h : prog.onFileRead block r = .ok res) :
    ∃ p, block = some p ∧
      ((0 < r.nread ∧ res = ({ p with nread := p.nread + r.data.length }, .submit r.data)) ∨
        (r.nread ≤ 0 ∧ ∃ s, prog.atNoData r.nread = .ok s ∧ res = (p, .settle s))) := by
  cases block with
  | none => cases h
  | some p =>
    refine ⟨p, rfl, ?_⟩
    rcases Int.lt_or_le 0 r.nread with hpos | hle
    · rw [prog.onFileRead_data p hpos] at h
      cases h
      exact .inl ⟨hpos, rfl⟩
    · rw [prog.onFileRead_noData p hle] at h
      obtain ⟨s, hs, hok⟩ := bind_ok_iff.mp h
      cases hok
      exact .inr ⟨hle, s, hs, rfl⟩

/-- What `on_write_res` has done when it returns: the write was successful and the block live. -/
theorem onWriteRes_ok {len : ℕ} {status : ℤ} (h : prog.onWriteRes block len status = .ok res) :
    status = 0 ∧ ∃ p s, block = some p ∧
      res = ({ p with nwritten := p.nwritten + len }, .settle s) ∧
      ((p.nwritten + len = p.nread ∧ p.size = p.nread ∧ s = prog.atEnd 0) ∨
        (p.nwritten + len ≠ p.nread ∧ s = .goOn)) := by
  obtain ⟨_, hstatus, -⟩ := bind_ok_iff.mp h
  obtain rfl := check_ok_iff.mp hstatus
  refine ⟨rfl, ?_⟩
  cases block with
  | none => cases h
  | some p =>
    rw [prog.onWriteRes_live] at h
    split at h
    · rename_i hcaught
      split at h
      · rename_i hsize
        cases h
        exact ⟨p, _, rfl, rfl, .inl ⟨hcaught, hsize, rfl⟩⟩
      · cases h
    · rename_i hcaught
      cases h
      exact ⟨p, _, rfl, rfl, .inr ⟨hcaught, rfl⟩⟩

end TransferProgram

/-! ### One transfer -/

/-- A transfer: the file and how far its stream was read, whether the stream has reported its end
or an error, the block while it lives, the writes libuv has accepted and not completed, the bytes
accepted in all and the number of bytes refused, what `pipe_file_cb` was called with, and how
often the tcp handle is to be closed. -/
structure Transfer where
  contents : Bytes
  offset : ℕ
  streamDone : Bool
  block : Option FileTcpPipe
  pending : List Bytes
  submitted : Bytes
  refused : ℕ
  completed : List ℤ
  closing : ℕ
  deriving DecidableEq, Repr

/-- What may happen next: a result of the file stream, together with whether `uv_write` accepts
the write it leads to; the oldest write completes; `on_res_end` runs. -/
inductive TransferEvent where
  | fileRead (r : ReadResult) (accepted : Bool)
  | written (status : ℤ)
  | closed
  deriving DecidableEq, Repr

namespace Transfer

/-- The transfer when the stream of the file is started. -/
def start (contents : Bytes) (p : FileTcpPipe) : Transfer :=
  ⟨contents, 0, false, some p, [], [], 0, [], 0⟩

/-- Carry out what a callback does. -/
def act (t : Transfer) (p : FileTcpPipe) (accepted : Bool) : TransferAction → Transfer
  | .submit data =>
    if accepted then
      { t with block := some p, pending := t.pending ++ [data], submitted := t.submitted ++ data }
    else { t with block := some p, refused := t.refused + data.length }
  | .settle .goOn => { t with block := some p }
  | .settle (.finish status) => { t with block := none, completed := t.completed ++ [status] }
  | .settle .closeTcp => { t with block := some p, closing := t.closing + 1 }

/-- The stream goes on up to the end of the file or an error, and every accepted write completes,
in order. -/
def Enabled (t : Transfer) : TransferEvent → Prop
  | .fileRead r _ =>
    t.streamDone = false ∧ r.data <+: t.contents.drop t.offset ∧
      (r.nread = UV_EOF → t.offset = t.contents.length)
  | .written _ => t.pending ≠ []
  | .closed => 0 < t.closing

instance (t : Transfer) (e : TransferEvent) : Decidable (t.Enabled e) := by
  cases e <;> unfold Enabled <;> infer_instance

variable (prog : TransferProgram)

def dispatch (t : Transfer) : TransferEvent → Except Stop Transfer
  | .fileRead r accepted => do
    let (p, a) ← prog.onFileRead t.block r
    .ok ({ t with
      offset := t.offset + r.data.length
      streamDone := decide (r.nread < 0) }.act p accepted a)
  | .written status => do
    let (p, a) ← prog.onWriteRes t.block (t.pending.headD []).length status
    .ok ({ t with pending := t.pending.tail }.act p true a)
  | .closed => do
    let _ ← deref t.block "tcp->data"
    .ok { t with block := none, closing := t.closing - 1 }

/-- One transfer, as a program of the event loop. -/
def loop : EventLoop Transfer TransferEvent Stop := ⟨Enabled, dispatch prog⟩

instance (t : Transfer) (e : TransferEvent) : Decidable ((loop prog).enabled t e) :=
  inferInstanceAs (Decidable (t.Enabled e))

/-- The counters of a transfer as those of a pump from the file to the tcp stream. -/
def pump (t : Transfer) (p : FileTcpPipe) : Pump UInt8 :=
  ⟨t.contents, p.nread, p.nwritten, t.pending, t.submitted, t.refused⟩

/-- **What holds in every run.**  While the block lives its counters are those of a balanced pump
that has read as far as the stream. -/
structure Sound (contents : Bytes) (size : ℕ) (t : Transfer) : Prop where
  contents : t.contents = contents
  size : ∀ p, t.block = some p → p.size = size
  balanced : ∀ p, t.block = some p → (t.pump p).Balanced
  nread : ∀ p, t.block = some p → p.nread = t.offset

section Steps

variable {prog : TransferProgram} {t u : Transfer} {contents : Bytes} {size : ℕ}

theorem dispatch_fileRead {r : ReadResult} {accepted : Bool}
    (h : dispatch prog t (.fileRead r accepted) = .ok u) :
    ∃ p, t.block = some p ∧
      ((0 < r.nread ∧ u = { t with
          offset := t.offset + r.data.length
          streamDone := false }.act { p with nread := p.nread + r.data.length } accepted
            (.submit r.data)) ∨
        (r.nread ≤ 0 ∧ ∃ s, prog.atNoData r.nread = .ok s ∧
          u = { t with streamDone := decide (r.nread < 0) }.act p accepted (.settle s))) := by
  obtain ⟨res, hread, hu⟩ := bind_ok_iff.mp h
  obtain ⟨p, hp, ⟨hpos, rfl⟩ | ⟨hle, s, hs, rfl⟩⟩ := TransferProgram.onFileRead_ok hread
  · have hneg : decide (r.nread < 0) = false := decide_eq_false (by omega)
    rw [hneg] at hu
    cases hu
    exact ⟨p, hp, .inl ⟨hpos, rfl⟩⟩
  · have hlen : r.data.length = 0 := by
      rw [r.valid]
      omega
    rw [hlen] at hu
    cases hu
    exact ⟨p, hp, .inr ⟨hle, s, hs, rfl⟩⟩

/-- A completion that returns was successful, and its block was live. -/
theorem dispatch_written {status : ℤ} (h : dispatch prog t (.written status) = .ok u) :
    status = 0 ∧ ∃ p s, t.block = some p ∧
      u = { t with pending := t.pending.tail }.act
        { p with nwritten := p.nwritten + (t.pending.headD []).length } true (.settle s) ∧
      ((p.nwritten + (t.pending.headD []).length = p.nread ∧ p.size = p.nread ∧
          s = prog.atEnd 0) ∨
        (p.nwritten + (t.pending.headD []).length ≠ p.nread ∧ s = .goOn)) := by
  obtain ⟨res, hwrite, hu⟩ := bind_ok_iff.mp h
  obtain ⟨hstatus, p, s, hp, rfl, hs⟩ := TransferProgram.onWriteRes_ok hwrite
  cases hu
  exact ⟨hstatus, p, s, hp, rfl, hs⟩

theorem start_sound (contents : Bytes) (size filePipe tcp : ℕ) :
    Sound contents size (start contents (.fresh size filePipe tcp)) where
  contents := rfl
  size := by
    intro p hp
    cases hp
    rfl
  balanced := by
    intro p hp
    cases hp
    exact Pump.start_balanced contents
  nread := by
    intro p hp
    cases hp
    rfl

/-- Settling changes no counter. -/
theorem Sound.settle {p : FileTcpPipe} (hsize : p.size = size) (hcontents : t.contents = contents)
    (hbal : (t.pump p).Balanced) (hread : p.nread = t.offset) (accepted : Bool) (s : Settle) :
    Sound contents size (t.act p accepted (.settle s)) := by
  have live : Sound contents size { t with block := some p } := by
    refine ⟨hcontents, ?_, ?_, ?_⟩
    all_goals
      intro q hq
      cases hq
      assumption
  cases s with
  | goOn => exact live
  | finish status =>
    refine ⟨hcontents, ?_, ?_, ?_⟩
    all_goals
      intro q hq
      cases hq
  | closeTcp => exact ⟨live.contents, live.size, live.balanced, live.nread⟩

theorem Sound.step (h : Sound contents size t) {e : TransferEvent} (he : t.Enabled e)
    (hd : dispatch prog t e = .ok u) : Sound contents size u := by
  cases e with
  | fileRead r accepted =>
    obtain ⟨p, hp, ⟨hpos, rfl⟩ | ⟨-, s, -, rfl⟩⟩ := dispatch_fileRead hd
    · have hne := ReadResult.data_ne_nil hpos
      have hpre : r.data <+: (t.pump p).source.drop (t.pump p).nread := by
        show r.data <+: t.contents.drop p.nread
        rw [h.nread p hp]
        exact he.2.1
      have hread : p.nread + r.data.length = t.offset + r.data.length := by rw [h.nread p hp]
      cases accepted with
      | true =>
        refine ⟨h.contents, ?_, ?_, ?_⟩
        · intro q hq
          cases hq
          exact h.size p hp
        · intro q hq
          cases hq
          exact (h.balanced p hp).read hne hpre
        · intro q hq
          cases hq
          exact hread
      | false =>
        refine ⟨h.contents, ?_, ?_, ?_⟩
        · intro q hq
          cases hq
          exact h.size p hp
        · intro q hq
          cases hq
          exact (h.balanced p hp).lose hne hpre
        · intro q hq
          cases hq
          exact hread
    · refine .settle ?_ ?_ ?_ ?_ accepted s
      · exact h.size p hp
      · exact h.contents
      · exact h.balanced p hp
      · exact h.nread p hp
  | written status =>
    obtain ⟨-, p, s, hp, rfl, -⟩ := dispatch_written hd
    refine .settle ?_ ?_ ?_ ?_ true s
    · exact h.size p hp
    · exact h.contents
    · exact (h.balanced p hp).take
    · exact h.nread p hp
  | closed =>
    obtain ⟨p, -, hu⟩ := bind_ok_iff.mp hd
    cases hu
    refine ⟨h.contents, ?_, ?_, ?_⟩
    all_goals
      intro q hq
      cases hq

/-- **Every run is sound.** -/
theorem sound {filePipe tcp : ℕ} {es : List TransferEvent}
    (h : (loop prog).Run (start contents (.fresh size filePipe tcp)) es t) :
    Sound contents size t :=
  h.invariant (start_sound contents size filePipe tcp) fun _ _ _ hs he hd => hs.step he hd

/-- **A completed write ends the transfer** exactly when it was the only one pending and none was
refused, however far the file has been read. -/
theorem Sound.written_catches_up_iff (h : Sound contents size t) {p : FileTcpPipe}
    (hp : t.block = some p) (he : t.pending ≠ []) :
    p.nwritten + (t.pending.headD []).length = p.nread ↔
      t.pending.length = 1 ∧ t.refused = 0 :=
  (h.balanced p hp).take_caught_up_iff he

/-! ### The end of the response -/

/-- The whole file was read, handed to libuv and written. -/
structure AllSent (t : Transfer) : Prop where
  read : t.offset = t.contents.length
  submitted : t.submitted = t.contents
  written : t.pending = []

/-- Between two states the response was ended. -/
def Ends (t u : Transfer) : Prop := t.completed ≠ u.completed ∨ t.closing ≠ u.closing

variable (prog) in
/-- In `t` a successful write completion ends the response only if all of the file has been sent,
and does not fail the assertion. -/
def EndsComplete (t : Transfer) : Prop :=
  dispatch prog t (.written 0) ≠ .error (.assertFailed sizeIsNread) ∧
    ∀ u, dispatch prog t (.written 0) = .ok u → Ends t u → AllSent u

/-- In `t` the only pending write of a live transfer does not complete before the whole file has
been read. -/
def NoEarlyCatchUp (t : Transfer) : Prop :=
  t.block ≠ none → t.pending.length = 1 → t.refused = 0 → t.offset = t.contents.length

theorem Sound.written_endsComplete_iff (h : Sound contents contents.length t)
    (he : t.Enabled (.written 0)) : EndsComplete prog t ↔ NoEarlyCatchUp t := by
  cases hb : t.block with
  | none =>
    -- the completion runs into the freed block
    have hd : dispatch prog t (.written 0) = .error (.undefined "write_req->data") := by
      simp only [dispatch, hb]
      rfl
    constructor
    · intro _ hlive
      exact absurd hb hlive
    · intro _
      refine ⟨?_, ?_⟩
      · rw [hd]
        simp
      · intro u hu
        rw [hd] at hu
        cases hu
  | some p =>
    have hcatch := h.written_catches_up_iff hb he
    have hsize : p.size = p.nread ↔ t.offset = t.contents.length := by
      rw [h.size p hb, h.nread p hb, h.contents, eq_comm]
    constructor
    · intro ⟨hassert, _⟩ _ hlen href
      by_contra hearly
      apply hassert
      simp only [dispatch, hb, prog.onWriteRes_live, if_pos (hcatch.mpr ⟨hlen, href⟩),
        if_neg (mt hsize.mp hearly)]
      rfl
    · intro hno
      refine ⟨?_, ?_⟩
      · intro hassert
        simp only [dispatch, hb, prog.onWriteRes_live] at hassert
        split at hassert
        · rename_i hcaught
          obtain ⟨hlen, href⟩ := hcatch.mp hcaught
          rw [if_pos (hsize.mpr (hno (by simp [hb]) hlen href))] at hassert
          cases hassert
        · cases hassert
      · intro u hu hends
        obtain ⟨-, q, s, hq, rfl, ⟨hcaught, hqsize, -⟩ | ⟨-, rfl⟩⟩ := dispatch_written hu
        · obtain rfl : p = q := Option.some.inj (hb.symm.trans hq)
          obtain ⟨hlen, href⟩ := hcatch.mp hcaught
          have hread := hsize.mp hqsize
          have hsub : t.submitted = t.contents := by
            refine (h.balanced p hb).submitted_eq ?_ href
            exact (h.nread p hb).trans hread
          have hpend : t.pending.tail = [] := by
            rw [← List.length_eq_zero_iff, List.length_tail, hlen]
          cases s with
          | goOn => exact ⟨hread, hsub, hpend⟩
          | finish status => exact ⟨hread, hsub, hpend⟩
          | closeTcp => exact ⟨hread, hsub, hpend⟩
        · rcases hends with hne | hne
          · exact absurd rfl hne
          · exact absurd rfl hne

end Steps

end Transfer

end LibuvDox
