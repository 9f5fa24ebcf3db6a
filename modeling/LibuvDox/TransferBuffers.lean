import LibuvDox.Lib.Simulation
import LibuvDox.Lib.WriteQueue
import LibuvDox.SendFile

/-!
# The buffers of a transfer

`on_file_read` frees the buffer that libuv has read the file into before it returns; what goes out
on the tcp stream is the copy that `write_data` made of it, and `on_write_res` frees the copy.  Here
a transfer is followed together with these buffers.

* `buffered_simulates`: what the buffers hold and the stream is handed is what `Transfer` says.
* `bookkeeping`: as long as nothing has ended the transfer, its counters, the pending writes and the
  file agree, in both programs.
-/

namespace LibuvDox

/-- A transfer, the buffers on the heap, and the writes on the tcp stream. -/
structure BufferedTransfer where
  transfer : Transfer
  heap : Heap Bytes
  tcp : WriteQueue UInt8
  deriving DecidableEq, Repr

/-- A result of the file stream, with the buffer it comes in, unless libuv passes none; the oldest
write completes; `on_res_end` runs. -/
inductive BufferedEvent where
  | fileRead (r : ReadResult) (buf : Option Bytes)
  | written (status : ℤ)
  | closed
  deriving DecidableEq, Repr

/-- The event, as far as the transfer is concerned: libuv accepts every write. -/
def BufferedEvent.transfer : BufferedEvent → TransferEvent
  | .fileRead r _ => .fileRead r true
  | .written status => .written status
  | .closed => .closed

namespace BufferedTransfer

def start (contents : Bytes) (p : FileTcpPipe) : BufferedTransfer :=
  ⟨.start contents p, .empty, .empty⟩

/-- `alloc_cb`, and what libuv put into the buffer. -/
def allocCb (s : BufferedTransfer) : Option Bytes → BufferedTransfer × Option ℕ
  | none => (s, none)
  | some contents => ({ s with heap := s.heap.alloc contents }, some s.heap.next)

/-- `write_data`, for a write that libuv accepts. -/
def writeData (s : BufferedTransfer) (base : Option ℕ) (size : ℕ) :
    Except Stop BufferedTransfer := do
  let p ← deref base "memcpy"
  let block ← deref (s.heap.get? p) "memcpy"
  if block.length < size then .error (.undefined "memcpy")
  else
    .ok { s with
      heap := s.heap.alloc (block.take size)
      tcp := s.tcp.submit ⟨s.heap.next, block.take size⟩ }

/-- `if (base) free(base)`. -/
def free (s : BufferedTransfer) : Option ℕ → Except Stop BufferedTransfer
  | none => .ok s
  | some p => do
    let _ ← deref (s.heap.get? p) "free"
    .ok { s with heap := s.heap.free p }

variable (prog : TransferProgram)

/-- `on_file_read`, up to the `free` at its end. -/
def readResult (s : BufferedTransfer) (r : ReadResult) (base : Option ℕ) :
    Except Stop BufferedTransfer := do
  let transfer ← Transfer.dispatch prog s.transfer (.fileRead r true)
  if r.nread > 0 then writeData { s with transfer := transfer } base r.nread.toNat
  else .ok { s with transfer := transfer }

def onFileRead (s : BufferedTransfer) (r : ReadResult) (base : Option ℕ) :
    Except Stop BufferedTransfer := do
  let s ← readResult prog s r base
  free s base

/-- `on_write_res` for the oldest write; libuv has sent what its buffer holds. -/
def onWriteRes (s : BufferedTransfer) (status : ℤ) : Except Stop BufferedTransfer :=
  match s.tcp.pending with
  | [] => .error (.undefined "no write is due")
  | w :: _ => do
    let block ← deref (s.heap.get? w.base) "write_req->buf.base"
    let sent := if status = 0 then block.take w.sent.length else []
    let transfer ← Transfer.dispatch prog s.transfer (.written status)
    free { s with transfer := transfer, tcp := s.tcp.complete sent } (some w.base)

/-- What is read next of the file is in the buffer; a write completes if one is pending. -/
def Enabled (s : BufferedTransfer) : BufferedEvent → Prop
  | .fileRead r buf => s.transfer.Enabled (.fileRead r true) ∧ r.data <+: buf.getD []
  | .written _ => s.tcp.pending ≠ []
  | .closed => s.transfer.Enabled .closed

instance (s : BufferedTransfer) (e : BufferedEvent) : Decidable (s.Enabled e) := by
  cases e <;> unfold Enabled <;> infer_instance

def dispatch (s : BufferedTransfer) : BufferedEvent → Except Stop BufferedTransfer
  | .fileRead r buf =>
    let (s, base) := allocCb s buf
    onFileRead prog s r base
  | .written status => onWriteRes prog s status
  | .closed => do
    let transfer ← Transfer.dispatch prog s.transfer .closed
    .ok { s with transfer := transfer }

/-- One transfer with its buffers, as a program of the event loop. -/
def loop : EventLoop BufferedTransfer BufferedEvent Stop := ⟨Enabled, dispatch prog⟩

instance (s : BufferedTransfer) (e : BufferedEvent) : Decidable ((loop prog).enabled s e) :=
  inferInstanceAs (Decidable (s.Enabled e))

/-- The stream and the transfer agree, every pending write still has its copy, and nothing else is
left on the heap. -/
structure Linked (s : BufferedTransfer) : Prop where
  pending : s.tcp.pending.map WriteOut.sent = s.transfer.pending
  submitted : s.tcp.submitted = s.transfer.submitted
  accepted : s.transfer.refused = 0
  intact : WriteQueue.Intact (fun _ : Unit => s.tcp) s.heap
  copied : ∀ w ∈ s.tcp.pending, s.heap.get? w.base = some w.sent
  own : WriteQueue.AllUsed (fun _ : Unit => s.tcp) s.heap

/-! ### What the callbacks do -/

section

variable {prog : TransferProgram} {s u : BufferedTransfer}

theorem free_ok {base : Option ℕ} (h : free s base = .ok u) :
    (base = none ∧ u = s) ∨ ∃ p, base = some p ∧ u = { s with heap := s.heap.free p } := by
  cases base with
  | none =>
    cases h
    exact .inl ⟨rfl, rfl⟩
  | some p =>
    obtain ⟨_, -, h⟩ := bind_ok_iff.mp h
    cases h
    exact .inr ⟨p, rfl, rfl⟩

theorem writeData_ok {base : Option ℕ} {size : ℕ} (h : writeData s base size = .ok u) :
    ∃ p block, base = some p ∧ s.heap.get? p = some block ∧
      u = { s with
        heap := s.heap.alloc (block.take size)
        tcp := s.tcp.submit ⟨s.heap.next, block.take size⟩ } := by
  obtain ⟨p, hp, h⟩ := bind_ok_iff.mp h
  obtain ⟨block, hblock, h⟩ := bind_ok_iff.mp h
  split at h
  · cases h
  · cases h
    exact ⟨p, block, deref_ok_iff.mp hp, deref_ok_iff.mp hblock, rfl⟩

/-- What `on_file_read` has done when it returns: data was copied; and the buffer, if there was one,
is free. -/
inductive ReadDone (s : BufferedTransfer) (r : ReadResult) : BufferedTransfer → Prop
  | data {block : Bytes} {transfer : Transfer} (hn : 0 < r.nread) :
      ReadDone s r ⟨transfer, ((s.heap.alloc block).alloc r.data).free s.heap.next,
        s.tcp.submit ⟨s.heap.next + 1, r.data⟩⟩
  | noData {block : Bytes} {transfer : Transfer} (hn : r.nread ≤ 0) :
      ReadDone s r ⟨transfer, (s.heap.alloc block).free s.heap.next, s.tcp⟩
  | noBuffer {transfer : Transfer} (hn : r.nread ≤ 0) : ReadDone s r ⟨transfer, s.heap, s.tcp⟩

theorem dispatch_fileRead {r : ReadResult} {buf : Option Bytes} (hbuf : r.data <+: buf.getD [])
    (h : dispatch prog s (.fileRead r buf) = .ok u) :
    Transfer.dispatch prog s.transfer (.fileRead r true) = .ok u.transfer ∧ ReadDone s r u := by
  cases buf with
  | none =>
    obtain ⟨a, ha, h⟩ := bind_ok_iff.mp h
    obtain ⟨transfer, ht, ha⟩ := bind_ok_iff.mp ha
    cases h
    split at ha
    · obtain ⟨p, block, hnone, -⟩ := writeData_ok ha
      cases hnone
    · cases ha
      exact ⟨ht, .noBuffer (by omega)⟩
  | some block =>
    obtain ⟨a, ha, h⟩ := bind_ok_iff.mp h
    obtain ⟨transfer, ht, ha⟩ := bind_ok_iff.mp ha
    have hdata : block.take r.nread.toNat = r.data := by
      rw [← r.valid]
      exact (List.prefix_iff_eq_take.mp hbuf).symm
    rcases free_ok h with ⟨hnone, -⟩ | ⟨p, hp, rfl⟩
    · cases hnone
    · cases hp
      split at ha
      · rename_i hpos
        obtain ⟨p, block', hp, hblock, rfl⟩ := writeData_ok ha
        cases hp
        obtain rfl := Option.some.inj ((Heap.get?_alloc_next s.heap block).symm.trans hblock)
        refine ⟨ht, ?_⟩
        simp only [hdata, Heap.next_alloc]
        exact .data hpos
      · cases ha
        exact ⟨ht, .noData (by omega)⟩

/-- The write that has completed was the oldest one, and its copy is free. -/
theorem dispatch_written {status : ℤ} (h : dispatch prog s (.written status) = .ok u) :
    Transfer.dispatch prog s.transfer (.written status) = .ok u.transfer ∧ status = 0 ∧
      ∃ w ws block, s.tcp.pending = w :: ws ∧ s.heap.get? w.base = some block ∧
        u.tcp = s.tcp.complete (block.take w.sent.length) ∧ u.heap = s.heap.free w.base := by
  have h' : onWriteRes prog s status = .ok u := h
  unfold onWriteRes at h'
  split at h'
  · cases h'
  · rename_i w ws hpending
    obtain ⟨block, hblock, h'⟩ := bind_ok_iff.mp h'
    obtain ⟨transfer, ht, h'⟩ := bind_ok_iff.mp h'
    obtain ⟨rfl, -⟩ := Transfer.dispatch_written ht
    rcases free_ok h' with ⟨hnone, -⟩ | ⟨p, hp, rfl⟩
    · cases hnone
    · cases hp
      exact ⟨ht, rfl, w, ws, block, hpending, deref_ok_iff.mp hblock, by rw [if_pos rfl], rfl⟩

/-! ### The transfer below -/

theorem update_unit (q q' : WriteQueue UInt8) :
    Function.update (fun _ : Unit => q) () q' = fun _ => q' := by
  funext i
  exact Function.update_self _ _ _

theorem start_linked (contents : Bytes) (p : FileTcpPipe) : Linked (start contents p) where
  pending := rfl
  submitted := rfl
  accepted := rfl
  intact := WriteQueue.intact_empty _
  copied := by simp [start, WriteQueue.empty]
  own := WriteQueue.allUsed_empty

/-- The stream is as it was, and so is every buffer. -/
theorem Linked.quiet {transfer : Transfer} {heap : Heap Bytes} (h : Linked s)
    (hpending : transfer.pending = s.transfer.pending)
    (hsubmitted : transfer.submitted = s.transfer.submitted)
    (hrefused : transfer.refused = s.transfer.refused) (hheap : ∀ p, heap.get? p = s.heap.get? p) :
    Linked ⟨transfer, heap, s.tcp⟩ where
  pending := by rw [hpending, h.pending]
  submitted := by rw [hsubmitted, h.submitted]
  accepted := by rw [hrefused, h.accepted]
  intact := h.intact.of_heap fun _ w _ => hheap w.base
  copied w hw := by rw [hheap, h.copied w hw]
  own := (WriteQueue.allUsed_congr hheap).mpr h.own

/-- A copy is handed to the stream, and the buffer is freed. -/
theorem Linked.copy {transfer : Transfer} {data block : Bytes} (h : Linked s)
    (hpending : transfer.pending = s.transfer.pending ++ [data])
    (hsubmitted : transfer.submitted = s.transfer.submitted ++ data)
    (hrefused : transfer.refused = s.transfer.refused) :
    Linked ⟨transfer, ((s.heap.alloc block).alloc data).free s.heap.next,
      s.tcp.submit ⟨s.heap.next + 1, data⟩⟩ := by
  have hnext : (s.heap.alloc block).next = s.heap.next + 1 := Heap.next_alloc _ _
  have hcopy : ((s.heap.alloc block).alloc data).get? (s.heap.next + 1) = some data := by
    rw [← hnext, Heap.get?_alloc_next]
  have hne : s.heap.next + 1 ≠ s.heap.next := Nat.succ_ne_self _
  have hold : ∀ w ∈ s.tcp.pending, w.base ≠ s.heap.next :=
    fun w hw => h.intact.unused_next () w hw
  have hintact := ((h.intact.alloc block).alloc data).submit () (w := ⟨s.heap.next + 1, data⟩)
    (hnext ▸ (h.intact.alloc block).unused_next) hcopy (List.prefix_refl data)
  rw [update_unit] at hintact
  constructor
  case pending =>
    rw [hpending, ← h.pending]
    simp [WriteQueue.submit]
  case submitted =>
    rw [hsubmitted, ← h.submitted]
    rfl
  case accepted => rw [hrefused, h.accepted]
  case intact =>
    refine hintact.free fun _ w hw => ?_
    rcases List.mem_append.mp hw with hw | hw
    · exact hold w hw
    · rw [List.mem_singleton.mp hw]
      exact hne
  case copied =>
    intro w hw
    rcases List.mem_append.mp hw with hw | hw
    · rw [Heap.get?_free_of_ne _ (hold w hw)]
      exact Heap.get?_alloc_of_live (Heap.get?_alloc_of_live (h.copied w hw) block) data
    · rw [List.mem_singleton.mp hw, Heap.get?_free_of_ne _ hne]
      exact hcopy
  case own =>
    intro p b hp
    obtain ⟨hpne, hp⟩ := Heap.free_cases hp
    rcases Heap.alloc_cases hp with ⟨rfl, -⟩ | hp
    · exact ⟨(), _, List.mem_append_right _ (List.mem_singleton_self _), hnext.symm⟩
    · rcases Heap.alloc_cases hp with ⟨rfl, -⟩ | hp
      · exact absurd rfl hpne
      · obtain ⟨_, w, hw, hbase⟩ := h.own p b hp
        exact ⟨(), w, List.mem_append_left _ hw, hbase⟩

/-- The oldest write has gone out, and its copy is freed. -/
theorem Linked.written {transfer : Transfer} {w : WriteOut UInt8} {ws : List (WriteOut UInt8)}
    (h : Linked s) (hw : s.tcp.pending = w :: ws)
    (hpending : transfer.pending = s.transfer.pending.tail)
    (hsubmitted : transfer.submitted = s.transfer.submitted)
    (hrefused : transfer.refused = s.transfer.refused) :
    Linked ⟨transfer, s.heap.free w.base, s.tcp.complete w.sent⟩ := by
  obtain ⟨-, hintact, hunused⟩ := h.intact.complete (i := ()) hw
  have hown := (WriteQueue.allUsed_complete_free_iff (i := ()) hw w.sent).mpr h.own
  rw [update_unit] at hintact hunused hown
  constructor
  case pending =>
    rw [hpending, ← h.pending, ← List.map_tail]
    rfl
  case submitted =>
    rw [hsubmitted, ← h.submitted]
    rfl
  case accepted => rw [hrefused, h.accepted]
  case intact => exact hintact.free hunused
  case own => exact hown
  case copied =>
    intro v hv
    rw [Heap.get?_free_of_ne _ (hunused () v hv)]
    exact h.copied v (List.mem_of_mem_tail hv)

/-- Settling hands nothing to the stream. -/
theorem act_settle (t : Transfer) (p : FileTcpPipe) (accepted : Bool) (settle : Settle) :
    (t.act p accepted (.settle settle)).pending = t.pending ∧
      (t.act p accepted (.settle settle)).submitted = t.submitted ∧
      (t.act p accepted (.settle settle)).refused = t.refused := by
  cases settle with
  | goOn => exact ⟨rfl, rfl, rfl⟩
  | finish status => exact ⟨rfl, rfl, rfl⟩
  | closeTcp => exact ⟨rfl, rfl, rfl⟩

theorem Linked.fileRead {r : ReadResult} (h : Linked s) (hdone : ReadDone s r u)
    (ht : Transfer.dispatch prog s.transfer (.fileRead r true) = .ok u.transfer) : Linked u := by
  obtain ⟨p, hp, ⟨hpos, htransfer⟩ | ⟨hle, settle, -, htransfer⟩⟩ := Transfer.dispatch_fileRead ht
  · have hpending : u.transfer.pending = s.transfer.pending ++ [r.data] := congrArg _ htransfer
    have hsubmitted : u.transfer.submitted = s.transfer.submitted ++ r.data := congrArg _ htransfer
    have hrefused : u.transfer.refused = s.transfer.refused := by
      rw [htransfer]
      rfl
    cases hdone with
    | data => exact h.copy hpending hsubmitted hrefused
    | noData hn => omega
    | noBuffer hn => omega
  · obtain ⟨hpending, hsubmitted, hrefused⟩ :=
      act_settle { s.transfer with streamDone := decide (r.nread < 0) } p true settle
    rw [← htransfer] at hpending hsubmitted hrefused
    cases hdone with
    | data hn => omega
    | noData => exact h.quiet hpending hsubmitted hrefused (s.heap.get?_alloc_free _)
    | noBuffer => exact h.quiet hpending hsubmitted hrefused fun _ => rfl

/-- **The step.**  The transfer below makes the same step, and the buffers follow. -/
theorem Linked.step (h : Linked s) {e : BufferedEvent} (he : s.Enabled e)
    (hok : dispatch prog s e = .ok u) :
    s.transfer.Enabled e.transfer ∧
      Transfer.dispatch prog s.transfer e.transfer = .ok u.transfer ∧ Linked u := by
  cases e with
  | fileRead r buf =>
    obtain ⟨ht, hdone⟩ := dispatch_fileRead he.2 hok
    exact ⟨he.1, ht, h.fileRead hdone ht⟩
  | written status =>
    obtain ⟨ht, rfl, w, ws, block, hw, hblock, htcp, hheap⟩ := dispatch_written hok
    have hmem : w ∈ s.tcp.pending := by simp [hw]
    have hpend : s.transfer.pending ≠ [] := by
      rw [← h.pending, hw]
      exact List.cons_ne_nil _ _
    refine ⟨hpend, ht, ?_⟩
    obtain rfl := Option.some.inj ((h.copied w hmem).symm.trans hblock)
    rw [List.take_length] at htcp
    obtain ⟨-, p, settle, -, htransfer, -⟩ := Transfer.dispatch_written ht
    obtain ⟨hpending, hsubmitted, hrefused⟩ :=
      act_settle { s.transfer with pending := s.transfer.pending.tail }
        { p with nwritten := p.nwritten + (s.transfer.pending.headD []).length } true settle
    rw [← htransfer] at hpending hsubmitted hrefused
    have hu := h.written hw hpending hsubmitted hrefused
    rwa [← htcp, ← hheap] at hu
  | closed =>
    obtain ⟨transfer, ht, hu⟩ := bind_ok_iff.mp hok
    cases hu
    refine ⟨he, ht, ?_⟩
    obtain ⟨p, -, htransfer⟩ := bind_ok_iff.mp ht
    cases htransfer
    exact h.quiet rfl rfl rfl fun _ => rfl

/-- **The buffers keep what the transfer says.** -/
theorem buffered_simulates (prog : TransferProgram) :
    EventLoop.Simulates (loop prog) (Transfer.loop prog)
      (fun s t => s.transfer = t ∧ Linked s) (fun e => some e.transfer) where
  erased _ _ _ hf := nomatch hf
  matched := by
    rintro s _ e u _ ⟨rfl, hs⟩ he hok hf
    cases hf
    obtain ⟨hte, ht, hu⟩ := hs.step he hok
    exact ⟨hte, u.transfer, ht, rfl, hu⟩

end

/-! ### The bookkeeping -/

/-- No callback has ended the transfer: `pipe_file_cb` was not called, and the tcp handle was not
closed. -/
structure InProgress (es : List BufferedEvent) (s : BufferedTransfer) : Prop where
  completed : s.transfer.completed = []
  closing : s.transfer.closing = 0
  closed : .closed ∉ es

/-- The counters of the transfer, the writes on the stream, the buffers, and the file. -/
structure Bookkeeping (contents : Bytes) (s : BufferedTransfer) (p : FileTcpPipe) : Prop where
  size : p.size = contents.length
  written_le : p.nwritten ≤ p.nread
  read_le : p.nread ≤ p.size
  pending : p.nread - p.nwritten = s.tcp.bytesOut
  submitted : s.tcp.submitted = contents.take p.nread
  arrived : s.tcp.arrived = contents.take p.nwritten
  /-- Each pending write still has its copy. -/
  copied : ∀ w ∈ s.tcp.pending, s.heap.get? w.base = some w.sent
  /-- The buffers that the file was read into are free. -/
  own : WriteQueue.AllUsed (fun _ : Unit => s.tcp) s.heap

section

variable {prog : TransferProgram} {s : BufferedTransfer} {contents : Bytes}
  {es : List BufferedEvent}

/-- The block is freed when the transfer is completed, or by `on_res_end`. -/
theorem live_of_run {t₀ t : Transfer} {ts : List TransferEvent} (h₀ : t₀.block ≠ none)
    (h : (Transfer.loop prog).Run t₀ ts t) :
    t.block = none → t.completed ≠ [] ∨ .closed ∈ ts := by
  refine h.history (P := fun ts t => t.block = none → t.completed ≠ [] ∨ .closed ∈ ts)
    (fun hnone => absurd hnone h₀) ?_
  intro ts t e u ih he hok hnone
  have hsettle : ∀ (t' : Transfer) p accepted settle,
      (t'.act p accepted (.settle settle)).block = none →
        (t'.act p accepted (.settle settle)).completed ≠ [] := by
    intro t' p accepted settle hblock
    cases settle with
    | goOn => cases hblock
    | finish status => simp [Transfer.act]
    | closeTcp => cases hblock
  cases e with
  | fileRead r accepted =>
    obtain ⟨p, -, ⟨-, rfl⟩ | ⟨-, settle, -, rfl⟩⟩ := Transfer.dispatch_fileRead hok
    · cases accepted <;> cases hnone
    · exact .inl (hsettle _ p accepted settle hnone)
  | written status =>
    obtain ⟨-, p, settle, -, rfl, -⟩ := Transfer.dispatch_written hok
    exact .inl (hsettle _ _ true settle hnone)
  | closed => exact .inr (List.mem_append_right _ (List.mem_singleton_self _))

/-- What was taken off the stream is what is not pending of what was handed over. -/
theorem Linked.arrived (h : Linked s) {p : FileTcpPipe}
    (hbalanced : (s.transfer.pump p).Balanced) :
    p.nread = p.nwritten + s.tcp.bytesOut ∧ s.tcp.submitted = s.transfer.contents.take p.nread ∧
      s.tcp.arrived = s.transfer.contents.take p.nwritten := by
  have hcounts : p.nread = p.nwritten + (s.transfer.pending.map List.length).sum
      + s.transfer.refused := hbalanced.counts
  have hsubmitted : s.transfer.submitted = s.transfer.contents.take p.nread :=
    hbalanced.order h.accepted
  have hread : p.nread = p.nwritten + s.tcp.bytesOut := by
    rw [h.accepted, Nat.add_zero, ← h.pending] at hcounts
    rw [hcounts, WriteQueue.bytesOut, List.length_flatMap, List.map_map]
    rfl
  have hbound : p.nread ≤ s.transfer.contents.length := hbalanced.bound
  refine ⟨hread, h.submitted.trans hsubmitted, ?_⟩
  -- the first part of the submitted bytes, by its length
  have hconserved : s.tcp.submitted = s.tcp.arrived ++ s.tcp.pending.flatMap WriteOut.sent :=
    h.intact.conserved ()
  rw [h.submitted, hsubmitted] at hconserved
  have hlen := congrArg List.length hconserved
  rw [List.length_append, List.length_take, Nat.min_eq_left hbound] at hlen
  have harrived : s.tcp.arrived.length = p.nwritten := by
    unfold WriteQueue.bytesOut at hread
    omega
  rw [← harrived]
  have htake := congrArg (List.take s.tcp.arrived.length) hconserved
  rw [List.take_left, List.take_take, Nat.min_eq_left (by omega)] at htake
  exact htake.symm

/-- What holds in every state of a run before the transfer is ended. -/
theorem bookkeeping_of_run {filePipe tcp : ℕ}
    (h : (loop prog).Run (start contents (.fresh contents.length filePipe tcp)) es s)
    (hprogress : InProgress es s) :
    ∃ p, s.transfer.block = some p ∧ Bookkeeping contents s p := by
  obtain ⟨t, hrun, rfl, hlinked⟩ :=
    (buffered_simulates prog).run ⟨rfl, start_linked contents _⟩ h
  have hsound := Transfer.sound hrun
  have hlive := live_of_run (Option.some_ne_none _) hrun
  cases hblock : s.transfer.block with
  | none =>
    exfalso
    rcases hlive hblock with hcompleted | hclosed
    · exact hcompleted hprogress.completed
    · obtain ⟨e, he, hclosed⟩ := List.mem_filterMap.mp hclosed
      cases e with
      | closed => exact hprogress.closed he
      | fileRead r buf => cases hclosed
      | written status => cases hclosed
  | some p =>
    obtain ⟨hread, hsubmitted, harrived⟩ := hlinked.arrived (hsound.balanced p hblock)
    have hbound : p.nread ≤ s.transfer.contents.length := (hsound.balanced p hblock).bound
    have hsize := hsound.size p hblock
    rw [hsound.contents] at hsubmitted harrived hbound
    exact ⟨p, rfl, hsize, by omega, by omega, by omega, hsubmitted, harrived, hlinked.copied,
      hlinked.own⟩

end

end BufferedTransfer

open StaticWebServer SendFile BufferedTransfer

/-- **Bookkeeping.**  In `pipe-file.c`, after a call of `sws_pipe_file` that returned 0, and in
`send-file`: in every run, as long as nothing has ended the transfer, the counters, the writes that
are pending, the buffers and the file agree. -/
theorem bookkeeping (contents : Bytes) (tcp filePipe : ℕ) :
    (∀ tcpData env p es s,
        swsPipeFile tcpData tcp filePipe contents.length env = .ok (some p, 0) →
        (loop pipeFileProgram).Run (.start contents p) es s → InProgress es s →
        ∃ q, s.transfer.block = some q ∧ Bookkeeping contents s q) ∧
      (∀ es s,
        (loop sendFileProgram).Run
          (.start contents (initFileTcpPipe tcp filePipe contents.length)) es s →
        InProgress es s → ∃ q, s.transfer.block = some q ∧ Bookkeeping contents s q) := by
  constructor
  · intro tcpData env p es s hcall hrun hprogress
    obtain rfl := swsPipeFile_ok hcall
    exact bookkeeping_of_run hrun hprogress
  · intro es s hrun hprogress
    exact bookkeeping_of_run hrun hprogress

/-- Three bytes of a file are read, and the first of two writes has completed. -/
def threeBytes : List BufferedEvent :=
  [.fileRead (.chunk [65]) (some [65, 0]), .fileRead (.chunk [66, 67]) (some [66, 67]), .written 0]

theorem bookkeeping_threeBytes :
    (∃ s p, (loop pipeFileProgram).Run (.start [65, 66, 67, 68] (.fresh 4 1 2)) threeBytes s ∧
      s.transfer.block = some p ∧ Bookkeeping [65, 66, 67, 68] s p) ∧
    ∃ s p, (loop sendFileProgram).Run (.start [65, 66, 67, 68] (.fresh 4 1 2)) threeBytes s ∧
      s.transfer.block = some p ∧ Bookkeeping [65, 66, 67, 68] s p := by
  obtain ⟨s, hrun, hs⟩ : ∃ s, (loop pipeFileProgram).Run
      (.start [65, 66, 67, 68] (.fresh 4 1 2)) threeBytes s ∧
      (s.transfer.completed == [] && s.transfer.closing == 0) = true :=
    EventLoop.exists_run_of_plays (by decide)
  obtain ⟨t, hrun', ht⟩ : ∃ t, (loop sendFileProgram).Run
      (.start [65, 66, 67, 68] (.fresh 4 1 2)) threeBytes t ∧
      (t.transfer.completed == [] && t.transfer.closing == 0) = true :=
    EventLoop.exists_run_of_plays (by decide)
  rw [Bool.and_eq_true, beq_iff_eq, beq_iff_eq] at hs ht
  have hcall : swsPipeFile none 2 1 4 ⟨0, 0, 0⟩ = .ok (some (.fresh 4 1 2), 0) := by decide
  obtain ⟨hpipe, hsend⟩ := bookkeeping [65, 66, 67, 68] 2 1
  obtain ⟨p, hp⟩ := hpipe none ⟨0, 0, 0⟩ _ _ s hcall hrun ⟨hs.1, hs.2, by decide⟩
  obtain ⟨q, hq⟩ := hsend _ t hrun' ⟨ht.1, ht.2, by decide⟩
  exact ⟨⟨s, p, hrun, hp⟩, t, q, hrun', hq⟩

end LibuvDox
