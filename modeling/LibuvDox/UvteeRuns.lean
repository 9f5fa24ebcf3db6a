import LibuvDox.Uvtee

/-!
# Whole runs of the tee programs

What the three versions have in common is all that their runs need: `Tees` says what a version does
on a read event and that the rest of the program keeps whatever its buffers need.

* `sound_of_run`: in every run both sinks were handed what was read so far, and every pending write
  finds its bytes.
* `reuseBuf_equivalent`: the version that reuses its buffer hands the sinks the same bytes as the
  plain one, and takes one buffer from the heap that it gives back at the end of the file.
* `tee_losesNothing_iff`: nothing is lost exactly if at the end of the file no write is pending and
  the file was not longer than what was read.
-/

namespace LibuvDox.Uvtee

/-- The state after `write_cb` of a write that was successful. -/
def calledBack (s : Tee) (k : Sink) (w : WriteOut UInt8) (req : WriteOut UvBuf) : Tee :=
  { s with
    queue := Function.update s.queue k ((s.queue k).complete w.sent)
    heap := s.heap.free w.base
    reqs := Function.update s.reqs k ((s.reqs k).complete req.sent)
    writeReqs := s.writeReqs.free req.base }

/-- What the runs of a version rest on; `Inv` is what it needs of its buffers. -/
structure Tees (prog : TeeProgram) (Inv : Tee → Prop) : Prop where
  start : ∀ input, Inv (init prog input)
  read : ∀ s fresh r, WritesHeld s → Inv s → Enabled prog s (.read fresh r) →
    ∃ u, dispatch prog s (.read fresh r) = .ok u ∧ ReadEffect s r u ∧ WritesHeld u ∧ Inv u
  flags : ∀ s opening reading closed, Inv s →
    Inv { s with opening := opening, reading := reading, closed := closed }
  written : ∀ s k w ws req, Inv s → (s.queue k).pending = w :: ws → Inv (calledBack s k w req)

/-- The plain version, whether or not it opens the file asynchronously, needs nothing. -/
theorem plain_tees (async : Bool) : Tees ⟨allocCb, readCb, async⟩ fun _ => True where
  start _ := trivial
  read s fresh r h _ he := by
    obtain ⟨-, heof, hbuf, -⟩ := he
    obtain ⟨u, hu, heffect, hheld⟩ := uvtee_read async h heof hbuf
    exact ⟨u, hu, heffect, hheld, trivial⟩
  flags _ _ _ _ _ := trivial
  written _ _ _ _ _ _ _ := trivial

theorem reuseBuf_tees : Tees uvteeReuseBuf OneBuffer where
  start _ := ⟨fun _ => rfl, nofun⟩
  read s fresh r h hone he := by
    obtain ⟨-, heof, hbuf, hfits, -⟩ := he
    exact reuseBuf_read false h hone heof hbuf hfits
  flags _ _ _ _ hone := ⟨hone.before, hone.after⟩
  written s k w ws req hone hpending := by
    refine ⟨hone.before, fun p hp => ?_⟩
    obtain ⟨hallocs, hlt, hunused, hlive⟩ := hone.after p hp
    have hne : p ≠ w.base := (hunused k w (by simp [hpending])).symm
    refine ⟨hallocs, ?_, fun j v hv => hunused j v (WriteQueue.mem_pending_complete hv), ?_⟩
    · show p < (s.heap.free w.base).next
      rwa [Heap.next_free]
    · show if s.eof then (s.heap.free w.base).get? p = none
        else ∃ block, (s.heap.free w.base).get? p = some block ∧ block.length = s.reusesize
      rw [Heap.get?_free_of_ne _ hne]
      exact hlive

/-- What holds in every run: the writes are held, and both sinks were handed what was read. -/
structure Sound (input : Bytes) (s : Tee) : Prop where
  held : WritesHeld s
  same : s.input = input
  order : ∀ k, (s.queue k).submitted = input.take s.offset
  done : s.eof = true → s.offset = input.length
  opened : s.eof = false → s.closed = fun _ => false

section

variable {prog : TeeProgram} {Inv : Tee → Prop} {input : Bytes} {s u : Tee}

theorem init_sound (prog : TeeProgram) (input : Bytes) : Sound input (init prog input) where
  held := .empty
  same := rfl
  order := fun _ => rfl
  done := nofun
  opened := fun _ => rfl

/-- What was handed over grows by what is read next. -/
theorem Sound.read {fresh : Option Bytes} {r : ReadResult} (h : Sound input s)
    (he : Enabled prog s (.read fresh r)) (heffect : ReadEffect s r u)
    (hheld : WritesHeld u) : Sound input u where
  held := hheld
  same := heffect.input.trans h.same
  order k := by
    obtain ⟨-, -, -, -, ⟨rest, hrest⟩, -⟩ := he
    rw [h.same] at hrest
    rw [heffect.submitted k, h.order k, heffect.offset, List.take_add, ← hrest, List.take_left]
  done heof := by
    obtain ⟨-, -, -, -, -, hend⟩ := he
    have hn : r.nread = UV_EOF := of_decide_eq_true (heffect.eof.symm.trans heof)
    have hdata := ReadResult.data_of_nonpos (r := r) (by rw [hn]; decide)
    rw [heffect.offset, hdata, hend hn, h.same]
    rfl
  opened _ := by
    rw [heffect.closed]
    exact h.opened he.2.1

/-- `write_cb` of the oldest write of a sink frees its copy and its `write_req_t`. -/
theorem freeWriteReq_eq {t : Tee} {req : ℕ} {w : WriteOut UInt8} {block : Bytes}
    {more : List UvBuf} (hreq : t.writeReqs.get? req = some (bufOf w :: more))
    (hblock : t.heap.get? w.base = some block) :
    freeWriteReq t req = .ok { t with
      heap := t.heap.free w.base, writeReqs := t.writeReqs.free req } :=
  bind_ok_iff.mpr ⟨_, deref_ok_iff.mpr hreq, bind_ok_iff.mpr ⟨bufOf w, rfl,
    bind_ok_iff.mpr ⟨_, free_live hblock, rfl⟩⟩⟩

/-- The callback of a write: it aborts the program unless the write was successful, and otherwise
frees the copy and the `write_req_t`. -/
theorem Sound.written_cases {k : Sink} (h : Sound input s) (status : ℤ)
    (hpending : (s.queue k).pending ≠ []) :
    (status ≠ 0 ∧ written s k status = .error statusIsZero) ∨
      (status = 0 ∧ ∃ w ws req, (s.queue k).pending = w :: ws ∧
        written s k status = .ok (calledBack s k w req) ∧ WritesHeld (calledBack s k w req)) := by
  obtain ⟨w, ws, hw⟩ := List.exists_cons_of_ne_nil hpending
  obtain ⟨⟨block, hblock, htake⟩, -⟩ := h.held.copies.complete hw
  obtain ⟨req, rest, hreqs, -, more, hreq⟩ := h.held.oldest hw
  have hderef : deref (s.heap.get? w.base) "req->buf.base" = .ok block := deref_ok_iff.mpr hblock
  by_cases hstatus : status = 0
  · refine .inr ⟨hstatus, w, ws, req, hw, ?_, h.held.complete hw hreqs⟩
    subst hstatus
    unfold written
    rw [hw, hreqs]
    refine bind_ok_iff.mpr ⟨block, hderef, ?_⟩
    rw [if_pos rfl, htake]
    exact freeWriteReq_eq (t := { s with
      queue := Function.update s.queue k ((s.queue k).complete w.sent)
      reqs := Function.update s.reqs k ((s.reqs k).complete req.sent) }) hreq hblock
  · refine .inl ⟨hstatus, ?_⟩
    unfold written
    rw [hw, hreqs]
    show (deref (s.heap.get? w.base) "req->buf.base" >>= fun block => writeCb _ req.base status) = _
    rw [hderef]
    exact if_pos hstatus

theorem Sound.written (h : Sound input s) {k : Sink} {w : WriteOut UInt8} {req : WriteOut UvBuf}
    (hheld : WritesHeld (calledBack s k w req)) : Sound input (calledBack s k w req) where
  held := hheld
  same := h.same
  order j := by
    show (Function.update s.queue k _ j).submitted = _
    by_cases hj : j = k
    · subst hj
      rw [Function.update_self]
      exact h.order j
    · rw [Function.update_of_ne hj]
      exact h.order j
  done := h.done
  opened := h.opened

/-- **One event.**  It keeps the invariant, or stops the program in an assertion; nothing undefined
happens. -/
theorem Tees.step (ht : Tees prog Inv) {e : TeeEvent} (h : Sound input s) (hi : Inv s)
    (he : (tee prog).enabled s e) :
    (∃ u, (tee prog).dispatch s e = .ok u ∧ Sound input u ∧ Inv u) ∨
      (tee prog).dispatch s e = .error statusIsZero ∨
      (tee prog).dispatch s e = .error errorMacro := by
  cases e with
  | opened result =>
    by_cases hneg : result < 0
    · exact .inr (.inr (if_pos hneg))
    · exact .inl ⟨_, if_neg hneg, ⟨h.held, h.same, h.order, h.done, h.opened⟩,
        ht.flags s _ _ s.closed hi⟩
  | read fresh r =>
    obtain ⟨u, hu, heffect, hheld, hi'⟩ := ht.read s fresh r h.held hi he
    exact .inl ⟨u, hu, h.read he heffect hheld, hi'⟩
  | written k status =>
    rcases h.written_cases status he.1 with ⟨-, herror⟩ | ⟨-, w, ws, req, hw, hok, hheld⟩
    · exact .inr (.inl herror)
    · exact .inl ⟨_, hok, h.written hheld, ht.written s k w ws req hi hw⟩
  | closed p =>
    have heof : s.eof = true := he.1
    refine .inl ⟨_, rfl, ⟨h.held, h.same, h.order, h.done, fun hopen => ?_⟩,
      ht.flags s s.opening s.reading _ hi⟩
    rw [show s.eof = false from hopen] at heof
    cases heof

theorem Tees.sound_of_run (ht : Tees prog Inv) {es : List TeeEvent}
    (h : (tee prog).Run (init prog input) es s) : Sound input s ∧ Inv s := by
  refine h.invariant (P := fun s => Sound input s ∧ Inv s)
    ⟨init_sound prog input, ht.start input⟩ ?_
  intro s e u ⟨hs, hi⟩ he hok
  rcases ht.step hs hi he with ⟨u', hu', hs', hi'⟩ | herror | herror
  · rw [hok] at hu'
    cases hu'
    exact ⟨hs', hi'⟩
  · rw [hok] at herror
    cases herror
  · rw [hok] at herror
    cases herror

/-- At the end of the file both sinks were handed all of the input. -/
theorem Sound.submitted_eq (h : Sound input s) (heof : s.eof = true) (k : Sink) :
    (s.queue k).submitted = input := by
  rw [h.order k, h.done heof, List.take_length]

/-- A pending write finds in its copy what was handed over. -/
def PendingKept (s : Tee) : Prop :=
  ∀ k, ∀ w ∈ (s.queue k).pending, ∃ block, s.heap.get? w.base = some block ∧
    block.take w.sent.length = w.sent

theorem Sound.pendingKept (h : Sound input s) : PendingKept s := by
  intro k w hw
  obtain ⟨block, hblock, hsent⟩ := h.held.copies.held k w hw
  exact ⟨block, hblock, (List.prefix_iff_eq_take.mp hsent).symm⟩

/-- No event that may come next uses memory that is not there. -/
def Defined (prog : TeeProgram) (s : Tee) : Prop :=
  ∀ e what, (tee prog).enabled s e → (tee prog).dispatch s e ≠ .error (.undefined what)

theorem Tees.defined (ht : Tees prog Inv) (h : Sound input s) (hi : Inv s) : Defined prog s := by
  intro e what he hundefined
  rcases ht.step h hi he with ⟨u, hu, -⟩ | herror | herror
  · rw [hundefined] at hu
    cases hu
  · rw [hundefined] at herror
    cases herror
  · rw [hundefined] at herror
    cases herror

/-- At most one buffer was ever taken from the heap; it is there up to the end of the file, and
then it is not there any more. -/
def OneBufferFreedAtEof (s : Tee) : Prop :=
  s.allocs.length ≤ 1 ∧
    ∀ p ∈ s.allocs, if s.eof then s.heap.get? p = none else (s.heap.get? p).isSome

theorem OneBuffer.freedAtEof (h : OneBuffer s) : OneBufferFreedAtEof s := by
  cases hbuf : s.reusebuf with
  | none =>
    rw [OneBufferFreedAtEof, h.before hbuf]
    exact ⟨Nat.zero_le 1, nofun⟩
  | some p =>
    obtain ⟨hallocs, -, -, hlive⟩ := h.after p hbuf
    rw [OneBufferFreedAtEof, hallocs]
    refine ⟨le_rfl, fun q hq => ?_⟩
    obtain rfl := List.mem_singleton.mp hq
    split at hlive
    · rename_i heof
      rw [if_pos heof]
      exact hlive
    · rename_i heof
      obtain ⟨block, hblock, -⟩ := hlive
      rw [if_neg heof, hblock]
      rfl

end

/-- **The two versions are equivalent.**  However its input is cut into reads, each version has
handed it to both sinks when the end of the file has been read, and neither changes the bytes of a
pending write or uses memory that is not there; the one that reuses its buffer allocates at most one
and frees it at the end of the file. -/
theorem reuseBuf_equivalent (input : Bytes) :
    (∀ es s, (tee uvtee).Run (init uvtee input) es s →
        (s.eof = true → ∀ k, (s.queue k).submitted = input) ∧ PendingKept s ∧ Defined uvtee s) ∧
      ∀ es s, (tee uvteeReuseBuf).Run (init uvteeReuseBuf input) es s →
        (s.eof = true → ∀ k, (s.queue k).submitted = input) ∧ PendingKept s ∧
          Defined uvteeReuseBuf s ∧ OneBufferFreedAtEof s := by
  constructor
  · intro es s h
    obtain ⟨hs, hi⟩ := (plain_tees false).sound_of_run h
    exact ⟨hs.submitted_eq, hs.pendingKept, (plain_tees false).defined hs hi⟩
  · intro es s h
    obtain ⟨hs, hone⟩ := reuseBuf_tees.sound_of_run h
    exact ⟨hs.submitted_eq, hs.pendingKept, reuseBuf_tees.defined hs hone, hone.freedAtEof⟩

/-- A byte, and the end of the file. -/
def oneByte : TeeEvent := .read (some [0, 0]) (.chunk [65])

def endOfFile : TeeEvent := .read none .eof

/-- Two bytes in two reads and an empty read, all before the first write is called back, and the end
of the file. -/
def twoReads : List TeeEvent :=
  [oneByte, .read (some [0, 0]) (.chunk [66]), .read (some [0, 0]) (.chunk []), .written .stdout 0,
    endOfFile]

/-- Both versions, with the same reads: the copies of the first byte are still there when the buffer
is used again, and the buffer is gone at the end. -/
theorem reuseBuf_equivalent_twoReads :
    (∃ s, (tee uvtee).Run (init uvtee [65, 66]) twoReads s ∧
      (∀ k, (s.queue k).submitted = [65, 66]) ∧ PendingKept s) ∧
    ∃ s, (tee uvteeReuseBuf).Run (init uvteeReuseBuf [65, 66]) twoReads s ∧
      (s.queue .file).pending = [⟨2, [65]⟩, ⟨4, [66]⟩] ∧
      (∀ k, (s.queue k).submitted = [65, 66]) ∧ PendingKept s ∧ OneBufferFreedAtEof s := by
  obtain ⟨s, hrun, heof⟩ : ∃ s, (tee uvtee).Run (init uvtee [65, 66]) twoReads s ∧ s.eof = true :=
    EventLoop.exists_run_of_plays (by decide +kernel)
  obtain ⟨s', hrun', heof'⟩ : ∃ s, (tee uvteeReuseBuf).Run (init uvteeReuseBuf [65, 66]) twoReads s ∧
      (s.eof && (s.queue .file).pending == [⟨2, [65]⟩, ⟨4, [66]⟩]) = true :=
    EventLoop.exists_run_of_plays (by decide +kernel)
  obtain ⟨hplain, hreuse⟩ := reuseBuf_equivalent [65, 66]
  obtain ⟨hall, hkept, -⟩ := hplain _ s hrun
  obtain ⟨hall', hkept', -, hfreed⟩ := hreuse _ s' hrun'
  rw [Bool.and_eq_true, beq_iff_eq] at heof'
  exact ⟨⟨s, hrun, hall heof, hkept⟩, ⟨s', hrun', heof'.2, hall' heof'.1, hkept', hfreed⟩⟩

/-! ### What is lost at the end of the file -/

/-- What a file holds that held `old` and was opened without truncating it, after these bytes were
written from its start. -/
def overwritten (old written : Bytes) : Bytes := written ++ old.drop written.length

/-- The bytes written are all there is exactly if the file was not longer before. -/
theorem overwritten_eq_iff (old written : Bytes) :
    overwritten old written = written ↔ old.length ≤ written.length := by
  rw [overwritten, List.append_right_eq_self, List.drop_eq_nil_iff]

/-- Whatever happens from `t` on: no write is called back with an error because its sink was closed,
and when all three handles have been closed all of the input has come out on stdout and is all
there is in the file. -/
def LosesNothing (prog : TeeProgram) (input old : Bytes) (t : Tee) : Prop :=
  ∀ es u, (tee prog).Run t es u →
    (∀ k status, (tee prog).enabled u (.written k status) → status = 0) ∧
      ((∀ p, u.closed p = true) → (u.queue .stdout).arrived = input ∧
        overwritten old (u.queue .file).arrived = input)

/-- Everything has gone out, and nothing can be added. -/
def Over (input : Bytes) (s : Tee) : Prop :=
  s.eof = true ∧ ∀ k, (s.queue k).pending = [] ∧ (s.queue k).arrived = input

section

variable {prog : TeeProgram} {Inv : Tee → Prop} {input : Bytes} {s u : Tee}

/-- That everything has gone out stays so. -/
theorem Over.step {e : TeeEvent} (h : Over input s) (he : (tee prog).enabled s e)
    (hok : (tee prog).dispatch s e = .ok u) : Over input u := by
  cases e with
  | opened result =>
    have hok' : openCb s result = .ok u := hok
    unfold openCb at hok'
    split at hok'
    · cases hok'
    · cases hok'
      exact h
  | read fresh r =>
    have heof : s.eof = false := he.2.1
    rw [h.1] at heof
    cases heof
  | written k status => exact absurd (h.2 k).1 he.1
  | closed p =>
    cases hok
    exact h

/-- The close callback of one handle. -/
theorem run_closed (prog : TeeProgram) (p : Pipe) (heof : s.eof = true) (hopen : s.closed p = false)
    (hpending : ∀ k, (s.queue k).pending = []) :
    (tee prog).Run s [.closed p] { s with closed := Function.update s.closed p true } :=
  .snoc .nil ⟨heof, hopen, fun k _ => hpending k⟩ rfl

/-- The three close callbacks, when nothing is pending. -/
theorem Over.exists_closed (prog : TeeProgram) (h : Over input s)
    (hclosed : s.closed = fun _ => false) :
    ∃ es u, (tee prog).Run s es u ∧ (∀ p, u.closed p = true) ∧ u.queue = s.queue := by
  have hpending : ∀ k, (s.queue k).pending = [] := fun k => (h.2 k).1
  have h1 := run_closed prog .stdin h.1 (by rw [hclosed]) hpending
  have h2 := run_closed prog (s := { s with closed := Function.update s.closed .stdin true })
    (.sink .stdout) h.1 (by simp [hclosed]) hpending
  have h3 := run_closed prog (s := { s with
    closed := Function.update (Function.update s.closed .stdin true) (.sink .stdout) true })
    (.sink .file) h.1 (by simp [hclosed]) hpending
  refine ⟨_, _, (h1.append h2).append h3, fun p => ?_, rfl⟩
  cases p with
  | stdin => simp
  | sink k => cases k <;> simp

/-- **The end of the file.**  Once it has been read nothing will be lost exactly if no write is
pending and the file was not longer than the input. -/
theorem Sound.complete_iff (hs : Sound input s) (heof : s.eof = true)
    (hclosed : s.closed = fun _ => false) (old : Bytes) :
    LosesNothing prog input old s ↔
      (∀ k, (s.queue k).pending = []) ∧ old.length ≤ input.length := by
  have hover : (∀ k, (s.queue k).pending = []) → Over input s := by
    intro hpending
    refine ⟨heof, fun k => ⟨hpending k, ?_⟩⟩
    have hall := hs.held.copies.conserved k
    rw [hpending k, List.flatMap_nil, List.append_nil] at hall
    rw [← hall]
    exact hs.submitted_eq heof k
  constructor
  · intro hloses
    have hpending : ∀ k, (s.queue k).pending = [] := by
      intro k
      by_contra hne
      exact absurd ((hloses [] s .nil).1 k UV_ECANCELED ⟨hne, fun _ => rfl⟩) (by decide)
    obtain ⟨es, u, hu, hall, hqueue⟩ := (hover hpending).exists_closed prog hclosed
    have hfile := ((hloses es u hu).2 hall).2
    rw [hqueue, ((hover hpending).2 .file).2] at hfile
    exact ⟨hpending, (overwritten_eq_iff old input).mp hfile⟩
  · intro ⟨hpending, hold⟩ es u hu
    have hu' : Over input u :=
      hu.invariant (hover hpending) fun _ _ _ h he hok => h.step he hok
    refine ⟨fun k status he => absurd (hu'.2 k).1 he.1, fun _ => ⟨(hu'.2 .stdout).2, ?_⟩⟩
    rw [(hu'.2 .file).2]
    exact (overwritten_eq_iff old input).mpr hold

end

/-- The three versions of the program. -/
def teePrograms : List TeeProgram := [uvtee, uvteeReuseBuf, uvteeAllAsync]

theorem tees_of_mem {prog : TeeProgram} (h : prog ∈ teePrograms) : ∃ Inv, Tees prog Inv := by
  rcases List.mem_cons.mp h with rfl | h
  · exact ⟨_, plain_tees false⟩
  · rcases List.mem_cons.mp h with rfl | h
    · exact ⟨_, reuseBuf_tees⟩
    · rw [List.mem_singleton.mp h]
      exact ⟨_, plain_tees true⟩

/-- **tee loses nothing in time.**  In each version, in every run that reads the end of the file in
the state `s`, nothing will be lost exactly if no write is pending in `s` and the file was not
longer than the input. -/
theorem tee_losesNothing_iff (prog : TeeProgram) (hprog : prog ∈ teePrograms) (input old : Bytes)
    (es : List TeeEvent) (s t : Tee) (fresh : Option Bytes) (r : ReadResult)
    (h : (tee prog).Run (init prog input) es s) (he : (tee prog).enabled s (.read fresh r))
    (hn : r.nread = UV_EOF) (hok : (tee prog).dispatch s (.read fresh r) = .ok t) :
    LosesNothing prog input old t ↔
      (∀ k, (s.queue k).pending = []) ∧ old.length ≤ input.length := by
  obtain ⟨Inv, ht⟩ := tees_of_mem hprog
  obtain ⟨hs, hi⟩ := ht.sound_of_run h
  obtain ⟨t', hok', heffect, hheld, -⟩ := ht.read s fresh r hs.held hi he
  have htt : t = t' := Except.ok.inj (hok.symm.trans hok')
  subst htt
  have heof : t.eof = true := heffect.eof.trans (decide_eq_true hn)
  have hclosed : t.closed = fun _ => false := heffect.closed.trans (hs.opened he.2.1)
  have hqueue : t.queue = s.queue := heffect.quiet (by rw [hn]; decide)
  rw [← hqueue]
  exact (hs.read he heffect hheld).complete_iff heof hclosed old

/-- One byte that both sinks have taken when the end of the file is read, and a file that was
empty: nothing is lost. -/
theorem tee_losesNothing_iff_inTime : ∃ s t, (tee uvtee).Run (init uvtee [65])
      [oneByte, .written .stdout 0, .written .file 0] s ∧
    (tee uvtee).dispatch s endOfFile = .ok t ∧ LosesNothing uvtee [65] [] t := by
  obtain ⟨s, hrun, hp⟩ : ∃ s, (tee uvtee).Run (init uvtee [65])
      [oneByte, .written .stdout 0, .written .file 0] s ∧
      ((s.queue .stdout).pending == [] && (s.queue .file).pending == []) = true :=
    EventLoop.exists_run_of_plays (by decide +kernel)
  obtain ⟨t, hrun', -⟩ : ∃ t, (tee uvtee).Run (init uvtee [65])
      ([oneByte, .written .stdout 0, .written .file 0] ++ [endOfFile]) t ∧ t.eof = true :=
    EventLoop.exists_run_of_plays (by decide +kernel)
  obtain ⟨s', hs', he, hok⟩ := hrun'.snoc_inv
  obtain rfl := hs'.unique hrun
  rw [Bool.and_eq_true, beq_iff_eq, beq_iff_eq] at hp
  have hpending : ∀ k, (s'.queue k).pending = [] := by
    intro k
    cases k with
    | stdout => exact hp.1
    | file => exact hp.2
  refine ⟨s', t, hrun, hok, ?_⟩
  exact (tee_losesNothing_iff uvtee (by simp [teePrograms]) [65] [] _ s' t none .eof hrun he rfl
    hok).mpr ⟨hpending, Nat.zero_le _⟩

/-- The byte is still on its way to stdout when the end of the file is read: its write is
cancelled.  And a file that held two bytes keeps the second one. -/
theorem tee_loses : (¬ ∀ prog ∈ teePrograms, ∀ input old es s t fresh (r : ReadResult),
      (tee prog).Run (init prog input) es s → (tee prog).enabled s (.read fresh r) →
      r.nread = UV_EOF → (tee prog).dispatch s (.read fresh r) = .ok t →
      LosesNothing prog input old t) ∧
    ∃ s, (tee uvtee).Run (init uvtee [65]) [oneByte, .written .stdout 0, .written .file 0,
        endOfFile, .closed .stdin, .closed (.sink .stdout), .closed (.sink .file)] s ∧
      overwritten [1, 2] (s.queue .file).arrived = [65, 2] := by
  constructor
  · intro h
    obtain ⟨t, hrun, hp⟩ : ∃ t, (tee uvtee).Run (init uvtee [65]) ([oneByte] ++ [endOfFile]) t ∧
        decide ((tee uvtee).enabled t (.written .stdout UV_ECANCELED)) = true :=
      EventLoop.exists_run_of_plays (by decide +kernel)
    obtain ⟨s, hs, he, hok⟩ := hrun.snoc_inv
    have hloses := h uvtee (by simp [teePrograms]) [65] [] _ s t none .eof hs he rfl hok
    exact absurd ((hloses [] t .nil).1 .stdout UV_ECANCELED (of_decide_eq_true hp)) (by decide)
  · obtain ⟨s, hrun, hp⟩ : ∃ s, (tee uvtee).Run (init uvtee [65])
        [oneByte, .written .stdout 0, .written .file 0, endOfFile, .closed .stdin,
          .closed (.sink .stdout), .closed (.sink .file)] s ∧
        ((s.queue .file).arrived == [65]) = true :=
      EventLoop.exists_run_of_plays (by decide +kernel)
    refine ⟨s, hrun, ?_⟩
    rw [beq_iff_eq.mp hp]
    rfl

end LibuvDox.Uvtee
