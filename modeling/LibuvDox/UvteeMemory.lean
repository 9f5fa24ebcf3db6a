import LibuvDox.UvteeRuns

/-!
# The memory of the tee programs

Each chunk that is read is copied twice, and the copies are freed by the callbacks of their writes,
whenever these come, together with the `write_req_t`s that point to them.  The buffer of a read is freed by `read_cb`, or in `03-uvtee-reuse-buf` kept
for the next read and freed at the end of the file.

* `tee_freesAll`: in every run of each version the blocks that are there are the copies of the
  pending writes, a `write_req_t` for each of them and, up to the end of the file, the buffer that is
  reused.
-/

namespace LibuvDox.Uvtee

open WriteQueue

/-- The program keeps the buffer that it reuses, up to the end of the file. -/
def Keeps (s : Tee) (p : ℕ) : Prop := s.eof = false ∧ s.reusebuf = some p

/-- Nothing is left over. -/
def Owned (s : Tee) : Prop := AllUsedOr (Keeps s) s.queue s.heap

section

variable {s u : Tee} {buf : UvBuf} {data : Bytes} {keep : ℕ → Prop}

/-! ### What the callbacks do to the heap -/

theorem fill_ok (h : fill s buf data = .ok u) (hall : AllUsedOr keep s.queue s.heap) :
    AllUsedOr keep u.queue u.heap ∧ u.reusebuf = s.reusebuf ∧ u.eof = s.eof := by
  unfold fill at h
  split at h
  · cases h
    exact ⟨hall, rfl, rfl⟩
  · obtain ⟨block, hblock, h⟩ := bind_ok_iff.mp h
    cases h
    exact ⟨hall.set (deref_ok_iff.mp hblock) _, rfl, rfl⟩

theorem writeData_ok {k : Sink} {size : ℕ} (h : writeData s k size buf = .ok u)
    (hall : AllUsedOr keep s.queue s.heap) :
    AllUsedOr keep u.queue u.heap ∧ u.reusebuf = s.reusebuf ∧ u.eof = s.eof := by
  obtain ⟨p, -, h⟩ := bind_ok_iff.mp h
  obtain ⟨block, -, h⟩ := bind_ok_iff.mp h
  split at h
  · cases h
  · cases h
    exact ⟨hall.alloc_submit k _ _, rfl, rfl⟩

theorem writeBoth_ok {size : ℕ} (h : writeBoth s size buf = .ok u)
    (hall : AllUsedOr keep s.queue s.heap) :
    AllUsedOr keep u.queue u.heap ∧ u.reusebuf = s.reusebuf ∧ u.eof = s.eof := by
  obtain ⟨t, hfirst, hsecond⟩ := bind_ok_iff.mp h
  obtain ⟨hall, hreuse, heof⟩ := writeData_ok hfirst hall
  obtain ⟨hall, hreuse', heof'⟩ := writeData_ok hsecond hall
  exact ⟨hall, hreuse'.trans hreuse, heof'.trans heof⟩

/-- What was kept for a buffer is given back with it. -/
theorem free_ok {base : Option ℕ} (h : free s base = .ok u)
    (hall : AllUsedOr (fun p => base = some p) s.queue s.heap) :
    AllUsedOr (fun _ => False) u.queue u.heap ∧ u.reusebuf = s.reusebuf ∧ u.eof = s.eof := by
  cases base with
  | none =>
    cases h
    exact ⟨hall.mono nofun, rfl, rfl⟩
  | some p =>
    obtain ⟨block, -, h⟩ := bind_ok_iff.mp h
    cases h
    exact ⟨hall.free fun p' hne hp' => hne (Option.some.inj hp').symm, rfl, rfl⟩

/-! ### The plain version -/

theorem readResult_ok {nread : ℤ} (h : readResult s nread buf = .ok u)
    (hall : AllUsedOr keep s.queue s.heap) :
    AllUsedOr keep u.queue u.heap ∧ u.reusebuf = s.reusebuf := by
  unfold readResult at h
  split at h
  · cases h
    exact ⟨hall, rfl⟩
  · split at h
    · obtain ⟨hall, hreuse, -⟩ := writeBoth_ok h hall
      exact ⟨hall, hreuse⟩
    · cases h
      exact ⟨hall, rfl⟩

/-- `read_cb` gives back the buffer it was called with. -/
theorem readCb_ok {nread : ℤ} (h : readCb s nread buf = .ok u) (hnone : s.reusebuf = none)
    (hall : AllUsedOr (fun p => buf.base = some p) s.queue s.heap) :
    u.reusebuf = none ∧ Owned u := by
  obtain ⟨t, hres, hfree⟩ := bind_ok_iff.mp h
  obtain ⟨hall, hreuse⟩ := readResult_ok hres hall
  obtain ⟨hall, hreuse', -⟩ := free_ok hfree hall
  exact ⟨hreuse'.trans (hreuse.trans hnone), hall.mono nofun⟩

theorem plain_read_owned {fresh : Option Bytes} {r : ReadResult} (async : Bool)
    (h : dispatch ⟨allocCb, readCb, async⟩ s (.read fresh r) = .ok u) (hnone : s.reusebuf = none)
    (hall : Owned s) : u.reusebuf = none ∧ Owned u := by
  have hidle : AllUsedOr (fun _ => False) s.queue s.heap := by
    refine hall.mono ?_
    intro p hp
    exact absurd (hnone.symm.trans hp.2) nofun
  obtain ⟨t, hfill, hread⟩ := bind_ok_iff.mp h
  cases fresh with
  | none =>
    have hbuf : AllUsedOr (fun p => (none : Option ℕ) = some p) s.queue s.heap :=
      hidle.mono fun _ => False.elim
    obtain ⟨hall, hreuse, -⟩ := fill_ok hfill hbuf
    exact readCb_ok hread (hreuse.trans hnone) hall
  | some fresh =>
    have hbuf : AllUsedOr (fun p => some s.heap.next = some p) s.queue (s.heap.alloc fresh) := by
      refine (hidle.alloc fresh).mono ?_
      rintro p (hfalse | rfl)
      · exact hfalse.elim
      · rfl
    obtain ⟨hall, hreuse, -⟩ := fill_ok (s := mallocBuf s fresh) hfill hbuf
    exact readCb_ok hread (hreuse.trans hnone) hall

theorem plain_tees_owned (async : Bool) :
    Tees ⟨allocCb, readCb, async⟩ fun s => s.reusebuf = none ∧ Owned s where
  start _ := ⟨rfl, allUsedOr_empty⟩
  read s fresh r h hi he := by
    obtain ⟨u, hu, heffect, hheld, -⟩ := (plain_tees async).read s fresh r h trivial he
    exact ⟨u, hu, heffect, hheld, plain_read_owned async hu hi.1 hi.2⟩
  flags _ _ _ _ hi := hi
  written s k w ws req hi hpending := ⟨hi.1, hi.2.complete_free hpending w.sent⟩

/-! ### The version that reuses its buffer -/

/-- `read_cb` keeps the buffer, or frees it at the end of the file. -/
theorem ReuseBuf.readCb_ok {nread : ℤ} (h : ReuseBuf.readCb s nread buf = .ok u)
    (heof : s.eof = false) (hbuf : buf.base = none ∨ buf.base = s.reusebuf) (hall : Owned s) :
    Owned u := by
  have hkept : AllUsedOr (fun p => s.reusebuf = some p) s.queue s.heap :=
    hall.mono fun _ hp => hp.2
  obtain ⟨t, hres, h⟩ := bind_ok_iff.mp h
  have hdone : Owned t ∧ t.reusebuf = s.reusebuf := by
    unfold ReuseBuf.readResult at hres
    split at hres
    · dsimp only at hres
      split at hres
      · obtain ⟨v, hfree, hres⟩ := bind_ok_iff.mp hres
        obtain ⟨hall, hreuse, -⟩ := free_ok (s := { s with eof := true }) hfree hkept
        cases hres
        exact ⟨hall.mono nofun, hreuse⟩
      · rename_i hnone
        have hreuse : s.reusebuf = none := by simpa using hnone
        cases hres
        refine ⟨hkept.mono ?_, rfl⟩
        intro p hp
        rw [hreuse] at hp
        cases hp
    · split at hres
      · obtain ⟨hall', hreuse, heof'⟩ := writeBoth_ok hres hkept
        refine ⟨hall'.mono ?_, hreuse⟩
        intro p hp
        exact ⟨heof'.trans heof, hreuse.trans hp⟩
      · cases hres
        exact ⟨hall, rfl⟩
  have hkeep : ¬ (buf.base.isSome ∧ buf.base ≠ t.reusebuf) := by
    rw [hdone.2]
    exact reuseBuf_keeps hbuf
  rw [if_neg hkeep] at h
  cases h
  exact hdone.1

theorem reuseBuf_read_owned {fresh : Option Bytes} {r : ReadResult}
    (h : dispatch uvteeReuseBuf s (.read fresh r) = .ok u) (heof : s.eof = false)
    (hall : Owned s) : Owned u := by
  obtain ⟨t, hfill, hread⟩ := bind_ok_iff.mp h
  have hdone : ∀ {s' : Tee} {b : UvBuf}, fill s' b r.data = .ok t → s'.eof = false → Owned s' →
      b.base = none ∨ b.base = s'.reusebuf → ReuseBuf.readCb t r.nread b = .ok u → Owned u := by
    intro s' b hfill heof hall hbase hread
    obtain ⟨hall, hreuse, heof'⟩ := fill_ok hfill hall
    refine ReuseBuf.readCb_ok hread (heof'.trans heof) (by rwa [hreuse]) (hall.mono ?_)
    intro p hp
    exact ⟨heof'.trans hp.1, hreuse.trans hp.2⟩
  cases fresh with
  | none => exact hdone hfill heof hall (.inl rfl) hread
  | some fresh =>
    have hbuf : buffer uvteeReuseBuf s (some fresh) = ReuseBuf.allocCb s fresh := rfl
    rw [hbuf] at hfill hread
    cases hreuse : s.reusebuf with
    | none =>
      have halloc : ReuseBuf.allocCb s fresh = ({ mallocBuf s fresh with
          reusebuf := some s.heap.next, reusesize := fresh.length },
          ⟨some s.heap.next, fresh.length⟩) := by
        simp [ReuseBuf.allocCb, hreuse]
      rw [halloc] at hfill hread
      refine hdone hfill heof ?_ (.inr rfl) hread
      refine (AllUsedOr.alloc hall fresh).mono ?_
      rintro p (⟨-, hp⟩ | rfl)
      · rw [hreuse] at hp
        cases hp
      · exact ⟨heof, rfl⟩
    | some p =>
      have halloc : ReuseBuf.allocCb s fresh = (s, ⟨s.reusebuf, s.reusesize⟩) := by
        simp [ReuseBuf.allocCb, hreuse]
      rw [halloc] at hfill hread
      exact hdone hfill heof hall (.inr rfl) hread

theorem reuseBuf_tees_owned : Tees uvteeReuseBuf fun s => OneBuffer s ∧ Owned s where
  start input := ⟨reuseBuf_tees.start input, allUsedOr_empty⟩
  read s fresh r h hi he := by
    obtain ⟨u, hu, heffect, hheld, hone⟩ := reuseBuf_tees.read s fresh r h hi.1 he
    exact ⟨u, hu, heffect, hheld, hone, reuseBuf_read_owned hu he.2.1 hi.2⟩
  flags s opening reading closed hi := ⟨reuseBuf_tees.flags s opening reading closed hi.1, hi.2⟩
  written s k w ws req hi hpending :=
    ⟨reuseBuf_tees.written s k w ws req hi.1 hpending, hi.2.complete_free hpending w.sent⟩

end

/-! ### The `write_req_t`s -/

/-- The `write_req_t`s that are there are those of the pending writes. -/
theorem Held.writeReqs_iff (h : WritesHeld s) (p : ℕ) :
    (∃ bufs, s.writeReqs.get? p = some bufs) ↔ ∃ k, ∃ req ∈ (s.reqs k).pending, req.base = p := by
  constructor
  · intro ⟨bufs, hbufs⟩
    exact h.allUsed p bufs hbufs
  · rintro ⟨k, req, hreq, rfl⟩
    obtain ⟨bufs, hbufs, -⟩ := h.blocks.held k req hreq
    exact ⟨bufs, hbufs⟩

/-- Each of them points to the copy of its write. -/
theorem Held.writeReqs_map (h : WritesHeld s) (k : Sink) :
    (s.reqs k).pending.map (fun req => (s.writeReqs.get? req.base).bind List.head?) =
      (s.queue k).pending.map fun w => some (bufOf w) := by
  have hfirst : ∀ req ∈ (s.reqs k).pending,
      (s.writeReqs.get? req.base).bind List.head? = req.sent.head? := by
    intro req hreq
    have hmem : req.sent ∈ (s.queue k).pending.map fun w => [bufOf w] :=
      h.same k ▸ List.mem_map_of_mem hreq
    obtain ⟨w, -, hw⟩ := List.mem_map.mp hmem
    obtain ⟨bufs, hbufs, more, rfl⟩ := h.blocks.held k req hreq
    rw [hbufs, ← hw]
    rfl
  have hsame := congrArg (List.map List.head?) (h.same k)
  rw [List.map_map, List.map_map] at hsame
  exact (List.map_congr_left hfirst).trans hsame

/-! ### Whole runs -/

theorem owned_of_mem {prog : TeeProgram} (h : prog ∈ teePrograms) :
    ∃ Inv, Tees prog Inv ∧ ∀ s, Inv s → Owned s ∧
      ∀ p, Keeps s p → ∃ block, s.heap.get? p = some block := by
  have plain : ∀ async, ∃ Inv, Tees ⟨allocCb, readCb, async⟩ Inv ∧ ∀ s, Inv s → Owned s ∧
      ∀ p, Keeps s p → ∃ block, s.heap.get? p = some block := by
    intro async
    refine ⟨_, plain_tees_owned async, fun s hi => ⟨hi.2, ?_⟩⟩
    intro p hp
    exact absurd (hi.1.symm.trans hp.2) nofun
  rcases List.mem_cons.mp h with rfl | h
  · exact plain false
  · rcases List.mem_cons.mp h with rfl | h
    · refine ⟨_, reuseBuf_tees_owned, fun s hi => ⟨hi.2, ?_⟩⟩
      intro p hp
      obtain ⟨block, hblock, -⟩ := hi.1.live hp.2 hp.1
      exact ⟨block, hblock⟩
    · rw [List.mem_singleton.mp h]
      exact plain true

/-- **Nothing is left over.**  In every run of each version the blocks that are there are exactly
the copies of the pending writes, their `write_req_t`s, of which each points to its copy, and, up to
the end of the file, the buffer that is reused; so once the end of the file was read and all writes
have been called back there are none. -/
theorem tee_freesAll (prog : TeeProgram) (hprog : prog ∈ teePrograms) (input : Bytes)
    {es : List TeeEvent} {s : Tee} (h : (tee prog).Run (init prog input) es s) :
    (∀ p, (∃ block, s.heap.get? p = some block) ↔
      (s.eof = false ∧ s.reusebuf = some p) ∨ ∃ k, ∃ w ∈ (s.queue k).pending, w.base = p) ∧
    (∀ p, (∃ bufs, s.writeReqs.get? p = some bufs) ↔
      ∃ k, ∃ req ∈ (s.reqs k).pending, req.base = p) ∧
    (∀ k, (s.reqs k).pending.map (fun req => (s.writeReqs.get? req.base).bind List.head?) =
      (s.queue k).pending.map fun w => some ⟨some w.base, w.sent.length⟩) ∧
    (s.eof = true → (∀ k, (s.queue k).pending = []) →
      ∀ p, s.heap.get? p = none ∧ s.writeReqs.get? p = none) := by
  obtain ⟨Inv, ht, howned⟩ := owned_of_mem hprog
  obtain ⟨hs, hi⟩ := ht.sound_of_run h
  obtain ⟨hall, hlive⟩ := howned s hi
  have hiff : ∀ p, (∃ block, s.heap.get? p = some block) ↔
      Keeps s p ∨ ∃ k, ∃ w ∈ (s.queue k).pending, w.base = p := by
    intro p
    constructor
    · intro ⟨block, hblock⟩
      exact hall p block hblock
    · rintro (hkeep | ⟨k, w, hw, rfl⟩)
      · exact hlive p hkeep
      · obtain ⟨block, hblock, -⟩ := hs.held.copies.held k w hw
        exact ⟨block, hblock⟩
  refine ⟨hiff, hs.held.writeReqs_iff, hs.held.writeReqs_map, ?_⟩
  intro heof hidle p
  constructor
  · by_contra hne
    rcases (hiff p).mp (Option.ne_none_iff_exists'.mp hne) with hkeep | ⟨k, w, hw, -⟩
    · rw [hkeep.1] at heof
      cases heof
    · rw [hidle k] at hw
      cases hw
  · refine (WriteQueue.allUsed_iff_of_idle ?_).mp hs.held.allUsed p
    intro k
    have hsame := hs.held.same k
    rwa [hidle k, List.map_nil, List.map_eq_nil_iff] at hsame

/-- Two bytes in two reads into one buffer, and the end of the file. -/
theorem tee_freesAll_reused : ∃ es s, (tee uvteeReuseBuf).Run (init uvteeReuseBuf [65, 66]) es s ∧
    s.allocs = [0] ∧ s.writeReqs.next = 4 ∧
    ∀ p, s.heap.get? p = none ∧ s.writeReqs.get? p = none := by
  obtain ⟨s, hrun, hp⟩ : ∃ s, (tee uvteeReuseBuf).Run (init uvteeReuseBuf [65, 66])
      [oneByte, .written .stdout 0, .read (some [0, 0]) (.chunk [66]), .written .stdout 0,
        .written .file 0, .written .file 0, endOfFile] s ∧
      (s.eof && s.allocs == [0] && s.writeReqs.next == 4 && (s.queue .stdout).pending == [] &&
        (s.queue .file).pending == []) = true :=
    EventLoop.exists_run_of_plays (by decide +kernel)
  simp only [Bool.and_eq_true, beq_iff_eq] at hp
  obtain ⟨⟨⟨⟨heof, hallocs⟩, hreqs⟩, hstdout⟩, hfile⟩ := hp
  have hfrees := (tee_freesAll uvteeReuseBuf (by simp [teePrograms]) [65, 66] hrun).2.2.2 heof
  refine ⟨_, s, hrun, hallocs, hreqs, hfrees ?_⟩
  intro k
  cases k with
  | stdout => exact hstdout
  | file => exact hfile

end LibuvDox.Uvtee
