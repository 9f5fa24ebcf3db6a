import LibuvDox.SendFile

/-!
# Whether a response is ended

The end of a response is not decided at the end of the file: `on_write_res` ends it when the
counters agree.  So a response whose last write has completed cannot be left open, and one that
needs no write is never ended that way.

* `delivered_iff`: what the counters say about the bytes.
* `dispatch_cases`: what an event does to a response, in both programs.
* `ended_iff_delivered`: in `send-file` the connection is closed once all of a file that is not
  empty has been sent, and not before; for an empty file never.
* `response_ends`: in both programs every response that is not over can still be completed.
-/

namespace LibuvDox

namespace Transfer

/-- All of the file was sent, and there was something to be sent. -/
structure Delivered (t : Transfer) : Prop where
  sent : t.AllSent
  accepted : t.refused = 0
  nonempty : t.contents ≠ []

/-- What an event is to a response: some of the file moves on, the stream reports something else
than data, the last write completes, or `on_res_end` runs. -/
inductive Moves (prog : TransferProgram) (t u : Transfer) : TransferEvent → Prop
  | moved {e : TransferEvent} (hbefore : ¬ t.Delivered) (hafter : ¬ u.Delivered)
      (hlive : u.block ≠ none) (hsame : u.completed = t.completed ∧ u.closing = t.closing) :
      Moves prog t u e
  | noData {r : ReadResult} {accepted : Bool} (hr : r.nread ≤ 0) (p : FileTcpPipe) (s : Settle)
      (hp : t.block = some p) (hs : prog.atNoData r.nread = .ok s)
      (hu : u = { t with streamDone := decide (r.nread < 0) }.act p accepted (.settle s)) :
      Moves prog t u (.fileRead r accepted)
  | last {status : ℤ} (hbefore : ¬ t.Delivered) (hafter : u.Delivered) (p : FileTcpPipe)
      (hu : u = { t with pending := [] }.act p true (.settle (prog.atEnd 0))) :
      Moves prog t u (.written status)
  | closed (hclosing : 0 < t.closing)
      (hu : u = { t with block := none, closing := t.closing - 1 }) : Moves prog t u .closed

/-- How many events a response that can be completed is away from its end. -/
def due (t : Transfer) : ℕ := t.pending.length + if t.offset < t.contents.length then 2 else 0

section

variable {prog : TransferProgram} {t u : Transfer} {contents : Bytes} {p : FileTcpPipe}

/-- **What the counters say.**  They agree with each other and with the size exactly when all of
the file was sent. -/
theorem delivered_iff (h : Sound contents contents.length t) (hp : t.block = some p) :
    t.Delivered ↔ p.nwritten = p.nread ∧ p.size = p.nread ∧ contents ≠ [] := by
  have hbal := h.balanced p hp
  have hcaught : p.nwritten = p.nread ↔ t.pending = [] ∧ t.refused = 0 := hbal.caught_up_iff
  have hsize : p.size = p.nread ↔ t.offset = t.contents.length := by
    rw [h.size p hp, h.nread p hp, h.contents, eq_comm]
  rw [hcaught, hsize]
  constructor
  · intro hd
    refine ⟨⟨hd.sent.written, hd.accepted⟩, hd.sent.read, ?_⟩
    rw [← h.contents]
    exact hd.nonempty
  · intro ⟨⟨hpend, href⟩, hread, hne⟩
    have hsub : t.submitted = t.contents :=
      hbal.submitted_eq ((h.nread p hp).trans hread) href
    exact ⟨⟨hread, hsub, hpend⟩, href, by rwa [h.contents]⟩

/-- What was sent depends on the bytes only. -/
theorem delivered_congr (hcontents : u.contents = t.contents) (hoffset : u.offset = t.offset)
    (hsub : u.submitted = t.submitted) (hpend : u.pending = t.pending)
    (href : u.refused = t.refused) : u.Delivered ↔ t.Delivered := by
  constructor
  · intro ⟨⟨hread, hall, hnil⟩, hzero, hne⟩
    rw [hcontents] at hread hall hne
    exact ⟨⟨hoffset ▸ hread, hsub ▸ hall, hpend ▸ hnil⟩, href ▸ hzero, hne⟩
  · intro ⟨⟨hread, hall, hnil⟩, hzero, hne⟩
    rw [← hcontents] at hread hall hne
    exact ⟨⟨hoffset ▸ hread, hsub ▸ hall, hpend ▸ hnil⟩, href ▸ hzero, hne⟩

theorem delivered_settle {accepted : Bool} {s : Settle} :
    (t.act p accepted (.settle s)).Delivered ↔ t.Delivered := by
  cases s with
  | goOn => exact delivered_congr rfl rfl rfl rfl rfl
  | finish status => exact delivered_congr rfl rfl rfl rfl rfl
  | closeTcp => exact delivered_congr rfl rfl rfl rfl rfl

/-- A response whose stream has more data, or that has a write pending, is not complete. -/
theorem not_delivered_of_data {r : ReadResult} {accepted : Bool}
    (he : t.Enabled (.fileRead r accepted)) (hr : 0 < r.nread) : ¬ t.Delivered := by
  intro hd
  have hlen := he.2.1.length_le
  have hpos := List.length_pos_of_ne_nil (ReadResult.data_ne_nil hr)
  rw [List.length_drop, hd.sent.read] at hlen
  omega

/-- **The step.** -/
theorem dispatch_cases (h : Sound contents contents.length t) {e : TransferEvent}
    (he : t.Enabled e) (hd : dispatch prog t e = .ok u) : Moves prog t u e := by
  have hu := h.step he hd
  cases e with
  | fileRead r accepted =>
    obtain ⟨p, hp, ⟨hpos, rfl⟩ | ⟨hle, s, hs, rfl⟩⟩ := dispatch_fileRead hd
    · have hless := (h.balanced p hp).counts
      have hmore : 0 < r.data.length := List.length_pos_of_ne_nil (ReadResult.data_ne_nil hpos)
      have hbehind : ∀ v : Transfer, Sound contents contents.length v →
          v.block = some { p with nread := p.nread + r.data.length } → ¬ v.Delivered := by
        intro v hv hblock hdel
        have heq : p.nwritten = p.nread + r.data.length := ((delivered_iff hv hblock).mp hdel).1
        have hle : p.nwritten ≤ p.nread := by
          show p.nwritten ≤ (t.pump p).nread
          rw [hless]
          show p.nwritten ≤ p.nwritten + _ + _
          omega
        omega
      cases accepted with
      | true =>
        exact .moved (not_delivered_of_data he hpos) (hbehind _ hu rfl) (Option.some_ne_none _)
          ⟨rfl, rfl⟩
      | false =>
        exact .moved (not_delivered_of_data he hpos) (hbehind _ hu rfl) (Option.some_ne_none _)
          ⟨rfl, rfl⟩
    · exact .noData hle p s hp hs rfl
  | written status =>
    obtain ⟨-, p, s, hp, rfl, hcases⟩ := dispatch_written hd
    have hbefore : ¬ t.Delivered := fun hdel => he hdel.sent.written
    rcases hcases with ⟨hcaught, hsize, rfl⟩ | ⟨hbehind, rfl⟩
    · -- the block after the last write, whether it is freed then or not
      have hv : Sound contents contents.length ({ t with pending := t.pending.tail }.act
          { p with nwritten := p.nwritten + (t.pending.headD []).length } true
          (.settle .goOn)) := by
        refine .settle ?_ ?_ ?_ ?_ true .goOn
        · exact h.size p hp
        · exact h.contents
        · exact (h.balanced p hp).take
        · exact h.nread p hp
      have hne : contents ≠ [] := by
        intro hnil
        obtain ⟨c, cs, hpend⟩ := List.exists_cons_of_ne_nil he
        have hc := List.length_pos_of_ne_nil
          ((h.balanced p hp).chunks c (by show c ∈ t.pending; simp [hpend]))
        have hzero := h.size p hp
        rw [hnil, List.length_nil] at hzero
        rw [hpend, List.headD_cons] at hcaught
        omega
      have hdel := (delivered_iff hv rfl).mpr ⟨hcaught, hsize, hne⟩
      have hpend : t.pending.tail = [] := hdel.sent.written
      rw [hpend] at hdel ⊢
      exact .last hbefore (delivered_settle.mpr (delivered_settle.mp hdel)) _ rfl
    · refine .moved hbefore ?_ (Option.some_ne_none _) ⟨rfl, rfl⟩
      intro hdel
      exact hbehind ((delivered_iff hu rfl).mp hdel).1
  | closed =>
    obtain ⟨p, -, hok⟩ := bind_ok_iff.mp hd
    cases hok
    exact .closed he rfl

/-- A read of data. -/
theorem dispatch_data {r : ReadResult} {accepted : Bool} (hp : t.block = some p)
    (hr : 0 < r.nread) :
    dispatch prog t (.fileRead r accepted) = .ok
      ({ t with offset := t.offset + r.data.length, streamDone := false }.act
        { p with nread := p.nread + r.data.length } accepted (.submit r.data)) := by
  have hneg : decide (r.nread < 0) = false := decide_eq_false (by omega)
  rw [dispatch, hp, prog.onFileRead_data p hr, hneg]
  rfl

/-- A write that completes when all of the file has been read. -/
theorem dispatch_write (hp : t.block = some p) (hsize : p.size = p.nread) :
    ∃ q s, dispatch prog t (.written 0) =
      .ok ({ t with pending := t.pending.tail }.act q true (.settle s)) := by
  have hlive : ∃ q s, prog.onWriteRes t.block (t.pending.headD []).length 0 =
      .ok (q, .settle s) := by
    rw [hp, prog.onWriteRes_live, if_pos hsize]
    split
    · exact ⟨_, _, rfl⟩
    · exact ⟨_, _, rfl⟩
  obtain ⟨q, s, hwrite⟩ := hlive
  refine ⟨q, s, ?_⟩
  rw [dispatch, hwrite]
  rfl

/-- **Progress.**  As long as not all was sent, the rest of the file can be read or the oldest write
can complete, and the callback returns. -/
theorem exists_next (h : Sound contents contents.length t) (hp : t.block = some p)
    (hopen : t.streamDone = false) (href : t.refused = 0) (hne : contents ≠ [])
    (hnot : ¬ t.Delivered) :
    ∃ e u, t.Enabled e ∧ dispatch prog t e = .ok u ∧ due u < due t ∧
      (u.streamDone = false ∧ u.refused = 0) ∧
      (∀ r accepted, e = .fileRead r accepted → 0 < r.nread ∧ accepted = true) ∧
      e ≠ .closed := by
  by_cases hmore : t.offset < t.contents.length
  · -- all that is left is read at once
    have hpos : 0 < (t.contents.drop t.offset).length := by
      rw [List.length_drop]
      omega
    have hr : 0 < (ReadResult.chunk (t.contents.drop t.offset)).nread := Int.natCast_pos.mpr hpos
    have henabled : t.Enabled (.fileRead (.chunk (t.contents.drop t.offset)) true) := by
      refine ⟨hopen, List.prefix_rfl, ?_⟩
      intro heof
      rw [heof] at hr
      exact absurd hr (by decide)
    refine ⟨_, _, henabled, dispatch_data hp hr, ?_, ⟨rfl, href⟩, ?_, nofun⟩
    · have hend : ¬ t.offset + (t.contents.drop t.offset).length < t.contents.length := by
        rw [List.length_drop]
        omega
      show (t.pending ++ [_]).length + (if t.offset + (t.contents.drop t.offset).length <
        t.contents.length then 2 else 0) < _
      rw [due, if_neg hend, if_pos hmore, List.length_append, List.length_singleton]
      omega
    · intro r accepted heq
      cases heq
      exact ⟨hr, rfl⟩
  · -- only writes are left
    have hsize : p.size = p.nread := by
      have hbound := (h.balanced p hp).bound
      have hle : p.nread ≤ t.contents.length := hbound
      rw [h.size p hp, h.nread p hp, ← h.contents]
      rw [h.nread p hp] at hle
      omega
    have hpend : t.pending ≠ [] := by
      intro hnil
      have hcaught : p.nwritten = p.nread := (h.balanced p hp).caught_up_iff.mpr ⟨hnil, href⟩
      exact hnot ((delivered_iff h hp).mpr ⟨hcaught, hsize, hne⟩)
    have hless : t.pending.tail.length < t.pending.length := by
      have hpos := List.length_pos_of_ne_nil hpend
      rw [List.length_tail]
      omega
    obtain ⟨q, s, hd⟩ : ∃ q s, dispatch prog t (.written 0) = .ok _ := dispatch_write hp hsize
    refine ⟨.written 0, _, hpend, hd, ?_, ?_, nofun, nofun⟩
    · cases s with
      | goOn => exact Nat.add_lt_add_right hless _
      | finish status => exact Nat.add_lt_add_right hless _
      | closeTcp => exact Nat.add_lt_add_right hless _
    · cases s with
      | goOn => exact ⟨hopen, href⟩
      | finish status => exact ⟨hopen, href⟩
      | closeTcp => exact ⟨hopen, href⟩

/-- **Completion.**  Where reads and complete writes keep an invariant and end in a result, every
response that has it can be brought to that result. -/
theorem exists_delivered {R Q : Transfer → Prop} (hne : contents ≠ [])
    (hstep : ∀ t e u, R t → Moves prog t u e → (∀ r accepted, e = .fileRead r accepted →
      0 < r.nread) → e ≠ .closed → (u.Delivered ∧ Q u) ∨ (¬ u.Delivered ∧ u.block ≠ none ∧ R u))
    (h : Sound contents contents.length t) (hlive : t.block ≠ none) (hrunning : R t)
    (hopen : t.streamDone = false) (href : t.refused = 0) (hnot : ¬ t.Delivered) :
    ∃ fs u, (loop prog).Run t fs u ∧ u.Delivered ∧ Q u := by
  obtain ⟨fs, u, hrun, ⟨-, -, -, hend⟩, hdel⟩ := EventLoop.exists_run_to (L := loop prog)
    (P := fun v => Sound contents contents.length v ∧ v.streamDone = false ∧ v.refused = 0 ∧
      ((v.Delivered ∧ Q v) ∨ (¬ v.Delivered ∧ v.block ≠ none ∧ R v)))
    (D := Delivered) due (fun v ⟨hv, hopen, href, hcase⟩ hnot => by
      obtain ⟨hdel, -⟩ | ⟨-, hlive, hrunning⟩ := hcase
      · exact absurd hdel hnot
      · obtain ⟨p, hp⟩ := Option.ne_none_iff_exists'.mp hlive
        obtain ⟨e, w, he, hd, hlt, hw, hdata, hclosed⟩ := exists_next hv hp hopen href hne hnot
        exact ⟨e, w, he, hd, ⟨hv.step he hd, hw.1, hw.2,
          hstep v e w hrunning (dispatch_cases hv he hd) (fun r a heq => (hdata r a heq).1)
            hclosed⟩, hlt⟩)
    ⟨h, hopen, href, .inr ⟨hnot, hlive, hrunning⟩⟩
  refine ⟨fs, u, hrun, hdel, ?_⟩
  obtain ⟨-, hq⟩ | ⟨hnot, -⟩ := hend
  · exact hq
  · exact absurd hdel hnot

end

end Transfer

open StaticWebServer SendFile Transfer

/-! ### The two programs -/

/-- Where a response of `send-file` stands: its connection is closed once all was sent, and
`on_res_end` comes after that. -/
structure SendStands (t : Transfer) : Prop where
  live : t.block ≠ none → t.closing ≤ 1 ∧ (t.closing = 1 ↔ t.Delivered)
  gone : t.block = none → t.closing = 0 ∧ t.Delivered

/-- Where a response of the static web server stands: as long as it is there, something is left to
be sent. -/
structure PipeStands (t : Transfer) : Prop extends Unended t where
  live : t.block ≠ none → ¬ t.Delivered

section

variable {t u : Transfer} {contents : Bytes} {p : FileTcpPipe}

/-- `send-file` goes on after a result that is no data. -/
theorem sendFile_atNoData {nread : ℤ} {s : Settle} (h : sendFileProgram.atNoData nread = .ok s) :
    s = .goOn := by
  unfold TransferProgram.atNoData at h
  split at h
  · cases h
  · cases h
    rfl

theorem start_not_delivered (contents : Bytes) (p : FileTcpPipe) :
    ¬ (Transfer.start contents p).Delivered :=
  fun hd => hd.nonempty hd.sent.submitted.symm

theorem start_sendStands (contents : Bytes) (p : FileTcpPipe) :
    SendStands (.start contents p) where
  live _ := ⟨Nat.zero_le 1, iff_of_false Nat.zero_ne_one (start_not_delivered contents p)⟩
  gone := nofun

/-- A response that is not complete has not been ended. -/
theorem SendStands.running (h : SendStands t) (hnot : ¬ t.Delivered) :
    t.block ≠ none ∧ t.closing = 0 := by
  have hblock : t.block ≠ none := fun hnone => hnot (h.gone hnone).2
  obtain ⟨hle, hiff⟩ := h.live hblock
  have hne : t.closing ≠ 1 := fun heq => hnot (hiff.mp heq)
  exact ⟨hblock, by omega⟩

theorem SendStands.step (h : SendStands t) {e : TransferEvent}
    (hmoves : Moves sendFileProgram t u e) : SendStands u := by
  cases hmoves with
  | moved hbefore hafter hblock hsame =>
    refine ⟨fun _ => ?_, fun hnone => absurd hnone hblock⟩
    rw [hsame.2, (h.running hbefore).2]
    exact ⟨Nat.zero_le 1, iff_of_false Nat.zero_ne_one hafter⟩
  | noData hr p s hp hs hu =>
    obtain rfl := sendFile_atNoData hs
    have hsame : u.Delivered ↔ t.Delivered := by
      rw [hu]
      exact delivered_congr rfl rfl rfl rfl rfl
    obtain ⟨hle, hiff⟩ := h.live (by rw [hp]; exact Option.some_ne_none _)
    refine ⟨fun _ => ?_, fun hnone => ?_⟩
    · rw [hsame, hu]
      exact ⟨hle, hiff⟩
    · rw [hu] at hnone
      cases hnone
  | last hbefore hafter p hu =>
    have hone : u.closing = 1 := by
      rw [hu]
      show t.closing + 1 = 1
      rw [(h.running hbefore).2]
    have hblock : u.block ≠ none := by
      rw [hu]
      exact Option.some_ne_none _
    exact ⟨fun _ => ⟨le_of_eq hone, iff_of_true hone hafter⟩, fun hnone => absurd hnone hblock⟩
  | closed hclosing hu =>
    have hblock : t.block ≠ none := by
      intro hnone
      have hzero := (h.gone hnone).1
      omega
    obtain ⟨hle, hiff⟩ := h.live hblock
    have hone : t.closing = 1 := by omega
    have hsame : u.Delivered ↔ t.Delivered := by
      rw [hu]
      exact delivered_congr rfl rfl rfl rfl rfl
    refine ⟨fun hne => ?_, fun _ => ⟨?_, hsame.mpr (hiff.mp hone)⟩⟩
    · rw [hu] at hne
      exact absurd rfl hne
    · rw [hu]
      show t.closing - 1 = 0
      omega

theorem start_pipeStands (contents : Bytes) (p : FileTcpPipe) :
    PipeStands (.start contents p) where
  toUnended := start_unended contents p
  live _ := start_not_delivered contents p

theorem PipeStands.step (h : PipeStands t) {e : TransferEvent} (he : pipeFileLoop.enabled t e)
    (hd : pipeFileLoop.dispatch t e = .ok u) (hmoves : Moves pipeFileProgram t u e) :
    PipeStands u where
  toUnended := h.toUnended.step he hd
  live := by
    intro hblock
    cases hmoves with
    | moved hbefore hafter _ _ => exact hafter
    | noData hr p s hp hs hu =>
      rw [pipeFile_atNoData] at hs
      cases hs
      rw [hu] at hblock
      exact absurd rfl hblock
    | last hbefore hafter p hu =>
      rw [hu] at hblock
      exact absurd rfl hblock
    | closed hclosing hu =>
      rw [hu] at hblock
      exact absurd rfl hblock

end

section

variable {contents : Bytes} {tcp filePipe : ℕ} {es : List TransferEvent} {t : Transfer}

theorem sendStands_of_run
    (hrun :
      sendFileLoop.Run (.start contents (initFileTcpPipe tcp filePipe contents.length)) es t) :
    Sound contents contents.length t ∧ SendStands t :=
  hrun.invariant (P := fun v => Sound contents contents.length v ∧ SendStands v)
    ⟨start_sound _ _ _ _, start_sendStands _ _⟩
    fun _ _ _ ⟨hv, hstands⟩ he hd => ⟨hv.step he hd, hstands.step (dispatch_cases hv he hd)⟩

theorem pipeStands_of_run
    (hrun : pipeFileLoop.Run (.start contents (.fresh contents.length filePipe tcp)) es t) :
    Sound contents contents.length t ∧ PipeStands t :=
  hrun.invariant (P := fun v => Sound contents contents.length v ∧ PipeStands v)
    ⟨start_sound _ _ _ _, start_pipeStands _ _⟩
    fun _ _ _ ⟨hv, hstands⟩ he hd => ⟨hv.step he hd, hstands.step he hd (dispatch_cases hv he hd)⟩

end

/-- **Completion.**  In every state that a run reaches, as long as the response is there, its file
is not empty, no write was refused and the stream goes on, some schedule sends all of the file and
ends the response: `send-file` closes the connection, `pipe-file.c` calls back with `0`. -/
theorem response_ends (contents : Bytes) (tcp filePipe : ℕ) (hne : contents ≠ []) :
    (∀ es t,
        sendFileLoop.Run (.start contents (initFileTcpPipe tcp filePipe contents.length)) es t →
        t.block ≠ none → t.streamDone = false → t.refused = 0 →
        ∃ fs u, sendFileLoop.Run t fs u ∧ u.Delivered ∧ u.closing = 1) ∧
      (∀ tcpData env p es t,
        swsPipeFile tcpData tcp filePipe contents.length env = .ok (some p, 0) →
        pipeFileLoop.Run (.start contents p) es t → t.block ≠ none → t.refused = 0 →
        ∃ fs u, pipeFileLoop.Run t fs u ∧ u.Delivered ∧ u.completed = [0]) := by
  constructor
  · intro es t hrun hlive hopen href
    obtain ⟨hs, hstands⟩ := sendStands_of_run hrun
    by_cases hdel : t.Delivered
    · exact ⟨[], t, .nil, hdel, (hstands.live hlive).2.mpr hdel⟩
    · refine exists_delivered (R := fun v => v.closing = 0) hne ?_ hs hlive
        (hstands.running hdel).2 hopen href hdel
      intro v e w hzero hmoves hdata hclosed
      cases hmoves with
      | moved _ hafter hblock hsame => exact .inr ⟨hafter, hblock, hsame.2.trans hzero⟩
      | noData hr p s hp hs hu =>
        have hpos := hdata _ _ rfl
        omega
      | last _ hafter p hu =>
        refine .inl ⟨hafter, ?_⟩
        rw [hu]
        show v.closing + 1 = 1
        rw [hzero]
      | closed _ _ => exact absurd rfl hclosed
  · intro tcpData env p es t hcall hrun hlive href
    obtain rfl := swsPipeFile_ok hcall
    obtain ⟨hs, hstands⟩ := pipeStands_of_run hrun
    refine exists_delivered (R := fun v => v.completed = []) hne ?_ hs hlive
      (hstands.fresh hlive) (hstands.open_ hlive) href (hstands.live hlive)
    intro v e w hfresh hmoves hdata hclosed
    cases hmoves with
    | moved _ hafter hblock hsame => exact .inr ⟨hafter, hblock, hsame.1.trans hfresh⟩
    | noData hr p s hp hs hu =>
      have hpos := hdata _ _ rfl
      omega
    | last _ hafter p hu =>
      refine .inl ⟨hafter, ?_⟩
      rw [hu]
      show v.completed ++ [0] = [0]
      rw [hfresh, List.nil_append]
    | closed _ _ => exact absurd rfl hclosed

/-- A file of two bytes whose first one has been read. -/
theorem response_ends_twoBytes :
    (∃ es t, sendFileLoop.Run (.start [65, 66] (initFileTcpPipe 2 1 2)) es t ∧ t.offset = 1 ∧
      ∃ fs u, sendFileLoop.Run t fs u ∧ u.Delivered ∧ u.closing = 1) ∧
    ∃ es t, pipeFileLoop.Run (.start [65, 66] (.fresh 2 1 2)) es t ∧ t.offset = 1 ∧
      ∃ fs u, pipeFileLoop.Run t fs u ∧ u.Delivered ∧ u.completed = [0] := by
  have hsend : sendFileLoop.Run (.start [65, 66] (initFileTcpPipe 2 1 2))
      [.fileRead (.chunk [65]) true]
      ⟨[65, 66], 1, false, some ⟨1, 0, 2, 1, 2⟩, [[65]], [65], 0, [], 0⟩ :=
    EventLoop.run_of_plays (by decide)
  have hpipe : pipeFileLoop.Run (.start [65, 66] (.fresh 2 1 2)) [.fileRead (.chunk [65]) true]
      ⟨[65, 66], 1, false, some ⟨1, 0, 2, 1, 2⟩, [[65]], [65], 0, [], 0⟩ :=
    EventLoop.run_of_plays (by decide)
  have hcall : swsPipeFile none 2 1 2 ⟨0, 0, 0⟩ = .ok (some (.fresh 2 1 2), 0) := by decide
  obtain ⟨hsends, hpipes⟩ := response_ends [65, 66] 2 1 (by decide)
  exact ⟨⟨_, _, hsend, rfl, hsends _ _ hsend nofun rfl rfl⟩,
    ⟨_, _, hpipe, rfl, hpipes none ⟨0, 0, 0⟩ _ _ _ hcall hpipe nofun rfl⟩⟩

end LibuvDox
