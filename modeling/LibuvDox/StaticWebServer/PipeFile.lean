import LibuvDox.Transfer

/-!
# pipe-file.c

`sws_pipe_file` sends a file to a tcp stream and calls `pipe_file_cb` when it is done: at the end
of the file, on a read error, and when the writes have caught up with the reads, whichever comes
first.  Each time `file_tcp_pipe_end` frees the block and the handle of the file stream, but
nothing stops the stream, and nothing waits for the writes that are still pending.

* `oneCompletion_iff`: in a run no callback is left over for a freed transfer exactly when every
  end came from the file stream while no write was pending.
-/

namespace LibuvDox.StaticWebServer

/-- `file_tcp_pipe_end` is what ends a transfer, for whatever reason. -/
def pipeFileProgram : TransferProgram where
  atEof nread := .ok (.finish nread)
  otherwise nread := .ok (.finish nread)
  atEnd := .finish

def onFileRead : Option FileTcpPipe → ReadResult → Except Stop (FileTcpPipe × TransferAction) :=
  pipeFileProgram.onFileRead

def onWriteRes : Option FileTcpPipe → ℕ → ℤ → Except Stop (FileTcpPipe × TransferAction) :=
  pipeFileProgram.onWriteRes

/-- What libuv answers while a transfer is set up. -/
structure PipeFileEnv where
  pipeInit : ℤ
  pipeOpen : ℤ
  readStart : ℤ
  deriving DecidableEq, Repr

/-- `file_tcp_pipe_init`: the block and the return value. -/
def fileTcpPipeInit (tcp filePipe size : ℕ) (env : PipeFileEnv) : FileTcpPipe × ℤ :=
  (.fresh size filePipe tcp, if env.pipeInit ≠ 0 then env.pipeInit else env.pipeOpen)

/-- `sws_pipe_file`: the block, unless it was freed right away, and the return value. -/
def swsPipeFile (tcpData : Option ℕ) (tcp filePipe size : ℕ) (env : PipeFileEnv) :
    Except Stop (Option FileTcpPipe × ℤ) := do
  cAssert (tcpData = none) "tcp->data == NULL"
  let (p, r) := fileTcpPipeInit tcp filePipe size env
  if r ≠ 0 then .ok (none, r)
  else .ok (some p, env.readStart)

theorem pipeFile_atNoData (nread : ℤ) :
    pipeFileProgram.atNoData nread = .ok (.finish nread) := by
  unfold TransferProgram.atNoData
  split <;> rfl

/-- A transfer of `pipe-file.c`, as a program of the event loop. -/
def pipeFileLoop : EventLoop Transfer TransferEvent Stop := Transfer.loop pipeFileProgram

instance (t : Transfer) (e : TransferEvent) : Decidable (pipeFileLoop.enabled t e) :=
  inferInstanceAs (Decidable (t.Enabled e))

/-- A call that passes its assertion leaves a fresh block, unless it returns an error of the
set-up. -/
theorem swsPipeFile_cases {tcpData : Option ℕ} {tcp filePipe size : ℕ} {env : PipeFileEnv}
    {block : Option FileTcpPipe} {r : ℤ}
    (h : swsPipeFile tcpData tcp filePipe size env = .ok (block, r)) :
    tcpData = none ∧
      ((block = none ∧ r ≠ 0) ∨
        (block = some (.fresh size filePipe tcp) ∧ env.pipeInit = 0 ∧ env.pipeOpen = 0 ∧
          r = env.readStart)) := by
  obtain ⟨_, hnull, h⟩ := bind_ok_iff.mp h
  refine ⟨cAssert_ok_iff.mp hnull, ?_⟩
  by_cases hr : (fileTcpPipeInit tcp filePipe size env).2 ≠ 0
  · have hfreed : (none, _) = (block, r) := Except.ok.inj ((if_pos hr).symm.trans h)
    obtain ⟨hblock, rfl⟩ := Prod.mk.inj hfreed
    exact .inl ⟨hblock.symm, hr⟩
  · have hlive : (some _, _) = (block, r) := Except.ok.inj ((if_neg hr).symm.trans h)
    obtain ⟨hblock, hret⟩ := Prod.mk.inj hlive
    have hsetUp : (if env.pipeInit ≠ 0 then env.pipeInit else env.pipeOpen) = 0 := not_not.mp hr
    by_cases hinit : env.pipeInit ≠ 0
    · rw [if_pos hinit] at hsetUp
      exact absurd hsetUp hinit
    · rw [if_neg hinit] at hsetUp
      exact .inr ⟨hblock.symm, not_not.mp hinit, hsetUp, hret.symm⟩

/-- A call that returns 0 passed its assertion, and libuv has accepted all that was asked of it. -/
theorem swsPipeFile_zero {tcpData : Option ℕ} {tcp filePipe size : ℕ} {env : PipeFileEnv}
    {block : Option FileTcpPipe}
    (h : swsPipeFile tcpData tcp filePipe size env = .ok (block, 0)) :
    tcpData = none ∧ env = ⟨0, 0, 0⟩ := by
  obtain ⟨hnull, ⟨-, hne⟩ | ⟨-, hinit, hopen, hstart⟩⟩ := swsPipeFile_cases h
  · exact absurd rfl hne
  · refine ⟨hnull, ?_⟩
    show PipeFileEnv.mk env.pipeInit env.pipeOpen env.readStart = ⟨0, 0, 0⟩
    rw [hinit, hopen, ← hstart]

/-- The call that succeeds leaves a fresh block. -/
theorem swsPipeFile_ok {tcpData : Option ℕ} {tcp filePipe size : ℕ} {env : PipeFileEnv}
    {p : FileTcpPipe} {r : ℤ} (h : swsPipeFile tcpData tcp filePipe size env = .ok (some p, r)) :
    p = .fresh size filePipe tcp := by
  obtain ⟨-, ⟨hnone, -⟩ | ⟨hblock, -⟩⟩ := swsPipeFile_cases h
  · cases hnone
  · exact Option.some.inj hblock

/-- `pipe_file_cb` was called at most once, and once the transfer has been freed no callback of it
is due. -/
structure OneCompletion (t : Transfer) : Prop where
  once : t.completed.length ≤ 1
  quiet : t.block = none → ∀ e, ¬ pipeFileLoop.enabled t e

/-- The event does not end the transfer, or it is the end of the file stream and no write is
pending. -/
def EndsAlone (t : Transfer) : TransferEvent → Prop
  | .fileRead r _ => 0 < r.nread ∨ (r.nread < 0 ∧ t.pending = [])
  | .written _ =>
    ∀ p, t.block = some p → p.size = t.offset → t.pending.length = 1 → t.refused ≠ 0
  | .closed => True

/-- What holds in every run of a transfer: it is live as long as it has not been completed and the
stream goes on. -/
structure Unended (t : Transfer) : Prop where
  closing : t.closing = 0
  once : t.completed.length ≤ 1
  fresh : t.block ≠ none → t.completed = []
  open_ : t.block ≠ none → t.streamDone = false

section

variable {t u : Transfer}

theorem start_unended (contents : Bytes) (p : FileTcpPipe) : Unended (.start contents p) where
  closing := rfl
  once := Nat.zero_le 1
  fresh := fun _ => rfl
  open_ := fun _ => rfl

/-- A callback that returns has found its block. -/
theorem Unended.live_of_dispatch (h : Unended t) {e : TransferEvent}
    (he : pipeFileLoop.enabled t e) (hd : pipeFileLoop.dispatch t e = .ok u) : t.block ≠ none := by
  cases e with
  | fileRead r accepted =>
    obtain ⟨p, hp, -⟩ := Transfer.dispatch_fileRead hd
    simp [hp]
  | written status =>
    obtain ⟨-, p, s, hp, -⟩ := Transfer.dispatch_written hd
    simp [hp]
  | closed =>
    have hzero := h.closing
    have hpos : 0 < t.closing := he
    omega

theorem Unended.step (h : Unended t) {e : TransferEvent} (he : pipeFileLoop.enabled t e)
    (hd : pipeFileLoop.dispatch t e = .ok u) : Unended u := by
  have hlive := h.live_of_dispatch he hd
  have hcompleted := h.fresh hlive
  have hfinish : ∀ status, (t.completed ++ [status]).length ≤ 1 := by simp [hcompleted]
  cases e with
  | fileRead r accepted =>
    obtain ⟨p, hp, ⟨-, rfl⟩ | ⟨hle, s, hset, rfl⟩⟩ := Transfer.dispatch_fileRead hd
    · cases accepted with
      | true => exact ⟨h.closing, h.once, fun _ => hcompleted, fun _ => rfl⟩
      | false => exact ⟨h.closing, h.once, fun _ => hcompleted, fun _ => rfl⟩
    · rw [pipeFile_atNoData] at hset
      cases hset
      exact ⟨h.closing, hfinish _, fun hne => absurd rfl hne, fun hne => absurd rfl hne⟩
  | written status =>
    obtain ⟨-, p, s, hp, rfl, ⟨-, -, rfl⟩ | ⟨-, rfl⟩⟩ := Transfer.dispatch_written hd
    · exact ⟨h.closing, hfinish _, fun hne => absurd rfl hne, fun hne => absurd rfl hne⟩
    · exact ⟨h.closing, h.once, fun _ => hcompleted, fun _ => h.open_ hlive⟩
  | closed =>
    have hzero := h.closing
    have hpos : 0 < t.closing := he
    omega

/-- While the stream goes on, an error of it may come next. -/
theorem enabled_readError (hopen : t.streamDone = false) (accepted : Bool) :
    pipeFileLoop.enabled t (.fileRead (.fail ⟨UV_ECANCELED, by decide, by decide⟩) accepted) := by
  refine ⟨hopen, List.nil_prefix, ?_⟩
  intro heof
  exact absurd heof (by decide)

/-- **The step.**  An event leaves no callback over for a freed transfer exactly when it is not
the end of the transfer, or the stream ends it alone. -/
theorem oneCompletion_step {size : ℕ} {contents : Bytes} (hs : t.Sound contents size)
    (h : Unended t) {e : TransferEvent} (he : pipeFileLoop.enabled t e)
    (hd : pipeFileLoop.dispatch t e = .ok u) : OneCompletion u ↔ EndsAlone t e := by
  have hlive := h.live_of_dispatch he hd
  have hu := h.step he hd
  cases e with
  | fileRead r accepted =>
    obtain ⟨p, hp, ⟨hpos, rfl⟩ | ⟨hle, s, hset, rfl⟩⟩ := Transfer.dispatch_fileRead hd
    · refine iff_of_true ⟨hu.once, ?_⟩ (.inl hpos)
      intro hnone
      cases accepted <;> cases hnone
    · rw [pipeFile_atNoData] at hset
      cases hset
      constructor
      · intro hone
        have hwritten : t.pending = [] := by
          by_contra hpend
          exact hone.quiet rfl (.written 0) hpend
        have hneg : r.nread < 0 := by
          by_contra hzero
          exact hone.quiet rfl _ (enabled_readError (decide_eq_false hzero) true)
        exact .inr ⟨hneg, hwritten⟩
      · intro halone
        rcases halone with hpos | ⟨hneg, hpend⟩
        · omega
        · refine ⟨hu.once, ?_⟩
          intro _ e he'
          cases e with
          | fileRead r' accepted' =>
            have hdone : decide (r.nread < 0) = false := he'.1
            rw [decide_eq_true hneg] at hdone
            cases hdone
          | written status => exact he' hpend
          | closed =>
            have hzero := h.closing
            have hpos : 0 < t.closing := he'
            omega
  | written status =>
    obtain ⟨-, p, s, hp, rfl, hcases⟩ := Transfer.dispatch_written hd
    have hcatch := hs.written_catches_up_iff hp he
    have hread := hs.nread p hp
    rcases hcases with ⟨hcaught, hsize, rfl⟩ | ⟨hbehind, rfl⟩
    · -- the stream has not ended yet, so it will come back to the freed block
      refine iff_of_false ?_ ?_
      · intro hone
        refine hone.quiet rfl _ (enabled_readError ?_ true)
        exact h.open_ hlive
      · intro halone
        obtain ⟨hlen, href⟩ := hcatch.mp hcaught
        exact halone p hp (hsize.trans hread) hlen href
    · refine iff_of_true ⟨hu.once, ?_⟩ ?_
      · intro hnone
        cases hnone
      · intro q hq hsize hlen href
        exact hbehind (hcatch.mpr ⟨hlen, href⟩)
  | closed =>
    have hzero := h.closing
    have hpos : 0 < t.closing := he
    omega

end

/-- **One completion per transfer.**  After a run, `pipe_file_cb` was called at most once and
nothing more happens to a freed transfer, exactly when each event of the run either kept the
transfer going or was the end of the stream with no write pending. -/
theorem oneCompletion_iff {tcpData : Option ℕ} {tcp filePipe size : ℕ} {env : PipeFileEnv}
    {p : FileTcpPipe} (hcall : swsPipeFile tcpData tcp filePipe size env = .ok (some p, 0))
    {contents : Bytes} {es : List TransferEvent} {t : Transfer}
    (hrun : pipeFileLoop.Run (.start contents p) es t) :
    OneCompletion t ↔ (pipeFileLoop.restrict EndsAlone).Run (.start contents p) es t := by
  obtain rfl := swsPipeFile_ok hcall
  induction hrun with
  | nil =>
    refine iff_of_true ⟨Nat.zero_le 1, ?_⟩ .nil
    intro hnone
    cases hnone
  | snoc hrun he hd ih =>
    have hs := Transfer.sound hrun
    have h := hrun.invariant (start_unended contents _) fun _ _ _ h he hd => h.step he hd
    have hlive := h.live_of_dispatch he hd
    -- the transfer went on, so none of the events before has ended it
    have hbefore := ih.mp ⟨h.once, fun hnone => absurd hnone hlive⟩
    rw [oneCompletion_step hs h he hd, hrun.restrict_snoc_iff he hd]
    exact (and_iff_right hbefore).symm

/-- An empty file: the end of the stream is the only event there is. -/
theorem oneCompletion_iff_emptyFile :
    ∃ t, pipeFileLoop.Run (.start [] (.fresh 0 1 2)) [.fileRead .eof true] t ∧
      (OneCompletion t ↔
        (pipeFileLoop.restrict EndsAlone).Run (.start [] (.fresh 0 1 2)) [.fileRead .eof true] t) :=
  have hrun : pipeFileLoop.Run (.start [] (.fresh 0 1 2)) [.fileRead .eof true]
      ⟨[], 0, true, none, [], [], 0, [UV_EOF], 0⟩ := EventLoop.run_of_plays (by decide)
  ⟨_, hrun, oneCompletion_iff (show swsPipeFile none 2 1 0 ⟨0, 0, 0⟩ = _ by decide) hrun⟩

/-- A file of one byte, sent to its end before the end of the file is read: the transfer is
complete and freed, and the end of the file is still to come. -/
theorem oneByte_left_over :
    ¬ (∀ (contents : Bytes) (p : FileTcpPipe) (es : List TransferEvent) (t : Transfer),
      swsPipeFile none 2 1 contents.length ⟨0, 0, 0⟩ = .ok (some p, 0) →
      pipeFileLoop.Run (.start contents p) es t → OneCompletion t) := by
  intro h
  have hrun : pipeFileLoop.Run (.start [65] (.fresh 1 1 2))
      [.fileRead (.chunk [65]) true, .written 0]
      ⟨[65], 1, false, none, [], [65], 0, [0], 0⟩ := EventLoop.run_of_plays (by decide)
  have hquiet := (h _ _ _ _ (by decide) hrun).quiet rfl (.fileRead .eof true)
  exact hquiet (by decide)

end LibuvDox.StaticWebServer
