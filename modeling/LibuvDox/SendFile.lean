import LibuvDox.StaticWebServer.PipeFile

/-!
# send-file/main.c

`send-file` answers every request with one file, by the same callbacks as `pipe-file.c`.  The
response is over when the writes have caught up with the reads, and the tcp handle is closed then;
the block is freed when that close has gone through.  At the end of the file `uv_close` is called
on the address of the local variable `file_pipe`, which is no handle.

* `endsComplete_iff`: in both programs, at every completed write of every run, the response ends
  only with all of the file sent, exactly where no write catches up before the file has been read.
-/

namespace LibuvDox

namespace SendFile

def sendFileProgram : TransferProgram where
  atEof _ := .error (.undefined "uv_close(&file_pipe)")
  otherwise _ := .ok .goOn
  atEnd _ := .closeTcp

def onFileRead : Option FileTcpPipe → ReadResult → Except Stop (FileTcpPipe × TransferAction) :=
  sendFileProgram.onFileRead

def onWriteRes : Option FileTcpPipe → ℕ → ℤ → Except Stop (FileTcpPipe × TransferAction) :=
  sendFileProgram.onWriteRes

/-- `init_file_tcp_pipe`, which ignores what libuv answers. -/
def initFileTcpPipe (tcp filePipe size : ℕ) : FileTcpPipe := .fresh size filePipe tcp

/-- A transfer of `send-file`, as a program of the event loop. -/
def sendFileLoop : EventLoop Transfer TransferEvent Stop := Transfer.loop sendFileProgram

instance (t : Transfer) (e : TransferEvent) : Decidable (sendFileLoop.enabled t e) :=
  inferInstanceAs (Decidable (t.Enabled e))

end SendFile

open StaticWebServer SendFile

/-- **Complete transfer.**  At every successful write completion of every run, in `pipe-file.c`
after a call of `sws_pipe_file` that returned 0 and in `send-file`, the response is ended only
with all of the file sent and the assertion does not fail, exactly where the only pending write
does not complete before the whole file has been read. -/
theorem endsComplete_iff (contents : Bytes) (tcp filePipe : ℕ) :
    (∀ tcpData env p es t,
        swsPipeFile tcpData tcp filePipe contents.length env = .ok (some p, 0) →
        pipeFileLoop.Run (.start contents p) es t → pipeFileLoop.enabled t (.written 0) →
        (t.EndsComplete pipeFileProgram ↔ t.NoEarlyCatchUp)) ∧
      (∀ es t,
        sendFileLoop.Run (.start contents (initFileTcpPipe tcp filePipe contents.length)) es t →
        sendFileLoop.enabled t (.written 0) →
        (t.EndsComplete sendFileProgram ↔ t.NoEarlyCatchUp)) := by
  constructor
  · intro tcpData env p es t hcall hrun he
    obtain rfl := swsPipeFile_ok hcall
    exact (Transfer.sound hrun).written_endsComplete_iff he
  · intro es t hrun he
    exact (Transfer.sound hrun).written_endsComplete_iff he

/-- Both programs send a file of one byte completely. -/
theorem endsComplete_iff_oneByte :
    (Transfer.EndsComplete pipeFileProgram
        ⟨[65], 1, false, some ⟨1, 0, 1, 1, 2⟩, [[65]], [65], 0, [], 0⟩ ∧
      Transfer.EndsComplete sendFileProgram
        ⟨[65], 1, false, some ⟨1, 0, 1, 1, 2⟩, [[65]], [65], 0, [], 0⟩) := by
  have hp : pipeFileLoop.Run (.start [65] (.fresh 1 1 2)) [.fileRead (.chunk [65]) true]
      ⟨[65], 1, false, some ⟨1, 0, 1, 1, 2⟩, [[65]], [65], 0, [], 0⟩ :=
    EventLoop.run_of_plays (by decide)
  have hs : sendFileLoop.Run (.start [65] (initFileTcpPipe 2 1 1)) [.fileRead (.chunk [65]) true]
      ⟨[65], 1, false, some ⟨1, 0, 1, 1, 2⟩, [[65]], [65], 0, [], 0⟩ :=
    EventLoop.run_of_plays (by decide)
  have hcall : swsPipeFile none 2 1 1 ⟨0, 0, 0⟩ = .ok (some (.fresh 1 1 2), 0) := by decide
  obtain ⟨h1, h2⟩ := endsComplete_iff [65] 2 1
  exact ⟨(h1 none ⟨0, 0, 0⟩ _ _ _ hcall hp (by decide)).mpr (fun _ _ _ => rfl),
    (h2 _ _ hs (by decide)).mpr (fun _ _ _ => rfl)⟩

/-- A file of two bytes whose first byte is written before the second one is read: the assertion
fails, in both programs. -/
theorem twoBytes_early_catch_up :
    (¬ ∀ es t, pipeFileLoop.Run (.start [65, 66] (.fresh 2 1 2)) es t →
        pipeFileLoop.enabled t (.written 0) → t.EndsComplete pipeFileProgram) ∧
      ¬ ∀ es t, sendFileLoop.Run (.start [65, 66] (initFileTcpPipe 2 1 2)) es t →
        sendFileLoop.enabled t (.written 0) → t.EndsComplete sendFileProgram := by
  constructor
  · intro h
    have hrun : pipeFileLoop.Run (.start [65, 66] (.fresh 2 1 2)) [.fileRead (.chunk [65]) true]
        ⟨[65, 66], 1, false, some ⟨1, 0, 2, 1, 2⟩, [[65]], [65], 0, [], 0⟩ :=
      EventLoop.run_of_plays (by decide)
    exact (h _ _ hrun (by decide)).1 (by decide)
  · intro h
    have hrun : sendFileLoop.Run (.start [65, 66] (initFileTcpPipe 2 1 2))
        [.fileRead (.chunk [65]) true]
        ⟨[65, 66], 1, false, some ⟨1, 0, 2, 1, 2⟩, [[65]], [65], 0, [], 0⟩ :=
      EventLoop.run_of_plays (by decide)
    exact (h _ _ hrun (by decide)).1 (by decide)

end LibuvDox
