import LibuvDox.StaticWebServer.ServerSteps

/-!
# Steps that leave the requests alone

Connections come and go and transfers move on without a look at what was parsed or looked up: only
the data of a client and the answers to stats have to do with that.

* `SameRequests`: what the callbacks of the transfers leave as it was.
* `KeepsRequests`: the same of steps that may also begin or end a connection.
* `dispatch_cases`: an event is such a step, or the data of a client, or the answer to a stat.
-/

namespace LibuvDox.StaticWebServer

/-- http_parser gets no data, and no stat is answered. -/
def ServerEvent.isQuiet : ServerEvent → Bool
  | .reqRead _ (.data _ _ _) => false
  | .stat _ _ _ _ _ => false
  | _ => true

namespace Server

variable {s t u v : Server} {h : ℕ} {hr : SwsHandleReq}

/-! ### The callbacks of the transfers -/

/-- What the callbacks of the transfers leave alone. -/
structure SameRequests (s u : Server) : Prop where
  reqs : u.reqs = s.reqs
  stats : u.stats = s.stats
  root : u.root = s.root
  next : u.filePipes.next = s.filePipes.next
  streams : ∀ f, (u.streams f).tcp = (s.streams f).tcp ∧ (u.streams f).path = (s.streams f).path

theorem SameRequests.refl (s : Server) : SameRequests s s :=
  ⟨rfl, rfl, rfl, rfl, fun _ => ⟨rfl, rfl⟩⟩

theorem SameRequests.trans (h1 : SameRequests s t) (h2 : SameRequests t u) :
    SameRequests s u where
  reqs := h2.reqs.trans h1.reqs
  stats := h2.stats.trans h1.stats
  root := h2.root.trans h1.root
  next := h2.next.trans h1.next
  streams f := ⟨(h2.streams f).1.trans (h1.streams f).1, (h2.streams f).2.trans (h1.streams f).2⟩

theorem SameRequests.setTcp (s : Server) (h : ℕ) (t : TcpHandle) : SameRequests s (s.setTcp h t) :=
  ⟨rfl, rfl, rfl, rfl, fun _ => ⟨rfl, rfl⟩⟩

theorem SameRequests.uvClose {cb : CloseCb} (hok : uvClose s h cb = .ok u) :
    SameRequests s u := by
  obtain ⟨-, rfl⟩ := uvClose_ok hok
  exact .setTcp s h _

theorem SameRequests.uvWrite (s : Server) (h : ℕ) (w : WriteReq) :
    SameRequests s (uvWrite s h w) := by
  unfold Server.uvWrite
  split
  · exact .setTcp s h _
  · exact ⟨rfl, rfl, rfl, rfl, fun _ => ⟨rfl, rfl⟩⟩

theorem SameRequests.finish {p : ℕ} {b : FileTcpPipe} {status : ℤ}
    (hok : fileTcpPipeEnd s p b status = .ok u) : SameRequests s u := by
  obtain ⟨-, v, hclose, rfl⟩ := fileTcpPipeEnd_ok hok
  have hfree : SameRequests v { v with
      pipes := v.pipes.free p, filePipes := v.filePipes.free b.filePipe } :=
    ⟨rfl, rfl, rfl, Heap.next_free _ _, fun _ => ⟨rfl, rfl⟩⟩
  exact (SameRequests.uvClose hclose).trans hfree

theorem SameRequests.readOn (s : Server) (f : ℕ) (r : ReadResult) (pipes : Heap FileTcpPipe) :
    SameRequests s { s.readOn f r with pipes := pipes } := by
  refine ⟨rfl, rfl, rfl, rfl, fun f' => ?_⟩
  show (Function.update s.streams f _ f').tcp = _ ∧ (Function.update s.streams f _ f').path = _
  rw [Function.update_apply]
  split
  · rename_i heq
    rw [heq]
    exact ⟨rfl, rfl⟩
  · exact ⟨rfl, rfl⟩

theorem SameRequests.fileRead {f : ℕ} {r : ReadResult} (hok : onFileRead s f r = .ok u) :
    SameRequests s u := by
  obtain ⟨p, b, -, -, ⟨-, hwrite⟩ | ⟨-, hend⟩⟩ := onFileRead_ok hok
  · obtain ⟨hr, -, rfl⟩ := writeData_ok hwrite
    exact (SameRequests.readOn s f r _).trans (.uvWrite _ _ _)
  · exact (SameRequests.readOn s f r _).trans (.finish hend)

theorem SameRequests.written {status : ℤ} (hok : onWriteRes s h status = .ok u) :
    SameRequests s u := by
  obtain ⟨-, w, ws, p, b, v, -, -, -, rfl, hcases⟩ := onWriteRes_ok hok
  have hv : SameRequests s { s.setTcp h { s.tcp h with writes := ws } with
      pipes := s.pipes.set p { b with nwritten := b.nwritten + w.buf.length } } :=
    ⟨rfl, rfl, rfl, rfl, fun _ => ⟨rfl, rfl⟩⟩
  rcases hcases with ⟨-, -, hend⟩ | ⟨-, rfl⟩
  · exact hv.trans (.finish hend)
  · exact hv

/-! ### Connections that come and go -/

/-- The connections that are there were there before, as they are, or one of them is new; stats and
file streams stay. -/
structure KeepsRequests (s u : Server) : Prop where
  old : ∀ h hr, u.reqs.get? h = some hr → s.reqs.get? h = some hr ∨
    (h = s.reqs.next ∧ ∃ id junk info, hr = swsHandleReqInit h id junk info)
  grows : s.reqs.next ≤ u.reqs.next
  stats : u.stats = s.stats
  root : u.root = s.root
  next : u.filePipes.next = s.filePipes.next
  streams : ∀ f, (u.streams f).tcp = (s.streams f).tcp ∧ (u.streams f).path = (s.streams f).path

theorem SameRequests.keeps (hs : SameRequests s u) : KeepsRequests s u where
  old h hr hget := .inl (hs.reqs ▸ hget)
  grows := by rw [hs.reqs]
  stats := hs.stats
  root := hs.root
  next := hs.next
  streams := hs.streams

theorem KeepsRequests.trans_same (hk : KeepsRequests s t) (hs : SameRequests t u) :
    KeepsRequests s u where
  old h hr hget := hk.old h hr (hs.reqs ▸ hget)
  grows := by
    rw [hs.reqs]
    exact hk.grows
  stats := hs.stats.trans hk.stats
  root := hs.root.trans hk.root
  next := hs.next.trans hk.next
  streams f := ⟨(hs.streams f).1.trans (hk.streams f).1, (hs.streams f).2.trans (hk.streams f).2⟩

theorem KeepsRequests.newReq (s : Server) (junk : Garbage) (info : SwsResourceInfo) :
    KeepsRequests s (s.newReq junk info) where
  old h hr hget := by
    rcases newReq_cases hget with ⟨rfl, rfl⟩ | hget
    · exact .inr ⟨rfl, _, _, _, rfl⟩
    · exact .inl hget
  grows := by
    rw [newReq_next]
    omega
  stats := rfl
  root := rfl
  next := rfl
  streams _ := ⟨rfl, rfl⟩

theorem KeepsRequests.free (s : Server) (h : ℕ) :
    KeepsRequests s { s with reqs := s.reqs.free h } where
  old _ _ hget := .inl (Heap.free_cases hget).2
  grows := (Heap.next_free _ _).ge
  stats := rfl
  root := rfl
  next := rfl
  streams _ := ⟨rfl, rfl⟩

theorem KeepsRequests.connect {status accept : ℤ} {junk : Garbage} {info : SwsResourceInfo}
    (hok : onConnect s status accept junk info = .ok u) : KeepsRequests s u := by
  have hnew := KeepsRequests.newReq s junk info
  obtain ⟨-, ⟨-, hclose⟩ | ⟨-, rfl⟩⟩ := onConnect_ok hok
  · exact hnew.trans_same (.uvClose hclose)
  · exact hnew.trans_same (.setTcp _ _ _)

theorem KeepsRequests.closed (hok : onClosed s h = .ok u) : KeepsRequests s u := by
  obtain ⟨v, rfl, ⟨-, -, rfl⟩ | ⟨-, rfl⟩⟩ := onClosed_ok hok
  · exact (KeepsRequests.free s h).trans_same (.setTcp _ _ _)
  · exact (SameRequests.setTcp s h _).keeps

/-! ### Every event -/

/-- An event leaves the requests alone; or http_parser gets the data of a client; or a stat is
answered. -/
theorem dispatch_cases {e : ServerEvent} (hok : server.dispatch s e = .ok u) :
    (e.isQuiet = true ∧ KeepsRequests s u) ∨
      (∃ h nread calls parsed v, e = .reqRead h (.data nread calls parsed) ∧
        calls.foldlM (parserCallback h) s = .ok v ∧ KeepsRequests v u) ∨
      ∃ i result env pipe contents, e = .stat i result env pipe contents ∧
        fsStatCb s i result env pipe contents = .ok u := by
  cases e with
  | connect status accept junk info => exact .inl ⟨rfl, .connect hok⟩
  | reqRead h r =>
    cases r with
    | eof => exact .inl ⟨rfl, (SameRequests.uvClose hok).keeps⟩
    | other nread =>
      cases hok
      exact .inl ⟨rfl, (SameRequests.refl s).keeps⟩
    | data nread calls parsed =>
      obtain ⟨-, v, -, hcalls, hend⟩ := onReqRead_data_ok hok
      refine .inr (.inl ⟨h, nread, calls, parsed, v, rfl, hcalls, ?_⟩)
      rcases hend with ⟨-, hclose⟩ | ⟨-, rfl⟩
      · exact (SameRequests.uvClose hclose).keeps
      · exact (SameRequests.refl u).keeps
  | stat i result env pipe contents => exact .inr (.inr ⟨i, result, env, pipe, contents, rfl, hok⟩)
  | fileRead f r => exact .inl ⟨rfl, (SameRequests.fileRead hok).keeps⟩
  | written h status => exact .inl ⟨rfl, (SameRequests.written hok).keeps⟩
  | closed h => exact .inl ⟨rfl, .closed hok⟩

end Server

end LibuvDox.StaticWebServer
