import LibuvDox.Uvcat

/-!
# The end of the copy

`uvcat` is a cycle of requests without a counter, so that it comes to an end rests on the answers
of the system: a read returns nothing only at the end of the file.

* `rank`: what is left to be done, which every callback makes less.
* `rest`: what stdout will have in the end, which no complete write changes.
* `uvcat_ends`: a run has no more than three events and two for each byte of the file, it can go on
  as long as the file has not been closed, and whatever has been lost the rest is still copied.
-/

namespace LibuvDox.Uvcat

/-- How many callbacks are due before the next read, if nothing of the file is left. -/
def FsReq.stage : FsReq → ℕ
  | .openFile => 3
  | .read _ => 2
  | .write _ => 3
  | .close _ => 1

/-- What is left to be done: a read and a write for each byte that has not been read, and what the
request under way leads to. -/
def rank (s : Cat) : ℕ := 2 * (s.content.length - s.offset) + (s.requests.map FsReq.stage).sum

/-- What stdout will have: what it has, the part of the buffer that is being written, and what has
not been read. -/
def rest (s : Cat) : Bytes := s.out ++ s.buffer.take (inFlight s) ++ s.content.drop s.offset

section

variable {s u : Cat}

theorem rank_eq {r : FsReq} (hreq : s.requests = [r]) :
    rank s = 2 * (s.content.length - s.offset) + r.stage := by
  simp [rank, hreq]

theorem rest_eq {r : FsReq} (hreq : s.requests = [r]) :
    rest s = s.out ++ s.buffer.take r.len ++ s.content.drop s.offset := by
  simp [rest, inFlight, hreq]

/-- A read that returns `n` bytes moves them from the file to the buffer. -/
theorem rest_read {result : ℤ} (hpos : 0 ≤ result) (hreq : s.requests = [.read s.openResult])
    (hans : Answers s result (.read s.openResult))
    (hok : readCb (carryOut { s with requests := [] } result (.read s.openResult)) result = .ok u) :
    rank u < rank s ∧ rest u = rest s := by
  obtain ⟨-, hleft, hend⟩ := hans
  obtain ⟨-, hok⟩ := noError_of_ok hok
  have hlen := take_next s result.toNat hleft
  have hempty : s.buffer.take (FsReq.read s.openResult).len = [] := List.take_zero
  rw [rank_eq hreq, rest_eq hreq, hempty, List.append_nil]
  by_cases hzero : result = 0
  · subst hzero
    cases hok
    have hall := hend rfl
    refine ⟨?_, ?_⟩
    · show 2 * (s.content.length - (s.offset + 0)) + (1 + 0) < _ + 2
      omega
    · show s.out ++ [] ++ s.content.drop (s.offset + 0) = _
      rw [List.append_nil, Nat.add_zero]
  · rw [if_neg hzero] at hok
    cases hok
    refine ⟨?_, ?_⟩
    · show 2 * (s.content.length - (s.offset + result.toNat)) + (3 + 0) < _ + 2
      omega
    · have hfront : (s.next result.toNat ++ s.buffer.drop result.toNat).take result.toNat =
          s.next result.toNat := List.take_left' hlen
      show s.out ++ (s.next result.toNat ++ s.buffer.drop result.toNat).take (result.toNat + 0)
        ++ s.content.drop (s.offset + result.toNat) = _
      rw [Nat.add_zero, hfront, List.append_assoc, ← List.drop_drop, Cat.next,
        List.take_append_drop]

/-- **One callback.**  It comes closer to the end, and if it is not that of a short write stdout
will have what it was to have before. -/
theorem Sound.advance {e : FsEvent} (h : Sound s) (he : uvcat.enabled s e)
    (hok : uvcat.dispatch s e = .ok u) : rank u < rank s ∧ (FullWrites s e → rest u = rest s) := by
  cases e with
  | done i result =>
    cases h.phase with
    | opening hreq hopen =>
      obtain ⟨-, -, hd⟩ := dispatch_only hreq he
      rw [hd] at hok
      obtain ⟨-, hok⟩ := noError_of_ok hok
      cases hok
      rw [rank_eq hreq, rest_eq hreq]
      exact ⟨Nat.lt_succ_self _, fun _ => rfl⟩
    | reading hreq hopen =>
      obtain ⟨hans, -, hd⟩ := dispatch_only hreq he
      rw [hd] at hok
      obtain ⟨hpos, -⟩ := noError_of_ok hok
      obtain ⟨hlt, hrest⟩ := rest_read hpos hreq hans hok
      exact ⟨hlt, fun _ => hrest⟩
    | writing len hreq hlen hbuf hopen =>
      obtain ⟨-, hget, hd⟩ := dispatch_only hreq he
      rw [hd] at hok
      obtain ⟨-, hok⟩ := noError_of_ok hok
      cases hok
      rw [rank_eq hreq, rest_eq hreq]
      refine ⟨Nat.lt_succ_self _, ?_⟩
      intro hfull
      obtain rfl := hfull len hget
      show s.out ++ s.buffer.take (len : ℤ).toNat ++ [] ++ s.content.drop s.offset = _
      rw [List.append_nil]
      rfl
    | closing hreq hend hopen =>
      obtain ⟨-, -, hd⟩ := dispatch_only hreq he
      rw [hd] at hok
      obtain ⟨-, hok⟩ := noError_of_ok hok
      cases hok
      rw [rank_eq hreq, rest_eq hreq]
      exact ⟨Nat.lt_succ_self _, fun _ => rfl⟩
    | finished hreq hend hopen =>
      obtain ⟨r, hr, -⟩ := he
      rw [hreq] at hr
      cases hr

/-- Every callback returns unless it is called with an error. -/
theorem callback_returns {result : ℤ} (hpos : 0 ≤ result) (s : Cat) (r : FsReq) :
    ∃ u, callback s result r = .ok u := by
  have hnoError : ∀ {x : Except Stop Cat},
      (if result < 0 then .error errorMacro else x) = x := if_neg (by omega)
  cases r with
  | openFile => exact ⟨_, hnoError⟩
  | read fd =>
    by_cases hzero : result = 0
    · exact ⟨_, hnoError.trans (if_pos hzero)⟩
    · exact ⟨_, hnoError.trans (if_neg hzero)⟩
  | write len => exact ⟨_, hnoError⟩
  | close fd => exact ⟨_, hnoError⟩

/-- **Progress.**  Until the file has been closed some answer makes the program go on, and no write
has to be a short one for it. -/
theorem Sound.goesOn (h : Sound s) (hopen : s.closed = false) :
    ∃ e u, uvcat.enabled s e ∧ FullWrites s e ∧ uvcat.dispatch s e = .ok u := by
  have due : ∀ (r : FsReq) (result : ℤ), s.requests = [r] → Answers s result r →
      0 ≤ result → (∀ len, r = .write len → result = len) →
      ∃ e u, uvcat.enabled s e ∧ FullWrites s e ∧ uvcat.dispatch s e = .ok u := by
    intro r result hreq hans hpos hfull
    have hget : s.requests[0]? = some r := by rw [hreq]; rfl
    have he : uvcat.enabled s (.done 0 result) := ⟨r, hget, hans⟩
    obtain ⟨-, -, hd⟩ := dispatch_only hreq he
    obtain ⟨u, hu⟩ := callback_returns hpos (carryOut { s with requests := [] } result r) r
    refine ⟨.done 0 result, u, he, ?_, hd.trans hu⟩
    intro len hlen
    exact hfull len (Option.some.inj (hget.symm.trans hlen))
  cases h.phase with
  | opening hreq _ => exact due _ 0 hreq trivial le_rfl nofun
  | reading hreq _ =>
    -- as many bytes as there are and the buffer can hold
    have hwithin := h.within
    have hleft : Answers s ((min BUFSIZE (s.content.length - s.offset) : ℕ) : ℤ)
        (.read s.openResult) := by
      refine ⟨?_, ?_, ?_⟩
      · rw [Int.toNat_natCast]
        exact Nat.min_le_left _ _
      · rw [Int.toNat_natCast]
        omega
      · unfold BUFSIZE
        omega
    exact due _ _ hreq hleft (Int.natCast_nonneg _) nofun
  | writing len hreq hlen hbuf _ =>
    have hans : Answers s (len : ℤ) (.write len) := ⟨by omega, le_rfl⟩
    refine due _ _ hreq hans (Int.natCast_nonneg _) ?_
    intro len' hlen'
    cases hlen'
    rfl
  | closing hreq _ _ => exact due _ 0 hreq trivial le_rfl nofun
  | finished _ _ hclosed => rw [hclosed.2] at hopen; cases hopen

/-- Once the file has been closed nothing is under way, and all of it is on stdout. -/
theorem Sound.over (h : Sound s) (hclosed : s.closed = true) :
    s.requests = [] ∧ rest s = s.out := by
  have hin : s.requests = [] ∧ s.offset = s.content.length := by
    cases h.phase with
    | opening hreq hopen => rw [hopen.2] at hclosed; cases hclosed
    | reading hreq hopen => rw [hopen.2] at hclosed; cases hclosed
    | writing len hreq hlen hbuf hopen => rw [hopen.2] at hclosed; cases hclosed
    | closing hreq hend hopen => rw [hopen.2] at hclosed; cases hclosed
    | finished hreq hend hopen => exact ⟨hreq, hend⟩
  refine ⟨hin.1, ?_⟩
  rw [rest, inFlight, hin.1, hin.2, List.drop_length]
  simp

end

/-- **The copy ends.**  Every run has at most two events for each byte of the file and three more;
it cannot go on exactly when the file has been closed; and from the state it has reached, whatever
was lost on the way, complete writes lead to the end of the program with all on stdout that was
there or on its way, and what had not been read. -/
theorem uvcat_ends {content : Bytes} {es : List FsEvent} {s : Cat}
    (h : uvcat.Run (init content) es s) :
    es.length ≤ 2 * content.length + 3 ∧
      ((∀ e, ¬ uvcat.enabled s e) ↔ s.closed = true) ∧
      ∃ fs t, (uvcat.restrict FullWrites).Run s fs t ∧ t.closed = true ∧
        t.out = s.out ++ s.buffer.take (inFlight s) ++ content.drop s.offset := by
  have hs := sound_of_run h
  have hlen := h.length_le rank (init_sound content)
    fun _ _ _ ht he hd => ⟨(ht.step he hd).1, (ht.advance he hd).1⟩
  have hinit : rank (init content) = 2 * content.length + 3 := rfl
  refine ⟨by omega, ?_, ?_⟩
  · constructor
    · intro hstuck
      by_contra hopen
      obtain ⟨e, _, he, -⟩ := hs.goesOn (Bool.eq_false_iff.mpr hopen)
      exact hstuck e he
    · intro hclosed e he
      cases e with
      | done i result =>
        obtain ⟨r, hr, -⟩ := he
        rw [(hs.over hclosed).1] at hr
        cases hr
  · obtain ⟨fs, t, hrun, ⟨ht, hrest⟩, hclosed⟩ := EventLoop.exists_run_to
      (L := uvcat.restrict FullWrites) (P := fun t => Sound t ∧ rest t = rest s)
      (D := fun t => t.closed = true) rank (fun t ⟨ht, hrest⟩ hopen => by
        obtain ⟨e, u, he, hfull, hd⟩ := ht.goesOn (Bool.eq_false_iff.mpr hopen)
        obtain ⟨hlt, hsame⟩ := ht.advance he hd
        exact ⟨e, u, ⟨he, hfull⟩, hd, ⟨(ht.step he hd).1, (hsame hfull).trans hrest⟩, hlt⟩)
      ⟨hs, rfl⟩
    refine ⟨fs, t, hrun, hclosed, ?_⟩
    rw [← (ht.over hclosed).2, hrest, rest, content_of_run h]

/-- A file of two bytes, of which a short write has lost one: the program is at its next read. -/
theorem uvcat_ends_shortWrite : ∃ es s, uvcat.Run (init [65, 66]) es s ∧ s.out = [65] ∧
    ∃ fs t, (uvcat.restrict FullWrites).Run s fs t ∧ t.closed = true ∧ t.out = [65] := by
  obtain ⟨s, hrun, hp⟩ : ∃ s, uvcat.Run (init [65, 66]) [.done 0 3, .done 0 2, .done 0 1] s ∧
      (s.out == [65] && inFlight s == 0 && s.offset == 2) = true :=
    EventLoop.exists_run_of_plays (by decide +kernel)
  simp only [Bool.and_eq_true, beq_iff_eq] at hp
  obtain ⟨⟨hout, hflight⟩, hoffset⟩ := hp
  obtain ⟨-, -, fs, t, ht, hclosed, hall⟩ := uvcat_ends hrun
  refine ⟨_, s, hrun, hout, fs, t, ht, hclosed, ?_⟩
  rw [hall, hout, hflight, hoffset]
  rfl

end LibuvDox.Uvcat
