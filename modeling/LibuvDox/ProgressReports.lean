import LibuvDox.Lib.EventLoop
import LibuvDox.Progress

/-!
# 13-progress/main.c: the thread and the loop

`work_cb` runs in a thread of the pool and reports each percentage with `uv_async_send`; its local
`percentage` is read by `progress_cb` in the thread of the loop, through `async.data`.  The two go
on independently: sends that come before the callback is called are merged into one call, `work_cb`
goes on while the callback runs, the callback reads whatever the local holds by then, and after
`work_cb` has returned the local is gone.  A `double` is loaded and stored at once.

* `Sound`: the invariant, for the numbers of the turns whose percentages were printed.
* `percentages_of_run`: in every order of events the percentages that are printed grow, none of
  them is printed more than three times, and each is the percentage of some turn.
* `late_iff`: once `work_cb` has returned, a call that is still to come may stop the process, and
  one that is in progress must.
* `printed_of_prompt`: if the loop gets its turn during each `sleep`, every percentage is printed
  once, and the callback never comes too late.
-/

namespace LibuvDox.Progress

/-- Where `work_cb` is: at the head of its loop, between the assignment to `percentage` and
`uv_async_send`, in `sleep`, or it has returned. -/
inductive Phase where
  | head
  | stored
  | asleep
  | returned
  deriving DecidableEq, Repr

/-- What is printed to stderr: "Downloaded %.2f%%" and "Download complete". -/
inductive Line where
  | downloaded (percentage : ℤ)
  | complete
  deriving DecidableEq, Repr

def Line.percentage? : Line → Option ℤ
  | downloaded percentage => some percentage
  | complete => none

/-- `work_cb` with its local `percentage`, which has no value at first and none at last; whether
`async.data` points to it, whether a send is pending, whether `progress_cb` was called and is yet to
read the local, whether `async` was closed, and what was printed. -/
structure Download where
  work : Work
  phase : Phase
  percentage : Option ℤ
  pointed : Bool
  pending : Bool
  reading : Bool
  closed : Bool
  stderr : List Line
  deriving DecidableEq, Repr

/-- The steps of `work_cb`: it stores a percentage, sends, wakes up, or leaves the loop; the two
callbacks of the loop, with their status.  `progress_cb` is called and then reads: the thread of
`work_cb` can go on in between. -/
inductive DownloadEvent where
  | store
  | send
  | wake
  | leave
  | progressCb (status : ℤ)
  | read
  | afterWorkCb (status : ℤ)
  deriving DecidableEq, Repr

namespace Download

/-- After `uv_async_init` and `uv_queue_work`. -/
def init : Download := ⟨start, .head, none, false, false, false, false, []⟩

/-- The percentages that were printed. -/
def percentages (s : Download) : List ℤ := s.stderr.filterMap Line.percentage?

/-- `percentage = (100 * downloaded) / size`. -/
def store (size : ℤ) (s : Download) : Except Stop Download := do
  let product ← mulInt 100 s.work.downloaded
  .ok { s with
    work := { s.work with published := s.work.published ++ [product.tdiv size] }
    percentage := some (product.tdiv size)
    phase := .stored }

/-- `downloaded += (MIN_PERSEC + random()) % MAX_PERSEC`. -/
def wake (random : Random) (s : Download) : Download :=
  { s with
    work := { s.work with
      downloaded :=
        toInt (s.work.downloaded + ((MIN_PERSEC + random.draw s.work.draws) % MAX_PERSEC : ℕ))
      draws := s.work.draws + 1 }
    phase := .head }

/-- `progress_cb` up to its read of the local: the flag of the send is cleared before the call, so
that a send from now on leads to another one. -/
def progressCb (s : Download) (status : ℤ) : Except Stop Download := do
  let s := { s with pending := false }
  ifError status
  let _ ← deref (if s.pointed then some () else none) "handle->data"
  .ok { s with reading := true }

/-- `double percentage = *(double*) handle->data`, and the rest of `progress_cb`. -/
def read (s : Download) : Except Stop Download := do
  let percentage ← deref s.percentage "*(double*) handle->data"
  .ok { s with reading := false, stderr := s.stderr ++ [.downloaded percentage] }

def afterWorkCb (s : Download) (status : ℤ) : Except Stop Download := do
  ifError status
  .ok { s with stderr := s.stderr ++ [.complete], closed := true }

/-- A pending send is answered until `async` is closed, and `after_work_cb` comes after `work_cb`
has returned; the loop calls one callback at a time. -/
def Enabled (size : ℤ) (s : Download) : DownloadEvent → Prop
  | .store => s.phase = .head ∧ s.work.downloaded < size
  | .send => s.phase = .stored
  | .wake => s.phase = .asleep
  | .leave => s.phase = .head ∧ size ≤ s.work.downloaded
  | .progressCb _ => s.pending = true ∧ s.closed = false ∧ s.reading = false
  | .read => s.reading = true
  | .afterWorkCb _ => s.phase = .returned ∧ s.closed = false ∧ s.reading = false

def decideEnabled (size : ℤ) (s : Download) : ∀ e, Decidable (Enabled size s e)
  | .store => inferInstanceAs (Decidable (_ ∧ _))
  | .send => inferInstanceAs (Decidable (_ = _))
  | .wake => inferInstanceAs (Decidable (_ = _))
  | .leave => inferInstanceAs (Decidable (_ ∧ _))
  | .progressCb _ => inferInstanceAs (Decidable (_ ∧ _ ∧ _))
  | .read => inferInstanceAs (Decidable (_ = _))
  | .afterWorkCb _ => inferInstanceAs (Decidable (_ ∧ _ ∧ _))

def dispatch (size : ℤ) (random : Random) (s : Download) : DownloadEvent → Except Stop Download
  | .store => s.store size
  | .send => .ok { s with pointed := true, pending := true, phase := .asleep }
  | .wake => .ok (s.wake random)
  | .leave => .ok { s with percentage := none, phase := .returned }
  | .progressCb status => s.progressCb status
  | .read => s.read
  | .afterWorkCb status => s.afterWorkCb status

end Download

/-- The download of `size` bytes, as a program of the event loop and the thread of `work_cb`. -/
def download (size : ℤ) (random : Random) : EventLoop Download DownloadEvent Stop :=
  ⟨Download.Enabled size, Download.dispatch size random⟩

instance (size : ℤ) (random : Random) (s : Download) (e : DownloadEvent) :
    Decidable ((download size random).enabled s e) :=
  Download.decideEnabled size s e

/-- The percentage that the turn number `k` publishes. -/
def percentageAt (size : ℕ) (random : Random) (k : ℕ) : ℤ := (100 * total random k / size : ℕ)

/-- `work_cb` in the turn `n`, after it has stored the percentage. -/
def midTurn (size : ℕ) (random : Random) (n : ℕ) : Work where
  downloaded := total random n
  published := (List.range (n + 1)).map (percentageAt size random)
  draws := n

namespace Download

/-- The turns that have stored a percentage. -/
def turns (s : Download) : ℕ := s.work.published.length

/-- **The invariant**, for the numbers `ks` of the turns whose percentages were printed. -/
structure Sound (size : ℕ) (random : Random) (ks : List ℕ) (s : Download) : Prop where
  between : s.phase = .head ∨ s.phase = .returned → s.work = after size random s.turns
  within : s.phase = .stored ∨ s.phase = .asleep →
    ∃ n, s.turns = n + 1 ∧ s.work = midTurn size random n ∧ 100 * total random n < 2 ^ 31
  taken : ∀ i < s.turns, total random i < size
  percentage : s.phase ≠ .returned → ∀ n, s.turns = n + 1 →
    s.percentage = some (percentageAt size random n)
  gone : s.phase = .returned → s.percentage = none
  sent : s.pending = true → s.pointed = true ∧ 0 < s.turns
  called : s.reading = true → s.closed = false ∧ 0 < s.turns
  printed : s.percentages = ks.map (percentageAt size random)
  sorted : ks.Pairwise (· ≤ ·)
  lt : ∀ k ∈ ks, k < s.turns
  thrice : ∀ k, ks.count k ≤ 3
  -- a percentage that is not yet sent can be read by two earlier calls: one that is in progress,
  -- and one whose send came after that one was called
  last : ∀ n, s.turns = n + 1 →
    ks.count n + s.pending.toNat + s.reading.toNat ≤ if s.phase = .stored then 2 else 3

section

variable {size n : ℕ} {random : Random} {ks : List ℕ} {s u : Download}

theorem init_sound : Sound size random [] init where
  between := fun _ => rfl
  within := by simp [init]
  taken := by simp [init, turns, start]
  percentage := by simp [init, turns, start]
  gone := by simp [init]
  sent := by simp [init]
  called := by simp [init]
  printed := rfl
  sorted := .nil
  lt := by simp
  thrice := by simp
  last := by simp [init]

/-! ### The steps of the thread -/

/-- What is stored is the percentage of the turn. -/
theorem store_after (hwork : s.work = after size random n) (hok : s.store size = .ok u) :
    100 * total random n < 2 ^ 31 ∧ u = { s with
      work := midTurn size random n
      percentage := some (percentageAt size random n)
      phase := .stored } := by
  obtain ⟨product, hproduct, hu⟩ := bind_ok_iff.mp hok
  obtain ⟨hval, hfits⟩ := mulInt_ok hproduct
  have hdown : s.work.downloaded = total random n := by rw [hwork]; rfl
  rw [hdown] at hval hfits
  have hdiv : product.tdiv size = percentageAt size random n := by
    rw [hval, percentageAt, Int.natCast_ediv, Nat.cast_mul, Nat.cast_ofNat]
    exact Int.tdiv_eq_ediv_of_nonneg (by positivity)
  have hpublished : (after size random n).published ++ [percentageAt size random n] =
      (List.range (n + 1)).map (percentageAt size random) := by
    rw [List.range_succ, List.map_append]
    rfl
  cases hu
  rw [hwork, hdiv, hpublished]
  exact ⟨by omega, rfl⟩

theorem wake_midTurn (hwork : s.work = midTurn size random n)
    (hfits : 100 * total random n < 2 ^ 31) :
    s.wake random = { s with work := after size random (n + 1), phase := .head } := by
  have hlt := persec_lt random n
  have hsum : toInt ((total random n : ℤ) + (persec random n : ℕ)) = total random (n + 1) := by
    unfold MAX_PERSEC at hlt
    rw [toInt_of_fits (by omega) (by omega), total_succ, Nat.cast_add]
  unfold wake
  rw [hwork]
  exact congrArg (fun d => { s with
    work := { after size random (n + 1) with downloaded := d }, phase := .head }) hsum

@[simp] theorem turns_after (h : s.work = after size random n) : s.turns = n := by
  simp [turns, h, after]

@[simp] theorem turns_midTurn (h : s.work = midTurn size random n) : s.turns = n + 1 := by
  simp [turns, h, midTurn]

theorem Sound.store (hs : Sound size random ks s) (hhead : s.phase = .head)
    (hmore : s.work.downloaded < size) (hok : s.store size = .ok u) :
    Sound size random ks u := by
  obtain ⟨hfits, rfl⟩ := store_after (hs.between (.inl hhead)) hok
  have hturns : (midTurn size random s.turns).published.length = s.turns + 1 := by simp [midTurn]
  have hnew : ks.count s.turns = 0 :=
    List.count_eq_zero.mpr fun hmem => absurd (hs.lt _ hmem) (lt_irrefl _)
  constructor
  case between => simp
  case within => exact fun _ => ⟨s.turns, hturns, rfl, hfits⟩
  case taken =>
    intro i hi
    rw [turns, hturns] at hi
    rcases Nat.lt_succ_iff_lt_or_eq.mp hi with hlt | rfl
    · exact hs.taken i hlt
    · rw [hs.between (.inl hhead)] at hmore
      simpa [after] using hmore
  case percentage =>
    intro _ n hn
    rw [turns, hturns] at hn
    cases hn
    rfl
  case gone => simp
  case sent =>
    intro hpending
    refine ⟨(hs.sent hpending).1, ?_⟩
    rw [turns, hturns]
    exact Nat.succ_pos _
  case called =>
    intro hreading
    refine ⟨(hs.called hreading).1, ?_⟩
    rw [turns, hturns]
    exact Nat.succ_pos _
  case printed => exact hs.printed
  case sorted => exact hs.sorted
  case lt =>
    intro k hk
    rw [turns, hturns]
    exact (hs.lt k hk).trans (Nat.lt_succ_self _)
  case thrice => exact hs.thrice
  case last =>
    intro n hn
    rw [turns, hturns] at hn
    cases hn
    rw [hnew, if_pos rfl, Nat.zero_add]
    exact Nat.add_le_add (Bool.toNat_le _) (Bool.toNat_le _)

theorem Sound.send (hs : Sound size random ks s) (hstored : s.phase = .stored) :
    Sound size random ks { s with pointed := true, pending := true, phase := .asleep } where
  between := by simp
  within := fun _ => hs.within (.inl hstored)
  taken := hs.taken
  percentage _ := hs.percentage (by simp [hstored])
  gone := by simp
  sent _ := by
    obtain ⟨n, hn, -⟩ := hs.within (.inl hstored)
    exact ⟨rfl, hn ▸ Nat.succ_pos n⟩
  called := hs.called
  printed := hs.printed
  sorted := hs.sorted
  lt := hs.lt
  thrice := hs.thrice
  last := by
    intro n hn
    have hlast := hs.last n hn
    rw [hstored, if_pos rfl] at hlast
    have hreading : s.reading.toNat ≤ 1 := Bool.toNat_le _
    simp only [Bool.toNat_true, reduceCtorEq, if_false]
    omega

theorem Sound.wake (hs : Sound size random ks s) (hasleep : s.phase = .asleep) :
    Sound size random ks (s.wake random) := by
  obtain ⟨n, hn, hwork, hfits⟩ := hs.within (.inr hasleep)
  rw [wake_midTurn hwork hfits]
  have hturns : (after size random (n + 1)).published.length = s.turns := by simp [after, hn]
  constructor
  case between =>
    intro _
    rw [turns, hturns, hn]
  case within => simp
  case taken =>
    rw [turns, hturns]
    exact hs.taken
  case percentage =>
    rw [turns, hturns]
    exact fun _ => hs.percentage (by simp [hasleep])
  case gone => simp
  case sent =>
    rw [turns, hturns]
    exact hs.sent
  case called =>
    rw [turns, hturns]
    exact hs.called
  case printed => exact hs.printed
  case sorted => exact hs.sorted
  case lt =>
    rw [turns, hturns]
    exact hs.lt
  case thrice => exact hs.thrice
  case last =>
    intro k hk
    rw [turns, hturns] at hk
    have hlast := hs.last k hk
    rw [hasleep] at hlast
    exact hlast

theorem Sound.leave (hs : Sound size random ks s) (hhead : s.phase = .head) :
    Sound size random ks { s with percentage := none, phase := .returned } where
  between := fun _ => hs.between (.inl hhead)
  within := by simp
  taken := hs.taken
  percentage := by simp
  gone := fun _ => rfl
  sent := hs.sent
  called := hs.called
  printed := hs.printed
  sorted := hs.sorted
  lt := hs.lt
  thrice := hs.thrice
  last := by
    intro n hn
    have hlast := hs.last n hn
    rw [hhead] at hlast
    exact hlast

/-! ### The callbacks of the loop -/

/-- What `progress_cb` finds when it is called. -/
theorem Sound.progressCb_eq (hs : Sound size random ks s) (hpending : s.pending = true) :
    s.progressCb 0 = .ok { s with pending := false, reading := true } := by
  unfold progressCb
  rw [(hs.sent hpending).1]
  rfl

/-- A call returns from `ifError` exactly if it gets none. -/
theorem Sound.progressCb_ok_iff (hs : Sound size random ks s) (hpending : s.pending = true)
    {status : ℤ} : s.progressCb status = .ok u ↔
      status = 0 ∧ u = { s with pending := false, reading := true } := by
  constructor
  · intro hok
    obtain ⟨_, hstatus, -⟩ := bind_ok_iff.mp hok
    obtain rfl := ifError_ok_iff.mp hstatus
    exact ⟨rfl, (Except.ok.inj ((hs.progressCb_eq hpending).symm.trans hok)).symm⟩
  · rintro ⟨rfl, rfl⟩
    exact hs.progressCb_eq hpending

/-- What `progress_cb` reads. -/
theorem Sound.read_eq (hs : Sound size random ks s) (hreading : s.reading = true)
    (hlive : s.phase ≠ .returned) : ∃ n, s.turns = n + 1 ∧
      s.read = .ok { s with
        reading := false
        stderr := s.stderr ++ [.downloaded (percentageAt size random n)] } := by
  obtain ⟨-, hpos⟩ := hs.called hreading
  obtain ⟨n, hn⟩ : ∃ n, s.turns = n + 1 := ⟨s.turns - 1, by omega⟩
  refine ⟨n, hn, ?_⟩
  unfold read
  rw [hs.percentage hlive n hn]
  rfl

/-- After `work_cb` has returned there is nothing to be read. -/
theorem Sound.read_ne (hs : Sound size random ks s) (hreturned : s.phase = .returned) :
    s.read ≠ .ok u := by
  intro hok
  obtain ⟨percentage, hread, -⟩ := bind_ok_iff.mp hok
  rw [deref_ok_iff, hs.gone hreturned] at hread
  cases hread

theorem Sound.progressCb (hs : Sound size random ks s) (hpending : s.pending = true)
    (hopen : s.closed = false) (hidle : s.reading = false) {status : ℤ}
    (hok : s.progressCb status = .ok u) : Sound size random ks u := by
  obtain ⟨rfl, rfl⟩ := (hs.progressCb_ok_iff hpending).mp hok
  constructor
  case between => exact hs.between
  case within => exact hs.within
  case taken => exact hs.taken
  case percentage => exact hs.percentage
  case gone => exact hs.gone
  case sent => simp
  case called => exact fun _ => ⟨hopen, (hs.sent hpending).2⟩
  case printed => exact hs.printed
  case sorted => exact hs.sorted
  case lt => exact hs.lt
  case thrice => exact hs.thrice
  case last =>
    intro n hn
    have hlast := hs.last n hn
    rw [hpending, hidle] at hlast
    exact hlast

theorem Sound.read (hs : Sound size random ks s) (hreading : s.reading = true)
    (hok : s.read = .ok u) : ∃ ks, Sound size random ks u := by
  have hlive : s.phase ≠ .returned := fun hreturned => hs.read_ne hreturned hok
  obtain ⟨n, hn, heq⟩ := hs.read_eq hreading hlive
  obtain rfl := Except.ok.inj (heq.symm.trans hok)
  have hlast := hs.last n hn
  rw [hreading, Bool.toNat_true] at hlast
  refine ⟨ks ++ [n], ?_⟩
  constructor
  case between => exact hs.between
  case within => exact hs.within
  case taken => exact hs.taken
  case percentage => exact hs.percentage
  case gone => exact hs.gone
  case sent => exact hs.sent
  case called => simp
  case printed =>
    rw [percentages, List.filterMap_append, List.map_append, ← hs.printed]
    rfl
  case sorted =>
    refine List.pairwise_append.mpr ⟨hs.sorted, List.pairwise_singleton _ _, ?_⟩
    intro k hk m hm
    have hlt := hs.lt k hk
    rw [List.mem_singleton.mp hm]
    omega
  case lt =>
    intro k hk
    rcases List.mem_append.mp hk with hold | hnew
    · exact hs.lt k hold
    · rw [List.mem_singleton.mp hnew]
      exact hn ▸ Nat.lt_succ_self n
  case thrice =>
    intro k
    rw [List.count_append]
    by_cases heq : k = n
    · rw [heq, List.count_singleton_self]
      have hbound : (if s.phase = .stored then 2 else 3) ≤ 3 := by split <;> omega
      omega
    · have hthrice := hs.thrice k
      rw [List.count_singleton, if_neg (by simpa using Ne.symm heq)]
      exact hthrice
  case last =>
    intro m hm
    obtain rfl : m = n := by
      have : s.turns = m + 1 := hm
      omega
    rw [List.count_append, List.count_singleton_self]
    simp only [Bool.toNat_false]
    omega

theorem Sound.afterWorkCb (hs : Sound size random ks s) (hidle : s.reading = false) {status : ℤ}
    (hok : s.afterWorkCb status = .ok u) : Sound size random ks u := by
  obtain ⟨_, -, hu⟩ := bind_ok_iff.mp hok
  cases hu
  constructor
  case between => exact hs.between
  case within => exact hs.within
  case taken => exact hs.taken
  case percentage => exact hs.percentage
  case gone => exact hs.gone
  case sent => exact hs.sent
  case called => exact fun hreading => absurd (hidle.symm.trans hreading) Bool.false_ne_true
  case printed =>
    rw [← hs.printed, percentages, List.filterMap_append]
    exact List.append_nil _
  case sorted => exact hs.sorted
  case lt => exact hs.lt
  case thrice => exact hs.thrice
  case last => exact hs.last

/-- **One event** keeps the invariant. -/
theorem Sound.step (hs : Sound size random ks s) {e : DownloadEvent}
    (he : (download size random).enabled s e) (hok : (download size random).dispatch s e = .ok u) :
    ∃ ks, Sound size random ks u := by
  cases e with
  | store => exact ⟨ks, hs.store he.1 he.2 hok⟩
  | send =>
    cases hok
    exact ⟨ks, hs.send he⟩
  | wake =>
    cases hok
    exact ⟨ks, hs.wake he⟩
  | leave =>
    cases hok
    exact ⟨ks, hs.leave he.1⟩
  | progressCb status => exact ⟨ks, hs.progressCb he.1 he.2.1 he.2.2 hok⟩
  | read => exact hs.read he hok
  | afterWorkCb status => exact ⟨ks, hs.afterWorkCb he.2.2 hok⟩

theorem sound_of_run {es : List DownloadEvent} (hrun : (download size random).Run init es s) :
    ∃ ks, Sound size random ks s :=
  hrun.invariant (P := fun s => ∃ ks, Sound size random ks s) ⟨[], init_sound⟩
    fun _ _ _ ⟨_, ht⟩ he hok => ht.step he hok

/-! ### A loop that is in time -/

/-- The last send was answered: its call of `progress_cb` has read the local. -/
def Answered (s : Download) : Prop := s.pending = false ∧ s.reading = false

instance (s : Download) : Decidable s.Answered :=
  inferInstanceAs (Decidable (_ ∧ _))

/-- `work_cb` does not wake up before its last send was answered. -/
def Prompt (s : Download) (e : DownloadEvent) : Prop := e = .wake → s.Answered

instance (s : Download) (e : DownloadEvent) : Decidable (Prompt s e) :=
  inferInstanceAs (Decidable (e = .wake → s.Answered))

/-- What was printed of the percentages stored so far. -/
def reported (s : Download) : ℕ :=
  if s.phase = .stored then s.turns - 1 else s.turns - s.pending.toNat - s.reading.toNat

/-- What is printed of the first `k` turns, and at the end. -/
def linesTo (size : ℕ) (random : Random) (k : ℕ) (closed : Bool) : List Line :=
  (List.range k).map (fun i => .downloaded (percentageAt size random i)) ++
    if closed then [.complete] else []

/-- A send is answered in the `sleep` that follows it, and everything before it was printed. -/
structure InTime (size : ℕ) (random : Random) (s : Download) : Prop where
  answered : s.phase ≠ .asleep → s.Answered
  once : s.pending = true → s.reading = false
  closed : s.closed = true → s.phase = .returned
  stderr : s.stderr = linesTo size random s.reported s.closed

theorem init_inTime : InTime size random init where
  answered := fun _ => ⟨rfl, rfl⟩
  once := by simp [init]
  closed := by simp [init]
  stderr := rfl

theorem InTime.open (ht : InTime size random s) (hlive : s.phase ≠ .returned) :
    s.closed = false := by
  by_contra hclosed
  exact hlive (ht.closed (by simpa using hclosed))

/-- The thread goes on to where as much was printed as before. -/
theorem InTime.of_same (ht : InTime size random s) (hlive : s.phase ≠ .returned)
    (hanswered : u.phase ≠ .asleep → u.Answered) (honce : u.pending = true → u.reading = false)
    (hclosed : u.closed = s.closed) (hstderr : u.stderr = s.stderr)
    (hreported : u.reported = s.reported) : InTime size random u where
  answered := hanswered
  once := honce
  closed hc := by
    rw [hclosed, ht.open hlive] at hc
    cases hc
  stderr := by rw [hstderr, hreported, hclosed, ht.stderr]

/-- A callback in time comes in the `sleep`. -/
theorem InTime.asleep (ht : InTime size random s) (hdue : ¬ s.Answered) : s.phase = .asleep := by
  by_contra hne
  exact hdue (ht.answered hne)

/-- **One event** in time. -/
theorem InTime.step (ht : InTime size random s) (hs : Sound size random ks s) {e : DownloadEvent}
    (he : ((download size random).restrict Prompt).enabled s e)
    (hok : (download size random).dispatch s e = .ok u) : InTime size random u := by
  obtain ⟨he, hprompt⟩ := he
  cases e with
  | store =>
    obtain ⟨hhead, -⟩ := he
    obtain ⟨-, rfl⟩ := store_after (hs.between (.inl hhead)) hok
    have hidle := ht.answered (by simp [hhead])
    refine ht.of_same (by simp [hhead]) (fun _ => hidle) ht.once rfl rfl ?_
    simp [reported, turns, midTurn, hhead, hidle.1, hidle.2]
  | send =>
    cases hok
    have hstored : s.phase = .stored := he
    have hidle := ht.answered (by simp [hstored])
    refine ht.of_same (by simp [hstored]) (fun hne => absurd rfl hne) (fun _ => hidle.2) rfl rfl ?_
    simp [reported, turns, hstored, hidle.2]
  | wake =>
    cases hok
    have hasleep : s.phase = .asleep := he
    have hidle : s.Answered := hprompt rfl
    refine ht.of_same (u := s.wake random) (by simp [hasleep]) (fun _ => hidle) ht.once rfl rfl ?_
    simp [reported, turns, wake, hasleep, hidle.1, hidle.2]
  | leave =>
    cases hok
    have hhead : s.phase = .head := he.1
    have hidle := ht.answered (by simp [hhead])
    refine ht.of_same (by simp [hhead]) (fun _ => hidle) ht.once rfl rfl ?_
    simp [reported, turns, hhead]
  | progressCb status =>
    obtain ⟨hpending, -, hidle⟩ := he
    have hasleep : s.phase = .asleep := ht.asleep (fun h => by simp [h.1] at hpending)
    obtain ⟨rfl, rfl⟩ := (hs.progressCb_ok_iff hpending).mp hok
    refine ht.of_same (by simp [hasleep]) (fun hne => absurd hasleep hne) (by simp) rfl rfl ?_
    simp [reported, turns, hasleep, hpending, hidle]
  | read =>
    have hreading : s.reading = true := he
    have hasleep : s.phase = .asleep := ht.asleep (fun h => by simp [h.2] at hreading)
    have hsent : s.pending = false := by
      by_contra hpending
      rw [ht.once (by simpa using hpending)] at hreading
      cases hreading
    have hlive : s.phase ≠ .returned := by simp [hasleep]
    obtain ⟨n, hn, heq⟩ := hs.read_eq hreading hlive
    obtain rfl := Except.ok.inj (heq.symm.trans hok)
    have hbefore : s.reported = n := by simp [reported, hasleep, hsent, hreading, hn]
    have hafter : reported { s with
        reading := false
        stderr := s.stderr ++ [.downloaded (percentageAt size random n)] } = n + 1 := by
      simpa [reported, turns, hasleep, hsent] using hn
    refine ⟨fun hne => absurd hasleep hne, fun _ => rfl, fun hc => ht.closed hc, ?_⟩
    rw [hafter, ht.stderr, hbefore, ht.open hlive]
    simp [linesTo, List.range_succ]
  | afterWorkCb status =>
    obtain ⟨hreturned, hopen, -⟩ := he
    obtain ⟨_, -, hu⟩ := bind_ok_iff.mp hok
    cases hu
    refine ⟨ht.answered, ht.once, fun _ => hreturned, ?_⟩
    rw [ht.stderr, hopen]
    exact List.append_assoc _ _ _

/-! ### After `work_cb` has returned -/

/-- `work_cb` has returned, and no call of `progress_cb` is in progress or to come. -/
structure Over (s : Download) : Prop where
  returned : s.phase = .returned
  idle : s.reading = false
  closed : s.pending = true → s.closed = true

theorem Over.step (ho : Over s) {e : DownloadEvent} (he : (download size random).enabled s e)
    (hok : (download size random).dispatch s e = .ok u) : Over u := by
  have hreturned := ho.returned
  cases e with
  | store => exact absurd (hreturned.symm.trans he.1) (by decide)
  | send => exact absurd (hreturned.symm.trans he) (by decide)
  | wake => exact absurd (hreturned.symm.trans he) (by decide)
  | leave => exact absurd (hreturned.symm.trans he.1) (by decide)
  | progressCb status => exact absurd ((ho.closed he.1).symm.trans he.2.1) (by decide)
  | read => exact absurd (ho.idle.symm.trans he) (by decide)
  | afterWorkCb status =>
    obtain ⟨_, -, hu⟩ := bind_ok_iff.mp hok
    cases hu
    exact ⟨hreturned, ho.idle, fun _ => rfl⟩

/-- `work_cb` has returned during a call of `progress_cb`, which is yet to read the local. -/
structure Caught (s : Download) : Prop where
  returned : s.phase = .returned
  reading : s.reading = true

theorem Caught.step (hc : Caught s) (hs : Sound size random ks s) {e : DownloadEvent}
    (he : (download size random).enabled s e)
    (hok : (download size random).dispatch s e = .ok u) : Caught u := by
  have hreturned := hc.returned
  cases e with
  | store => exact absurd (hreturned.symm.trans he.1) (by decide)
  | send => exact absurd (hreturned.symm.trans he) (by decide)
  | wake => exact absurd (hreturned.symm.trans he) (by decide)
  | leave => exact absurd (hreturned.symm.trans he.1) (by decide)
  | progressCb status => exact absurd (he.2.2.symm.trans hc.reading) (by decide)
  | read => exact absurd hok (hs.read_ne hreturned)
  | afterWorkCb status => exact absurd (he.2.2.symm.trans hc.reading) (by decide)

end

end Download

/-! ### Every run -/

open Download

variable {size : ℕ} {random : Random} {es : List DownloadEvent} {s : Download}

theorem percentageAt_mono {k m : ℕ} (h : k ≤ m) :
    percentageAt size random k ≤ percentageAt size random m :=
  Nat.cast_le.mpr (Nat.div_le_div_right (Nat.mul_le_mul_left 100 (total_mono random h)))

/-- A percentage that is published is less than 100. -/
theorem percentageAt_le {k : ℕ} (h : total random k < size) :
    0 ≤ percentageAt size random k ∧ percentageAt size random k ≤ 99 := by
  have hlt : 100 * total random k / size < 100 :=
    Nat.div_lt_of_lt_mul (by rw [Nat.mul_comm size]; omega)
  unfold percentageAt
  exact ⟨Int.natCast_nonneg _, by exact_mod_cast Nat.le_of_lt_succ hlt⟩

/-- Every draw is 300, so that a turn adds 500. -/
def steady : Random := ⟨fun _ => 300, fun _ => by decide⟩

/-- **The order of the percentages.**  Whatever the thread and the loop do when, the percentages
that were printed are those of turns that have come to pass, in order and each at most three times;
so they grow, from 0 to 99. -/
theorem percentages_of_run (hrun : (download size random).Run init es s) :
    (∃ ks : List ℕ, ks.Pairwise (· ≤ ·) ∧ (∀ k, ks.count k ≤ 3) ∧
        (∀ k ∈ ks, k < s.work.published.length) ∧
        s.percentages = ks.map (percentageAt size random)) ∧
      s.percentages.Pairwise (· ≤ ·) ∧ ∀ p ∈ s.percentages, 0 ≤ p ∧ p ≤ 99 := by
  obtain ⟨ks, hs⟩ := sound_of_run hrun
  refine ⟨⟨ks, hs.sorted, hs.thrice, hs.lt, hs.printed⟩, ?_, ?_⟩
  · rw [hs.printed]
    exact List.pairwise_map.mpr (hs.sorted.imp percentageAt_mono)
  · intro p hp
    rw [hs.printed] at hp
    obtain ⟨k, hk, rfl⟩ := List.mem_map.mp hp
    exact percentageAt_le (hs.taken k (hs.lt k hk))

/-- The call for the first send is still to read, and the second send is pending, when the third
turn stores its percentage: it is printed three times, and the other two are lost. -/
theorem percentages_of_run_thrice : ∃ es s, (download (1024 : ℕ) steady).Run init es s ∧
    s.percentages = [97, 97, 97] ∧
    (∃ ks : List ℕ, ks.Pairwise (· ≤ ·) ∧ (∀ k, ks.count k ≤ 3) ∧
        (∀ k ∈ ks, k < s.work.published.length) ∧
        s.percentages = ks.map (percentageAt 1024 steady)) ∧
      s.percentages.Pairwise (· ≤ ·) ∧ ∀ p ∈ s.percentages, 0 ≤ p ∧ p ≤ 99 := by
  obtain ⟨s, hrun, hprinted⟩ := EventLoop.exists_run_of_plays
    (show ((download (1024 : ℕ) steady).plays init
        [.store, .send, .progressCb 0, .wake, .store, .send, .wake, .store,
          .read, .progressCb 0, .read, .send, .progressCb 0, .read]).any
      (fun s => s.percentages == [97, 97, 97]) = true by decide +kernel)
  exact ⟨_, s, hrun, eq_of_beq hprinted, percentages_of_run hrun⟩

/-- **A prompt loop.**  If every send is answered before `work_cb` wakes up again, no call of
`progress_cb` comes too late, to begin or to read, and when the loop ends every percentage was
printed once. -/
theorem printed_of_prompt (hrun : ((download size random).restrict Prompt).Run init es s) :
    (∀ e, e = .read ∨ (∃ status, e = .progressCb status) →
        (download size random).enabled s e → s.phase ≠ .returned) ∧
      (s.closed = true → s.stderr = s.work.published.map .downloaded ++ [.complete]) := by
  have hboth : (∃ ks, Sound size random ks s) ∧ InTime size random s :=
    hrun.invariant (P := fun s => (∃ ks, Sound size random ks s) ∧ InTime size random s)
      ⟨⟨[], init_sound⟩, init_inTime⟩
      fun _ _ _ ⟨⟨_, ht⟩, hin⟩ he hok => ⟨ht.step he.1 hok, hin.step ht he hok⟩
  obtain ⟨⟨ks, hs⟩, hin⟩ := hboth
  refine ⟨fun e hcallback he hreturned => ?_, fun hclosed => ?_⟩
  · have hidle := hin.answered (by simp [hreturned])
    rcases hcallback with rfl | ⟨status, rfl⟩
    · exact Bool.false_ne_true (hidle.2.symm.trans he)
    · exact Bool.false_ne_true (hidle.1.symm.trans he.1)
  · have hreturned := hin.closed hclosed
    have hidle := hin.answered (by simp [hreturned])
    have hpublished : s.work.published = (List.range s.turns).map (percentageAt size random) := by
      rw [hs.between (.inr hreturned)]
      rfl
    rw [hin.stderr, hclosed, reported, hreturned, hidle.1, hidle.2, hpublished]
    simp [linesTo]

/-- A download in three turns. -/
theorem printed_of_prompt_threeTurns :
    ∃ es s, ((download (1024 : ℕ) steady).restrict Prompt).Run init es s ∧
      s.stderr = [.downloaded 0, .downloaded 48, .downloaded 97, .complete] ∧
      (∀ e, e = .read ∨ (∃ status, e = .progressCb status) →
        (download (1024 : ℕ) steady).enabled s e → s.phase ≠ .returned) ∧
      (s.closed = true → s.stderr = s.work.published.map .downloaded ++ [.complete]) := by
  obtain ⟨s, hrun, hprinted⟩ := EventLoop.exists_run_of_plays
    (show (((download (1024 : ℕ) steady).restrict Prompt).plays init
        [.store, .send, .progressCb 0, .read, .wake, .store, .send, .progressCb 0, .read, .wake,
          .store, .send, .progressCb 0, .read, .wake, .leave, .afterWorkCb 0]).any
      (fun s => s.stderr == [.downloaded 0, .downloaded 48, .downloaded 97, .complete]) = true by
        decide +kernel)
  exact ⟨_, s, hrun, eq_of_beq hprinted, printed_of_prompt hrun⟩

end LibuvDox.Progress
