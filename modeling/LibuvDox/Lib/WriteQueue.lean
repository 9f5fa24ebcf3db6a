import LibuvDox.Lib.Heap

/-!
# Streams that blocks of memory are written to

A write hands a stream the address of a block and is called back when the bytes have gone out;
until then the block must stay as it is.  Each stream keeps its writes in order.  `Intact` says for
all the streams over one heap that it is so: what has gone out and what is pending make up all that
was handed over, every pending write finds its bytes in its block, and no block is used by two
writes, so the one that is freed when a write is called back is used by no other.

* `Intact.submit`, `Intact.complete`: a write of a block that no write uses, and the callback of
  the oldest write of a stream.
* `Intact.alloc`, `Intact.set`, `Intact.free`: the rest of the heap is of no concern.
* `AllUsed`: no block is left over that no write uses; what each operation makes of that.
* `AllUsedOr keep`: the same, but for some blocks that the program keeps for itself.
* `inFlight_update`: how many bytes are pending on some streams, when one of them changes.
-/

namespace LibuvDox

/-- A write under way: the block, and the bytes it held when it was handed over. -/
structure WriteOut (α : Type*) where
  base : ℕ
  sent : List α
  deriving DecidableEq, Repr

/-- A stream: the writes not called back, oldest first, all that was handed over, and what has
gone out. -/
structure WriteQueue (α : Type*) where
  pending : List (WriteOut α)
  submitted : List α
  arrived : List α
  deriving DecidableEq, Repr

namespace WriteQueue

variable {α ι : Type*}

/-- Nothing was written to the stream yet. -/
def empty : WriteQueue α := ⟨[], [], []⟩

/-- Hand over a block. -/
def submit (q : WriteQueue α) (w : WriteOut α) : WriteQueue α :=
  { q with pending := q.pending ++ [w], submitted := q.submitted ++ w.sent }

/-- The oldest write has gone out, with what it found in its block. -/
def complete (q : WriteQueue α) (bytes : List α) : WriteQueue α :=
  { q with pending := q.pending.tail, arrived := q.arrived ++ bytes }

/-- No pending write uses the block `p`. -/
def Unused (q : ι → WriteQueue α) (p : ℕ) : Prop := ∀ i, ∀ w ∈ (q i).pending, w.base ≠ p

/-- Every pending write of every stream will find what was handed over. -/
structure Intact (q : ι → WriteQueue α) (h : Heap (List α)) : Prop where
  conserved : ∀ i, (q i).submitted = (q i).arrived ++ (q i).pending.flatMap WriteOut.sent
  held : ∀ i, ∀ w ∈ (q i).pending, ∃ block, h.get? w.base = some block ∧ w.sent <+: block
  once : ∀ i, ((q i).pending.map WriteOut.base).Nodup
  apart : ∀ i j, i ≠ j → ∀ w ∈ (q i).pending, ∀ v ∈ (q j).pending, w.base ≠ v.base

theorem intact_empty (h : Heap (List α)) : Intact (fun _ : ι => empty) h where
  conserved := fun _ => rfl
  held := by simp [empty]
  once := by simp [empty]
  apart := by simp [empty]

section

variable {q : ι → WriteQueue α} {h : Heap (List α)}

/-- A block that is allocated now is used by no write. -/
theorem Intact.unused_next (hq : Intact q h) : Unused q h.next := by
  intro i w hw heq
  obtain ⟨block, hblock, -⟩ := hq.held i w hw
  rw [heq, Heap.get?_next] at hblock
  cases hblock

/-- The heap may change wherever no pending write looks. -/
theorem Intact.of_heap (hq : Intact q h) {h' : Heap (List α)}
    (hsame : ∀ i, ∀ w ∈ (q i).pending, h'.get? w.base = h.get? w.base) : Intact q h' where
  conserved := hq.conserved
  held i w hw := by
    rw [hsame i w hw]
    exact hq.held i w hw
  once := hq.once
  apart := hq.apart

theorem Intact.alloc (hq : Intact q h) (block : List α) : Intact q (h.alloc block) := by
  refine hq.of_heap fun i w hw => ?_
  rw [Heap.get?_alloc, if_neg (hq.unused_next i w hw)]

theorem Intact.set (hq : Intact q h) {p : ℕ} (hp : Unused q p) (block : List α) :
    Intact q (h.set p block) := by
  refine hq.of_heap fun i w hw => ?_
  rw [Heap.get?_set_of_ne _ _ (hp i w hw)]

theorem Intact.free (hq : Intact q h) {p : ℕ} (hp : Unused q p) : Intact q (h.free p) := by
  refine hq.of_heap fun i w hw => ?_
  rw [Heap.get?_free_of_ne _ (hp i w hw)]

variable [DecidableEq ι]

theorem mem_pending_submit {i j : ι} {w v : WriteOut α}
    (hv : v ∈ ((Function.update q i ((q i).submit w)) j).pending) :
    v ∈ (q j).pending ∨ j = i ∧ v = w := by
  by_cases hj : j = i
  · subst hj
    rw [Function.update_self] at hv
    rcases List.mem_append.mp hv with hv | hv
    · exact .inl hv
    · exact .inr ⟨rfl, List.mem_singleton.mp hv⟩
  · rw [Function.update_of_ne hj] at hv
    exact .inl hv

/-- **Submitting.**  A block that no write uses is handed over. -/
theorem Intact.submit (hq : Intact q h) (i : ι) {w : WriteOut α} {block : List α}
    (hp : Unused q w.base) (hblock : h.get? w.base = some block) (hsent : w.sent <+: block) :
    Intact (Function.update q i ((q i).submit w)) h where
  conserved j := by
    by_cases hj : j = i
    · subst hj
      rw [Function.update_self]
      simp only [WriteQueue.submit, List.flatMap_append, List.flatMap_cons, List.flatMap_nil,
        List.append_nil, ← List.append_assoc, hq.conserved j]
    · rw [Function.update_of_ne hj]
      exact hq.conserved j
  held j v hv := by
    rcases mem_pending_submit hv with hv | ⟨-, rfl⟩
    · exact hq.held j v hv
    · exact ⟨block, hblock, hsent⟩
  once j := by
    by_cases hj : j = i
    · subst hj
      rw [Function.update_self]
      show ((q j).pending ++ [w]).map WriteOut.base |>.Nodup
      rw [List.map_append, List.nodup_append]
      refine ⟨hq.once j, List.nodup_singleton _, ?_⟩
      intro b hb c hc
      obtain ⟨v, hv, rfl⟩ := List.mem_map.mp hb
      obtain rfl := List.mem_singleton.mp hc
      exact hp j v hv
    · rw [Function.update_of_ne hj]
      exact hq.once j
  apart j k hjk v hv v' hv' := by
    rcases mem_pending_submit hv with hold | ⟨rfl, rfl⟩
    · rcases mem_pending_submit hv' with hold' | ⟨rfl, rfl⟩
      · exact hq.apart j k hjk v hold v' hold'
      · exact hp j v hold
    · rcases mem_pending_submit hv' with hold' | ⟨rfl, rfl⟩
      · exact (hp k v' hold').symm
      · exact absurd rfl hjk

theorem mem_pending_complete {i j : ι} {bytes : List α} {v : WriteOut α}
    (hv : v ∈ ((Function.update q i ((q i).complete bytes)) j).pending) : v ∈ (q j).pending := by
  by_cases hj : j = i
  · subst hj
    rw [Function.update_self] at hv
    exact List.mem_of_mem_tail hv
  · rw [Function.update_of_ne hj] at hv
    exact hv

/-- **Completing.**  The oldest write of a stream finds in its block what was handed over, and once
it is called back its block is used by no write any more. -/
theorem Intact.complete (hq : Intact q h) {i : ι} {w : WriteOut α} {ws : List (WriteOut α)}
    (hi : (q i).pending = w :: ws) :
    (∃ block, h.get? w.base = some block ∧ block.take w.sent.length = w.sent) ∧
      Intact (Function.update q i ((q i).complete w.sent)) h ∧
      Unused (Function.update q i ((q i).complete w.sent)) w.base := by
  have hmem : w ∈ (q i).pending := by simp [hi]
  obtain ⟨block, hblock, hsent⟩ := hq.held i w hmem
  refine ⟨⟨block, hblock, (List.prefix_iff_eq_take.mp hsent).symm⟩, ⟨?_, ?_, ?_, ?_⟩, ?_⟩
  · intro j
    by_cases hj : j = i
    · subst hj
      rw [Function.update_self]
      have := hq.conserved j
      rw [hi, List.flatMap_cons, ← List.append_assoc] at this
      simp only [WriteQueue.complete, hi, List.tail_cons]
      exact this
    · rw [Function.update_of_ne hj]
      exact hq.conserved j
  · exact fun j v hv => hq.held j v (mem_pending_complete hv)
  · intro j
    by_cases hj : j = i
    · subst hj
      rw [Function.update_self]
      have := hq.once j
      rw [hi, List.map_cons] at this
      simp only [WriteQueue.complete, hi, List.tail_cons]
      exact (List.nodup_cons.mp this).2
    · rw [Function.update_of_ne hj]
      exact hq.once j
  · exact fun j k hjk v hv v' hv' =>
      hq.apart j k hjk v (mem_pending_complete hv) v' (mem_pending_complete hv')
  · intro j v hv
    by_cases hj : j = i
    · subst hj
      rw [Function.update_self] at hv
      have hnodup := hq.once j
      rw [hi, List.map_cons, List.nodup_cons] at hnodup
      simp only [WriteQueue.complete, hi, List.tail_cons] at hv
      intro heq
      exact hnodup.1 (List.mem_map.mpr ⟨v, hv, heq⟩)
    · exact hq.apart j i hj v (mem_pending_complete hv) w hmem

end

/-! ### Blocks left over -/

/-- Every block is used by a pending write. -/
def AllUsed (q : ι → WriteQueue α) (h : Heap (List α)) : Prop :=
  ∀ p block, h.get? p = some block → ∃ i, ∃ w ∈ (q i).pending, w.base = p

theorem allUsed_empty : AllUsed (fun _ : ι => empty) (.empty : Heap (List α)) := by
  simp [AllUsed]

section

variable {q : ι → WriteQueue α} {h : Heap (List α)}

/-- Once nothing is pending, no block is left. -/
theorem allUsed_iff_of_idle (hidle : ∀ i, (q i).pending = []) :
    AllUsed q h ↔ ∀ p, h.get? p = none := by
  constructor
  · intro hall p
    by_contra hne
    obtain ⟨block, hblock⟩ := Option.ne_none_iff_exists'.mp hne
    obtain ⟨i, w, hw, -⟩ := hall p block hblock
    rw [hidle i] at hw
    cases hw
  · intro hnone p block hp
    rw [hnone p] at hp
    cases hp

theorem allUsed_congr {h' : Heap (List α)} (hsame : ∀ p, h'.get? p = h.get? p) :
    AllUsed q h' ↔ AllUsed q h := by
  simp only [AllUsed, hsame]

/-- A block that came and went. -/
theorem allUsed_alloc_free_iff (block : List α) :
    AllUsed q ((h.alloc block).free h.next) ↔ AllUsed q h :=
  allUsed_congr (h.get?_alloc_free block)

/-- A block that is neither written nor freed is left over. -/
theorem Intact.not_allUsed_alloc (hq : Intact q h) (block : List α) :
    ¬ AllUsed q (h.alloc block) := by
  intro hall
  obtain ⟨i, w, hw, hbase⟩ := hall h.next block (h.get?_alloc_next block)
  exact hq.unused_next i w hw hbase

variable [DecidableEq ι]

/-- A new block is handed over. -/
theorem allUsed_alloc_submit_iff (i : ι) (block sent : List α) :
    AllUsed (Function.update q i ((q i).submit ⟨h.next, sent⟩)) (h.alloc block) ↔
      AllUsed q h := by
  constructor
  · intro hall p b hp
    obtain ⟨j, w, hw, rfl⟩ := hall p b (Heap.get?_alloc_of_live hp block)
    rcases mem_pending_submit hw with hw | ⟨-, rfl⟩
    · exact ⟨j, w, hw, rfl⟩
    · exact absurd (Heap.lt_next hp) (lt_irrefl h.next)
  · intro hall p b hp
    rcases Heap.alloc_cases hp with ⟨rfl, -⟩ | hp
    · refine ⟨i, ⟨h.next, sent⟩, ?_, rfl⟩
      rw [Function.update_self]
      exact List.mem_append_right _ (List.mem_singleton_self _)
    · obtain ⟨j, w, hw, hbase⟩ := hall p b hp
      refine ⟨j, w, ?_, hbase⟩
      by_cases hj : j = i
      · subst hj
        rw [Function.update_self]
        exact List.mem_append_left _ hw
      · rwa [Function.update_of_ne hj]

/-- The oldest write of a stream is called back, and its block is freed. -/
theorem allUsed_complete_free_iff {i : ι} {w : WriteOut α} {ws : List (WriteOut α)}
    (hi : (q i).pending = w :: ws) (bytes : List α) :
    AllUsed (Function.update q i ((q i).complete bytes)) (h.free w.base) ↔ AllUsed q h := by
  constructor
  · intro hall p b hp
    by_cases hbase : p = w.base
    · exact ⟨i, w, by simp [hi], hbase.symm⟩
    · rw [← Heap.get?_free_of_ne h hbase] at hp
      obtain ⟨j, v, hv, hvp⟩ := hall p b hp
      exact ⟨j, v, mem_pending_complete hv, hvp⟩
  · intro hall p b hp
    obtain ⟨hne, hp⟩ := Heap.free_cases hp
    obtain ⟨j, v, hv, rfl⟩ := hall p b hp
    refine ⟨j, v, ?_, rfl⟩
    by_cases hj : j = i
    · subst hj
      rw [hi] at hv
      rw [Function.update_self, complete, hi]
      rcases List.mem_cons.mp hv with rfl | hv
      · exact absurd rfl hne
      · exact hv
    · rwa [Function.update_of_ne hj]

end

/-! ### Blocks that are kept -/

/-- Every block is kept by the program, or used by a pending write. -/
def AllUsedOr (keep : ℕ → Prop) (q : ι → WriteQueue α) (h : Heap (List α)) : Prop :=
  ∀ p block, h.get? p = some block → keep p ∨ ∃ i, ∃ w ∈ (q i).pending, w.base = p

section

variable {keep keep' : ℕ → Prop} {q : ι → WriteQueue α} {h : Heap (List α)}

theorem allUsedOr_empty : AllUsedOr keep (fun _ : ι => empty) (.empty : Heap (List α)) := by
  simp [AllUsedOr]

theorem AllUsedOr.mono (hall : AllUsedOr keep q h) (hkeep : ∀ p, keep p → keep' p) :
    AllUsedOr keep' q h := by
  intro p block hp
  rcases hall p block hp with hk | hw
  · exact .inl (hkeep p hk)
  · exact .inr hw

/-- A new block is kept. -/
theorem AllUsedOr.alloc (hall : AllUsedOr keep q h) (block : List α) :
    AllUsedOr (fun p => keep p ∨ p = h.next) q (h.alloc block) := by
  intro p b hp
  rcases Heap.alloc_cases hp with ⟨rfl, -⟩ | hp
  · exact .inl (.inr rfl)
  · rcases hall p b hp with hk | hw
    · exact .inl (.inl hk)
    · exact .inr hw

/-- A block that is there is written. -/
theorem AllUsedOr.set (hall : AllUsedOr keep q h) {p : ℕ} {block : List α}
    (hblock : h.get? p = some block) (new : List α) : AllUsedOr keep q (h.set p new) := by
  intro p' b hp
  rcases Heap.set_cases hblock hp with ⟨rfl, -⟩ | ⟨-, hp⟩
  · exact hall p' block hblock
  · exact hall p' b hp

/-- A block that was kept is freed. -/
theorem AllUsedOr.free (hall : AllUsedOr keep q h) {p : ℕ}
    (hkeep : ∀ p', p' ≠ p → keep p' → keep' p') : AllUsedOr keep' q (h.free p) := by
  intro p' b hp
  obtain ⟨hne, hp⟩ := Heap.free_cases hp
  rcases hall p' b hp with hk | hw
  · exact .inl (hkeep p' hne hk)
  · exact .inr hw

variable [DecidableEq ι]

/-- A new block is handed over. -/
theorem AllUsedOr.alloc_submit (hall : AllUsedOr keep q h) (i : ι) (block sent : List α) :
    AllUsedOr keep (Function.update q i ((q i).submit ⟨h.next, sent⟩)) (h.alloc block) := by
  intro p b hp
  rcases Heap.alloc_cases hp with ⟨rfl, -⟩ | hp
  · refine .inr ⟨i, ⟨h.next, sent⟩, ?_, rfl⟩
    rw [Function.update_self]
    exact List.mem_append_right _ (List.mem_singleton_self _)
  · rcases hall p b hp with hk | ⟨j, w, hw, hbase⟩
    · exact .inl hk
    · refine .inr ⟨j, w, ?_, hbase⟩
      by_cases hj : j = i
      · subst hj
        rw [Function.update_self]
        exact List.mem_append_left _ hw
      · rwa [Function.update_of_ne hj]

/-- The oldest write of a stream is called back, and its block is freed. -/
theorem AllUsedOr.complete_free (hall : AllUsedOr keep q h) {i : ι} {w : WriteOut α}
    {ws : List (WriteOut α)} (hi : (q i).pending = w :: ws) (bytes : List α) :
    AllUsedOr keep (Function.update q i ((q i).complete bytes)) (h.free w.base) := by
  intro p b hp
  obtain ⟨hne, hp⟩ := Heap.free_cases hp
  rcases hall p b hp with hk | ⟨j, v, hv, rfl⟩
  · exact .inl hk
  · refine .inr ⟨j, v, ?_, rfl⟩
    by_cases hj : j = i
    · subst hj
      rw [hi] at hv
      rw [Function.update_self, complete, hi]
      rcases List.mem_cons.mp hv with rfl | hv
      · exact absurd rfl hne
      · exact hv
    · rwa [Function.update_of_ne hj]

end

/-! ### The bytes under way -/

/-- How many bytes of a stream are pending. -/
def bytesOut (q : WriteQueue α) : ℕ := (q.pending.flatMap WriteOut.sent).length

@[simp] theorem bytesOut_submit (q : WriteQueue α) (w : WriteOut α) :
    (q.submit w).bytesOut = q.bytesOut + w.sent.length := by
  simp [bytesOut, submit]

theorem bytesOut_complete {q : WriteQueue α} {w : WriteOut α} {ws : List (WriteOut α)}
    (hq : q.pending = w :: ws) (bytes : List α) :
    (q.complete bytes).bytesOut + w.sent.length = q.bytesOut := by
  simp [bytesOut, complete, hq]
  omega

theorem length_le_bytesOut {q : WriteQueue α} {w : WriteOut α} (hw : w ∈ q.pending) :
    w.sent.length ≤ q.bytesOut := by
  obtain ⟨l, r, hlr⟩ := List.append_of_mem hw
  simp only [bytesOut, hlr, List.flatMap_append, List.flatMap_cons, List.length_append]
  omega

theorem bytesOut_eq_zero_iff {q : WriteQueue α} (hsent : ∀ w ∈ q.pending, w.sent ≠ []) :
    q.bytesOut = 0 ↔ q.pending = [] := by
  cases hq : q.pending with
  | nil => simp [bytesOut, hq]
  | cons w ws =>
    have hw : w.sent ≠ [] := hsent w (by simp [hq])
    simp [bytesOut, hq, hw]

/-- How many bytes of some streams are pending. -/
def inFlight (streams : Finset ι) (q : ι → WriteQueue α) : ℕ := ∑ i ∈ streams, (q i).bytesOut

variable {streams : Finset ι} {q : ι → WriteQueue α}

theorem bytesOut_le_inFlight {i : ι} (hi : i ∈ streams) :
    (q i).bytesOut ≤ inFlight streams q :=
  Finset.single_le_sum (f := fun i => (q i).bytesOut) (fun _ _ => Nat.zero_le _) hi

theorem inFlight_eq_zero_iff (hsent : ∀ i ∈ streams, ∀ w ∈ (q i).pending, w.sent ≠ []) :
    inFlight streams q = 0 ↔ ∀ i ∈ streams, (q i).pending = [] := by
  rw [inFlight, Finset.sum_eq_zero_iff]
  exact forall₂_congr fun i hi => bytesOut_eq_zero_iff (hsent i hi)

/-- What is pending on one stream changes. -/
theorem inFlight_update [DecidableEq ι] {i : ι} (hi : i ∈ streams) (q' : WriteQueue α) :
    inFlight streams (Function.update q i q') + (q i).bytesOut
      = inFlight streams q + q'.bytesOut := by
  have hrest : ∑ j ∈ streams.erase i, (Function.update q i q' j).bytesOut
      = ∑ j ∈ streams.erase i, (q j).bytesOut := by
    refine Finset.sum_congr rfl fun j hj => ?_
    rw [Function.update_of_ne (Finset.ne_of_mem_erase hj)]
  have hnew := Finset.add_sum_erase streams (fun j => (Function.update q i q' j).bytesOut) hi
  have hold := Finset.add_sum_erase streams (fun j => (q j).bytesOut) hi
  simp only [Function.update_self, hrest] at hnew
  unfold inFlight
  omega

end WriteQueue

end LibuvDox
