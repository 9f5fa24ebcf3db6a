import Mathlib.Tactic

/-!
# A pool of threads

Requests are queued, and threads take them in the order of the queue.  When a thread is done with
its request, the one who queued it is called back, in any order.  A request that no thread has
taken can be cancelled: it leaves the queue, and it is called back all the same.

* `WorkPool.Accounts`: the invariant.  Every request is in one place, and the requests that were
  taken are those that are being worked on or were completed.
* `Accounts.take`, `Accounts.finish`, `Accounts.cancel`, `Accounts.callBack`: every operation keeps
  it.
* `Accounts.notBoth`: no request that was cancelled was taken.
* `mem_settled_cancel`, `Accounts.mem_queue_cancel`: what a cancellation changes.
-/

namespace LibuvDox

/-- How a request ended. -/
inductive Outcome where
  | completed
  | cancelled
  deriving DecidableEq, Repr

/-- The requests in the queue, those that threads have taken, in order, those that threads are
working on, those whose callback is due, and those that were called back. -/
structure WorkPool (ι : Type*) where
  queue : List ι
  taken : List ι
  working : List ι
  due : List (ι × Outcome)
  calledBack : List (ι × Outcome)
  deriving DecidableEq, Repr

namespace WorkPool

variable {ι : Type*}

/-- No request yet. -/
def empty : WorkPool ι := ⟨[], [], [], [], []⟩

/-- A request is queued. -/
def submit (p : WorkPool ι) (i : ι) : WorkPool ι := { p with queue := p.queue ++ [i] }

/-- A thread takes the oldest request. -/
def take (p : WorkPool ι) : WorkPool ι :=
  match p.queue with
  | [] => p
  | i :: q => { p with queue := q, taken := p.taken ++ [i], working := p.working ++ [i] }

/-- The requests that are over. -/
def settled (p : WorkPool ι) : List (ι × Outcome) := p.due ++ p.calledBack

/-- The requests that ended in one way. -/
def endedAs (o : Outcome) (l : List (ι × Outcome)) : List ι :=
  (l.filter fun x => x.2 = o).map Prod.fst

/-- Every request, wherever it is. -/
def parts (p : WorkPool ι) : List ι := p.queue ++ p.working ++ p.settled.map Prod.fst

section

variable [DecidableEq ι]

/-- A thread is done with its request. -/
def finish (p : WorkPool ι) (i : ι) : WorkPool ι :=
  { p with working := p.working.erase i, due := p.due ++ [(i, .completed)] }

/-- A request is cancelled, unless a thread has taken it. -/
def cancel (p : WorkPool ι) (i : ι) : WorkPool ι :=
  if i ∈ p.queue then
    { p with queue := p.queue.erase i, due := p.due ++ [(i, .cancelled)] }
  else p

/-- The callback of a request is made. -/
def callBack (p : WorkPool ι) (x : ι × Outcome) : WorkPool ι :=
  { p with due := p.due.erase x, calledBack := p.calledBack ++ [x] }

end

/-- **The invariant**, for the requests `all` that were queued. -/
structure Accounts (all : List ι) (p : WorkPool ι) : Prop where
  parts : p.parts.Perm all
  order : (p.taken ++ p.queue).Sublist all
  begun : p.taken.Perm (p.working ++ endedAs .completed p.settled)

/-! ### Lists of outcomes -/

section

variable {p : WorkPool ι} {i : ι} {x : ι × Outcome} {all : List ι} {o : Outcome}

@[simp] theorem endedAs_append (l m : List (ι × Outcome)) :
    endedAs o (l ++ m) = endedAs o l ++ endedAs o m := by
  simp [endedAs]

@[simp] theorem endedAs_nil : endedAs o ([] : List (ι × Outcome)) = [] := by
  simp [endedAs]

@[simp] theorem endedAs_cons (x : ι × Outcome) (l : List (ι × Outcome)) :
    endedAs o (x :: l) = if x.2 = o then x.1 :: endedAs o l else endedAs o l := by
  by_cases hx : x.2 = o <;> simp [endedAs, hx]

@[simp] theorem mem_endedAs {l : List (ι × Outcome)} : i ∈ endedAs o l ↔ (i, o) ∈ l := by
  simp [endedAs]

theorem endedAs_perm {l m : List (ι × Outcome)} (h : l.Perm m) :
    (endedAs o l).Perm (endedAs o m) :=
  (h.filter _).map _

end

/-! ### Every operation keeps the invariant -/

section

variable {p : WorkPool ι} {i : ι} {x : ι × Outcome} {all : List ι} {o : Outcome}

theorem accounts_empty : Accounts [] (empty : WorkPool ι) where
  parts := by simp [WorkPool.parts, settled, empty]
  order := by simp [empty]
  begun := by simp [settled, empty]

theorem Accounts.submit (h : Accounts all p) (i : ι) : Accounts (all ++ [i]) (p.submit i) where
  parts := by
    classical
    have hparts := h.parts
    simp only [List.perm_iff_count, WorkPool.parts, settled, WorkPool.submit,
      List.count_append] at hparts ⊢
    intro a
    have := hparts a
    omega
  order := by
    rw [WorkPool.submit, ← List.append_assoc]
    exact h.order.append_right [i]
  begun := h.begun

/-- A thread takes the oldest request. -/
theorem Accounts.take (h : Accounts all p) : Accounts all p.take := by
  classical
  unfold WorkPool.take
  split
  · exact h
  · rename_i i q hqueue
    obtain ⟨hparts, horder, hbegun⟩ := h
    constructor
    · simp only [List.perm_iff_count, WorkPool.parts, settled, hqueue, List.count_append,
        List.count_cons, List.count_nil] at hparts ⊢
      intro a
      have := hparts a
      omega
    · rwa [hqueue, ← List.singleton_append, ← List.append_assoc] at horder
    · simp only [List.perm_iff_count, settled, List.count_append] at hbegun ⊢
      intro a
      have := hbegun a
      omega

section

variable [DecidableEq ι]

theorem Accounts.finish (h : Accounts all p) (hi : i ∈ p.working) :
    Accounts all (p.finish i) where
  parts := by
    refine List.Perm.trans ?_ h.parts
    rw [List.perm_iff_count]
    intro a
    have hworking := (List.perm_cons_erase hi).count_eq a
    simp only [WorkPool.parts, settled, WorkPool.finish, List.map_append, List.map_cons,
      List.map_nil, List.count_append, List.count_cons, List.count_nil] at hworking ⊢
    omega
  order := h.order
  begun := by
    refine h.begun.trans ?_
    rw [List.perm_iff_count]
    intro a
    have hworking := (List.perm_cons_erase hi).count_eq a
    simp only [settled, WorkPool.finish, endedAs_append, endedAs_cons, endedAs_nil, if_true,
      List.count_append, List.count_cons, List.count_nil] at hworking ⊢
    omega

theorem Accounts.cancel (h : Accounts all p) (i : ι) : Accounts all (p.cancel i) := by
  unfold WorkPool.cancel
  split
  · rename_i hi
    constructor
    · refine List.Perm.trans ?_ h.parts
      rw [List.perm_iff_count]
      intro a
      have hqueue := (List.perm_cons_erase hi).count_eq a
      simp only [WorkPool.parts, settled, List.map_append, List.map_cons, List.map_nil,
        List.count_append, List.count_cons, List.count_nil] at hqueue ⊢
      omega
    · exact (List.erase_sublist.append_left _).trans h.order
    · simpa [settled] using h.begun
  · exact h

theorem settled_callBack (hx : x ∈ p.due) : (p.callBack x).settled.Perm p.settled := by
  rw [List.perm_iff_count]
  intro a
  have hdue := (List.perm_cons_erase hx).count_eq a
  simp only [settled, WorkPool.callBack, List.count_append, List.count_cons, List.count_nil]
    at hdue ⊢
  omega

theorem Accounts.callBack (h : Accounts all p) (hx : x ∈ p.due) :
    Accounts all (p.callBack x) where
  parts := (((settled_callBack hx).map _).append_left _).trans h.parts
  order := h.order
  begun := h.begun.trans ((endedAs_perm (settled_callBack hx).symm).append_left _)

end

/-! ### What follows from it -/

theorem Accounts.nodup (h : Accounts all p) (hall : all.Nodup) : p.parts.Nodup :=
  h.parts.nodup_iff.mpr hall

/-- A request was taken exactly if it is being worked on or was completed. -/
theorem Accounts.mem_taken (h : Accounts all p) :
    i ∈ p.taken ↔ i ∈ p.working ∨ (i, .completed) ∈ p.settled := by
  simp [h.begun.mem_iff]

/-- A request that is being worked on is not over. -/
theorem Accounts.not_settled (h : Accounts all p) (hall : all.Nodup) (hi : i ∈ p.working)
    (o : Outcome) : (i, o) ∉ p.settled := by
  have hnodup := h.nodup hall
  rw [WorkPool.parts, List.nodup_append'] at hnodup
  intro hover
  exact hnodup.2.2 (List.mem_append_right _ hi) (List.mem_map_of_mem hover)

/-- A request ends once. -/
theorem Accounts.outcome_unique (h : Accounts all p) (hall : all.Nodup) {o' : Outcome}
    (ho : (i, o) ∈ p.settled) (ho' : (i, o') ∈ p.settled) : o = o' := by
  have hnodup := h.nodup hall
  rw [WorkPool.parts, List.nodup_append'] at hnodup
  have hsame := List.inj_on_of_nodup_map hnodup.2.1 ho ho' rfl
  exact congrArg Prod.snd hsame

/-- **A request that was cancelled was not taken.** -/
theorem Accounts.notBoth (h : Accounts all p) (hall : all.Nodup)
    (hi : (i, .cancelled) ∈ p.settled) : i ∉ p.taken := by
  intro htaken
  rcases h.mem_taken.mp htaken with hworking | hcompleted
  · exact h.not_settled hall hworking .cancelled hi
  · cases h.outcome_unique hall hi hcompleted

/-- A request whose callback is due was not called back. -/
theorem Accounts.not_calledBack (h : Accounts all p) (hall : all.Nodup) (hx : x ∈ p.due)
    (o : Outcome) : (x.1, o) ∉ p.calledBack := by
  have hnodup := h.nodup hall
  rw [WorkPool.parts, List.nodup_append', settled, List.map_append] at hnodup
  intro hback
  have hsettled := List.nodup_append'.mp hnodup.2.1
  exact hsettled.2.2 (List.mem_map_of_mem hx) (List.mem_map.mpr ⟨_, hback, rfl⟩)

/-- When all callbacks were made, each request was called back once. -/
theorem Accounts.all_calledBack (h : Accounts all p) (hqueue : p.queue = [])
    (hworking : p.working = []) (hdue : p.due = []) :
    (p.calledBack.map Prod.fst).Perm all := by
  have hparts := h.parts
  rwa [WorkPool.parts, settled, hqueue, hworking, hdue] at hparts

/-! ### What a cancellation changes -/

section

variable [DecidableEq ι]

@[simp] theorem cancel_taken (p : WorkPool ι) (i : ι) : (p.cancel i).taken = p.taken := by
  unfold cancel
  split <;> rfl

@[simp] theorem cancel_working (p : WorkPool ι) (i : ι) : (p.cancel i).working = p.working := by
  unfold cancel
  split <;> rfl

@[simp] theorem cancel_calledBack (p : WorkPool ι) (i : ι) :
    (p.cancel i).calledBack = p.calledBack := by
  unfold cancel
  split <;> rfl

/-- A request that waits is over when it is cancelled, and no other is. -/
theorem mem_settled_cancel {x : ι × Outcome} :
    x ∈ (p.cancel i).settled ↔ x ∈ p.settled ∨ (x = (i, .cancelled) ∧ i ∈ p.queue) := by
  unfold cancel
  split
  · rename_i hi
    simp only [settled, List.mem_append, List.mem_singleton, hi, and_true]
    tauto
  · rename_i hi
    simp [hi]

/-- The other requests wait on. -/
theorem Accounts.mem_queue_cancel (h : Accounts all p) (hall : all.Nodup) {j : ι} :
    j ∈ (p.cancel i).queue ↔ j ∈ p.queue ∧ j ≠ i := by
  have hnodup : p.queue.Nodup :=
    ((List.sublist_append_right _ _).trans h.order).nodup hall
  unfold WorkPool.cancel
  split
  · rw [hnodup.mem_erase_iff, and_comm]
  · rename_i hi
    constructor
    · intro hj
      exact ⟨hj, fun heq => hi (heq ▸ hj)⟩
    · exact And.left

end

end

end WorkPool

end LibuvDox
