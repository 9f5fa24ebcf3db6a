import Mathlib.Tactic

/-!
# Programs driven by an event loop

A callback program is a set of states, the events that may come next in each state, and a
dispatcher which runs the callback of an event to its end.  The callback either returns, in a
new state, or stops the whole process for a reason of type `τ`.  Nothing here knows what the
events are: which order they come in is left entirely to `enabled`.

* `Run s es t`: from `s` the events `es` are dispatched one by one and every callback returns.
* `Run.invariant`, `Run.history`: what one dispatch preserves holds after every run.
* `Run.length_le`, `exists_run_to`: a measure bounds the runs, and progress leads to the end.
* `restrict guard`: the same program, with only those events that meet a guard.
* `Throughout s es P`: what is true of every event of a schedule when its turn comes.
* `observe`: what the events of a schedule show, each in the state it comes in.
* `plays`: runs of concrete schedules, by computation.
-/

namespace LibuvDox

/-- A program driven by an event loop: the events that may come next, and what the callback of
an event does. -/
structure EventLoop (σ ε τ : Type*) where
  enabled : σ → ε → Prop
  dispatch : σ → ε → Except τ σ

namespace EventLoop

variable {σ ε τ : Type*} (L : EventLoop σ ε τ)

/-- From `s` the events `es` are dispatched in order, every callback returns, and the program is
then in the last index. -/
inductive Run (s : σ) : List ε → σ → Prop
  | nil : Run s [] s
  | snoc {es : List ε} {t : σ} {e : ε} {u : σ} :
      Run s es t → L.enabled t e → L.dispatch t e = .ok u → Run s (es ++ [e]) u

/-- The same program under schedules whose every event meets `guard`. -/
def restrict (guard : σ → ε → Prop) : EventLoop σ ε τ where
  enabled s e := L.enabled s e ∧ guard s e
  dispatch := L.dispatch

variable {L}

theorem Run.of_restrict {guard : σ → ε → Prop} {s t : σ} {es : List ε}
    (h : (L.restrict guard).Run s es t) : L.Run s es t := by
  induction h with
  | nil => exact .nil
  | snoc _ he hd ih => exact .snoc ih he.1 hd

/-- The events of a run meet a guard that does not look at the state. -/
theorem Run.guards {guard : ε → Prop} {s t : σ} {es : List ε}
    (h : (L.restrict fun _ e => guard e).Run s es t) : ∀ e ∈ es, guard e := by
  induction h with
  | nil => nofun
  | snoc _ he _ ih =>
    intro d hd
    rcases List.mem_append.mp hd with hmem | hlast
    · exact ih d hmem
    · rw [List.mem_singleton.mp hlast]
      exact he.2

/-- **Invariants.**  A property that the first state has and that every dispatch preserves holds
in every state that a run reaches. -/
theorem Run.invariant {P : σ → Prop} {s t : σ} {es : List ε} (h : L.Run s es t) (h0 : P s)
    (hstep : ∀ t e u, P t → L.enabled t e → L.dispatch t e = .ok u → P u) : P t := by
  induction h with
  | nil => exact h0
  | snoc _ he hd ih => exact hstep _ _ _ ih he hd

/-- Invariants that relate the state to the events dispatched so far. -/
theorem Run.history {P : List ε → σ → Prop} {s t : σ} {es : List ε} (h : L.Run s es t)
    (h0 : P [] s)
    (hstep : ∀ es t e u, P es t → L.enabled t e → L.dispatch t e = .ok u → P (es ++ [e]) u) :
    P es t := by
  induction h with
  | nil => exact h0
  | snoc _ he hd ih => exact hstep _ _ _ _ ih he hd

theorem Run.append {s t u : σ} {es fs : List ε} (h : L.Run s es t) (h' : L.Run t fs u) :
    L.Run s (es ++ fs) u := by
  induction h' with
  | nil => simpa using h
  | snoc _ he hd ih =>
    rw [← List.append_assoc]
    exact .snoc ih he hd

/-- The last event of a run. -/
theorem Run.snoc_inv {s u : σ} {es : List ε} {e : ε} (h : L.Run s (es ++ [e]) u) :
    ∃ t, L.Run s es t ∧ L.enabled t e ∧ L.dispatch t e = .ok u := by
  generalize hfs : es ++ [e] = fs at h
  cases h with
  | nil => exact absurd hfs (by simp)
  | snoc h he hd =>
    obtain ⟨rfl, hlast⟩ := List.append_inj' hfs rfl
    obtain rfl := List.head_eq_of_cons_eq hlast
    exact ⟨_, h, he, hd⟩

/-- A schedule leads to one state only. -/
theorem Run.unique {s t t' : σ} {es : List ε} (h : L.Run s es t) (h' : L.Run s es t') :
    t = t' := by
  induction h generalizing t' with
  | nil =>
    generalize hfs : ([] : List ε) = fs at h'
    cases h' with
    | nil => rfl
    | snoc => exact absurd hfs (by simp)
  | snoc h he hd ih =>
    obtain ⟨r, hr, -, hd'⟩ := h'.snoc_inv
    obtain rfl := ih hr
    exact Except.ok.inj (hd.symm.trans hd')

/-- A run meets a guard up to its last event and in it. -/
theorem Run.restrict_snoc_iff {guard : σ → ε → Prop} {s t u : σ} {es : List ε} {e : ε}
    (h : L.Run s es t) (he : L.enabled t e) (hd : L.dispatch t e = .ok u) :
    (L.restrict guard).Run s (es ++ [e]) u ↔ (L.restrict guard).Run s es t ∧ guard t e := by
  constructor
  · intro hg
    obtain ⟨r, hr, hge, -⟩ := hg.snoc_inv
    obtain rfl := hr.of_restrict.unique h
    exact ⟨hr, hge.2⟩
  · intro ⟨hr, hge⟩
    exact .snoc hr ⟨he, hge⟩ hd

/-- **Termination.**  A measure that every dispatch makes smaller bounds the length of a run. -/
theorem Run.length_le {P : σ → Prop} (measure : σ → ℕ) {s t : σ} {es : List ε}
    (h : L.Run s es t) (h0 : P s)
    (hstep : ∀ t e u, P t → L.enabled t e → L.dispatch t e = .ok u → P u ∧ measure u < measure t) :
    es.length + measure t ≤ measure s := by
  have hP : P t ∧ es.length + measure t ≤ measure s := by
    induction h with
    | nil => exact ⟨h0, by simp⟩
    | snoc _ he hd ih =>
      obtain ⟨hP, hlt⟩ := hstep _ _ _ ih.1 he hd
      refine ⟨hP, ?_⟩
      have hle := ih.2
      rw [List.length_append, List.length_singleton]
      omega
  exact hP.2

/-- **Progress.**  Where something can be done as long as the work is not over, and a measure says
how long that may go on, some schedule leads to the end of the work. -/
theorem exists_run_to {P D : σ → Prop} (measure : σ → ℕ)
    (hstep : ∀ t, P t → ¬ D t →
      ∃ e u, L.enabled t e ∧ L.dispatch t e = .ok u ∧ P u ∧ measure u < measure t)
    {s : σ} (h0 : P s) : ∃ es t, L.Run s es t ∧ P t ∧ D t := by
  induction hn : measure s using Nat.strong_induction_on generalizing s with
  | _ n ih =>
    by_cases hdone : D s
    · exact ⟨[], s, .nil, h0, hdone⟩
    · obtain ⟨e, u, he, hd, hu, hlt⟩ := hstep s h0 hdone
      obtain ⟨es, t, hrun, ht, hend⟩ := ih (measure u) (by omega) hu rfl
      have hfirst : L.Run s ([] ++ [e]) u := .snoc .nil he hd
      exact ⟨_, t, hfirst.append hrun, ht, hend⟩

/-! ### Schedules -/

/-- `P` is true of every event of a schedule that comes to be dispatched, in the state it comes
in. -/
def Throughout (L : EventLoop σ ε τ) (s : σ) (es : List ε) (P : σ → ε → Prop) : Prop :=
  ∀ fs e t, fs ++ [e] <+: es → L.Run s fs t → L.enabled t e → P t e

/-- Two properties of the next event, which amount to the same in every state with the
invariant. -/
theorem throughout_congr {I : σ → Prop} {P Q : σ → ε → Prop} {s : σ} {es : List ε} (h0 : I s)
    (hstep : ∀ t e u, I t → L.enabled t e → L.dispatch t e = .ok u → I u)
    (hiff : ∀ t e, I t → L.enabled t e → (P t e ↔ Q t e)) :
    L.Throughout s es P ↔ L.Throughout s es Q := by
  constructor
  · intro h fs e t hpre hrun he
    exact (hiff t e (hrun.invariant h0 hstep) he).mp (h fs e t hpre hrun he)
  · intro h fs e t hpre hrun he
    exact (hiff t e (hrun.invariant h0 hstep) he).mpr (h fs e t hpre hrun he)

/-! ### What a run shows -/

variable {β : Type*}

/-- What the events of a schedule show, one after another, as long as the callbacks return. -/
def observe (L : EventLoop σ ε τ) (f : σ → ε → List β) : σ → List ε → List β
  | _, [] => []
  | s, e :: es => f s e ++ match L.dispatch s e with
    | .ok u => observe L f u es
    | .error _ => []

/-- What comes after a run is observed from its last state. -/
theorem Run.observe_append {f : σ → ε → List β} {s t : σ} {es : List ε} (h : L.Run s es t)
    (fs : List ε) : L.observe f s (es ++ fs) = L.observe f s es ++ L.observe f t fs := by
  induction h generalizing fs with
  | nil => rfl
  | @snoc es r e u _ _ hd ih =>
    have hstep : ∀ gs, L.observe f r (e :: gs) = f r e ++ L.observe f u gs := by
      intro gs
      rw [observe, hd]
    rw [List.append_assoc, ih, ih, List.singleton_append, hstep, hstep, observe, List.append_nil,
      List.append_assoc]

/-- The last event of a schedule. -/
theorem Run.observe_concat {f : σ → ε → List β} {s t : σ} {es : List ε} (h : L.Run s es t)
    (e : ε) : L.observe f s (es ++ [e]) = L.observe f s es ++ f t e := by
  rw [h.observe_append, observe]
  congr 1
  cases L.dispatch t e with
  | ok u => exact List.append_nil _
  | error x => exact List.append_nil _

/-! ### Concrete schedules -/

instance {guard : σ → ε → Prop} [∀ s e, Decidable (L.enabled s e)] [∀ s e, Decidable (guard s e)]
    (s : σ) (e : ε) : Decidable ((L.restrict guard).enabled s e) :=
  inferInstanceAs (Decidable (L.enabled s e ∧ guard s e))

/-- Dispatch a schedule, as long as its events are enabled and the callbacks return. -/
def plays (L : EventLoop σ ε τ) [∀ s e, Decidable (L.enabled s e)] : σ → List ε → Option σ
  | s, [] => some s
  | s, e :: es =>
    if L.enabled s e then
      match L.dispatch s e with
      | .ok u => plays L u es
      | .error _ => none
    else none

/-- What `plays` computes is a run. -/
theorem run_of_plays [∀ s e, Decidable (L.enabled s e)] {s t : σ} {es : List ε}
    (h : L.plays s es = some t) : L.Run s es t := by
  induction es generalizing s with
  | nil =>
    cases h
    exact .nil
  | cons e es ih =>
    rw [plays] at h
    split at h
    · rename_i he
      split at h
      · rename_i u hu
        have h1 : L.Run s ([] ++ [e]) u := .snoc .nil he hu
        exact h1.append (ih h)
      · cases h
    · cases h

/-- A run of a concrete schedule, whose end has a property that can be computed. -/
theorem exists_run_of_plays [∀ s e, Decidable (L.enabled s e)] {s : σ} {es : List ε}
    {p : σ → Bool} (h : (L.plays s es).any p = true) : ∃ t, L.Run s es t ∧ p t = true := by
  obtain ⟨t, ht, hp⟩ := (Option.any_eq_true _ _).mp h
  exact ⟨t, run_of_plays ht, hp⟩

end EventLoop

end LibuvDox
