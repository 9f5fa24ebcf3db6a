import Mathlib.Tactic

/-!
# What a computation may stop with

A computation in `Except` returns a value or stops with an error.  `Raises Q x` bounds the errors:
whatever `x` stops with satisfies `Q`.  The rules follow the way such computations are put
together, so a bound for a whole program is assembled from one for each of its parts.

* `Raises.bind`, `raises_bind_iff`: one computation after another, the second one started only
  where the first returns.
* `Raises.foldlM`: a loop over a list, with an invariant of the state and of the part of the list
  that is left.
-/

namespace LibuvDox

variable {ε α β : Type}

/-- Every error that `x` stops with satisfies `Q`. -/
def Raises (Q : ε → Prop) (x : Except ε α) : Prop := ∀ e, x = .error e → Q e

variable {Q : ε → Prop}

theorem raises_ok (a : α) : Raises Q (.ok a : Except ε α) := by
  intro e he
  cases he

theorem raises_error {e : ε} (he : Q e) : Raises Q (.error e : Except ε α) := by
  intro e' he'
  cases he'
  exact he

theorem Raises.bind {x : Except ε α} {f : α → Except ε β} (hx : Raises Q x)
    (hf : ∀ a, x = .ok a → Raises Q (f a)) : Raises Q (x >>= f) := by
  intro e he
  cases x with
  | error e' =>
    cases he
    exact hx _ rfl
  | ok a => exact hf a rfl e he

theorem raises_bind_iff {x : Except ε α} {f : α → Except ε β} :
    Raises Q (x >>= f) ↔ Raises Q x ∧ ∀ a, x = .ok a → Raises Q (f a) := by
  constructor
  · intro h
    cases x with
    | error e => exact ⟨raises_error (h e rfl), nofun⟩
    | ok a =>
      refine ⟨raises_ok a, fun a' ha' => ?_⟩
      cases ha'
      exact h
  · intro ⟨hx, hf⟩
    exact hx.bind hf

theorem Raises.ite {p : Prop} [Decidable p] {x y : Except ε α} (hx : p → Raises Q x)
    (hy : ¬ p → Raises Q y) : Raises Q (if p then x else y) := by
  by_cases hp : p
  · rw [if_pos hp]
    exact hx hp
  · rw [if_neg hp]
    exact hy hp

/-- `P b l` holds whenever the loop is in the state `b` and `l` is left of the list. -/
theorem Raises.foldlM {f : β → α → Except ε β} {P : β → List α → Prop}
    (hraises : ∀ b a l, P b (a :: l) → Raises Q (f b a))
    (hstep : ∀ b a l c, P b (a :: l) → f b a = .ok c → P c l) {l : List α} {b : β} (h : P b l) :
    Raises Q (l.foldlM f b) := by
  induction l generalizing b with
  | nil => exact raises_ok b
  | cons a l ih =>
    rw [List.foldlM_cons]
    exact (hraises b a l h).bind fun c hc => ih (hstep b a l c h hc)

end LibuvDox
