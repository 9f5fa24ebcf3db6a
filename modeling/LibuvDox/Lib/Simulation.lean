import LibuvDox.Lib.EventLoop

/-!
# Simulation between event-loop programs

One program simulates another if each event that the other dispatches is matched by one of its
own, or by none at all: `f` says which, so erasing from a run the events that `f` drops and
renaming the others gives a run of the simulating program.

* `Simulates.run`: the simulation carries over to whole runs.
-/

namespace LibuvDox.EventLoop

variable {σ ε τ σ' ε' τ' : Type*}

/-- Related states stay related: an event of `L` that `f` erases changes nothing that `R` sees, any
other is answered by the event of `M` it stands for. -/
structure Simulates (L : EventLoop σ ε τ) (M : EventLoop σ' ε' τ') (R : σ → σ' → Prop)
    (f : ε → Option ε') : Prop where
  erased : ∀ {s t e u}, R s t → L.enabled s e → L.dispatch s e = .ok u → f e = none → R u t
  matched : ∀ {s t e u e'}, R s t → L.enabled s e → L.dispatch s e = .ok u → f e = some e' →
    M.enabled t e' ∧ ∃ v, M.dispatch t e' = .ok v ∧ R u v

variable {L : EventLoop σ ε τ} {M : EventLoop σ' ε' τ'} {R : σ → σ' → Prop} {f : ε → Option ε'}

/-- **Simulation of runs.**  What is left of a run after erasing is a run of the simulating
program, from any state related to the first one. -/
theorem Simulates.run (h : Simulates L M R f) {s u : σ} {t : σ'} {es : List ε} (hR : R s t)
    (hrun : L.Run s es u) : ∃ v, M.Run t (es.filterMap f) v ∧ R u v := by
  induction hrun with
  | nil => exact ⟨t, .nil, hR⟩
  | @snoc es r e w _ he hd ih =>
    obtain ⟨v, hv, hRv⟩ := ih
    rw [List.filterMap_append]
    cases hf : f e with
    | none =>
      refine ⟨v, ?_, h.erased hRv he hd hf⟩
      rw [List.filterMap_cons_none hf, List.filterMap_nil, List.append_nil]
      exact hv
    | some e' =>
      obtain ⟨he', x, hx, hRx⟩ := h.matched hRv he hd hf
      refine ⟨x, ?_, hRx⟩
      rw [List.filterMap_cons_some hf, List.filterMap_nil]
      exact .snoc hv he' hx

end LibuvDox.EventLoop
