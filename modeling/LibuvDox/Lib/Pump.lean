import Mathlib.Tactic

/-!
# Pumping a source into a sink, chunk by chunk

A pump reads a fixed source in chunks and queues each chunk at a sink which takes the queued
chunks in order, at its own pace, or refuses a chunk right away.  It keeps two counters: how much
was read and how much the sink has taken.  `Balanced` says what the counters mean; reading,
losing and taking preserve it, and it makes `nwritten = nread` the same as "nothing was lost and
nothing is queued", which is all a pump can conclude from its counters: a sink that keeps pace
empties the queue long before the source is exhausted.
-/

namespace LibuvDox

/-- A source, how far it was read, what the sink has taken, what is queued in between, what was
handed to the sink in all, and how much the sink has refused. -/
structure Pump (α : Type*) where
  source : List α
  nread : ℕ
  nwritten : ℕ
  queued : List (List α)
  submitted : List α
  lost : ℕ

namespace Pump

variable {α : Type*}

/-- A pump that has not read anything yet. -/
def start (source : List α) : Pump α := ⟨source, 0, 0, [], [], 0⟩

/-- A chunk is read and the sink accepts it. -/
def read (p : Pump α) (chunk : List α) : Pump α :=
  { p with
    nread := p.nread + chunk.length
    queued := p.queued ++ [chunk]
    submitted := p.submitted ++ chunk }

/-- A chunk is read and the sink refuses it. -/
def lose (p : Pump α) (chunk : List α) : Pump α :=
  { p with
    nread := p.nread + chunk.length
    lost := p.lost + chunk.length }

/-- The sink reports that it took the oldest queued chunk. -/
def take (p : Pump α) : Pump α :=
  { p with
    nwritten := p.nwritten + (p.queued.headD []).length
    queued := p.queued.tail }

/-- The number of units queued at the sink. -/
def inFlight (p : Pump α) : ℕ := (p.queued.map List.length).sum

/-- What the counters of a pump mean. -/
structure Balanced (p : Pump α) : Prop where
  bound : p.nread ≤ p.source.length
  counts : p.nread = p.nwritten + p.inFlight + p.lost
  chunks : ∀ c ∈ p.queued, c ≠ []
  order : p.lost = 0 → p.submitted = p.source.take p.nread

theorem start_balanced (source : List α) : (start source).Balanced where
  bound := Nat.zero_le _
  counts := rfl
  chunks := by simp [start]
  order := by simp [start]

section

variable {p : Pump α} {chunk : List α}

/-- A chunk that comes next in the source keeps the pump within it. -/
theorem Balanced.bound_add (h : p.Balanced) (hpre : chunk <+: p.source.drop p.nread) :
    p.nread + chunk.length ≤ p.source.length := by
  have hlen := hpre.length_le
  have := h.bound
  rw [List.length_drop] at hlen
  omega

theorem Balanced.read (h : p.Balanced) (hne : chunk ≠ [])
    (hpre : chunk <+: p.source.drop p.nread) : (p.read chunk).Balanced where
  bound := h.bound_add hpre
  counts := by
    have := h.counts
    simp only [Pump.read, inFlight, List.map_append, List.map_cons, List.map_nil, List.sum_append,
      List.sum_cons, List.sum_nil] at this ⊢
    omega
  chunks := by
    intro c hc
    rcases List.mem_append.mp hc with hc | hc
    · exact h.chunks c hc
    · rw [List.mem_singleton.mp hc]
      exact hne
  order := by
    intro hl
    obtain ⟨rest, hrest⟩ := hpre
    have htake : (p.source.drop p.nread).take chunk.length = chunk := by
      rw [← hrest, List.take_left]
    simp only [Pump.read]
    rw [List.take_add, htake, h.order hl]

theorem Balanced.lose (h : p.Balanced) (hne : chunk ≠ [])
    (hpre : chunk <+: p.source.drop p.nread) : (p.lose chunk).Balanced where
  bound := h.bound_add hpre
  counts := by
    have := h.counts
    simp only [Pump.lose, inFlight] at this ⊢
    omega
  chunks := h.chunks
  order := by
    intro hl
    have := List.length_pos_of_ne_nil hne
    simp only [Pump.lose] at hl
    omega

theorem Balanced.take (h : p.Balanced) : p.take.Balanced where
  bound := h.bound
  counts := by
    have := h.counts
    cases hq : p.queued with
    | nil => simpa [Pump.take, inFlight, hq] using this
    | cons c cs =>
      simp only [Pump.take, inFlight, hq, List.headD_cons, List.tail_cons, List.map_cons,
        List.sum_cons] at this ⊢
      omega
  chunks := fun c hc => h.chunks c (List.mem_of_mem_tail hc)
  order := h.order

/-- The counters agree exactly when nothing was lost and nothing is queued, whatever is left in
the source. -/
theorem Balanced.caught_up_iff (h : p.Balanced) :
    p.nwritten = p.nread ↔ p.queued = [] ∧ p.lost = 0 := by
  have hc := h.counts
  constructor
  · intro heq
    refine ⟨?_, by omega⟩
    by_contra hne
    obtain ⟨c, cs, hq⟩ := List.exists_cons_of_ne_nil hne
    have hpos : 0 < c.length := List.length_pos_of_ne_nil (h.chunks c (by simp [hq]))
    simp only [inFlight, hq, List.map_cons, List.sum_cons] at hc
    omega
  · intro ⟨hq, hl⟩
    simp only [inFlight, hq, List.map_nil, List.sum_nil] at hc
    omega

/-- Taking a chunk makes the counters agree exactly when it was the only one queued and nothing
was lost. -/
theorem Balanced.take_caught_up_iff (h : p.Balanced) (hne : p.queued ≠ []) :
    p.take.nwritten = p.take.nread ↔ p.queued.length = 1 ∧ p.lost = 0 := by
  rw [h.take.caught_up_iff]
  cases hq : p.queued with
  | nil => exact absurd hq hne
  | cons c cs => simp [Pump.take, hq]

/-- Once the source is exhausted and nothing was lost, the sink has been handed all of it. -/
theorem Balanced.submitted_eq (h : p.Balanced) (hn : p.nread = p.source.length)
    (hl : p.lost = 0) : p.submitted = p.source := by
  rw [h.order hl, hn, List.take_length]

end

end Pump

end LibuvDox
