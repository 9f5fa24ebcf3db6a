import Mathlib.Tactic

/-!
# Lexical path resolution

A path is a list of steps: `down a` enters the entry `a`, `up` goes to the parent directory (and
stays at the top), `stay` goes nowhere.  Resolving a path component by component needs only the
directory reached so far, and what a relative path does can be said once, independently of where
it starts: it climbs some number of levels and then descends along some names
(`walk_eq_climb_descend`).  Whether it ends below its start is decided by these two
(`walk_below_iff`).
-/

namespace LibuvDox.LexicalPath

variable {α : Type*}

/-- One component of a path. -/
inductive Step (α : Type*) where
  | stay
  | up
  | down (name : α)
  deriving DecidableEq, Repr

/-- The directory reached by one step; directories are lists of names, outermost first. -/
def step (dir : List α) : Step α → List α
  | .stay => dir
  | .up => dir.dropLast
  | .down name => dir ++ [name]

/-- The directory reached from `dir` along a path. -/
def walk (dir : List α) (path : List (Step α)) : List α := path.foldl step dir

theorem walk_append (dir : List α) (p q : List (Step α)) :
    walk dir (p ++ q) = walk (walk dir p) q := List.foldl_append

@[simp] theorem walk_nil (dir : List α) : walk dir [] = dir := rfl

@[simp] theorem walk_cons (dir : List α) (s : Step α) (p : List (Step α)) :
    walk dir (s :: p) = walk (step dir s) p := rfl

/-- What a relative path does: the levels it climbs above its start, and the names it then
descends along. -/
structure Effect (α : Type*) where
  climb : ℕ
  descend : List α
  deriving DecidableEq, Repr

/-- An effect followed by one more step: `up` undoes the last descent, or climbs. -/
def Effect.andThen (e : Effect α) : Step α → Effect α
  | .stay => e
  | .up =>
    match e.descend with
    | [] => ⟨e.climb + 1, []⟩
    | name :: names => ⟨e.climb, (name :: names).dropLast⟩
  | .down name => ⟨e.climb, e.descend ++ [name]⟩

/-- The effect of a relative path. -/
def effect (path : List (Step α)) : Effect α := path.foldl Effect.andThen ⟨0, []⟩

/-- Where an effect leads from `dir`. -/
def Effect.apply (e : Effect α) (dir : List α) : List α :=
  dir.take (dir.length - e.climb) ++ e.descend

theorem Effect.apply_andThen (e : Effect α) (dir : List α) (s : Step α) :
    (e.andThen s).apply dir = step (e.apply dir) s := by
  cases s with
  | stay => rfl
  | down name => simp [andThen, apply, step]
  | up =>
    obtain ⟨climb, descend⟩ := e
    cases descend with
    | nil =>
      -- nothing to undo: the climb takes one more name off `dir`
      simp only [andThen, apply, step, List.append_nil, List.dropLast_eq_take, List.length_take,
        List.take_take]
      congr 1
      omega
    | cons name names =>
      simp only [andThen, apply, step]
      rw [List.dropLast_append_of_ne_nil (List.cons_ne_nil name names)]

/-- **A path climbs, then descends.**  Following a path component by component leads where its
effect does. -/
theorem walk_eq_climb_descend (dir : List α) (path : List (Step α)) :
    walk dir path = (effect path).apply dir := by
  have h : ∀ (p : List (Step α)) (e : Effect α),
      walk (e.apply dir) p = (p.foldl Effect.andThen e).apply dir := by
    intro p
    induction p with
    | nil => intro e; rfl
    | cons s p ih =>
      intro e
      rw [walk_cons, ← Effect.apply_andThen, ih]
      rfl
  have h0 := h path ⟨0, []⟩
  simpa [Effect.apply, effect] using h0

/-- The names a path must descend along to be back below its start, after climbing. -/
def Effect.climbed (e : Effect α) (dir : List α) : List α := dir.drop (dir.length - e.climb)

/-- **When a path ends below its start.**  It does exactly when it descends again along the
names it climbed over. -/
theorem walk_below_iff (dir : List α) (path : List (Step α)) :
    dir <+: walk dir path ↔ (effect path).climbed dir <+: (effect path).descend := by
  have hsplit : dir.take (dir.length - (effect path).climb) ++ (effect path).climbed dir = dir :=
    List.take_append_drop _ _
  have hiff := @List.prefix_append_right_inj _ ((effect path).climbed dir) (effect path).descend
    (dir.take (dir.length - (effect path).climb))
  rw [hsplit] at hiff
  rw [walk_eq_climb_descend]
  exact hiff

/-- A path that never climbs stays below its start. -/
theorem walk_below_of_no_climb (dir : List α) (path : List (Step α))
    (h : (effect path).climb = 0) : dir <+: walk dir path := by
  rw [walk_below_iff, Effect.climbed, h]
  simp

end LibuvDox.LexicalPath
