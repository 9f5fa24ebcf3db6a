import LibuvDox.Lib.LexicalPath
import LibuvDox.StaticWebServer.ResolveResource

/-!
# Which files a request can reach

`resolve_url` puts the root in front of whatever the client sends.  Read component by component,
the file it names is where the path of the target leads from the document root, where a target
that does not begin with a slash first leaves the directory `static` for another one next to it,
whose name begins with `static`.  So a target stays below the document root exactly when it
descends again along the names it climbed over (`confined_iff`).
-/

namespace LibuvDox.StaticWebServer

open LexicalPath

def SLASH : UInt8 := 47

/-- What a path component does: the empty one and `.` nothing, `..` goes up. -/
def toStep (component : Bytes) : Step Bytes :=
  if component = [] ∨ component = ascii "." then .stay
  else if component = ascii ".." then .up
  else .down component

/-- The steps of a path. -/
def steps (path : Bytes) : List (Step Bytes) := (path.splitOn SLASH).map toStep

/-- The file a path names, with `.` and `..` resolved lexically, as the names from the file
system's root down to it. -/
def lexical (path : Bytes) : List Bytes := walk [] (steps path)

/-- The root array, for a working directory. -/
def rootOf (cwd : Bytes) : Bytes := cwd ++ STATIC

/-- The file a URL resolves to is the document root or lies below it. -/
def Confined (cwd urlPath : Bytes) : Prop :=
  lexical (rootOf cwd) <+: lexical (resolveUrl (rootOf cwd) urlPath)

/-- The steps of a target, relative to the document root.  A first component that does not follow
a slash is glued to the name of the root directory, and leads to a sibling of it. -/
def targetSteps (target : Bytes) : List (Step Bytes) :=
  match target.splitOn SLASH with
  | [] => []
  | first :: rest =>
    if first = [] then rest.map toStep
    else .up :: .down (ascii "static" ++ first) :: rest.map toStep

/-! ### Splitting -/

theorem splitOn_append {s : Bytes} (hs : SLASH ∉ s) (t : Bytes) :
    (s ++ t).splitOn SLASH = (t.splitOn SLASH).modifyHead (s ++ ·) := by
  induction s with
  | nil => cases h : t.splitOn SLASH <;> simp [h]
  | cons c s ih =>
    have hc : (c == SLASH) = false := by
      simpa using fun h : c = SLASH => hs (h ▸ List.mem_cons_self)
    have hs' : SLASH ∉ s := fun h => hs (List.mem_cons_of_mem _ h)
    rw [List.cons_append, List.splitOn_cons_eq_if_modifyHead, hc, ih hs']
    cases t.splitOn SLASH <;> simp

theorem static_eq : STATIC = SLASH :: ascii "static" := by decide

/-- The glued name is an ordinary one. -/
theorem toStep_static (g : Bytes) : toStep (ascii "static" ++ g) = .down (ascii "static" ++ g) := by
  have h : ascii "static" = 115 :: ascii "tatic" := by decide
  have hdot : ascii "." = [46] := by decide
  have hdots : ascii ".." = [46, 46] := by decide
  rw [h, List.cons_append, toStep, hdot, hdots]
  simp

theorem lexical_append_slash (p t : Bytes) :
    lexical (p ++ SLASH :: t) = walk (lexical p) (steps t) := by
  rw [lexical, steps, List.splitOn_append_cons_self, List.map_append, walk_append]
  rfl

/-- The document root: the directory `static` in the working directory. -/
theorem lexical_rootOf (cwd : Bytes) : lexical (rootOf cwd) = lexical cwd ++ [ascii "static"] := by
  rw [rootOf, static_eq, lexical_append_slash, steps,
    List.splitOn_eq_singleton (by decide : SLASH ∉ ascii "static")]
  have h := toStep_static []
  rw [List.append_nil] at h
  rw [List.map_singleton, h]
  rfl

/-- A target leads where its steps lead from the document root. -/
theorem lexical_rootOf_append (cwd target : Bytes) :
    lexical (rootOf cwd ++ target) = walk (lexical (rootOf cwd)) (targetSteps target) := by
  have hsplit : rootOf cwd ++ target = cwd ++ SLASH :: (ascii "static" ++ target) := by
    rw [rootOf, static_eq, List.append_assoc, List.cons_append]
  rw [hsplit, lexical_append_slash, steps, splitOn_append (by decide), lexical_rootOf, targetSteps]
  cases hs : target.splitOn SLASH with
  | nil => exact absurd hs (List.splitOn_ne_nil _ _)
  | cons first rest =>
    rw [List.modifyHead_cons, List.map_cons, toStep_static, walk_cons]
    dsimp only
    by_cases hf : first = []
    · -- the target begins with a slash, or is empty
      rw [if_pos hf, hf, List.append_nil]
      rfl
    · rw [if_neg hf, walk_cons, walk_cons]
      simp [step]

theorem lexical_resolveUrl (cwd urlPath : Bytes) (h : noQuery urlPath ≠ ascii "/") :
    lexical (resolveUrl (rootOf cwd) urlPath) =
      walk (lexical (rootOf cwd)) (targetSteps (noQuery urlPath)) := by
  rw [resolveUrl, if_neg h, lexical_rootOf_append]

/-! ### Confinement -/

/-- The target descends again along the names of the document root it climbs over. -/
def Returns (cwd urlPath : Bytes) : Prop :=
  let e := effect (targetSteps (noQuery urlPath))
  e.climbed (lexical (rootOf cwd)) <+: e.descend

instance (cwd urlPath : Bytes) : Decidable (Returns cwd urlPath) := by
  unfold Returns
  infer_instance

instance (cwd urlPath : Bytes) : Decidable (Confined cwd urlPath) := by
  unfold Confined
  infer_instance

theorem targetSteps_slash : targetSteps (ascii "/") = [.stay] := by decide

theorem targetSteps_index : targetSteps INDEX_HTML = [.down (ascii "index.html")] := by decide

/-- **Confinement.**  For every working directory and every URL, the file that the URL resolves to
is the document root or lies below it if and only if the target, up to its query, descends again
along the names of the document root it climbs over. -/
theorem confined_iff (cwd urlPath : Bytes) : Confined cwd urlPath ↔ Returns cwd urlPath := by
  unfold Confined Returns
  by_cases h : noQuery urlPath = ascii "/"
  · -- both sides hold: `/` is `/index.html`, and climbs nowhere
    rw [resolveUrl, if_pos h, lexical_rootOf_append, targetSteps_index, h, targetSteps_slash]
    refine iff_of_true ?_ ?_
    · exact walk_below_of_no_climb _ _ rfl
    · exact (walk_below_iff _ _).mp (walk_below_of_no_climb _ _ rfl)
  · rw [lexical_resolveUrl cwd urlPath h]
    exact walk_below_iff _ _

/-- With the server started in `/srv/www`, `/../passwd` is a file next to the document root. -/
theorem dotdot_not_confined : ¬ ∀ cwd urlPath : Bytes, Confined cwd urlPath := by
  intro h
  exact absurd (h (ascii "/srv/www") (ascii "/../passwd")) (by decide)

/-- A target that climbs out and comes back in is confined; one without a slash is not. -/
example : Confined (ascii "/srv/www") (ascii "/../static/index.html") ∧
    ¬ Confined (ascii "/srv/www") (ascii "*") := by decide

end LibuvDox.StaticWebServer
