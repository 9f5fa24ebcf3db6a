import Mathlib.Data.UInt
import LibuvDox.Lib.CString
import LibuvDox.StaticWebServer.ResolveResource

/-!
# Many resolutions in one process

`resolve_url` on the bytes in memory: the loop that looks for the query, the copy that is cut off
there, and the comparison with `/`.  Over any number of calls the static root stays what the first
of them made it.

* `Memory.resolveUrl_eq`: on a terminated URL it computes the path of `resolveUrl`.
* `resolveCalls_paths`: the paths of any sequence of calls, from the first working directory and the
  URL of each call alone.
-/

namespace LibuvDox.StaticWebServer

def QUESTION_MARK : UInt8 := 63

/-! ### `resolve_url` in memory -/

/-- `resolve_url`, for the block that holds the URL. -/
def Memory.resolveUrl (root urlPath : Bytes) : Except Stop Bytes := do
  let len ← deref (CString.scan (fun c => c == QUESTION_MARK) urlPath) "*cp"
  let noQuery ← deref (CString.strncpy (len + 1) urlPath) "strncpy"
  if len < noQuery.length then
    let noQuery := CString.text (noQuery.set len 0)
    .ok (if noQuery = ascii "/" then root ++ INDEX_HTML else root ++ noQuery)
  else .error (.undefined "no_query[len]")

/-- The URL before its query. -/
theorem noQuery_eq (urlPath : Bytes) :
    noQuery urlPath = (CString.text urlPath).takeWhile fun c => !(c == QUESTION_MARK) := by
  induction urlPath with
  | nil => rfl
  | cons c s ih =>
    by_cases hc : c = 0
    · simp [noQuery, hc]
    · rw [CString.text_cons hc, List.takeWhile_cons, ← ih]
      by_cases hq : c = 63 <;> simp [noQuery, hc, hq, QUESTION_MARK]

/-- **The path of a URL.**  For a URL that is terminated in memory, the loop, the copy and its
terminator make the text of `resolveUrl`. -/
theorem Memory.resolveUrl_eq (root urlPath : Bytes) :
    Memory.resolveUrl root (urlPath ++ [0]) = .ok (StaticWebServer.resolveUrl root urlPath) := by
  have hscan := CString.scan_terminated (fun c => c == QUESTION_MARK) urlPath
  rw [← noQuery_eq] at hscan
  have hprefix : noQuery urlPath <+: CString.text urlPath := by
    rw [noQuery_eq]
    exact List.takeWhile_prefix _
  have hcopy := CString.strncpy_terminated ((noQuery urlPath).length + 1) urlPath
  obtain ⟨hlt, htext⟩ := CString.text_set_strncpy hprefix.length_le hcopy
  rw [← List.prefix_iff_eq_take.mp hprefix] at htext
  simp only [Memory.resolveUrl, hscan, hcopy, deref, bind, Except.bind, if_pos hlt, htext,
    StaticWebServer.resolveUrl]

/-- `sws_resolve_resource_start`, for the block that holds the URL. -/
def Memory.swsResolveResourceStart (root : Bytes) (env : ResolveEnv) (info : SwsResourceInfo)
    (urlPath : Bytes) : Except Stop (Bytes × SwsResourceInfo) := do
  let root ← resolveRoot root env
  let fullPath ← Memory.resolveUrl root urlPath
  if fullPath.length < PATH_MAX then
    check env.fsStat "fs_stat"
    .ok (root, { info with fullPath := fullPath })
  else .error (.undefined "sprintf past the end of full_path")

theorem Memory.swsResolveResourceStart_eq (root : Bytes) (env : ResolveEnv)
    (info : SwsResourceInfo) (urlPath : Bytes) :
    Memory.swsResolveResourceStart root env info (urlPath ++ [0])
      = StaticWebServer.swsResolveResourceStart root env info urlPath := by
  unfold Memory.swsResolveResourceStart StaticWebServer.swsResolveResourceStart
  simp only [Memory.resolveUrl_eq]
  rfl

/-! ### Sequences of calls -/

/-- A call of `sws_resolve_resource_start`: what the environment answers, the resource, and a C
string. -/
structure ResolveCall where
  env : ResolveEnv
  info : SwsResourceInfo
  urlPath : Bytes
  noNul : ∀ c ∈ urlPath, c ≠ 0

/-- The calls one after another, on the same static root, with the resources they leave. -/
def resolveCalls (root : Bytes) : List ResolveCall → Except Stop (Bytes × List SwsResourceInfo)
  | [] => .ok (root, [])
  | call :: calls => do
    let first ←
      Memory.swsResolveResourceStart root call.env call.info (call.urlPath ++ [0])
    let rest ← resolveCalls first.1 calls
    .ok (rest.1, first.2 :: rest.2)

/-- The part of a URL before its first question mark. -/
def beforeQuery (urlPath : Bytes) : Bytes := urlPath.takeWhile fun c => c ≠ QUESTION_MARK

/-- The file of a URL, below the root. -/
def target (urlPath : Bytes) : Bytes :=
  if beforeQuery urlPath = ascii "/" then ascii "/index.html" else beforeQuery urlPath

/-- The path of a call. -/
def ResolveCall.path (call : ResolveCall) (root : Bytes) : Bytes := root ++ target call.urlPath

/-- What a call leaves in its resource. -/
def ResolveCall.resolved (call : ResolveCall) (root : Bytes) : SwsResourceInfo :=
  { call.info with fullPath := call.path root }

/-- The path fits into `full_path`, and libuv accepts the stat. -/
def ResolveCall.Works (call : ResolveCall) (root : Bytes) : Prop :=
  (call.path root).length < PATH_MAX ∧ call.env.fsStat = 0

section

variable {call : ResolveCall} {calls : List ResolveCall} {root : Bytes}

theorem ResolveCall.resolveUrl_eq (call : ResolveCall) (root : Bytes) :
    resolveUrl root call.urlPath = call.path root := by
  have hquery : noQuery call.urlPath = beforeQuery call.urlPath := by
    rw [noQuery_eq, CString.text_of_forall call.noNul, beforeQuery]
    congr 1
    funext c
    by_cases hc : c = QUESTION_MARK <;> simp [hc]
  rw [resolveUrl, hquery, ResolveCall.path, target, INDEX_HTML]
  split <;> rfl

theorem ResolveCall.start_ok_iff {root' : Bytes} {info : SwsResourceInfo} :
    Memory.swsResolveResourceStart root call.env call.info (call.urlPath ++ [0])
        = .ok (root', info) ↔
      resolveRoot root call.env = .ok root' ∧ call.Works root' ∧ info = call.resolved root' := by
  rw [Memory.swsResolveResourceStart_eq, swsResolveResourceStart_ok_iff, call.resolveUrl_eq]
  constructor
  · intro ⟨⟨hroot, hpath, haccepted⟩, hinfo⟩
    rw [call.resolveUrl_eq] at hpath
    exact ⟨hroot, ⟨hpath, haccepted⟩, hinfo⟩
  · intro ⟨hroot, ⟨hpath, haccepted⟩, hinfo⟩
    exact ⟨⟨hroot, by rwa [call.resolveUrl_eq], haccepted⟩, hinfo⟩

/-- The root is resolved from the working directory if it is not known. -/
theorem resolveRoot_unknown {env : ResolveEnv} :
    resolveRoot [] env = .ok root ↔
      ∃ cwd, env.cwd = .ok cwd ∧ (cwd ++ STATIC).length < PATH_MAX ∧ root = cwd ++ STATIC := by
  unfold resolveRoot
  rw [if_pos rfl]
  cases env.cwd with
  | error e => simp
  | ok cwd =>
    by_cases hfits : cwd.length + STATIC.length < PATH_MAX
    · simp [hfits, eq_comm]
    · simp [hfits]

/-- **Calls with a known root.** -/
theorem resolveCalls_ok_iff (hroot : root ≠ []) {r : Bytes × List SwsResourceInfo} :
    resolveCalls root calls = .ok r ↔ (∀ call ∈ calls, call.Works root) ∧
      r = (root, calls.map fun call => call.resolved root) := by
  induction calls generalizing r with
  | nil => simp [resolveCalls, eq_comm]
  | cons call calls ih =>
    have hknown : resolveRoot root call.env = .ok root := if_neg hroot
    rw [resolveCalls, bind_ok_iff]
    constructor
    · intro ⟨⟨root', info⟩, hfirst, h⟩
      obtain ⟨hsame, hworks, rfl⟩ := ResolveCall.start_ok_iff.mp hfirst
      obtain rfl := Except.ok.inj (hknown.symm.trans hsame)
      obtain ⟨rest, hrest, h⟩ := bind_ok_iff.mp h
      obtain ⟨hall, rfl⟩ := ih.mp hrest
      exact ⟨List.forall_mem_cons.mpr ⟨hworks, hall⟩, (Except.ok.inj h).symm⟩
    · intro ⟨hall, hr⟩
      obtain ⟨hworks, hall⟩ := List.forall_mem_cons.mp hall
      refine ⟨(root, call.resolved root), ?_, ?_⟩
      · exact ResolveCall.start_ok_iff.mpr ⟨hknown, hworks, rfl⟩
      · rw [bind_ok_iff]
        exact ⟨_, ih.mpr ⟨hall, rfl⟩, congrArg Except.ok hr.symm⟩

/-- A query is cut off. -/
theorem target_query {p : Bytes} (hp : QUESTION_MARK ∉ p) (q : Bytes) :
    target (p ++ QUESTION_MARK :: q) = target p := by
  have hcut : ∀ t, (p ++ t).takeWhile (fun c => decide (c ≠ QUESTION_MARK))
      = p ++ t.takeWhile (fun c => decide (c ≠ QUESTION_MARK)) := by
    intro t
    refine List.takeWhile_append_of_pos fun c hc => ?_
    have hne : c ≠ QUESTION_MARK := fun h => hp (h ▸ hc)
    exact decide_eq_true hne
  have hself := hcut []
  rw [List.append_nil, List.takeWhile_nil, List.append_nil] at hself
  have hquery : beforeQuery (p ++ QUESTION_MARK :: q) = beforeQuery p := by
    rw [beforeQuery, beforeQuery, hcut, hself]
    simp
  rw [target, target, hquery]

/-- `/` with a query is the index; a URL that begins with its query is the root itself. -/
example : target (ascii "/?q=1") = ascii "/index.html" ∧ target (ascii "?/") = [] := by decide

end

/-- **URL resolution.**  The calls return exactly if the first one gets a working directory and
every string fits; then each path is made of that directory, of `/static`, and of what precedes the
query in the URL of the call, or `/index.html` for `/`. -/
theorem resolveCalls_paths (call : ResolveCall) (calls : List ResolveCall)
    (r : Bytes × List SwsResourceInfo) :
    (resolveCalls [] (call :: calls) = .ok r ↔
      ∃ cwd, call.env.cwd = .ok cwd ∧ (cwd ++ ascii "/static").length < PATH_MAX ∧
        (∀ call' ∈ call :: calls, call'.Works (cwd ++ ascii "/static")) ∧
        r = (cwd ++ ascii "/static",
          (call :: calls).map fun call' => call'.resolved (cwd ++ ascii "/static"))) ∧
    ∀ p q, QUESTION_MARK ∉ p → target (p ++ QUESTION_MARK :: q) = target p := by
  refine ⟨?_, fun p q hp => target_query hp q⟩
  rw [resolveCalls, bind_ok_iff]
  constructor
  · intro ⟨⟨root, info⟩, hfirst, h⟩
    obtain ⟨hroot, hworks, rfl⟩ := ResolveCall.start_ok_iff.mp hfirst
    have hne := (resolveRoot_idem hroot call.env).1
    obtain ⟨cwd, hcwd, hfits, rfl⟩ := resolveRoot_unknown.mp hroot
    obtain ⟨rest, hrest, h⟩ := bind_ok_iff.mp h
    obtain ⟨hall, rfl⟩ := (resolveCalls_ok_iff hne).mp hrest
    exact ⟨cwd, hcwd, hfits, List.forall_mem_cons.mpr ⟨hworks, hall⟩, (Except.ok.inj h).symm⟩
  · intro ⟨cwd, hcwd, hfits, hall, hr⟩
    obtain ⟨hworks, hall⟩ := List.forall_mem_cons.mp hall
    have hroot : resolveRoot [] call.env = .ok (cwd ++ STATIC) :=
      resolveRoot_unknown.mpr ⟨cwd, hcwd, hfits, rfl⟩
    have hne := (resolveRoot_idem hroot call.env).1
    refine ⟨(cwd ++ STATIC, call.resolved (cwd ++ STATIC)), ?_, ?_⟩
    · exact ResolveCall.start_ok_iff.mpr ⟨hroot, hworks, rfl⟩
    · rw [bind_ok_iff]
      exact ⟨_, (resolveCalls_ok_iff hne).mpr ⟨hall, rfl⟩, congrArg Except.ok hr.symm⟩

end LibuvDox.StaticWebServer
