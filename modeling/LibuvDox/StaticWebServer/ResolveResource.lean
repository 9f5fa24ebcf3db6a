import LibuvDox.Uv

/-!
# resolve-resource.c

A URL is resolved to a file below the document root by cutting off the query string and putting
the root in front.  The root is the working directory at the first resolution plus `/static`, and
is kept in a static array.  The file is then looked up with an asynchronous stat, whose answer
`fs_stat_cb` stores in the `sws_resource_info_t` of the request.
-/

namespace LibuvDox.StaticWebServer

/-- `PATH_MAX` of `sys/syslimits.h`. -/
def PATH_MAX : ℕ := 1024

def INDEX_HTML : Bytes := ascii "/index.html"

def STATIC : Bytes := ascii "/static"

/-- The URL up to its end or the first question mark. -/
def noQuery (urlPath : Bytes) : Bytes := urlPath.takeWhile fun c => c ≠ 0 && c ≠ 63

/-- The text `resolve_url` formats into `full_path`. -/
def resolveUrl (root urlPath : Bytes) : Bytes :=
  if noQuery urlPath = ascii "/" then root ++ INDEX_HTML else root ++ noQuery urlPath

/-- `sws_resource_info_t`, without the loop and the callback, which never change. -/
structure SwsResourceInfo where
  fullPath : Bytes
  size : ℕ
  result : ℕ
  data : Option ℕ
  deriving DecidableEq, Repr

/-- What a stat answers: the size of the file, or an error. -/
abbrev StatResult := Except UvError ℕ

/-- `resource_info->result = req->result`, from `ssize_t` to `unsigned int`. -/
def toUnsigned (code : ℤ) : ℕ := (code % 2 ^ 32).toNat

/-- `fs_stat_cb`, up to the call of `resolve_resource_cb`. -/
def fsStatCb (info : SwsResourceInfo) : StatResult → SwsResourceInfo
  | .error e => { info with result := toUnsigned e.code }
  | .ok size => { info with size := size }

/-- The path is written when a stat is issued, not when it is answered. -/
theorem fsStatCb_fullPath (info : SwsResourceInfo) (result : StatResult) :
    (fsStatCb info result).fullPath = info.fullPath := by
  cases result with
  | ok size => rfl
  | error e => rfl

def swsResolveResourceInit (info : SwsResourceInfo) : SwsResourceInfo := { info with result := 0 }

/-- What the environment answers while a resource is resolved: `uv_cwd`, and what the call of
`uv_fs_stat` returns. -/
structure ResolveEnv where
  cwd : Except UvError Bytes
  fsStat : ℤ
  deriving DecidableEq, Repr

/-- The root, resolved unless it is known. -/
def resolveRoot (root : Bytes) (env : ResolveEnv) : Except Stop Bytes :=
  if root = [] then
    match env.cwd with
    | .error _ => .error (.exit "getting cwd")
    | .ok cwd =>
      if (cwd ++ STATIC).length < PATH_MAX then .ok (cwd ++ STATIC)
      else .error (.undefined "strcat past the end of root")
  else .ok root

/-- `sws_resolve_resource_start`: the root and the resource; the stat it issues is for
`full_path`. -/
def swsResolveResourceStart (root : Bytes) (env : ResolveEnv) (info : SwsResourceInfo)
    (urlPath : Bytes) : Except Stop (Bytes × SwsResourceInfo) := do
  let root ← resolveRoot root env
  if (resolveUrl root urlPath).length < PATH_MAX then
    check env.fsStat "fs_stat"
    .ok (root, { info with fullPath := resolveUrl root urlPath })
  else .error (.undefined "sprintf past the end of full_path")

/-- An error never becomes the result 0. -/
theorem toUnsigned_ne_zero (e : UvError) : toUnsigned e.code ≠ 0 := by
  have h1 := e.neg
  have h2 := e.bound
  unfold toUnsigned
  omega

/-- The resolution gets as far as its stat: the root is known or can be had, the path fits, and
libuv accepts the request. -/
structure Starts (root : Bytes) (env : ResolveEnv) (root' urlPath : Bytes) : Prop where
  root : resolveRoot root env = .ok root'
  path : (resolveUrl root' urlPath).length < PATH_MAX
  accepted : env.fsStat = 0

theorem swsResolveResourceStart_ok_iff {root : Bytes} {env : ResolveEnv} {info : SwsResourceInfo}
    {urlPath root' : Bytes} {info' : SwsResourceInfo} :
    swsResolveResourceStart root env info urlPath = .ok (root', info') ↔
      Starts root env root' urlPath ∧
        info' = { info with fullPath := resolveUrl root' urlPath } := by
  rw [swsResolveResourceStart, bind_ok_iff]
  constructor
  · rintro ⟨r, hr, h⟩
    split at h
    · rename_i hlen
      obtain ⟨_, hacc, hok⟩ := bind_ok_iff.mp h
      cases hok
      exact ⟨⟨hr, hlen, check_ok_iff.mp hacc⟩, rfl⟩
    · cases h
  · rintro ⟨⟨hr, hlen, hacc⟩, rfl⟩
    exact ⟨root', hr, by simp [hlen, hacc, check, bind, Except.bind]⟩

/-- A root that is known is not resolved again. -/
theorem resolveRoot_idem {root root' : Bytes} {env : ResolveEnv}
    (h : resolveRoot root env = .ok root') (env' : ResolveEnv) :
    root' ≠ [] ∧ resolveRoot root' env' = .ok root' := by
  have hne : root' ≠ [] := by
    unfold resolveRoot at h
    split at h
    · split at h
      · cases h
      · split at h
        · cases h
          simp [STATIC, ascii]
        · cases h
    · cases h
      assumption
  exact ⟨hne, by simp [resolveRoot, hne]⟩

end LibuvDox.StaticWebServer
