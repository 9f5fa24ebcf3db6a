import LibuvDox.StaticWebServer.ResolveResource

/-!
# The chain of stats behind one request

`on_parse_complete` starts the resolution of the URL.  When its stat fails, `on_resolve_resource`
starts another resolution, of `/404.html`, with itself as the callback, so that page is looked up
again as often as its own stat fails.  The chain is followed here for one request, under a file
system that may answer every stat differently.
-/

namespace LibuvDox.StaticWebServer

def NOT_FOUND : Bytes := ascii "/404.html"

/-- The 404 page is looked up in the root. -/
theorem resolveUrl_notFound (root : Bytes) : resolveUrl root NOT_FOUND = root ++ NOT_FOUND := by
  rw [resolveUrl, if_neg (by decide), show noQuery NOT_FOUND = NOT_FOUND by decide]

/-- What `on_resolve_resource` goes on with: another stat, or the transfer of a file. -/
inductive Resolution where
  | again
  | pipe (path : Bytes) (size : ℕ)
  deriving DecidableEq, Repr

/-- `if (info->result)` in `on_resolve_resource`. -/
def resolution (info : SwsResourceInfo) : Resolution :=
  if info.result ≠ 0 then .again else .pipe info.fullPath info.size

/-- The resolution of one request: the root array, the resource, the number of stats issued, and
whether the last one is still outstanding. -/
structure Chain where
  root : Bytes
  info : SwsResourceInfo
  issued : ℕ
  outstanding : Bool
  deriving DecidableEq, Repr

section

variable (env : ℕ → ResolveEnv) (fs : ℕ → Bytes → StatResult)

/-- `sws_resolve_resource_init` and `sws_resolve_resource_start`, as call number `k`. -/
def issueStat (k : ℕ) (root : Bytes) (info : SwsResourceInfo) (urlPath : Bytes) :
    Except Stop Chain := do
  let r ← swsResolveResourceStart root (env k) (swsResolveResourceInit info) urlPath
  .ok ⟨r.1, r.2, k + 1, true⟩

/-- `fs_stat_cb` and `on_resolve_resource`, for the stat that is outstanding. -/
def answerStat (c : Chain) : Except Stop Chain :=
  let info := fsStatCb c.info (fs (c.issued - 1) c.info.fullPath)
  match resolution info with
  | .again => issueStat env c.issued c.root info NOT_FOUND
  | .pipe _ _ => .ok { c with info := info, outstanding := false }

/-- The chain for a URL, after `n` answers of the file system. -/
def resolveChain (root : Bytes) (info : SwsResourceInfo) (urlPath : Bytes) :
    ℕ → Except Stop Chain
  | 0 => issueStat env 0 root info urlPath
  | n + 1 => do
    let c ← resolveChain root info urlPath n
    if c.outstanding then answerStat env fs c else .ok c

/-- The first stat succeeds, or the second one, for the 404 page, does; or the process does not
get as far as a third. -/
def AnsweredByTwo (root urlPath : Bytes) : Prop :=
  ∀ r, Starts root (env 0) r urlPath →
    (fs 0 (resolveUrl r urlPath)).isOk ∨
      (Starts r (env 1) r NOT_FOUND →
        (fs 1 (resolveUrl r NOT_FOUND)).isOk ∨ ¬ Starts r (env 2) r NOT_FOUND)

variable {env fs}

theorem issueStat_ok_iff {k : ℕ} {root urlPath : Bytes} {info : SwsResourceInfo} {c : Chain} :
    issueStat env k root info urlPath = .ok c ↔
      Starts root (env k) c.root urlPath ∧ c.issued = k + 1 ∧ c.outstanding = true ∧
        c.info = { info with result := 0, fullPath := resolveUrl c.root urlPath } := by
  rw [issueStat, bind_ok_iff]
  constructor
  · rintro ⟨⟨r, i⟩, hr, h⟩
    obtain ⟨hs, rfl⟩ := swsResolveResourceStart_ok_iff.mp hr
    cases h
    exact ⟨hs, rfl, rfl, rfl⟩
  · obtain ⟨root', info', issued, outstanding⟩ := c
    intro h
    dsimp only at h
    obtain ⟨hs, hk, hout, hinfo⟩ := h
    refine ⟨(root', info'), swsResolveResourceStart_ok_iff.mpr ⟨hs, hinfo⟩, ?_⟩
    rw [hk, hout]

/-- A stat that fails is followed by one for the 404 page. -/
theorem answerStat_fail {c : Chain} (hfail : ¬ (fs (c.issued - 1) c.info.fullPath).isOk) :
    ∃ info, answerStat env fs c = issueStat env c.issued c.root info NOT_FOUND := by
  cases hf : fs (c.issued - 1) c.info.fullPath with
  | error e =>
    have hne := toUnsigned_ne_zero e
    refine ⟨{ c.info with result := toUnsigned e.code }, ?_⟩
    simp [answerStat, hf, fsStatCb, resolution, hne]
  | ok size =>
    rw [hf] at hfail
    exact absurd rfl hfail

/-- What an answer does to the chain: a stat that succeeds ends it, one that fails has another one
issued. -/
theorem answerStat_cases {c d : Chain} (hres : c.info.result = 0)
    (h : answerStat env fs c = .ok d) :
    (d.outstanding = false ∧ d.issued = c.issued) ∨
      (¬ (fs (c.issued - 1) c.info.fullPath).isOk ∧
        ∃ info, issueStat env c.issued c.root info NOT_FOUND = .ok d) := by
  cases hf : fs (c.issued - 1) c.info.fullPath with
  | error e =>
    have hok : ¬ (fs (c.issued - 1) c.info.fullPath).isOk := by
      rw [hf]
      exact Bool.false_ne_true
    obtain ⟨i, hi⟩ := answerStat_fail hok
    rw [hi] at h
    rw [hf] at hok
    exact .inr ⟨hok, i, h⟩
  | ok size =>
    have hd : answerStat env fs c
        = .ok { c with info := { c.info with size := size }, outstanding := false } := by
      simp [answerStat, hf, fsStatCb, resolution, hres]
    rw [hd] at h
    cases h
    exact .inl ⟨rfl, rfl⟩

/-- What every state of the chain satisfies while a stat is outstanding: the result is the fresh
0, and the number of answers is one behind the number of stats. -/
theorem resolveChain_outstanding {root : Bytes} {info : SwsResourceInfo} {urlPath : Bytes} {n : ℕ}
    {c : Chain} (h : resolveChain env fs root info urlPath n = .ok c)
    (hout : c.outstanding = true) :
    c.issued = n + 1 ∧ c.info.result = 0 := by
  induction n generalizing c with
  | zero =>
    obtain ⟨-, hk, -, hinfo⟩ := issueStat_ok_iff.mp h
    exact ⟨hk, by rw [hinfo]⟩
  | succ n ih =>
    obtain ⟨b, hb, h⟩ := bind_ok_iff.mp h
    split at h
    · rename_i hbo
      obtain ⟨hk, hres⟩ := ih hb hbo
      rcases answerStat_cases hres h with ⟨hend, -⟩ | ⟨-, i, hi⟩
      · rw [hend] at hout
        cases hout
      · obtain ⟨-, hk', -, hinfo⟩ := issueStat_ok_iff.mp hi
        exact ⟨by omega, by rw [hinfo]⟩
    · cases h
      contradiction

/-- What one more answer does to the chain. -/
theorem resolveChain_succ_cases {root : Bytes} {info : SwsResourceInfo} {urlPath : Bytes} {n : ℕ}
    {c : Chain} (h : resolveChain env fs root info urlPath (n + 1) = .ok c) :
    ∃ b, resolveChain env fs root info urlPath n = .ok b ∧
      ((c.outstanding = false ∧ c.issued = b.issued) ∨
        (b.outstanding = true ∧ ¬ (fs n b.info.fullPath).isOk ∧
          ∃ info, issueStat env (n + 1) b.root info NOT_FOUND = .ok c)) := by
  obtain ⟨b, hb, h⟩ := bind_ok_iff.mp h
  refine ⟨b, hb, ?_⟩
  split at h
  · rename_i hbo
    obtain ⟨hk, hres⟩ := resolveChain_outstanding hb hbo
    rcases answerStat_cases hres h with hend | ⟨hfail, hi⟩
    · exact .inl hend
    · rw [hk] at hfail hi
      exact .inr ⟨hbo, hfail, hi⟩
  · cases h
    exact .inl ⟨by simp_all, rfl⟩

/-! ### Which stats are issued -/

variable (env fs) in
/-- After `n` answers the chain waits for one more, for the path `path`. -/
def Awaits (root : Bytes) (info : SwsResourceInfo) (urlPath : Bytes) (n : ℕ) (r path : Bytes) :
    Prop :=
  ∃ c, resolveChain env fs root info urlPath n = .ok c ∧ c.outstanding = true ∧ c.root = r ∧
    c.info.fullPath = path

variable {root urlPath : Bytes} {info : SwsResourceInfo}

theorem awaits_zero_iff {r path : Bytes} :
    Awaits env fs root info urlPath 0 r path ↔
      Starts root (env 0) r urlPath ∧ path = resolveUrl r urlPath := by
  constructor
  · intro ⟨c, hc, hout, hr, hp⟩
    obtain ⟨hs, -, -, hinfo⟩ := issueStat_ok_iff.mp hc
    subst hr
    exact ⟨hs, by rw [← hp, hinfo]⟩
  · intro ⟨hs, hp⟩
    refine ⟨⟨r, { info with result := 0, fullPath := resolveUrl r urlPath }, 1, true⟩, ?_, rfl, rfl,
      hp.symm⟩
    exact issueStat_ok_iff.mpr ⟨hs, rfl, rfl, rfl⟩

/-- The root of the chain is known from its first stat on. -/
theorem Awaits.root_known {n : ℕ} {r path : Bytes}
    (h : Awaits env fs root info urlPath n r path) : ∀ e, resolveRoot r e = .ok r := by
  induction n generalizing r path with
  | zero => exact fun e => (resolveRoot_idem (awaits_zero_iff.mp h).1.root e).2
  | succ n ih =>
    obtain ⟨c, hc, hout, hr, hp⟩ := h
    obtain ⟨b, hb, ⟨hend, -⟩ | ⟨-, -, i, hi⟩⟩ := resolveChain_succ_cases hc
    · rw [hend] at hout
      cases hout
    · obtain ⟨hs, -⟩ := issueStat_ok_iff.mp hi
      rw [hr] at hs
      exact fun e => (resolveRoot_idem hs.root e).2

theorem awaits_succ_iff {n : ℕ} {r path : Bytes} :
    Awaits env fs root info urlPath (n + 1) r path ↔
      (∃ q, Awaits env fs root info urlPath n r q ∧ ¬ (fs n q).isOk) ∧
        Starts r (env (n + 1)) r NOT_FOUND ∧ path = resolveUrl r NOT_FOUND := by
  constructor
  · intro ⟨c, hc, hout, hr, hp⟩
    obtain ⟨b, hb, ⟨hend, -⟩ | ⟨hbo, hfail, i, hi⟩⟩ := resolveChain_succ_cases hc
    · rw [hend] at hout
      cases hout
    · obtain ⟨hs, -, -, hinfo⟩ := issueStat_ok_iff.mp hi
      have hb' : Awaits env fs root info urlPath n b.root b.info.fullPath :=
        ⟨b, hb, hbo, rfl, rfl⟩
      -- the root was known before, so the 404 page is looked up below the same one
      have hroot : c.root = b.root := by
        have := hs.root
        rw [hb'.root_known] at this
        exact (Except.ok.inj this).symm
      rw [hr] at hroot hs
      rw [← hroot] at hs
      refine ⟨⟨b.info.fullPath, hroot ▸ hb', hfail⟩, hs, ?_⟩
      rw [← hp, hinfo, hr]
  · intro ⟨⟨q, hq, hfail⟩, hs, hp⟩
    obtain ⟨b, hb, hbo, hbr, hbp⟩ := hq
    obtain ⟨hk, -⟩ := resolveChain_outstanding hb hbo
    have hok : ¬ (fs (b.issued - 1) b.info.fullPath).isOk := by
      rw [hk, hbp]
      exact hfail
    obtain ⟨i, hi⟩ := answerStat_fail hok
    refine ⟨⟨r, { i with result := 0, fullPath := resolveUrl r NOT_FOUND }, n + 2, true⟩, ?_, rfl,
      rfl, hp.symm⟩
    refine bind_ok_iff.mpr ⟨b, hb, ?_⟩
    rw [if_pos hbo, hi, hk, hbr]
    exact issueStat_ok_iff.mpr ⟨hs, rfl, rfl, rfl⟩

/-- A chain that waits for an answer has waited for every one before it. -/
theorem Awaits.of_le {m n : ℕ} {r path : Bytes} (h : Awaits env fs root info urlPath n r path)
    (hm : m ≤ n) : ∃ q, Awaits env fs root info urlPath m r q := by
  induction n generalizing path with
  | zero =>
    obtain rfl : m = 0 := by omega
    exact ⟨path, h⟩
  | succ n ih =>
    rcases Nat.lt_or_ge n m with hlt | hge
    · obtain rfl : m = n + 1 := by omega
      exact ⟨path, h⟩
    · obtain ⟨⟨q, hq, -⟩, -⟩ := awaits_succ_iff.mp h
      exact ih hq hge

/-- The stats issued are those the chain has waited for. -/
theorem resolveChain_issued {n : ℕ} {c : Chain}
    (h : resolveChain env fs root info urlPath n = .ok c) :
    ∃ m r q, Awaits env fs root info urlPath m r q ∧ c.issued = m + 1 := by
  induction n generalizing c with
  | zero =>
    obtain ⟨-, hk, hout, -⟩ := issueStat_ok_iff.mp h
    exact ⟨0, c.root, c.info.fullPath, ⟨c, h, hout, rfl, rfl⟩, hk⟩
  | succ n ih =>
    cases hout : c.outstanding with
    | true =>
      exact ⟨n + 1, c.root, c.info.fullPath, ⟨c, h, hout, rfl, rfl⟩,
        (resolveChain_outstanding h hout).1⟩
    | false =>
      obtain ⟨b, hb, ⟨-, hk⟩ | ⟨-, -, i, hi⟩⟩ := resolveChain_succ_cases h
      · obtain ⟨m, r, q, hw, hm⟩ := ih hb
        exact ⟨m, r, q, hw, hk.trans hm⟩
      · obtain ⟨-, -, hco, -⟩ := issueStat_ok_iff.mp hi
        rw [hout] at hco
        cases hco

/-- If every stat fails, and the process survives, there is no end to the chain. -/
theorem awaits_of_no_file {r : Bytes} (h0 : Starts root (env 0) r urlPath)
    (hs : ∀ n, Starts r (env n) r NOT_FOUND) (hfs : ∀ n p, ¬ (fs n p).isOk) (n : ℕ) :
    ∃ q, Awaits env fs root info urlPath n r q := by
  induction n with
  | zero => exact ⟨_, awaits_zero_iff.mpr ⟨h0, rfl⟩⟩
  | succ n ih =>
    obtain ⟨q, hq⟩ := ih
    exact ⟨_, awaits_succ_iff.mpr ⟨⟨q, hq, hfs n q⟩, hs (n + 1), rfl⟩⟩

/-- A third stat is waited for in the cases that two do not answer. -/
theorem awaits_two_iff : (∃ r q, Awaits env fs root info urlPath 2 r q) ↔
    ¬ AnsweredByTwo env fs root urlPath := by
  constructor
  · intro ⟨r, q, h2⟩ hans
    obtain ⟨⟨p1, h1, hf1⟩, hs2, -⟩ := awaits_succ_iff.mp h2
    obtain ⟨⟨p0, h0, hf0⟩, hs1, hp1⟩ := awaits_succ_iff.mp h1
    obtain ⟨hs0, hp0⟩ := awaits_zero_iff.mp h0
    rw [hp0] at hf0
    rw [hp1] at hf1
    rcases hans r hs0 with hok | hnext
    · exact hf0 hok
    · rcases hnext hs1 with hok | hstop
      · exact hf1 hok
      · exact hstop hs2
  · intro hans
    simp only [AnsweredByTwo, not_forall, not_or, not_not] at hans
    obtain ⟨r, hs0, hf0, hs1, hf1, hs2⟩ := hans
    have h0 : Awaits env fs root info urlPath 0 r _ := awaits_zero_iff.mpr ⟨hs0, rfl⟩
    have h1 : Awaits env fs root info urlPath 1 r _ :=
      awaits_succ_iff.mpr ⟨⟨_, h0, hf0⟩, hs1, rfl⟩
    exact ⟨r, _, awaits_succ_iff.mpr ⟨⟨_, h1, hf1⟩, hs2, rfl⟩⟩

/-- **Two stats are enough** exactly when the first one, or the one for the 404 page after it,
succeeds, or a third one cannot be started. -/
theorem issued_le_two_iff :
    (∀ n c, resolveChain env fs root info urlPath n = .ok c → c.issued ≤ 2) ↔
      AnsweredByTwo env fs root urlPath := by
  constructor
  · intro hle
    by_contra hans
    obtain ⟨r, q, c, hc, hout, -⟩ := awaits_two_iff.mpr hans
    have hk := (resolveChain_outstanding hc hout).1
    have := hle 2 c hc
    omega
  · intro hans n c hc
    by_contra hgt
    obtain ⟨m, r, q, hw, hm⟩ := resolveChain_issued hc
    obtain ⟨q', h2⟩ := hw.of_le (show 2 ≤ m by omega)
    exact awaits_two_iff.mp ⟨r, q', h2⟩ hans

end

/-- No file exists below the root, and not even the 404 page: after two answers the chain has
issued a third stat. -/
theorem missing_page_third_stat :
    ¬ (∀ n c, resolveChain (fun _ => ⟨.ok (ascii "/srv/www"), 0⟩)
        (fun _ _ => .error ⟨-2, by decide, by decide⟩) [] ⟨[], 0, 0, none⟩ (ascii "/x") n = .ok c →
      c.issued ≤ 2) := by
  intro h
  have h2 := h 2 ⟨ascii "/srv/www/static", ⟨ascii "/srv/www/static/404.html", 0, 0, none⟩, 3, true⟩
    (by decide)
  exact absurd h2 (by decide)

end LibuvDox.StaticWebServer
