import Mathlib.Tactic

/-!
# What the examples share: bytes, libuv results, and ways to stop

The examples are C programs over libuv.  A C string is the list of its bytes before the
terminating NUL, a libuv error is a negative code, and a callback that does not return stops the
process: by `exit(1)` in one of the error macros, by a failing `assert`, or by doing something
the C standard gives no meaning to (`undefined`), after which nothing can be said.
-/

namespace LibuvDox

abbrev Bytes := List UInt8

/-- The bytes of an ASCII literal of the source. -/
def ascii (s : String) : Bytes := s.toList.map fun c => c.toNat.toUInt8

/-- Why a process does not go on. -/
inductive Stop where
  /-- `exit(1)`, with the message of the error macro. -/
  | exit (msg : String)
  /-- An `assert` failed. -/
  | assertFailed (text : String)
  /-- Use of freed or uninitialised memory, a write past the end of an array. -/
  | undefined (what : String)
  deriving DecidableEq, Repr

/-- `CHECK(r, msg)`. -/
def check (r : ℤ) (msg : String) : Except Stop Unit :=
  if r ≠ 0 then .error (.exit msg) else .ok ()

/-- `assert(p)`. -/
def cAssert (p : Prop) [Decidable p] (text : String) : Except Stop Unit :=
  if p then .ok () else .error (.assertFailed text)

/-- `if (r) ERROR(msg, r)`, where the macro prints its message and ends in `assert(0)`. -/
def ifError (r : ℤ) : Except Stop Unit :=
  if r ≠ 0 then .error (.assertFailed "0") else .ok ()

/-- Read through a pointer to a block that may have been freed. -/
def deref {α : Type} (block : Option α) (what : String) : Except Stop α :=
  match block with
  | some a => .ok a
  | none => .error (.undefined what)

section Results

variable {α β ε : Type}

theorem bind_ok_iff {x : Except ε α} {f : α → Except ε β} {b : β} :
    (x >>= f) = .ok b ↔ ∃ a, x = .ok a ∧ f a = .ok b := by
  cases x with
  | error e => simp [bind, Except.bind]
  | ok a => simp [bind, Except.bind]

/-- A key that no two entries of a list share tells its entries apart. -/
theorem ne_of_nodup_map {l : List α} {f : α → β} (h : (l.map f).Nodup) {i j : ℕ} {a b : α}
    (hi : l[i]? = some a) (hj : l[j]? = some b) (hne : j ≠ i) : f b ≠ f a := by
  obtain ⟨hilt, rfl⟩ := List.getElem?_eq_some_iff.mp hi
  obtain ⟨hjlt, rfl⟩ := List.getElem?_eq_some_iff.mp hj
  intro heq
  have hilt' : i < (l.map f).length := by rwa [List.length_map]
  have hjlt' : j < (l.map f).length := by rwa [List.length_map]
  have hsame : (l.map f)[j] = (l.map f)[i] := by simpa using heq
  exact hne (h.getElem_inj_iff.mp hsame)

/-- A field of an entry, after an entry was appended that has the default there. -/
theorem getD_map_append {l : List α} {a : α} {f : α → β} {d : β} (ha : f a = d) (i : ℕ) :
    ((l ++ [a])[i]?.map f).getD d = (l[i]?.map f).getD d := by
  rcases Nat.lt_trichotomy i l.length with hlt | rfl | hgt
  · rw [List.getElem?_append_left hlt]
  · simp [ha]
  · rw [List.getElem?_eq_none (by simp; omega), List.getElem?_eq_none (by omega)]

/-- A field of an entry, after an entry was replaced. -/
theorem getD_map_set {l : List α} {a : α} {j : ℕ} (hj : l[j]? = some a) (a' : α) (f : α → β)
    (d : β) (i : ℕ) :
    ((l.set j a')[i]?.map f).getD d = if i = j then f a' else (l[i]?.map f).getD d := by
  by_cases hi : i = j
  · subst hi
    obtain ⟨hlt, -⟩ := List.getElem?_eq_some_iff.mp hj
    simp [hlt]
  · rw [if_neg hi, List.getElem?_set_ne (Ne.symm hi)]

/-- What every step of a fold that returns preserves holds in the end. -/
theorem foldlM_ok_invariant {f : β → α → Except ε β} {P : β → Prop} {l : List α} {b c : β}
    (h : l.foldlM f b = .ok c) (h0 : P b)
    (hstep : ∀ b a c, a ∈ l → P b → f b a = .ok c → P c) : P c := by
  induction l generalizing b with
  | nil =>
    cases h
    exact h0
  | cons a l ih =>
    rw [List.foldlM_cons] at h
    obtain ⟨d, hd, h⟩ := bind_ok_iff.mp h
    refine ih h (hstep b a d List.mem_cons_self h0 hd) ?_
    intro b' a' c' hmem
    exact hstep b' a' c' (List.mem_cons_of_mem a hmem)

@[simp] theorem check_ok_iff {r : ℤ} {msg : String} {u : Unit} :
    check r msg = .ok u ↔ r = 0 := by
  unfold check
  split <;> simp_all

@[simp] theorem ifError_ok_iff {r : ℤ} {u : Unit} : ifError r = .ok u ↔ r = 0 := by
  unfold ifError
  split <;> simp_all

@[simp] theorem cAssert_ok_iff {p : Prop} [Decidable p] {text : String} {u : Unit} :
    cAssert p text = .ok u ↔ p := by
  unfold cAssert
  split <;> simp_all

@[simp] theorem deref_ok_iff {block : Option α} {what : String} {a : α} :
    deref block what = .ok a ↔ block = some a := by
  cases block <;> simp [deref]

end Results

/-! ### `int` -/

/-- The conversion to `int`. -/
def toInt (x : ℤ) : ℤ := x.bmod (2 ^ 32)

/-- The addition of two `int`s, which must not overflow. -/
def addInt (x y : ℤ) : Except Stop ℤ :=
  if -2 ^ 31 ≤ x + y ∧ x + y < 2 ^ 31 then .ok (x + y) else .error (.undefined "int overflow")

/-- The multiplication of two `int`s, which must not overflow. -/
def mulInt (x y : ℤ) : Except Stop ℤ :=
  if -2 ^ 31 ≤ x * y ∧ x * y < 2 ^ 31 then .ok (x * y) else .error (.undefined "int overflow")

theorem toInt_of_fits {x : ℤ} (hlow : -2 ^ 31 ≤ x) (hhigh : x < 2 ^ 31) : toInt x = x :=
  Int.bmod_eq_of_le_mul_two (by norm_num; omega) (by norm_num; omega)

theorem toInt_lt (x : ℤ) : toInt x < 2 ^ 31 := by
  have h : x.bmod (2 ^ 32) < (2 ^ 32 + 1) / 2 := Int.bmod_lt (by norm_num)
  exact h

theorem addInt_of_fits {x y : ℤ} (h : -2 ^ 31 ≤ x + y ∧ x + y < 2 ^ 31) :
    addInt x y = .ok (x + y) := if_pos h

theorem addInt_ok {x y z : ℤ} (h : addInt x y = .ok z) : z = x + y := by
  unfold addInt at h
  split at h
  · exact (Except.ok.inj h).symm
  · cases h

theorem mulInt_of_fits {x y : ℤ} (h : -2 ^ 31 ≤ x * y ∧ x * y < 2 ^ 31) :
    mulInt x y = .ok (x * y) := if_pos h

theorem mulInt_ok {x y z : ℤ} (h : mulInt x y = .ok z) : z = x * y ∧ x * y < 2 ^ 31 := by
  unfold mulInt at h
  split at h
  · rename_i hfits
    exact ⟨(Except.ok.inj h).symm, hfits.2⟩
  · cases h

/-! ### Results of libuv -/

/-- `UV_EOF`. -/
def UV_EOF : ℤ := -4095

/-- `UV_ECANCELED`. -/
def UV_ECANCELED : ℤ := -125

/-- A libuv error code: negative, and small enough for every integer type it passes through. -/
structure UvError where
  code : ℤ
  neg : code < 0
  bound : -4096 ≤ code
  deriving DecidableEq, Repr

/-- What a `uv_read_cb` gets: `nread`, and the bytes of the buffer that are valid. -/
structure ReadResult where
  nread : ℤ
  data : Bytes
  valid : data.length = nread.toNat
  deriving DecidableEq, Repr

namespace ReadResult

def chunk (data : Bytes) : ReadResult := ⟨data.length, data, by simp⟩

def eof : ReadResult := ⟨UV_EOF, [], by decide⟩

def fail (e : UvError) : ReadResult := ⟨e.code, [], by have := e.neg; simp; omega⟩

theorem data_ne_nil {r : ReadResult} (h : 0 < r.nread) : r.data ≠ [] := by
  intro hnil
  have hv := r.valid
  rw [hnil, List.length_nil] at hv
  omega

theorem data_of_nonpos {r : ReadResult} (h : r.nread ≤ 0) : r.data = [] := by
  have hv := r.valid
  exact List.eq_nil_of_length_eq_zero (by omega)

end ReadResult

end LibuvDox
