import LibuvDox.Lib.Decimal

/-!
# Control sequences of a terminal

A stream of bytes for a terminal is a sequence of characters and of control sequences: an escape, a
bracket, numbers with semicolons between them, and a final byte that says what is to be done.

* `decode`: the terminal's reading of a stream, byte by byte.
* `decode_encode`: it is the only one.
-/

namespace LibuvDox

/-- What a terminal is told: to show a character, or to carry out a command. -/
inductive Token where
  | char (c : UInt8)
  | control (params : List ℕ) (final : UInt8)
  deriving DecidableEq, Repr

namespace Token

def ESC : UInt8 := 27

/-- `[`. -/
def BRACKET : UInt8 := 91

/-- `;`. -/
def SEMICOLON : UInt8 := 59

def WellFormed : Token → Prop
  | char c => c ≠ ESC
  | control _ final => 64 ≤ final ∧ final ≤ 126

def encodeParams : List ℕ → List UInt8
  | [] => []
  | [n] => decimal n
  | n :: m :: ns => decimal n ++ SEMICOLON :: encodeParams (m :: ns)

def encode : Token → List UInt8
  | char c => [c]
  | control params final => ESC :: BRACKET :: (encodeParams params ++ [final])

/-- What the terminal has read of a token: nothing, the escape, or the numbers before the one it is
in, and this one as far as it has come. -/
inductive Mode where
  | ground
  | escape
  | params (done : List ℕ) (current : Option ℕ)
  deriving DecidableEq, Repr

/-- The next byte, which may complete a token. -/
def step : Mode → UInt8 → Option (Mode × Option Token)
  | .ground, c => if c = ESC then some (.escape, none) else some (.ground, some (.char c))
  | .escape, c => if c = BRACKET then some (.params [] none, none) else none
  | .params done current, c =>
    if isDigit c then some (.params done (some (addDigit (current.getD 0) c)), none)
    else if c = SEMICOLON then some (.params (done ++ [current.getD 0]) none, none)
    else if 64 ≤ c ∧ c ≤ 126 then some (.ground, some (.control (done ++ current.toList) c))
    else none

def decodeFrom : Mode → List UInt8 → Option (Mode × List Token)
  | m, [] => some (m, [])
  | m, c :: cs => do
    let (m, token) ← step m c
    let (m, tokens) ← decodeFrom m cs
    some (m, token.toList ++ tokens)

/-- The tokens of a stream that ends with the last of them. -/
def decode (cs : List UInt8) : Option (List Token) :=
  match decodeFrom .ground cs with
  | some (.ground, tokens) => some tokens
  | _ => none

theorem decodeFrom_cons {m m' m'' : Mode} {c : UInt8} {cs : List UInt8} {token : Option Token}
    {tokens : List Token} (hstep : step m c = some (m', token))
    (hrest : decodeFrom m' cs = some (m'', tokens)) :
    decodeFrom m (c :: cs) = some (m'', token.toList ++ tokens) := by
  simp [decodeFrom, hstep, hrest]

theorem decodeFrom_append {m m' m'' : Mode} {cs ds : List UInt8} {tokens tokens' : List Token}
    (hcs : decodeFrom m cs = some (m', tokens)) (hds : decodeFrom m' ds = some (m'', tokens')) :
    decodeFrom m (cs ++ ds) = some (m'', tokens ++ tokens') := by
  induction cs generalizing m tokens with
  | nil =>
    cases hcs
    exact hds
  | cons c cs ih =>
    simp only [decodeFrom, Option.bind_eq_bind, Option.bind_eq_some_iff] at hcs
    obtain ⟨⟨m₁, token⟩, hstep, ⟨m₂, rest⟩, hrest, hresult⟩ := hcs
    cases hresult
    rw [List.cons_append, List.append_assoc]
    exact decodeFrom_cons hstep (ih hrest)

theorem decodeFrom_digits {done : List ℕ} {current : Option ℕ} {ds : List UInt8}
    (hds : ∀ c ∈ ds, isDigit c = true) (hne : ds ≠ []) :
    decodeFrom (.params done current) ds
      = some (.params done (some (ds.foldl addDigit (current.getD 0))), []) := by
  induction ds generalizing current with
  | nil => exact absurd rfl hne
  | cons d ds ih =>
    have hstep : step (.params done current) d
        = some (.params done (some (addDigit (current.getD 0) d)), none) :=
      if_pos (hds d List.mem_cons_self)
    by_cases hnil : ds = []
    · rw [hnil]
      exact decodeFrom_cons hstep rfl
    · exact decodeFrom_cons hstep (ih (fun c hc => hds c (List.mem_cons_of_mem d hc)) hnil)

theorem decodeFrom_decimal (done : List ℕ) (n : ℕ) :
    decodeFrom (.params done none) (decimal n) = some (.params done (some n), []) := by
  rw [decodeFrom_digits isDigit_of_mem_decimal (decimal_ne_nil n), Option.getD_none, foldl_decimal]

/-- The final byte is none of those that come before it. -/
theorem step_final {done : List ℕ} {current : Option ℕ} {final : UInt8} (hlow : 64 ≤ final)
    (hhigh : final ≤ 126) :
    step (.params done current) final
      = some (.ground, some (.control (done ++ current.toList) final)) := by
  have hdigit : ¬ isDigit final = true := by
    have hnine : ¬ final ≤ 57 := by
      rw [UInt8.le_iff_toNat_le] at hlow ⊢
      exact not_le.mpr (lt_of_lt_of_le (by decide) hlow)
    simp [isDigit, hnine]
  have hsemicolon : final ≠ SEMICOLON := by
    rintro rfl
    exact absurd hlow (by decide)
  rw [step, if_neg hdigit, if_neg hsemicolon, if_pos ⟨hlow, hhigh⟩]

theorem decodeFrom_params {done params : List ℕ} {final : UInt8} (hlow : 64 ≤ final)
    (hhigh : final ≤ 126) :
    decodeFrom (.params done none) (encodeParams params ++ [final])
      = some (.ground, [.control (done ++ params) final]) := by
  induction params generalizing done with
  | nil => exact decodeFrom_cons (step_final hlow hhigh) rfl
  | cons n ns ih =>
    cases ns with
    | nil =>
      exact decodeFrom_append (decodeFrom_decimal done n)
        (decodeFrom_cons (step_final hlow hhigh) rfl)
    | cons m ns =>
      have hsemicolon : step (.params done (some n)) SEMICOLON
          = some (.params (done ++ [n]) none, none) := rfl
      have hrest : decodeFrom (.params (done ++ [n]) none) (encodeParams (m :: ns) ++ [final])
          = some (.ground, [.control (done ++ n :: m :: ns) final]) := by
        rw [ih, List.append_assoc, List.singleton_append]
      rw [encodeParams, List.append_assoc]
      exact decodeFrom_append (decodeFrom_decimal done n) (decodeFrom_cons hsemicolon hrest)

theorem decodeFrom_encode {t : Token} (ht : t.WellFormed) :
    decodeFrom .ground t.encode = some (.ground, [t]) := by
  cases t with
  | char c =>
    have hstep : step .ground c = some (.ground, some (.char c)) := if_neg ht
    exact decodeFrom_cons hstep rfl
  | control params final =>
    have hescape : step .ground ESC = some (.escape, none) := rfl
    have hbracket : step .escape BRACKET = some (.params [] none, none) := rfl
    exact decodeFrom_cons hescape
      (decodeFrom_cons hbracket (decodeFrom_params ht.1 ht.2))

/-- **Round trip.** -/
theorem decode_encode {ts : List Token} (hts : ∀ t ∈ ts, t.WellFormed) :
    decode (ts.flatMap encode) = some ts := by
  have hfrom : decodeFrom .ground (ts.flatMap encode) = some (.ground, ts) := by
    induction ts with
    | nil => rfl
    | cons t ts ih =>
      rw [List.flatMap_cons]
      exact decodeFrom_append (decodeFrom_encode (hts t List.mem_cons_self))
        (ih fun t' ht' => hts t' (List.mem_cons_of_mem t ht'))
  rw [decode, hfrom]

end Token

end LibuvDox
