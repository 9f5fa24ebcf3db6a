import LibuvDox.Lib.CString
import LibuvDox.StaticWebServer.ParserFragmentation
import LibuvDox.StaticWebServer.StringOwnership

/-!
# The headers that are kept

Five headers of a request are kept, by the names that `process_header_line` compares the lowered
name of each line with.  Whatever the connection has seen before, after any lines that come in one
fragment for each name and each value, a kept header holds the value of the last line with its name.

* `Memory.strtolower_eq`: the loop of `strtolower` on the bytes in memory.
* `headerOf_eq_some_iff`: the chain of comparisons picks the header with the name.
* `headers_recorded`: what any list of lines leaves.
-/

namespace LibuvDox.StaticWebServer

/-! ### Names -/

/-- The name of a header that is kept. -/
def HeaderName.text : HeaderName → Bytes
  | .userAgent => ascii "user-agent"
  | .host => ascii "host"
  | .accept => ascii "accept"
  | .acceptEncoding => ascii "accept-encoding"
  | .acceptLanguage => ascii "accept-language"

theorem headerOf_text (name : HeaderName) : headerOf name.text = some name := by
  cases name <;> decide

theorem headerOf_eq_some_iff {key : Bytes} {name : HeaderName} :
    headerOf key = some name ↔ key = name.text := by
  constructor
  · intro h
    unfold headerOf at h
    split_ifs at h with h₁ h₂ h₃ h₄ h₅ <;> cases h <;> assumption
  · rintro rfl
    exact headerOf_text name

/-- The loop `while (*p) { *p = tolower(*p); p++; }`; `none` if it leaves the block. -/
def Memory.lowerLoop : Bytes → Option Bytes
  | [] => none
  | c :: cs => if c = 0 then some (c :: cs) else (lowerLoop cs).map (toLower c :: ·)

/-- `strtolower` on the block that holds the name. -/
def Memory.strtolower (s : Bytes) : Except Stop Bytes :=
  deref (Memory.lowerLoop s) "*p"

theorem Memory.strtolower_eq {s : Bytes} (hs : 0 ∉ s) :
    Memory.strtolower (s ++ [0]) = .ok (StaticWebServer.strtolower s ++ [0]) := by
  have hloop : Memory.lowerLoop (s ++ [0]) = some (StaticWebServer.strtolower s ++ [0]) := by
    induction s with
    | nil => rfl
    | cons c s ih =>
      have hc : c ≠ 0 := fun h => hs (h ▸ List.mem_cons_self)
      have hrest := ih fun h => hs (List.mem_cons_of_mem c h)
      simp [Memory.lowerLoop, hc, hrest, StaticWebServer.strtolower]
  rw [Memory.strtolower, hloop]
  rfl

/-! ### Lines -/

/-- A header line whose name and whose value come in one fragment each. -/
structure PlainLine where
  name : Bytes
  value : Bytes
  nameNonempty : name ≠ []
  nameText : 0 ∉ name
  valueText : 0 ∉ value
  fits : value.length < MAX_HEADER_VALUE

namespace PlainLine

def fragments (l : PlainLine) : LineFragments := ⟨[l.name], [l.value]⟩

/-- The callbacks for the line. -/
def calls (l : PlainLine) : List ParserCallback := [.headerField l.name, .headerValue l.value]

theorem clean (l : PlainLine) : l.fragments.Clean where
  name := by simp [fragments]
  value := by simp [fragments]
  nameText := by simpa [fragments] using l.nameText
  valueText := by simpa [fragments] using l.valueText

theorem passes (l : PlainLine) : l.fragments.Passes where
  name := by simpa [fragments, LineFragments.lastName] using l.nameNonempty
  value := rfl
  fits := fun _ => by simpa [fragments, LineFragments.seen] using l.fits

@[simp] theorem seen_fragments (l : PlainLine) : l.fragments.seen = (l.name, l.value) := by
  simp [fragments, LineFragments.seen, LineFragments.lastName]

end PlainLine

/-- The value of the last line with the given name, in any letter case. -/
def lastValue (lines : List PlainLine) (name : HeaderName) : Option Bytes :=
  ((lines.filter fun l => strtolower l.name = name.text).getLast?).map PlainLine.value

section

variable {st a : ParserState} {lines : List PlainLine}

theorem lastValue_eq_recorded (lines : List PlainLine) (name : HeaderName) :
    lastValue lines name = recorded (lines.map fun l => (l.name, l.value)) name := by
  have hname : ∀ l : PlainLine, headerOf (strtolower l.name) = some name ↔
      strtolower l.name = name.text := fun l => headerOf_eq_some_iff
  simp [lastValue, recorded, List.filter_map, Function.comp_def, hname]

/-- Before the first line the strings are in order, whatever came before. -/
theorem sane_of_execute {junk : Garbage} {id : ℕ} {calls : List ParserCallback}
    (h : swsReqParserExecute (swsReqParserInit junk id) calls = .ok st) : st.strings.Sane :=
  (owned_of_execute h).bound

/-- After a line there is no field left. -/
theorem execute_plainLine (hs : st.strings.Sane) (l : PlainLine) :
    ∃ b, swsReqParserExecute st l.calls = .ok b ∧ b.strings.Sane ∧
      b.req.headers = putLine st.req.headers (l.name, l.value) ∧
      b.req.headerLine.field = .null ∧ b.req.headerLine.fieldLen = 0 := by
  obtain ⟨b, hb, -, hheaders, hsane⟩ := execute_line st l.fragments hs l.clean l.passes
  rw [l.seen_fragments] at hheaders
  obtain ⟨c, hc, hlast⟩ := bind_ok_iff.mp ((execute_append st [.headerField l.name]
    [.headerValue l.value]).symm.trans hb)
  obtain ⟨d, hd, hlast⟩ := bind_ok_iff.mp hlast
  cases hlast
  obtain ⟨i, f, -, hnull, hzero, -⟩ := onHeaderValue_ok hd
  exact ⟨b, hb, hsane, hheaders, hnull, hzero⟩

/-- What some lines do, one after another. -/
theorem execute_plainLines (hs : st.strings.Sane) (lines : List PlainLine) :
    ∃ b, swsReqParserExecute st (lines.flatMap PlainLine.calls) = .ok b ∧ b.strings.Sane ∧
      b.req.headers = (lines.map fun l => (l.name, l.value)).foldl putLine st.req.headers ∧
      (lines ≠ [] → b.req.headerLine.field = .null ∧ b.req.headerLine.fieldLen = 0) := by
  induction lines generalizing st with
  | nil => exact ⟨st, rfl, hs, rfl, fun h => absurd rfl h⟩
  | cons l ls ih =>
    obtain ⟨b, hb, hsane, hheaders, hnull, hzero⟩ := execute_plainLine hs l
    obtain ⟨c, hc, hsane', hheaders', hlast⟩ := ih hsane
    refine ⟨c, ?_, hsane', ?_, fun _ => ?_⟩
    · rw [List.flatMap_cons, execute_append, hb]
      exact hc
    · rw [hheaders', hheaders]
      rfl
    · by_cases hls : ls = []
      · subst hls
        cases hc
        exact ⟨hnull, hzero⟩
      · exact hlast hls

end

/-- **Header recording.**  On a connection in any state, the callbacks of any header lines return;
then each kept header has the value of the last line with its name, or what it had before; and
between two lines, as after the last, there is no field. -/
theorem headers_recorded (junk : Garbage) (id : ℕ) (before : List ParserCallback)
    (st : ParserState) (h : swsReqParserExecute (swsReqParserInit junk id) before = .ok st)
    (lines : List PlainLine) :
    ∃ a, swsReqParserExecute st (lines.flatMap PlainLine.calls) = .ok a ∧
      (∀ name, a.req.headers.get name =
        (lastValue lines name).getD (st.req.headers.get name)) ∧
      ∀ ls₁ ls₂, lines = ls₁ ++ ls₂ → ls₁ ≠ [] → ∃ b,
        swsReqParserExecute st (ls₁.flatMap PlainLine.calls) = .ok b ∧
        swsReqParserExecute b (ls₂.flatMap PlainLine.calls) = .ok a ∧
        b.req.headerLine.field = .null ∧ b.req.headerLine.fieldLen = 0 := by
  obtain ⟨a, ha, -, hheaders, -⟩ := execute_plainLines (sane_of_execute h) lines
  have hfits : ∀ l ∈ lines.map fun l => (l.name, l.value), Fits l := by
    simp only [List.forall_mem_map]
    exact fun l _ _ => l.fits
  have hclean : ∀ l ∈ lines.map fun l => (l.name, l.value), 0 ∉ l.2 := by
    simp only [List.forall_mem_map]
    exact fun l _ => l.valueText
  refine ⟨a, ha, fun name => ?_, fun ls₁ ls₂ hlines hne => ?_⟩
  · rw [hheaders, get_foldl_putLine _ _ hfits hclean, lastValue_eq_recorded]
  · obtain ⟨b, hb, -, -, hnull⟩ := execute_plainLines (sane_of_execute h) ls₁
    refine ⟨b, hb, ?_, hnull hne⟩
    rw [hlines, List.flatMap_append, execute_append, hb] at ha
    exact ha

/-- `HOST`, another header, and `Host`: the last value counts. -/
theorem headers_recorded_host : ∃ st a,
    swsReqParserExecute (swsReqParserInit usedBlock 0) [.messageBegin, .url (ascii "/")] = .ok st ∧
    swsReqParserExecute st [.headerField (ascii "HOST"), .headerValue (ascii "a"),
      .headerField (ascii "Via"), .headerValue (ascii "b"),
      .headerField (ascii "Host"), .headerValue (ascii "c")] = .ok a ∧
    a.req.headers.get .host = ascii "c" ∧ a.req.headers.get .accept = [7] := by
  obtain ⟨st, hst⟩ : ∃ st, swsReqParserExecute (swsReqParserInit usedBlock 0)
      [.messageBegin, .url (ascii "/")] = .ok st := ⟨_, rfl⟩
  have hbefore : st.req.headers = .all [7] := by
    cases hst
    rfl
  obtain ⟨a, ha, hget, -⟩ := headers_recorded usedBlock 0 _ st hst
    [⟨ascii "HOST", ascii "a", by decide, by decide, by decide, by decide⟩,
      ⟨ascii "Via", ascii "b", by decide, by decide, by decide, by decide⟩,
      ⟨ascii "Host", ascii "c", by decide, by decide, by decide, by decide⟩]
  refine ⟨st, a, hst, ha, ?_, ?_⟩
  · rw [hget .host]
    rfl
  · rw [hget .accept, hbefore]
    rfl

end LibuvDox.StaticWebServer
