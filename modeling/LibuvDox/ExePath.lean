import LibuvDox.Lib.CString
import LibuvDox.Lib.Simulation
import LibuvDox.CgiServer
import Mathlib.Data.UInt

/-!
# exepath_for_test, exepath_for_tick and exepath_for_worker

17-proc-streams, 18-cgi and 20-multi-echo-server run a second program, which lies next to their
own.  They ask libuv for the path of the executable and copy the name of the other program over
the last four bytes of it.  In `17-proc-streams` the buffer comes from `malloc`; in the others it
is a static array of `PATH_MAX` bytes, which `18-cgi` uses again for every client.

* `exepath_ok_iff`: which paths are dealt with, in each of the three programs.
* `files_of_run`: in every run of the CGI server each child was started from the file next to the
  executable, whatever the array held before.
-/

namespace LibuvDox

namespace ExePath

open CString

/-- `PATH_MAX` of `sys/syslimits.h`. -/
def PATH_MAX : ℕ := 1024

/-- The answer of `uv_exepath`. -/
abbrev Answer := Except UvError Bytes

/-- A path is a string that fits into `PATH_MAX` bytes. -/
def Answer.Valid : Answer → Prop
  | .error _ => True
  | .ok path => path.length < PATH_MAX ∧ ∀ c ∈ path, c ≠ 0

instance : (answer : Answer) → Decidable answer.Valid
  | .error _ => .isTrue trivial
  | .ok path => inferInstanceAs (Decidable (path.length < PATH_MAX ∧ ∀ c ∈ path, c ≠ 0))

/-- `uv_exepath(exepath, &size)`: the buffer and the return value. -/
def uvExepath (exepath : Bytes) : Answer → Bytes × ℤ
  | .error e => (exepath, e.code)
  | .ok path => (path ++ 0 :: exepath.drop (path.length + 1), 0)

/-- The body of the three functions, for the program `target`; the offset is unsigned, so for a
path shorter than `"main"` it is not in the buffer. -/
def exepathFor (target : Bytes) (exepath : Bytes) (answer : Answer) : Except Stop Bytes := do
  let (exepath, r) := uvExepath exepath answer
  ifError r
  let len ← deref (strlen exepath) "strlen(exepath)"
  if len < (ascii "main").length then .error (.undefined "exepath + (strlen(exepath) - 4)")
  else deref (strcpy exepath (len - (ascii "main").length) target) "strcpy past the end of exepath"

/-- `exepath_for_test` of 17-proc-streams; `fresh` is what `malloc` returns. -/
def exepathForTest (fresh : Bytes) (answer : Answer) : Except Stop Bytes :=
  exepathFor (ascii "test") fresh answer

/-- `exepath_for_tick` of 18-cgi. -/
def exepathForTick (exepath : Bytes) (answer : Answer) : Except Stop Bytes :=
  exepathFor (ascii "tick") exepath answer

/-- `exepath_for_worker` of 20-multi-echo-server. -/
def exepathForWorker (exepath : Bytes) (answer : Answer) : Except Stop Bytes :=
  exepathFor (ascii "worker") exepath answer

/-- The last four bytes of a path, replaced. -/
def beside (target : Bytes) (path : Bytes) : Bytes :=
  path.take (path.length - (ascii "main").length) ++ target

/-- In the directory of an executable that is called `main`. -/
theorem beside_main (target dir : Bytes) :
    beside target (dir ++ ascii "/main") = dir ++ ascii "/" ++ target := by
  have hlen : (dir ++ ascii "/main").length - (ascii "main").length =
      (dir ++ ascii "/").length := by
    simp [ascii]
  have hsplit : dir ++ ascii "/main" = (dir ++ ascii "/") ++ ascii "main" := by
    rw [List.append_assoc]
    rfl
  unfold beside
  rw [hlen, hsplit, List.take_left]

section

variable {target exepath path u : Bytes} {answer : Answer}

/-- `strlen` finds the path again. -/
theorem exepathFor_ok (hpath : ∀ c ∈ path, c ≠ 0) :
    exepathFor target exepath (.ok path) =
      if path.length < 4 then .error (.undefined "exepath + (strlen(exepath) - 4)")
      else deref (strcpy (path ++ 0 :: exepath.drop (path.length + 1)) (path.length - 4) target)
        "strcpy past the end of exepath" := by
  show (do
    let len ← deref (strlen (path ++ 0 :: exepath.drop (path.length + 1))) "strlen(exepath)"
    if len < (ascii "main").length then _ else _) = _
  rw [strlen_append_zero hpath]
  rfl

theorem exepathFor_error (e : UvError) :
    exepathFor target exepath (.error e) = .error (.assertFailed "0") := by
  have hcode : e.code ≠ 0 := ne_of_lt e.neg
  show (do ifError e.code; _) = _
  rw [ifError, if_pos hcode]
  rfl

/-- The length of the buffer with the path in it. -/
theorem length_uvExepath (hroom : path.length < exepath.length) :
    (path ++ 0 :: exepath.drop (path.length + 1)).length = exepath.length := by
  simp only [List.length_append, List.length_cons, List.length_drop]
  omega

/-- **When it returns.**  The path has to be long enough to end in `main`, and the buffer must have
room for the other name. -/
theorem exepathFor_ok_iff (hroom : PATH_MAX ≤ exepath.length) (hvalid : answer.Valid) :
    (∃ u, exepathFor target exepath answer = .ok u) ↔ ∃ path, answer = .ok path ∧
      4 ≤ path.length ∧ path.length - 4 + target.length < exepath.length := by
  cases answer with
  | error e =>
    rw [exepathFor_error]
    refine iff_of_false ?_ ?_
    · rintro ⟨u, hu⟩
      cases hu
    · rintro ⟨path, hp, -⟩
      cases hp
  | ok path =>
    obtain ⟨hlen, hpath⟩ := hvalid
    have hfits : path.length < exepath.length := by omega
    rw [exepathFor_ok hpath]
    by_cases hlong : 4 ≤ path.length
    · rw [if_neg (by omega)]
      have hsome := strcpy_isSome_iff (path ++ 0 :: exepath.drop (path.length + 1))
        (path.length - 4) target
      rw [length_uvExepath hfits] at hsome
      constructor
      · intro ⟨u, hu⟩
        have hu' := deref_ok_iff.mp hu
        exact ⟨path, rfl, hlong, hsome.mp (by rw [hu']; rfl)⟩
      · intro ⟨p, hp, _, hend⟩
        cases hp
        obtain ⟨u, hu⟩ := Option.isSome_iff_exists.mp (hsome.mpr hend)
        exact ⟨u, deref_ok_iff.mpr hu⟩
    · rw [if_pos (by omega)]
      refine iff_of_false ?_ ?_
      · rintro ⟨u, hu⟩
        cases hu
      · rintro ⟨p, hp, hlong', -⟩
        cases hp
        exact hlong hlong'

/-- What it leaves in the buffer, whatever was there. -/
theorem text_of_exepathFor (hroom : PATH_MAX ≤ exepath.length) (hvalid : answer.Valid)
    (htarget : ∀ c ∈ target, c ≠ 0) (h : exepathFor target exepath answer = .ok u) :
    ∃ path, answer = .ok path ∧ u.length = exepath.length ∧ text u = beside target path := by
  obtain ⟨path, rfl, hlong, -⟩ := (exepathFor_ok_iff hroom hvalid).mp ⟨u, h⟩
  obtain ⟨hlen, hpath⟩ := hvalid
  have hfits : path.length < exepath.length := by omega
  rw [exepathFor_ok hpath, if_neg (by omega)] at h
  have hfront : (path ++ 0 :: exepath.drop (path.length + 1)).take (path.length - 4)
      = path.take (path.length - 4) := List.take_append_of_le_length (by omega)
  obtain ⟨hsize, htext⟩ := text_of_strcpy (deref_ok_iff.mp h) (by
    rw [hfront]
    exact fun c hc => hpath c (List.mem_of_mem_take hc)) htarget
  rw [hfront] at htext
  rw [length_uvExepath hfits] at hsize
  exact ⟨path, rfl, hsize, htext⟩

/-- **The three programs.**  For every path libuv may answer with, and whatever the buffer held
before: a path shorter than `"main"` is not dealt with, and the name of the worker is one that does
not fit behind every directory. -/
theorem exepath_ok_iff (fresh tick worker : Bytes) (hfresh : fresh.length = 8 * PATH_MAX)
    (htick : tick.length = PATH_MAX) (hworker : worker.length = PATH_MAX)
    (hpath : Answer.Valid (.ok path)) :
    ((∃ u, exepathForTest fresh (.ok path) = .ok u) ↔ 4 ≤ path.length) ∧
      ((∃ u, exepathForTick tick (.ok path) = .ok u) ↔ 4 ≤ path.length) ∧
      ((∃ u, exepathForWorker worker (.ok path) = .ok u) ↔
        4 ≤ path.length ∧ path.length + 3 ≤ PATH_MAX) := by
  have hlen : path.length < 1024 := hpath.1
  have hcases : ∀ target exepath : Bytes, PATH_MAX ≤ exepath.length →
      ((∃ u, exepathFor target exepath (.ok path) = .ok u) ↔
        4 ≤ path.length ∧ path.length - 4 + target.length < exepath.length) := by
    intro target exepath hroom
    rw [exepathFor_ok_iff hroom hpath]
    constructor
    · intro ⟨p, hp, hall⟩
      cases hp
      exact hall
    · exact fun hall => ⟨path, rfl, hall⟩
  have hmax : PATH_MAX = 1024 := rfl
  have hfour : (ascii "test").length = 4 ∧ (ascii "tick").length = 4 ∧
      (ascii "worker").length = 6 := by decide
  refine ⟨?_, ?_, ?_⟩
  · rw [exepathForTest, hcases _ _ (by omega)]
    omega
  · rw [exepathForTick, hcases _ _ (by omega)]
    omega
  · rw [exepathForWorker, hcases _ _ (by omega)]
    omega

/-- The executable `/a/main`: all three find the program next to it. -/
theorem exepath_ok_iff_short :
    (∃ u, exepathForTest (List.replicate (8 * PATH_MAX) 7) (.ok (ascii "/a/main")) = .ok u) ∧
      (∃ u, exepathForTick (List.replicate PATH_MAX 7) (.ok (ascii "/a/main")) = .ok u) ∧
      (∃ u, exepathForWorker (List.replicate PATH_MAX 7) (.ok (ascii "/a/main")) = .ok u) := by
  have hvalid : Answer.Valid (.ok (ascii "/a/main")) := by decide +kernel
  obtain ⟨htest, htick, hworker⟩ := exepath_ok_iff (List.replicate (8 * PATH_MAX) 7)
    (List.replicate PATH_MAX 7) (List.replicate PATH_MAX 7) List.length_replicate
    List.length_replicate List.length_replicate hvalid
  exact ⟨htest.mpr (by decide +kernel), htick.mpr (by decide +kernel),
    hworker.mpr (by decide +kernel)⟩

end

/-! ### The children of the CGI server -/

open Cgi

/-- The CGI server with its array, and the file of each child, as `uv_spawn` read it. -/
structure CgiFiles where
  server : CgiServer
  exepath : Bytes
  files : List Bytes
  deriving DecidableEq, Repr

/-- A static array is zero at first. -/
def start : CgiFiles := ⟨Cgi.init, List.replicate PATH_MAX 0, []⟩

/-- The events of the server, with the path that `uv_exepath` finds. -/
inductive FilesEvent where
  | connection (status accept : ℤ) (answer : Answer) (spawn : ℤ)
  | exit (child : ℕ) (reported : Bool)

/-- `invoke_cgi_script`: `options.file` and `args[0]` point to the array. -/
def invokeCgiScript (s : CgiFiles) (client : ℕ) (answer : Answer) (spawn : ℤ) :
    Except Stop CgiFiles := do
  let exepath ← exepathForTick s.exepath answer
  let server ← Cgi.invokeCgiScript s.server client 0 spawn
  .ok ⟨server, exepath, s.files ++ [text exepath]⟩

def connectionCb (s : CgiFiles) (status accept : ℤ) (answer : Answer) (spawn : ℤ) :
    Except Stop CgiFiles :=
  if status ≠ 0 then .ok s
  else
    let client := s.server.clients.length
    let s := { s with server := { s.server with clients := s.server.clients ++ [0] } }
    if accept = 0 then invokeCgiScript s client answer spawn
    else .ok { s with server := uvClose s.server client }

def Enabled (s : CgiFiles) : FilesEvent → Prop
  | .connection _ _ answer _ => answer.Valid
  | .exit i reported => Cgi.Enabled s.server (.exit i reported)

def dispatch (s : CgiFiles) : FilesEvent → Except Stop CgiFiles
  | .connection status accept answer spawn => connectionCb s status accept answer spawn
  | .exit i reported => do
    let server ← Cgi.dispatch s.server (.exit i reported)
    .ok { s with server := server }

def filesLoop : EventLoop CgiFiles FilesEvent Stop := ⟨Enabled, dispatch⟩

instance (s : CgiFiles) (e : FilesEvent) : Decidable (filesLoop.enabled s e) := by
  show Decidable (Enabled s e)
  cases e <;> unfold Enabled <;> infer_instance

/-- What the event is for the server: of `uv_exepath` it sees the return value. -/
def serverEvent : FilesEvent → CgiEvent
  | .connection status accept (.ok _) spawn => .connection status accept 0 spawn
  | .connection status accept (.error e) spawn => .connection status accept e.code spawn
  | .exit i reported => .exit i reported

/-- The path that a child is to be started for. -/
def launchedFrom : FilesEvent → Option Bytes
  | .connection status accept (.ok path) _ => if status = 0 ∧ accept = 0 then some path else none
  | .connection _ _ (.error _) _ => none
  | .exit _ _ => none

section

variable {s u : CgiFiles}

/-- A call of `invoke_cgi_script` that returns. -/
theorem invokeCgiScript_ok {client : ℕ} {spawn : ℤ} {answer : Answer}
    (hroom : s.exepath.length = PATH_MAX) (hvalid : answer.Valid)
    (h : invokeCgiScript s client answer spawn = .ok u) :
    ∃ path, answer = .ok path ∧ Cgi.invokeCgiScript s.server client 0 spawn = .ok u.server ∧
      u.exepath.length = PATH_MAX ∧ u.files = s.files ++ [beside (ascii "tick") path] := by
  obtain ⟨exepath, hpath, h⟩ := bind_ok_iff.mp h
  obtain ⟨server, hserver, hu⟩ := bind_ok_iff.mp h
  have hname : ∀ c ∈ ascii "tick", c ≠ 0 := by decide +kernel
  obtain ⟨path, hanswer, hlen, htext⟩ := text_of_exepathFor (le_of_eq hroom.symm) hvalid hname hpath
  cases hu
  refine ⟨path, hanswer, hserver, hlen.trans hroom, ?_⟩
  rw [htext]

/-- The server spawns one child in a call of `invoke_cgi_script`. -/
theorem children_of_invoke {t v : CgiServer} {client : ℕ} {spawn : ℤ}
    (h : Cgi.invokeCgiScript t client 0 spawn = .ok v) :
    v.children.length = t.children.length + 1 := by
  obtain ⟨_, -, h⟩ := bind_ok_iff.mp h
  split at h
  · cases h
  · cases h
    exact List.length_append

/-- A call of `connection_cb` that returns has started a child, or it has left the array alone and
the answer of `uv_exepath` does not matter. -/
theorem connectionCb_cases {status accept spawn : ℤ} {answer : Answer}
    (hroom : s.exepath.length = PATH_MAX) (hvalid : answer.Valid)
    (h : connectionCb s status accept answer spawn = .ok u) :
    (∃ path, (status = 0 ∧ accept = 0) ∧ answer = .ok path ∧
      Cgi.connectionCb s.server status accept 0 spawn = .ok u.server ∧
      u.exepath.length = PATH_MAX ∧ u.files = s.files ++ [beside (ascii "tick") path] ∧
      u.server.children.length = s.server.children.length + 1) ∨
    (¬ (status = 0 ∧ accept = 0) ∧ u = { s with server := u.server } ∧
      (∀ r, Cgi.connectionCb s.server status accept r spawn = .ok u.server) ∧
      u.server.children.length = s.server.children.length) := by
  unfold connectionCb at h
  unfold Cgi.connectionCb
  by_cases hstatus : status = 0
  · by_cases haccept : accept = 0
    · left
      rw [if_neg (not_not.mpr hstatus)] at h
      simp only [if_pos haccept] at h
      obtain ⟨path, hanswer, hok, hlen, hfiles⟩ := invokeCgiScript_ok (by exact hroom) hvalid h
      have hcount := children_of_invoke hok
      refine ⟨path, ⟨hstatus, haccept⟩, hanswer, ?_, hlen, hfiles, hcount⟩
      rw [if_neg (not_not.mpr hstatus)]
      simp only [if_pos haccept]
      exact hok
    · right
      rw [if_neg (not_not.mpr hstatus)] at h
      simp only [if_neg haccept] at h
      cases h
      refine ⟨fun hall => haccept hall.2, rfl, ?_, rfl⟩
      intro r
      rw [if_neg (not_not.mpr hstatus)]
      simp only [if_neg haccept]
  · right
    rw [if_pos hstatus] at h
    cases h
    refine ⟨fun hall => hstatus hall.1, rfl, ?_, rfl⟩
    intro r
    rw [if_pos hstatus]

/-- What the array and the server say about each other: each child has its file. -/
structure Sound (es : List FilesEvent) (s : CgiFiles) : Prop where
  room : s.exepath.length = PATH_MAX
  files : s.files = (es.filterMap launchedFrom).map (beside (ascii "tick"))
  children : s.files.length = s.server.children.length

theorem start_sound : Sound [] start := ⟨List.length_replicate, rfl, rfl⟩

/-- An event for which no child is started. -/
theorem Sound.quiet {es : List FilesEvent} {e : FilesEvent} {server : CgiServer} (h : Sound es s)
    (he : launchedFrom e = none) (hsame : server.children.length = s.server.children.length) :
    Sound (es ++ [e]) { s with server := server } where
  room := h.room
  files := by
    rw [List.filterMap_append, List.filterMap_cons_none he, List.filterMap_nil, List.append_nil]
    exact h.files
  children := h.children.trans hsame.symm

theorem Sound.step {es : List FilesEvent} {e : FilesEvent} (h : Sound es s)
    (he : filesLoop.enabled s e) (hd : filesLoop.dispatch s e = .ok u) :
    Sound (es ++ [e]) u ∧ cgiLoop.dispatch s.server (serverEvent e) = .ok u.server := by
  cases e with
  | connection status accept answer spawn =>
    rcases connectionCb_cases h.room he hd with
      ⟨path, hboth, rfl, hok, hroom, hfiles, hcount⟩ | ⟨hnot, hu, hok, hcount⟩
    · have hlaunch : launchedFrom (.connection status accept (.ok path) spawn) = some path :=
        if_pos hboth
      refine ⟨⟨hroom, ?_, ?_⟩, hok⟩
      · rw [List.filterMap_append, List.filterMap_cons_some hlaunch, hfiles, h.files]
        simp
      · rw [hfiles, List.length_append, List.length_singleton, hcount, h.children]
    · have hnone : launchedFrom (.connection status accept answer spawn) = none := by
        cases answer with
        | ok path => exact if_neg hnot
        | error e => rfl
      rw [hu]
      refine ⟨h.quiet hnone hcount, ?_⟩
      cases answer with
      | ok path => exact hok 0
      | error e => exact hok e.code
  | exit i reported =>
    obtain ⟨server, hok, hu⟩ := bind_ok_iff.mp hd
    cases hu
    refine ⟨h.quiet rfl ?_, hok⟩
    obtain ⟨child, -, hok⟩ := bind_ok_iff.mp hok
    cases reported with
    | true =>
      obtain ⟨client, -, hclose⟩ := bind_ok_iff.mp (show onExit _ = .ok server from hok)
      cases hclose
      exact List.length_set
    | false =>
      cases hok
      exact List.length_set

end

/-- **The server with its array is the server.**  Every event is one of the server. -/
theorem filesLoop_simulates :
    filesLoop.Simulates cgiLoop (fun s t => (∃ es, Sound es s) ∧ s.server = t)
      fun e => some (serverEvent e) where
  erased := nofun
  matched := by
    rintro s _ e u _ ⟨⟨es, hs⟩, rfl⟩ he hd hf
    cases hf
    obtain ⟨hu, hserver⟩ := hs.step he hd
    refine ⟨?_, u.server, hserver, ⟨_, hu⟩, rfl⟩
    cases e with
    | connection status accept answer spawn => cases answer <;> trivial
    | exit i reported => exact he

/-- **Each child from the file next to the executable.**  A run of the server with its array is a
run of the server, and for each child that it has spawned so far, in the order of the connections,
`uv_spawn` was given the path of the executable with `tick` in the place of its last four bytes;
of an executable that is called `main`, it is the file `tick` in its directory. -/
theorem files_of_run {es : List FilesEvent} {s : CgiFiles} (h : filesLoop.Run start es s) :
    cgiLoop.Run Cgi.init (es.map serverEvent) s.server ∧
      s.files.length = s.server.children.length ∧
      s.files = (es.filterMap launchedFrom).map (beside (ascii "tick")) ∧
      ∀ dirs : List Bytes, es.filterMap launchedFrom = dirs.map (· ++ ascii "/main") →
        s.files = dirs.map (· ++ ascii "/tick") := by
  have hs : Sound es s := h.history start_sound fun _ _ _ _ hs he hd => (hs.step he hd).1
  obtain ⟨t, hrun, -, rfl⟩ := filesLoop_simulates.run ⟨⟨[], start_sound⟩, rfl⟩ h
  rw [List.filterMap_eq_map'] at hrun
  refine ⟨hrun, hs.children, hs.files, ?_⟩
  intro dirs hdirs
  rw [hs.files, hdirs, List.map_map]
  refine List.map_congr_left ?_
  intro dir _
  show beside (ascii "tick") (dir ++ ascii "/main") = _
  rw [beside_main, List.append_assoc]
  rfl

/-- Two clients, between which the executable has moved to a directory with a shorter name. -/
theorem files_of_run_moved : ∃ es s, filesLoop.Run start es s ∧
    s.files = [ascii "/usr/bin/tick", ascii "/b/tick"] ∧ s.server.children.length = 2 := by
  obtain ⟨s, hrun, -⟩ : ∃ s, filesLoop.Run start
      [.connection 0 0 (.ok (ascii "/usr/bin/main")) 0,
        .connection 0 0 (.ok (ascii "/b/main")) 0] s ∧ true = true :=
    EventLoop.exists_run_of_plays (p := fun _ => true) (by decide +kernel)
  obtain ⟨-, hcount, -, hmain⟩ := files_of_run hrun
  have hfiles := hmain [ascii "/usr/bin", ascii "/b"] (by decide)
  rw [hfiles] at hcount
  refine ⟨_, s, hrun, ?_, hcount.symm⟩
  rw [hfiles]
  decide

end ExePath

end LibuvDox
