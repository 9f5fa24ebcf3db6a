import LibuvDox.Lib.EventLoop
import LibuvDox.Uv

/-!
# 18-cgi/main.c

For every client the server spawns a child whose stdout is the client's socket, and closes the
client when the child exits.  There is one process handle, the global `child_req`, for all the
children: `child_req.data` says which client to close, and belongs to the child spawned last.

* `paired_iff`: in a run every child's exit closes its own client exactly when a client is
  accepted only while no child is running.
-/

namespace LibuvDox

namespace Cgi

/-- A child process: the client it was spawned for, and whether it is still running. -/
structure Child where
  client : ℕ
  running : Bool
  deriving DecidableEq, Repr

/-- The server: how often each tcp handle was passed to `uv_close`, `child_req.data`, the children
spawned so far, which client each exit belonged to and which one it closed, and how often
`uv_spawn` was given the handle of a running child. -/
structure CgiServer where
  clients : List ℕ
  childReq : Option ℕ
  children : List Child
  exits : List (ℕ × Option ℕ)
  busySpawns : ℕ
  deriving DecidableEq, Repr

def init : CgiServer := ⟨[], none, [], [], 0⟩

/-- `connection_cb`, with what `uv_accept`, `uv_exepath` and `uv_spawn` return; the exit of a child,
and whether libuv reports it. -/
inductive CgiEvent where
  | connection (status accept exepath spawn : ℤ)
  | exit (child : ℕ) (reported : Bool)
  deriving DecidableEq, Repr

/-- `ERROR(msg, code)`. -/
def errorMacro : Stop := .assertFailed "0"

def uvClose (s : CgiServer) (client : ℕ) : CgiServer :=
  { s with clients := s.clients.set client ((s.clients[client]?).getD 0 + 1) }

/-- A child is running, and `child_req` with it. -/
def Busy (s : CgiServer) : Prop := ∃ child ∈ s.children, child.running = true

instance (s : CgiServer) : Decidable (Busy s) := by
  unfold Busy
  infer_instance

/-- `on_exit`; `req` is `child_req` for every child. -/
def onExit (s : CgiServer) : Except Stop CgiServer := do
  let client ← deref s.childReq "req->data"
  .ok (uvClose s client)

def exepathForTick (exepath : ℤ) : Except Stop Unit :=
  if exepath ≠ 0 then .error errorMacro else .ok ()

def invokeCgiScript (s : CgiServer) (client : ℕ) (exepath spawn : ℤ) : Except Stop CgiServer := do
  exepathForTick exepath
  if spawn ≠ 0 then .error errorMacro
  else
    .ok { s with
      childReq := some client
      children := s.children ++ [⟨client, true⟩]
      busySpawns := s.busySpawns + if Busy s then 1 else 0 }

def connectionCb (s : CgiServer) (status accept exepath spawn : ℤ) : Except Stop CgiServer :=
  if status ≠ 0 then .ok s
  else
    let client := s.clients.length
    let s := { s with clients := s.clients ++ [0] }
    if accept = 0 then invokeCgiScript s client exepath spawn
    else .ok (uvClose s client)

/-- A running child may exit, and libuv reports the exit of the child that `child_req` is the
handle of. -/
def Enabled (s : CgiServer) : CgiEvent → Prop
  | .connection _ _ _ _ => True
  | .exit i reported =>
    (s.children[i]?.map Child.running) = some true ∧
      (i + 1 = s.children.length → reported = true)

instance (s : CgiServer) (e : CgiEvent) : Decidable (Enabled s e) := by
  cases e <;> unfold Enabled <;> infer_instance

def dispatch (s : CgiServer) : CgiEvent → Except Stop CgiServer
  | .connection status accept exepath spawn => connectionCb s status accept exepath spawn
  | .exit i reported => do
    let child ← deref s.children[i]? "child"
    let s' := { s with
      children := s.children.set i { child with running := false }
      exits := s.exits ++ [(child.client, if reported then s.childReq else none)] }
    if reported then onExit s' else .ok s'

def cgiLoop : EventLoop CgiServer CgiEvent Stop := ⟨Enabled, dispatch⟩

instance (s : CgiServer) (e : CgiEvent) : Decidable (cgiLoop.enabled s e) :=
  inferInstanceAs (Decidable (Enabled s e))

/-- Children and clients are paired: each exit has closed the client of the child that exited, the
client of each exited child was closed once, and `uv_spawn` was never given the handle of a
running child. -/
structure Paired (s : CgiServer) : Prop where
  own : ∀ x ∈ s.exits, x.2 = some x.1
  once : ∀ child ∈ s.children, child.running = false → s.clients[child.client]? = some 1
  handle : s.busySpawns = 0

/-- A client is accepted only while no child is running. -/
def OneAtATime (s : CgiServer) : CgiEvent → Prop
  | .connection status accept _ _ => status = 0 → accept = 0 → ¬ Busy s
  | .exit _ _ => True

/-- What holds while the children run one at a time. -/
structure Alone (s : CgiServer) : Prop where
  closes : ∀ child ∈ s.children,
    s.clients[child.client]? = some (if child.running then 0 else 1)
  last : ∀ i child, s.children[i]? = some child → child.running = true →
    i + 1 = s.children.length ∧ s.childReq = some child.client
  distinct : (s.children.map Child.client).Nodup
  own : ∀ x ∈ s.exits, x.2 = some x.1
  handle : s.busySpawns = 0

section

variable {s u : CgiServer}

theorem Alone.paired (h : Alone s) : Paired s where
  own := h.own
  once := by
    intro child hmem hexit
    rw [h.closes child hmem, hexit]
    rfl
  handle := h.handle

theorem init_alone : Alone init where
  closes := by simp [init]
  last := by simp [init]
  distinct := by simp [init]
  own := by simp [init]
  handle := rfl

/-- The client of a child is one of the handles. -/
theorem Alone.client_lt (h : Alone s) {child : Child} (hmem : child ∈ s.children) :
    child.client < s.clients.length := by
  obtain ⟨hlt, -⟩ := List.getElem?_eq_some_iff.mp (h.closes child hmem)
  exact hlt

/-- One more handle, that no child has. -/
theorem Alone.newClient (h : Alone s) (closes : ℕ) :
    Alone { s with clients := s.clients ++ [closes] } where
  closes := by
    intro child hmem
    rw [List.getElem?_append_left (h.client_lt hmem)]
    exact h.closes child hmem
  last := h.last
  distinct := h.distinct
  own := h.own
  handle := h.handle

/-- The child of a client that is accepted while no other child runs. -/
theorem Alone.spawn (h : Alone s) (hidle : ¬ Busy s) :
    Alone { s with
      clients := s.clients ++ [0]
      childReq := some s.clients.length
      children := s.children ++ [⟨s.clients.length, true⟩] } where
  closes := by
    intro child hmem
    rcases List.mem_append.mp hmem with hold | hnew
    · rw [List.getElem?_append_left (h.client_lt hold)]
      exact h.closes child hold
    · rw [List.mem_singleton.mp hnew]
      simp
  last := by
    intro i child hi hrun
    rcases Nat.lt_or_ge i s.children.length with hlt | hge
    · rw [List.getElem?_append_left hlt] at hi
      exact absurd ⟨child, List.mem_of_getElem? hi, hrun⟩ hidle
    · rw [List.getElem?_append_right hge] at hi
      obtain ⟨hlt, hchild⟩ := List.getElem?_eq_some_iff.mp hi
      rw [List.length_singleton] at hlt
      have hlen : i = s.children.length := by omega
      subst hlen
      simp only [Nat.sub_self, List.getElem_cons_zero] at hchild
      subst hchild
      simp
  distinct := by
    rw [List.map_append, List.nodup_append]
    refine ⟨h.distinct, by simp, ?_⟩
    intro c hc c' hc'
    obtain ⟨child, hmem, rfl⟩ := List.mem_map.mp hc
    have hlt := h.client_lt hmem
    have heq : c' = s.clients.length := by simpa using hc'
    omega
  own := h.own
  handle := h.handle

theorem Alone.client_ne (h : Alone s) {i j : ℕ} {child child' : Child}
    (hi : s.children[i]? = some child) (hj : s.children[j]? = some child') (hne : j ≠ i) :
    child'.client ≠ child.client := ne_of_nodup_map h.distinct hi hj hne

/-- The exit of the only running child. -/
theorem Alone.exit (h : Alone s) {i : ℕ} {child : Child} (hi : s.children[i]? = some child)
    (hrun : child.running = true) :
    Alone (uvClose { s with
      children := s.children.set i { child with running := false }
      exits := s.exits ++ [(child.client, s.childReq)] } child.client) where
  closes := by
    have hopen := h.closes child (List.mem_of_getElem? hi)
    rw [hrun, if_pos rfl] at hopen
    obtain ⟨hlt, -⟩ := List.getElem?_eq_some_iff.mp hopen
    obtain ⟨hilt, -⟩ := List.getElem?_eq_some_iff.mp hi
    intro child' hmem
    obtain ⟨j, hj⟩ := List.mem_iff_getElem?.mp hmem
    simp only [uvClose, hopen] at hj ⊢
    by_cases hne : j = i
    · subst hne
      rw [List.getElem?_set_self hilt] at hj
      cases hj
      rw [List.getElem?_set_self hlt]
      rfl
    · rw [List.getElem?_set_ne (Ne.symm hne)] at hj
      rw [List.getElem?_set_ne (h.client_ne hi hj hne).symm]
      exact h.closes child' (List.mem_of_getElem? hj)
  last := by
    intro j child' hj hrun'
    simp only [uvClose] at hj ⊢
    by_cases hne : j = i
    · subst hne
      obtain ⟨hilt, -⟩ := List.getElem?_eq_some_iff.mp hi
      rw [List.getElem?_set_self hilt] at hj
      cases hj
      cases hrun'
    · rw [List.getElem?_set_ne (Ne.symm hne)] at hj
      rw [List.length_set]
      exact h.last j child' hj hrun'
  distinct := by
    have hsame : (s.children.set i { child with running := false }).map Child.client =
        s.children.map Child.client := by
      obtain ⟨hilt, hget⟩ := List.getElem?_eq_some_iff.mp hi
      have hilt' : i < (s.children.map Child.client).length := by rwa [List.length_map]
      have hclient : child.client = (s.children.map Child.client)[i] := by simp [hget]
      rw [List.map_set]
      show (s.children.map Child.client).set i child.client = _
      rw [hclient, List.set_getElem_self]
    simp only [uvClose, hsame]
    exact h.distinct
  own := by
    intro x hx
    rcases List.mem_append.mp hx with hold | hnew
    · exact h.own x hold
    · rw [List.mem_singleton.mp hnew]
      exact (h.last i child hi hrun).2
  handle := h.handle

/-- One event, while the children run one at a time. -/
theorem Alone.step (h : Alone s) {e : CgiEvent} (he : cgiLoop.enabled s e)
    (hone : OneAtATime s e) (hd : cgiLoop.dispatch s e = .ok u) : Alone u := by
  cases e with
  | connection status accept exepath spawn =>
    replace hd : connectionCb s status accept exepath spawn = .ok u := hd
    unfold connectionCb at hd
    split at hd
    · cases hd
      exact h
    · rename_i hstatus
      dsimp only at hd
      split at hd
      · rename_i haccept
        have hidle := hone (by omega) haccept
        obtain ⟨_, -, hd⟩ := bind_ok_iff.mp hd
        split at hd
        · cases hd
        · cases hd
          have hfree : ¬ Busy { s with clients := s.clients ++ [0] } := hidle
          rw [if_neg hfree]
          exact h.spawn hidle
      · cases hd
        have hlast : (s.clients ++ [0])[s.clients.length]? = some 0 := by simp
        have hclose : uvClose { s with clients := s.clients ++ [0] } s.clients.length =
            { s with clients := s.clients ++ [1] } := by
          simp [uvClose]
        rw [hclose]
        exact h.newClient 1
  | exit i reported =>
    obtain ⟨hrunning, hreported⟩ := he
    obtain ⟨child, hchild, hd⟩ := bind_ok_iff.mp hd
    have hi := deref_ok_iff.mp hchild
    have hrun : child.running = true := by simpa [hi] using hrunning
    obtain ⟨hlast, hreq⟩ := h.last i child hi hrun
    have hrep := hreported hlast
    subst hrep
    obtain ⟨client, hclient, hu⟩ := bind_ok_iff.mp hd
    have hown : some child.client = some client := hreq.symm.trans (deref_ok_iff.mp hclient)
    cases hown
    cases hu
    exact h.exit hi hrun

/-- A spawn while a child is running is counted, and the count never goes back. -/
theorem busySpawns_dispatch {e : CgiEvent} (hd : cgiLoop.dispatch s e = .ok u) :
    s.busySpawns ≤ u.busySpawns ∧ (u.busySpawns = s.busySpawns → OneAtATime s e) := by
  cases e with
  | connection status accept exepath spawn =>
    replace hd : connectionCb s status accept exepath spawn = .ok u := hd
    unfold connectionCb at hd
    split at hd
    · rename_i hstatus
      cases hd
      exact ⟨le_rfl, fun _ hzero => absurd hzero hstatus⟩
    · dsimp only at hd
      split at hd
      · obtain ⟨_, -, hd⟩ := bind_ok_iff.mp hd
        split at hd
        · cases hd
        · cases hd
          refine ⟨Nat.le_add_right _ _, ?_⟩
          intro hsame _ _ hbusy
          have hbusy' : Busy { s with clients := s.clients ++ [0] } := hbusy
          rw [if_pos hbusy'] at hsame
          exact absurd hsame (Nat.succ_ne_self _)
      · rename_i haccept
        cases hd
        exact ⟨le_rfl, fun _ _ hzero => absurd hzero haccept⟩
  | exit i reported =>
    refine ⟨?_, fun _ => trivial⟩
    obtain ⟨child, -, hd⟩ := bind_ok_iff.mp hd
    split at hd
    · obtain ⟨client, -, hu⟩ := bind_ok_iff.mp hd
      cases hu
      exact le_rfl
    · cases hd
      exact le_rfl

/-- A run without a spawn on a busy handle is one in which the children run one at a time. -/
theorem run_one_at_a_time {es : List CgiEvent} (h : cgiLoop.Run init es s)
    (hbusy : s.busySpawns = 0) : (cgiLoop.restrict OneAtATime).Run init es s := by
  induction h with
  | nil => exact .nil
  | snoc _ he hd ih =>
    obtain ⟨hle, hone⟩ := busySpawns_dispatch hd
    exact .snoc (ih (by omega)) ⟨he, hone (by omega)⟩ hd

end

/-- **Children and clients are paired** in a run exactly when every client of it was accepted while
no child was running. -/
theorem paired_iff {es : List CgiEvent} {s : CgiServer} (h : cgiLoop.Run init es s) :
    Paired s ↔ (cgiLoop.restrict OneAtATime).Run init es s := by
  constructor
  · intro hp
    exact run_one_at_a_time h hp.handle
  · intro hg
    have halone : Alone s := hg.invariant init_alone fun _ _ _ h he hd => h.step he.1 he.2 hd
    exact halone.paired

/-- Two clients, one after the other. -/
theorem paired_iff_inTurn :
    ∃ s, cgiLoop.Run init [.connection 0 0 0 0, .exit 0 true, .connection 0 0 0 0, .exit 1 true] s ∧
      (Paired s ↔ (cgiLoop.restrict OneAtATime).Run init
        [.connection 0 0 0 0, .exit 0 true, .connection 0 0 0 0, .exit 1 true] s) :=
  have hrun : cgiLoop.Run init
      [.connection 0 0 0 0, .exit 0 true, .connection 0 0 0 0, .exit 1 true]
      ⟨[1, 1], some 1, [⟨0, false⟩, ⟨1, false⟩], [(0, some 0), (1, some 1)], 0⟩ :=
    EventLoop.run_of_plays (by decide)
  ⟨_, hrun, paired_iff hrun⟩

/-- Two clients at the same time, of which the first one's child exits first: the exit closes the
second client, if libuv reports it at all. -/
theorem overlap_not_paired :
    ¬ ∀ es s, cgiLoop.Run init es s → Paired s := by
  intro h
  have hrun : cgiLoop.Run init [.connection 0 0 0 0, .connection 0 0 0 0, .exit 0 true]
      ⟨[0, 1], some 1, [⟨0, false⟩, ⟨1, true⟩], [(0, some 1)], 1⟩ :=
    EventLoop.run_of_plays (by decide)
  exact absurd ((h _ _ hrun).own (0, some 1) (by decide)) (by decide)

end Cgi

end LibuvDox
