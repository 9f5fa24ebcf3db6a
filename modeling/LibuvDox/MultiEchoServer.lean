import LibuvDox.Lib.EventLoop
import LibuvDox.Uv

/-!
# 20-multi-echo-server

A master process accepts the connections and passes each to one of its workers, in turn, with
`uv_write2`; the worker accepts the handle once more, from its end of the pipe.  What the worker
then does with the client is the echo of `PipeEchoServer`.

* `setupWorkers_ok_iff`: `setup_workers` returns exactly if every worker could be spawned, and then
  every slot holds one.
* `serving_unique`: a client is served only by the worker that it was passed to.
* `owned_iff`: every client is passed to a worker that runs, and is open in the master only while it
  is being passed, exactly in the runs in which no turn falls to a worker that has exited, no
  `uv_write2` fails, and none completes.
-/

namespace LibuvDox.MultiEchoServer

/-- A handle that `uv_write2` is passing to a worker. -/
structure Handoff where
  worker : ℕ
  client : ℕ
  deriving DecidableEq, Repr

/-- The call of `uv_write2` for a client: the worker, whether `on_exit` had been called for it, and
what `uv_write2` returned. -/
structure Pass where
  worker : ℕ
  exited : Bool
  result : ℤ
  deriving DecidableEq, Repr

/-- A client handle of the master, initialised by `uv_pipe_init`. -/
structure Client where
  accepted : Bool
  closed : Bool
  pass : Option Pass
  deriving DecidableEq, Repr

/-- A slot of `workers`, zero after `calloc`: whether a process was spawned for it, whether that
process runs, whether `on_exit` was called for it; the clients that are on the pipe to it, and, in
the process, those it reads from. -/
structure ChildWorker where
  spawned : Bool
  running : Bool
  exited : Bool
  queue : List ℕ
  serving : List ℕ
  deriving DecidableEq, Repr

/-- The globals of the master, its client handles, and the `uv_write2` requests that have not been
called back. -/
structure Master where
  workers : List ChildWorker
  roundRobinCounter : ℕ
  childWorkerCount : ℕ
  clients : List Client
  pending : List Handoff

/-- A connection is reported, with what `uv_accept` and `uv_write2` would return; the `i`-th pending
`uv_write2` completes; a worker reads from the pipe a message whose pending handle has some type,
with what `uv_pipe_init` and `uv_accept` would return; a worker's exit is reported. -/
inductive MasterEvent where
  | connection (status accept write : ℤ)
  | passed (i : ℕ)
  | received (w : ℕ) (known : Bool) (init accept : ℤ)
  | exited (w : ℕ)
  deriving DecidableEq, Repr

/-- `ERROR(msg, code)`. -/
def errorMacro : Stop := .assertFailed "0"

/-! ### `setup_workers` -/

/-- A slot as `calloc` returns it. -/
def callocWorker : ChildWorker := ⟨false, false, false, [], []⟩

/-- `uv_pipe_init` and `uv_spawn` in a slot. -/
def spawnWorker (worker : ChildWorker) : ChildWorker :=
  { worker with spawned := true, running := true }

/-- The loop `while (cpu_count--)`; `spawn i` is what `uv_spawn` returns for slot `i`. -/
def spawnLoop (spawn : ℕ → ℤ) (workers : List ChildWorker) : ℕ → Except Stop (List ChildWorker)
  | 0 => .ok workers
  | cpuCount + 1 => do
    let worker ← deref workers[cpuCount]? "workers[cpu_count]"
    if spawn cpuCount ≠ 0 then .error errorMacro
    else spawnLoop spawn (workers.set cpuCount (spawnWorker worker)) cpuCount

def setupWorkers (cpuCount : ℕ) (spawn : ℕ → ℤ) : Except Stop Master := do
  let workers ← spawnLoop spawn (List.replicate cpuCount callocWorker) cpuCount
  .ok ⟨workers, 0, cpuCount, [], []⟩

/-- The master when it starts to listen. -/
def init (cpuCount : ℕ) : Master :=
  ⟨List.replicate cpuCount (spawnWorker callocWorker), 0, cpuCount, [], []⟩

/-! ### The callbacks -/

/-- `on_exit`: the process handle is closed; the pipe stays as it is. -/
def onExit (s : Master) (w : ℕ) : Except Stop Master := do
  let worker ← deref s.workers[w]? "req"
  .ok { s with workers := s.workers.set w { worker with running := false, exited := true } }

/-- `uv_write2` of a client to a worker. -/
def uvWrite2 (s : Master) (w : ℕ) (worker : ChildWorker) (client : ℕ) (write : ℤ) : Master :=
  if write = 0 then
    { s with
      workers := s.workers.set w { worker with queue := worker.queue ++ [client] }
      pending := s.pending ++ [⟨w, client⟩] }
  else s

/-- The branch of `connection_cb` for a client that was accepted; what `uv_write2` returns is not
looked at. -/
def passClient (s : Master) (write : ℤ) : Except Stop Master := do
  let w := s.roundRobinCounter
  let worker ← deref s.workers[w]? "workers[round_robin_counter]"
  if s.childWorkerCount = 0 then .error (.undefined "% child_worker_count")
  else
    .ok { uvWrite2 s w worker s.clients.length write with
      clients := s.clients ++ [⟨true, false, some ⟨w, worker.exited, write⟩⟩]
      roundRobinCounter := (s.roundRobinCounter + 1) % s.childWorkerCount }

def connectionCb (s : Master) (status accept write : ℤ) : Except Stop Master :=
  if status ≠ 0 then .ok s
  else if accept = 0 then passClient s write
  else .ok { s with clients := s.clients ++ [⟨false, true, none⟩] }

/-- `connect_cb` of worker.c, in a worker that takes the client off the pipe; an error of
`uv_pipe_init` aborts the worker. -/
def connectCb (worker : ChildWorker) (client : ℕ) (known : Bool) (init accept : ℤ) : ChildWorker :=
  if known = false then worker
  else if init ≠ 0 then { worker with running := false }
  else if accept = 0 then { worker with serving := worker.serving ++ [client] }
  else worker

def received (s : Master) (w : ℕ) (known : Bool) (init accept : ℤ) : Except Stop Master := do
  let worker ← deref s.workers[w]? "queue_"
  match worker.queue with
  | [] => .error (.undefined "nothing has arrived")
  | client :: queue =>
    .ok { s with
      workers := s.workers.set w
        (connectCb { worker with queue := queue } client known init accept) }

/-! ### The event loop -/

/-- Some other worker runs on. -/
def OtherRuns (s : Master) (w : ℕ) : Prop :=
  ∃ i < s.workers.length, i ≠ w ∧ s.workers[i]?.any (fun worker => !worker.exited) = true

/-- The requests on one pipe complete in their order; a worker that runs reads what has arrived; an
exit is reported once, and one worker runs on. -/
def Enabled (s : Master) : MasterEvent → Prop
  | .connection _ _ _ => True
  | .passed i =>
    s.pending[i]?.any (fun h => (s.pending.take i).all fun h' => h'.worker != h.worker) = true
  | .received w _ _ _ =>
    s.workers[w]?.any (fun worker => worker.running && !worker.queue.isEmpty) = true
  | .exited w =>
    s.workers[w]?.any (fun worker => worker.spawned && !worker.exited) = true ∧ OtherRuns s w

/-- `uv_write2` was given no callback, so its completion runs none. -/
def dispatch (s : Master) : MasterEvent → Except Stop Master
  | .connection status accept write => connectionCb s status accept write
  | .passed i => .ok { s with pending := s.pending.eraseIdx i }
  | .received w known init accept => received s w known init accept
  | .exited w => onExit s w

/-- The master and its workers. -/
def multiEcho : EventLoop Master MasterEvent Stop := ⟨Enabled, dispatch⟩

instance (s : Master) (e : MasterEvent) : Decidable (multiEcho.enabled s e) := by
  show Decidable (Enabled s e)
  cases e <;> unfold Enabled OtherRuns <;> infer_instance

/-! ### All workers are set up -/

/-- The slots from `n` on have been dealt with. -/
theorem spawnLoop_eq (spawn : ℕ → ℤ) (n : ℕ) (done : List ChildWorker)
    (hspawn : ∀ i < n, spawn i = 0) :
    spawnLoop spawn (List.replicate n callocWorker ++ done) n
      = .ok (List.replicate n (spawnWorker callocWorker) ++ done) := by
  induction n generalizing done with
  | zero => rfl
  | succ n ih =>
    have hslot : (List.replicate (n + 1) callocWorker ++ done)[n]? = some callocWorker := by
      simp [List.getElem?_append]
    have hset : (List.replicate (n + 1) callocWorker ++ done).set n (spawnWorker callocWorker)
        = List.replicate n callocWorker ++ (spawnWorker callocWorker :: done) := by
      rw [List.replicate_succ', List.append_assoc]
      exact List.set_append_right _ _ (by simp) |>.trans (by simp)
    rw [spawnLoop, hslot]
    show (if spawn n ≠ 0 then _ else _) = _
    rw [if_neg (by simp [hspawn n (by omega)]), hset, ih _ fun i hi => hspawn i (by omega),
      List.replicate_succ', List.append_assoc]
    rfl

/-- A worker that cannot be spawned stops the master. -/
theorem spawnLoop_spawned {spawn : ℕ → ℤ} {n : ℕ} {workers workers' : List ChildWorker}
    (h : spawnLoop spawn workers n = .ok workers') : ∀ i < n, spawn i = 0 := by
  induction n generalizing workers with
  | zero =>
    intro i hi
    omega
  | succ n ih =>
    intro i hi
    rw [spawnLoop] at h
    obtain ⟨worker, -, h⟩ := bind_ok_iff.mp h
    split at h
    · cases h
    · rename_i hn
      by_cases hin : i = n
      · rw [hin]
        exact not_not.mp hn
      · exact ih h i (by omega)

/-- **`setup_workers`.**  It returns exactly if every worker could be spawned, and then every slot
has been used, once. -/
theorem setupWorkers_ok_iff {cpuCount : ℕ} {spawn : ℕ → ℤ} {s : Master} :
    setupWorkers cpuCount spawn = .ok s ↔ (∀ i < cpuCount, spawn i = 0) ∧ s = init cpuCount := by
  constructor
  · intro h
    obtain ⟨workers, hloop, h⟩ := bind_ok_iff.mp h
    have hspawn := spawnLoop_spawned hloop
    have hall := spawnLoop_eq spawn cpuCount [] hspawn
    rw [List.append_nil, List.append_nil, hloop] at hall
    cases hall
    cases h
    exact ⟨hspawn, rfl⟩
  · intro ⟨hspawn, hs⟩
    have hall := spawnLoop_eq spawn cpuCount [] hspawn
    rw [List.append_nil, List.append_nil] at hall
    rw [setupWorkers, hall, hs]
    rfl

/-! ### Who holds a client -/

/-- The client handles that are open in the master. -/
def openClients (s : Master) : List ℕ :=
  (List.range s.clients.length).filter fun i => s.clients[i]?.any fun c => !c.closed

theorem mem_openClients {s : Master} {i : ℕ} :
    i ∈ openClients s ↔ ∃ c, s.clients[i]? = some c ∧ c.closed = false := by
  unfold openClients
  rw [List.mem_filter, List.mem_range, Option.any_eq_true]
  constructor
  · intro ⟨_, c, hc, hopen⟩
    exact ⟨c, hc, by simpa using hopen⟩
  · intro ⟨c, hc, hopen⟩
    exact ⟨(List.getElem?_eq_some_iff.mp hc).1, c, hc, by simpa using hopen⟩

/-- `uv_write2` was called to pass the client `i` to the worker `w`. -/
def PassedTo (s : Master) (i w : ℕ) : Prop :=
  ∃ (c : Client) (p : Pass), s.clients[i]? = some c ∧ c.pass = some p ∧ p.worker = w

/-- What holds in every run: a client that is being passed is open, and is passed once; a client on
the pipe to a worker, or served by it, was passed to that worker. -/
structure Sound (s : Master) : Prop where
  once : (s.pending.map Handoff.client).Nodup
  held : ∀ h ∈ s.pending, h.client ∈ openClients s
  routed : ∀ (w : ℕ) (worker : ChildWorker), s.workers[w]? = some worker →
    ∀ i ∈ worker.queue ++ worker.serving, PassedTo s i w

section

variable {s u : Master} {cpuCount : ℕ}

theorem init_sound (cpuCount : ℕ) : Sound (init cpuCount) where
  once := List.nodup_nil
  held := nofun
  routed w worker hworker i hi := by
    obtain rfl := List.eq_of_mem_replicate (List.mem_of_getElem? hworker)
    cases hi

/-- The clients that the master has are still there when it gets another one. -/
theorem PassedTo.snoc {i w : ℕ} {c : Client} (h : PassedTo s i w)
    (hu : u.clients = s.clients ++ [c]) : PassedTo u i w := by
  obtain ⟨c', p, hc', hp⟩ := h
  have hlt := (List.getElem?_eq_some_iff.mp hc').1
  refine ⟨c', p, ?_, hp⟩
  rw [hu, List.getElem?_append_left hlt, hc']

/-- The handles that are open after another client was added. -/
theorem openClients_snoc {c : Client} (h : u.clients = s.clients ++ [c]) :
    openClients u = openClients s ++ if c.closed then [] else [s.clients.length] := by
  unfold openClients
  rw [h, List.length_append, List.length_singleton, List.range_succ, List.filter_append]
  congr 1
  · refine List.filter_congr fun i hi => ?_
    rw [List.getElem?_append_left (List.mem_range.mp hi)]
  · cases hc : c.closed <;> simp [hc]

theorem lt_of_mem_openClients {i : ℕ} (h : i ∈ openClients s) : i < s.clients.length := by
  obtain ⟨c, hc, -⟩ := mem_openClients.mp h
  exact (List.getElem?_eq_some_iff.mp hc).1

/-- A client that was not accepted is closed at once. -/
theorem Sound.refused (h : Sound s) {c : Client} (hc : c.closed = true) :
    Sound { s with clients := s.clients ++ [c] } where
  once := h.once
  held h' hh' := by
    rw [openClients_snoc (s := s) rfl, hc]
    exact List.mem_append_left _ (h.held h' hh')
  routed w worker hworker i hi := (h.routed w worker hworker i hi).snoc rfl

/-- The client that `connection_cb` has accepted and passed on. -/
def passedClient (s : Master) (worker : ChildWorker) (write : ℤ) : Client :=
  ⟨true, false, some ⟨s.roundRobinCounter, worker.exited, write⟩⟩

theorem passClient_ok {write : ℤ} (hok : passClient s write = .ok u) :
    ∃ worker, s.workers[s.roundRobinCounter]? = some worker ∧
      u.clients = s.clients ++ [passedClient s worker write] ∧
      (write = 0 ∧ u.pending = s.pending ++ [⟨s.roundRobinCounter, s.clients.length⟩] ∧
          u.workers = s.workers.set s.roundRobinCounter
            { worker with queue := worker.queue ++ [s.clients.length] } ∨
        write ≠ 0 ∧ u.pending = s.pending ∧ u.workers = s.workers) := by
  obtain ⟨worker, hworker, hok⟩ := bind_ok_iff.mp hok
  rw [deref_ok_iff] at hworker
  split at hok
  · cases hok
  · cases hok
    refine ⟨worker, hworker, rfl, ?_⟩
    by_cases hwrite : write = 0
    · exact .inl ⟨hwrite, by simp [uvWrite2, hwrite], by simp [uvWrite2, hwrite]⟩
    · exact .inr ⟨hwrite, by simp [uvWrite2, hwrite], by simp [uvWrite2, hwrite]⟩

/-- A slot of the workers after one was set is that one, or another. -/
theorem set_worker_cases {workers : List ChildWorker} {v w : ℕ} {x y : ChildWorker}
    (h : (workers.set w x)[v]? = some y) : (v = w ∧ y = x) ∨ workers[v]? = some y := by
  rw [List.getElem?_set] at h
  split at h
  · rename_i heq
    split at h
    · exact .inl ⟨heq.symm, (Option.some.inj h).symm⟩
    · cases h
  · exact .inr h

/-- A client that was accepted is passed on, or `uv_write2` fails. -/
theorem Sound.passClient {write : ℤ} (h : Sound s) (hok : passClient s write = .ok u) :
    Sound u := by
  obtain ⟨worker, hworker, hclients, hwrite⟩ := passClient_ok hok
  have hopen : openClients u = openClients s ++ [s.clients.length] := openClients_snoc hclients
  have hold : ∀ h' ∈ s.pending, h'.client ∈ openClients u := by
    intro h' hh'
    rw [hopen]
    exact List.mem_append_left _ (h.held h' hh')
  rcases hwrite with ⟨-, hpending, hworkers⟩ | ⟨-, hpending, hworkers⟩
  · refine ⟨?_, fun h' hh' => ?_, fun w worker' hworker' i hi => ?_⟩
    · -- the new client is not one of those that were open
      have hnew : s.clients.length ∉ s.pending.map Handoff.client := by
        intro hmem
        obtain ⟨h', hh', heq⟩ := List.mem_map.mp hmem
        have hlt := lt_of_mem_openClients (h.held h' hh')
        omega
      rw [hpending, List.map_append]
      exact h.once.append (List.nodup_singleton _) (List.disjoint_singleton.mpr hnew)
    · rw [hpending] at hh'
      rcases List.mem_append.mp hh' with hh' | hh'
      · exact hold h' hh'
      · rw [List.mem_singleton.mp hh', hopen]
        exact List.mem_append_right _ (List.mem_singleton_self _)
    · rw [hworkers] at hworker'
      rcases set_worker_cases hworker' with ⟨rfl, rfl⟩ | hworker'
      · by_cases hi' : i = s.clients.length
        · refine ⟨passedClient s worker write, _, ?_, rfl, rfl⟩
          rw [hclients, hi', List.getElem?_concat_length]
        · have hmem : i ∈ worker.queue ++ worker.serving := by
            simpa [hi'] using hi
          exact (h.routed _ worker hworker i hmem).snoc hclients
      · exact (h.routed w worker' hworker' i hi).snoc hclients
  · refine ⟨?_, fun h' hh' => ?_, fun w worker' hworker' i hi => ?_⟩
    · rw [hpending]
      exact h.once
    · rw [hpending] at hh'
      exact hold h' hh'
    · rw [hworkers] at hworker'
      exact (h.routed w worker' hworker' i hi).snoc hclients

/-- A step that changes one worker, and leaves on the pipe to it and in it no other clients. -/
theorem Sound.set_worker (h : Sound s) {w : ℕ} {worker worker' : ChildWorker}
    (hworker : s.workers[w]? = some worker)
    (hsub : ∀ i ∈ worker'.queue ++ worker'.serving, i ∈ worker.queue ++ worker.serving) :
    Sound { s with workers := s.workers.set w worker' } where
  once := h.once
  held := h.held
  routed v worker'' hworker'' i hi := by
    rcases set_worker_cases hworker'' with ⟨rfl, rfl⟩ | hold
    · exact h.routed v worker hworker i (hsub i hi)
    · exact h.routed v worker'' hold i hi

/-- `connect_cb` puts the client that has arrived under those that are served, or drops it. -/
theorem connectCb_sub {worker : ChildWorker} {client : ℕ} {queue : List ℕ} {known : Bool}
    {init accept : ℤ} (hqueue : worker.queue = client :: queue) :
    ∀ i ∈ (connectCb { worker with queue := queue } client known init accept).queue ++
      (connectCb { worker with queue := queue } client known init accept).serving,
      i ∈ worker.queue ++ worker.serving := by
  intro i hi
  rw [hqueue]
  unfold connectCb at hi
  split at hi
  · exact List.mem_cons_of_mem _ hi
  · split at hi
    · exact List.mem_cons_of_mem _ hi
    · split at hi
      · simp only [List.mem_append, List.mem_cons, List.not_mem_nil, or_false] at hi ⊢
        tauto
      · exact List.mem_cons_of_mem _ hi

theorem received_ok {w : ℕ} {known : Bool} {init accept : ℤ}
    (hok : received s w known init accept = .ok u) :
    ∃ worker worker', s.workers[w]? = some worker ∧
      u = { s with workers := s.workers.set w worker' } ∧
      ∀ i ∈ worker'.queue ++ worker'.serving, i ∈ worker.queue ++ worker.serving := by
  obtain ⟨worker, hworker, hok⟩ := bind_ok_iff.mp hok
  rw [deref_ok_iff] at hworker
  split at hok
  · cases hok
  · rename_i client queue hqueue
    cases hok
    exact ⟨worker, _, hworker, rfl, connectCb_sub hqueue⟩

theorem onExit_ok {w : ℕ} (hok : onExit s w = .ok u) :
    ∃ worker worker', s.workers[w]? = some worker ∧
      u = { s with workers := s.workers.set w worker' } ∧
      ∀ i ∈ worker'.queue ++ worker'.serving, i ∈ worker.queue ++ worker.serving := by
  obtain ⟨worker, hworker, hok⟩ := bind_ok_iff.mp hok
  rw [deref_ok_iff] at hworker
  cases hok
  exact ⟨worker, _, hworker, rfl, fun i hi => hi⟩

/-- What a connection has done: nothing, if it failed; or it is passed on; or refused. -/
theorem connectionCb_ok {status accept write : ℤ}
    (hok : connectionCb s status accept write = .ok u) :
    (status ≠ 0 ∧ u = s) ∨ (status = 0 ∧ accept = 0 ∧ passClient s write = .ok u) ∨
      (status = 0 ∧ accept ≠ 0 ∧ u = { s with clients := s.clients ++ [⟨false, true, none⟩] }) := by
  unfold connectionCb at hok
  split at hok
  · rename_i hstatus
    cases hok
    exact .inl ⟨hstatus, rfl⟩
  · rename_i hstatus
    split at hok
    · rename_i haccept
      exact .inr (.inl ⟨not_not.mp hstatus, haccept, hok⟩)
    · rename_i haccept
      cases hok
      exact .inr (.inr ⟨not_not.mp hstatus, haccept, rfl⟩)

theorem Sound.connection {status accept write : ℤ} (h : Sound s)
    (hok : connectionCb s status accept write = .ok u) : Sound u := by
  rcases connectionCb_ok hok with ⟨-, rfl⟩ | ⟨-, -, hpass⟩ | ⟨-, -, rfl⟩
  · exact h
  · exact h.passClient hpass
  · exact h.refused rfl

theorem sound_of_run {es : List MasterEvent} (h : multiEcho.Run (init cpuCount) es s) :
    Sound s := by
  refine h.invariant (init_sound cpuCount) fun s e u hs he hok => ?_
  cases e with
  | connection status accept write => exact hs.connection hok
  | passed i =>
    cases hok
    have hsub := List.eraseIdx_sublist s.pending i
    exact ⟨hs.once.sublist (hsub.map _), fun h hh => hs.held h (hsub.subset hh), hs.routed⟩
  | received w known init accept =>
    obtain ⟨worker, worker', hworker, rfl, hsub⟩ := received_ok hok
    exact hs.set_worker hworker hsub
  | exited w =>
    obtain ⟨worker, worker', hworker, rfl, hsub⟩ := onExit_ok hok
    exact hs.set_worker hworker hsub

/-- No client is served by two workers. -/
theorem serving_unique {es : List MasterEvent} {v w i : ℕ} {x y : ChildWorker}
    (h : multiEcho.Run (init cpuCount) es s) (hv : s.workers[v]? = some x)
    (hw : s.workers[w]? = some y) (hx : i ∈ x.serving) (hy : i ∈ y.serving) : v = w := by
  have hs := sound_of_run h
  obtain ⟨c, p, hc, hp, rfl⟩ := hs.routed v x hv i (List.mem_append_right _ hx)
  obtain ⟨c', p', hc', hp', rfl⟩ := hs.routed w y hw i (List.mem_append_right _ hy)
  obtain rfl := Option.some.inj (hc.symm.trans hc')
  obtain rfl := Option.some.inj (hp.symm.trans hp')
  rfl

/-! ### Who the clients are handed to -/

/-- Every client that was accepted was passed to a worker that had not been reported as exited; the
master holds open only what it is passing, so no more handles than there are requests pending. -/
structure Owned (s : Master) : Prop where
  passed : ∀ c ∈ s.clients, c.accepted = true →
    ∃ p : Pass, c.pass = some p ∧ p.exited = false ∧ p.result = 0
  held : ∀ i ∈ openClients s, ∃ h ∈ s.pending, h.client = i
  bounded : (openClients s).length ≤ s.pending.length

/-- Each open handle has a request of its own. -/
theorem openClients_length_le (h : ∀ i ∈ openClients s, ∃ h ∈ s.pending, h.client = i) :
    (openClients s).length ≤ s.pending.length := by
  have hnodup : (openClients s).Nodup := List.nodup_range.filter _
  have hsub : openClients s ⊆ s.pending.map Handoff.client := by
    intro i hi
    exact List.mem_map.mpr (h i hi)
  have hle := (hnodup.subperm hsub).length_le
  rwa [List.length_map] at hle

/-- The turn falls to a worker that has not exited, and `uv_write2` takes the client; and no
hand-off completes, since its completion does not close the client. -/
def HandsOver (s : Master) : MasterEvent → Prop
  | .connection status accept write => status = 0 → accept = 0 →
    write = 0 ∧ ∀ worker ∈ s.workers[s.roundRobinCounter]?, worker.exited = false
  | .passed _ => False
  | .received _ _ _ _ => True
  | .exited _ => True

instance (s : Master) (e : MasterEvent) : Decidable (HandsOver s e) := by
  cases e <;> unfold HandsOver <;> infer_instance

/-- Only the clients and the requests matter. -/
theorem owned_congr (hclients : u.clients = s.clients) (hpending : u.pending = s.pending) :
    Owned u ↔ Owned s := by
  have hopen : openClients u = openClients s := by
    unfold openClients
    rw [hclients]
  constructor
  · intro h
    exact ⟨hclients ▸ h.passed, hopen ▸ hpending ▸ h.held, hopen ▸ hpending ▸ h.bounded⟩
  · intro h
    exact ⟨hclients ▸ h.passed, hopen ▸ hpending ▸ h.held, hopen ▸ hpending ▸ h.bounded⟩

/-- A client that was not accepted does not matter. -/
theorem owned_refused {c : Client} (haccepted : c.accepted = false) (hclosed : c.closed = true) :
    Owned { s with clients := s.clients ++ [c] } ↔ Owned s := by
  have hopen : openClients { s with clients := s.clients ++ [c] } = openClients s := by
    rw [openClients_snoc (s := s) rfl, hclosed]
    exact List.append_nil _
  constructor
  · intro h
    refine ⟨fun c' hc' => h.passed c' (List.mem_append_left _ hc'), hopen ▸ h.held, ?_⟩
    exact hopen ▸ h.bounded
  · intro h
    refine ⟨fun c' hc' hacc => ?_, hopen.symm ▸ h.held, hopen.symm ▸ h.bounded⟩
    rcases List.mem_append.mp hc' with hc' | hc'
    · exact h.passed c' hc' hacc
    · rw [List.mem_singleton.mp hc', haccepted] at hacc
      cases hacc

/-- A client that was accepted. -/
theorem owned_passClient {write : ℤ} (hok : passClient s write = .ok u) :
    Owned u ↔ Owned s ∧ write = 0 ∧
      ∀ worker ∈ s.workers[s.roundRobinCounter]?, worker.exited = false := by
  obtain ⟨worker, hworker, hclients, hwrite⟩ := passClient_ok hok
  have hopen : openClients u = openClients s ++ [s.clients.length] := openClients_snoc hclients
  constructor
  · intro hu
    have hnew : passedClient s worker write ∈ u.clients := by
      rw [hclients]
      exact List.mem_append_right _ (List.mem_singleton_self _)
    obtain ⟨p, hp, hexited, hresult⟩ := hu.passed _ hnew rfl
    obtain rfl := Option.some.inj hp
    have hzero : write = 0 := hresult
    refine ⟨?_, hzero, ?_⟩
    · have hheld : ∀ i ∈ openClients s, ∃ h ∈ s.pending, h.client = i := by
        intro i hi
        rcases hwrite with ⟨-, hpending, -⟩ | ⟨hne, -⟩
        · obtain ⟨h', hh', heq⟩ := hu.held i (hopen ▸ List.mem_append_left _ hi)
          rw [hpending] at hh'
          rcases List.mem_append.mp hh' with hh' | hh'
          · exact ⟨h', hh', heq⟩
          · -- the new request is for the new client, and `i` is an old one
            have hlt := lt_of_mem_openClients hi
            rw [List.mem_singleton.mp hh'] at heq
            exact absurd heq.symm (by show ¬ i = s.clients.length; omega)
        · exact absurd hzero hne
      refine ⟨fun c hc => hu.passed c ?_, hheld, openClients_length_le hheld⟩
      rw [hclients]
      exact List.mem_append_left _ hc
    · intro worker' hworker'
      obtain rfl := Option.some.inj (hworker'.symm.trans hworker)
      exact hexited
  · intro ⟨hs, hzero, hturn⟩
    rcases hwrite with ⟨-, hpending, -⟩ | ⟨hne, -⟩
    · have hheld : ∀ i ∈ openClients u, ∃ h ∈ u.pending, h.client = i := by
        intro i hi
        rw [hopen] at hi
        rw [hpending]
        rcases List.mem_append.mp hi with hi | hi
        · obtain ⟨h', hh', heq⟩ := hs.held i hi
          exact ⟨h', List.mem_append_left _ hh', heq⟩
        · refine ⟨_, List.mem_append_right _ (List.mem_singleton_self _), ?_⟩
          exact (List.mem_singleton.mp hi).symm
      refine ⟨fun c hc hacc => ?_, hheld, openClients_length_le hheld⟩
      rw [hclients] at hc
      rcases List.mem_append.mp hc with hc | hc
      · exact hs.passed c hc hacc
      · rw [List.mem_singleton.mp hc]
        exact ⟨_, rfl, hturn worker hworker, hzero⟩
    · exact absurd hzero hne

/-- When a hand-off completes, its client stays open and nothing is pending for it any more. -/
theorem Sound.not_owned_passed {i : ℕ} (h : Sound s) (he : multiEcho.enabled s (.passed i)) :
    ¬ Owned { s with pending := s.pending.eraseIdx i } := by
  intro hu
  obtain ⟨h₀, hh₀, -⟩ := (Option.any_eq_true _ _).mp he
  have hmem : h₀ ∈ s.pending := List.mem_of_getElem? hh₀
  obtain ⟨h', hh', heq⟩ := hu.held h₀.client (h.held h₀ hmem)
  obtain ⟨hlt, hget⟩ := List.getElem?_eq_some_iff.mp hh₀
  obtain ⟨j, hne, hj⟩ := List.mem_eraseIdx_iff_getElem?.mp hh'
  exact ne_of_nodup_map h.once hh₀ hj hne heq

/-- **One step.**  After it the clients are owned exactly if they were before and the step hands
over what it should. -/
theorem Sound.owned_step {e : MasterEvent} (h : Sound s) (he : multiEcho.enabled s e)
    (hok : multiEcho.dispatch s e = .ok u) : Owned u ↔ Owned s ∧ HandsOver s e := by
  cases e with
  | connection status accept write =>
    rcases connectionCb_ok hok with ⟨hstatus, rfl⟩ | ⟨hstatus, haccept, hpass⟩ | ⟨-, haccept, rfl⟩
    · exact (and_iff_left fun h0 => absurd h0 hstatus).symm
    · rw [owned_passClient hpass]
      refine and_congr_right fun _ => ⟨fun hwrite _ _ => hwrite, fun hguard => ?_⟩
      exact hguard hstatus haccept
    · rw [owned_refused rfl rfl]
      exact (and_iff_left fun _ h0 => absurd h0 haccept).symm
  | passed i =>
    cases hok
    exact ⟨fun hu => absurd hu (h.not_owned_passed he), fun hs => hs.2.elim⟩
  | received w known init accept =>
    obtain ⟨worker, worker', -, rfl, -⟩ := received_ok hok
    have hguard : HandsOver s (.received w known init accept) := trivial
    rw [and_iff_left hguard]
    exact owned_congr rfl rfl
  | exited w =>
    obtain ⟨worker, worker', -, rfl, -⟩ := onExit_ok hok
    have hguard : HandsOver s (.exited w) := trivial
    rw [and_iff_left hguard]
    exact owned_congr rfl rfl

end

theorem owned_init (cpuCount : ℕ) : Owned (init cpuCount) := ⟨nofun, nofun, le_rfl⟩

/-- **Hand-off ownership.**  In every run every accepted client is passed to a worker that has not
exited and is open in the master only while it is passed, exactly if every step hands over what it
should. -/
theorem owned_iff (cpuCount : ℕ) (es : List MasterEvent) (s : Master)
    (h : multiEcho.Run (init cpuCount) es s) :
    Owned s ↔ (multiEcho.restrict HandsOver).Run (init cpuCount) es s := by
  induction h with
  | nil => exact ⟨fun _ => .nil, fun _ => owned_init cpuCount⟩
  | snoc h he hok ih => rw [h.restrict_snoc_iff he hok, ← ih, (sound_of_run h).owned_step he hok]

/-- Two workers; the second one exits when a client has been passed to each. -/
theorem owned_iff_twoClients : ∃ s, multiEcho.Run (init 2)
    [.connection 0 0 0, .connection 0 0 0, .received 0 true 0 0, .exited 1] s ∧
    (openClients s).length = 2 ∧ Owned s := by
  obtain ⟨s, hrun, hp⟩ : ∃ s, (multiEcho.restrict HandsOver).Run (init 2)
      [.connection 0 0 0, .connection 0 0 0, .received 0 true 0 0, .exited 1] s ∧
      ((openClients s).length == 2) = true := EventLoop.exists_run_of_plays (by decide +kernel)
  exact ⟨s, hrun.of_restrict, beq_iff_eq.mp hp, (owned_iff 2 _ s hrun.of_restrict).mpr hrun⟩

/-- With two workers: the first one has exited when its turn comes, and the client is passed to it
all the same; and a client that has been passed stays open. -/
theorem exited_worker_gets_client : (∃ s, multiEcho.Run (init 2)
      [.exited 0, .connection 0 0 0] s ∧ ¬ Owned s) ∧
    ∃ s, multiEcho.Run (init 2) [.connection 0 0 0, .passed 0] s ∧ ¬ Owned s := by
  constructor
  · obtain ⟨s, hrun, hp⟩ : ∃ s, multiEcho.Run (init 2) [.exited 0, .connection 0 0 0] s ∧
        (s.clients == [⟨true, false, some ⟨0, true, 0⟩⟩]) = true :=
      EventLoop.exists_run_of_plays (by decide +kernel)
    refine ⟨s, hrun, fun hs => ?_⟩
    obtain ⟨p, hp', hexited, -⟩ := hs.passed ⟨true, false, some ⟨0, true, 0⟩⟩
      (by rw [beq_iff_eq.mp hp]; exact List.mem_singleton_self _) rfl
    obtain rfl := Option.some.inj hp'
    cases hexited
  · obtain ⟨s, hrun, hp⟩ : ∃ s, multiEcho.Run (init 2) [.connection 0 0 0, .passed 0] s ∧
        ((openClients s).length == 1 && s.pending == []) = true :=
      EventLoop.exists_run_of_plays (by decide +kernel)
    rw [Bool.and_eq_true, beq_iff_eq, beq_iff_eq] at hp
    refine ⟨s, hrun, fun hs => ?_⟩
    have hle := hs.bounded
    rw [hp.1, hp.2] at hle
    exact absurd hle (by decide)

end LibuvDox.MultiEchoServer
