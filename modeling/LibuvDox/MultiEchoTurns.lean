import LibuvDox.Lib.Turns
import LibuvDox.MultiEchoServer

/-!
# Whose turn it is in 20-multi-echo-server

`connection_cb` passes the clients that it accepts to the workers in turn.  `round_robin_counter`
counts them modulo the number of workers, whatever else happens: connection errors and failed
accepts leave it, and so do the workers that read or exit.

* `spawnLoop_eq_foldlM`: `setup_workers` initialises its slots one by one, from the last to the
  first.
* `dispatch_turn`, `dispatch_given`: what one event does to the counter and to what a worker has
  been given.
* `roundRobin`: whose turn it is after any run, and what each worker has been given by then.
-/

namespace LibuvDox.MultiEchoServer

open Turns (dealt dealt_succ dealt_eq_ceilDiv dealt_le_dealt_add_one)

/-! ### The slots -/

/-- One turn of the loop `while (cpu_count--)`, with the value of `cpu_count` in it. -/
def setupWorker (spawn : ℕ → ℤ) (workers : List ChildWorker) (cpuCount : ℕ) :
    Except Stop (List ChildWorker) := do
  let worker ← deref workers[cpuCount]? "workers[cpu_count]"
  if spawn cpuCount ≠ 0 then .error errorMacro
  else .ok (workers.set cpuCount (spawnWorker worker))

/-- The values that `cpu_count` takes in the loop. -/
def slots : ℕ → List ℕ
  | 0 => []
  | cpuCount + 1 => cpuCount :: slots cpuCount

theorem spawnLoop_eq_foldlM (spawn : ℕ → ℤ) (workers : List ChildWorker) (n : ℕ) :
    spawnLoop spawn workers n = (slots n).foldlM (setupWorker spawn) workers := by
  induction n generalizing workers with
  | zero => rfl
  | succ n ih =>
    simp only [spawnLoop, slots, List.foldlM_cons, setupWorker]
    cases workers[n]? with
    | none => rfl
    | some worker =>
      by_cases hspawn : spawn n ≠ 0
      · simp [deref, hspawn, bind, Except.bind]
      · simp [deref, hspawn, bind, Except.bind, ih]

/-- Every slot has its turn in the loop once. -/
theorem count_slots (n i : ℕ) : (slots n).count i = if i < n then 1 else 0 := by
  induction n with
  | zero => simp [slots]
  | succ n ih =>
    rw [slots, List.count_cons, ih]
    by_cases hi : i < n
    · simp [hi, show n ≠ i by omega, show i < n + 1 by omega]
    · by_cases hin : n = i
      · simp [hin]
      · simp [hi, hin, show ¬ i < n + 1 by omega]

/-! ### One event -/

/-- `uv_accept` succeeds in `connection_cb`. -/
def Accepts : MasterEvent → Bool
  | .connection status accept _ => status == 0 && accept == 0
  | .passed _ => false
  | .received _ _ _ _ => false
  | .exited _ => false

/-- The successful accepts of a schedule. -/
def accepts (es : List MasterEvent) : ℕ := es.countP Accepts

/-- The calls of `uv_write2` with the pipe of the worker `i`. -/
def given (s : Master) (i : ℕ) : ℕ := s.clients.countP fun c => c.pass.any fun p => p.worker == i

section

variable {s u : Master} {e : MasterEvent}

@[simp] theorem connectCb_spawned (worker : ChildWorker) (client : ℕ) (known : Bool)
    (init accept : ℤ) : (connectCb worker client known init accept).spawned = worker.spawned := by
  unfold connectCb
  split
  · rfl
  · split
    · rfl
    · split <;> rfl

/-- A slot is set to something that is initialised like the slot. -/
theorem map_spawned_set {workers : List ChildWorker} {w : ℕ} {worker worker' : ChildWorker}
    (hworker : workers[w]? = some worker) (hsame : worker'.spawned = worker.spawned) :
    (workers.set w worker').map ChildWorker.spawned = workers.map ChildWorker.spawned := by
  have hget : (workers.map ChildWorker.spawned)[w]? = some worker.spawned := by simp [hworker]
  obtain ⟨hlt, heq⟩ := List.getElem?_eq_some_iff.mp hget
  rw [List.map_set, hsame, ← heq, List.set_getElem_self]

/-- The next turn is that of the next worker. -/
theorem passClient_turn {write : ℤ} (hok : passClient s write = .ok u) :
    u.roundRobinCounter = (s.roundRobinCounter + 1) % s.childWorkerCount ∧
      u.childWorkerCount = s.childWorkerCount := by
  obtain ⟨worker, -, hok⟩ := bind_ok_iff.mp hok
  split at hok
  · cases hok
  · cases hok
    refine ⟨rfl, ?_⟩
    show (uvWrite2 _ _ _ _ _).childWorkerCount = _
    unfold uvWrite2
    split
    · rfl
    · rfl

/-- The number of workers stays, and so does what was initialised. -/
theorem dispatch_workers (hok : multiEcho.dispatch s e = .ok u) :
    u.workers.map ChildWorker.spawned = s.workers.map ChildWorker.spawned ∧
      u.childWorkerCount = s.childWorkerCount := by
  cases e with
  | connection status accept write =>
    rcases connectionCb_ok hok with ⟨-, rfl⟩ | ⟨-, -, hpass⟩ | ⟨-, -, rfl⟩
    · exact ⟨rfl, rfl⟩
    · obtain ⟨worker, hworker, -, hwrite⟩ := passClient_ok hpass
      refine ⟨?_, (passClient_turn hpass).2⟩
      rcases hwrite with ⟨-, -, hworkers⟩ | ⟨-, -, hworkers⟩
      · rw [hworkers]
        exact map_spawned_set hworker rfl
      · rw [hworkers]
    · exact ⟨rfl, rfl⟩
  | passed i =>
    cases hok
    exact ⟨rfl, rfl⟩
  | received w known init accept =>
    obtain ⟨worker, hworker, hok⟩ := bind_ok_iff.mp hok
    rw [deref_ok_iff] at hworker
    split at hok
    · cases hok
    · cases hok
      exact ⟨map_spawned_set hworker (by simp), rfl⟩
  | exited w =>
    obtain ⟨worker, hworker, hok⟩ := bind_ok_iff.mp hok
    rw [deref_ok_iff] at hworker
    cases hok
    exact ⟨map_spawned_set hworker rfl, rfl⟩

/-- **The counter.**  It advances on a successful accept, and on nothing else. -/
theorem dispatch_turn (hok : multiEcho.dispatch s e = .ok u) :
    u.roundRobinCounter = if Accepts e then (s.roundRobinCounter + 1) % s.childWorkerCount
      else s.roundRobinCounter := by
  cases e with
  | connection status accept write =>
    rcases connectionCb_ok hok with ⟨hstatus, rfl⟩ | ⟨hstatus, haccept, hpass⟩ | ⟨-, haccept, rfl⟩
    · simp [Accepts, hstatus]
    · simp [Accepts, hstatus, haccept, (passClient_turn hpass).1]
    · simp [Accepts, haccept]
  | passed i =>
    cases hok
    rfl
  | received w known init accept =>
    obtain ⟨worker, worker', -, rfl, -⟩ := received_ok hok
    rfl
  | exited w =>
    obtain ⟨worker, worker', -, rfl, -⟩ := onExit_ok hok
    rfl

/-- The client goes to the worker whose turn it is. -/
theorem dispatch_given (hok : multiEcho.dispatch s e = .ok u) (i : ℕ) :
    given u i = given s i + if Accepts e ∧ s.roundRobinCounter = i then 1 else 0 := by
  cases e with
  | connection status accept write =>
    rcases connectionCb_ok hok with ⟨hstatus, rfl⟩ | ⟨hstatus, haccept, hpass⟩ | ⟨-, haccept, rfl⟩
    · simp [Accepts, hstatus]
    · obtain ⟨worker, -, hclients, -⟩ := passClient_ok hpass
      simp [given, hclients, List.countP_append, List.countP_singleton, passedClient, Accepts,
        hstatus, haccept]
    · simp [given, List.countP_append, Accepts, haccept]
  | passed i =>
    cases hok
    simp [given, Accepts]
  | received w known init accept =>
    obtain ⟨worker, worker', -, rfl, -⟩ := received_ok hok
    simp [given, Accepts]
  | exited w =>
    obtain ⟨worker, worker', -, rfl, -⟩ := onExit_ok hok
    simp [given, Accepts]

/-! ### Runs -/

/-- After `n` successful accepts by a master with `k` workers. -/
structure Turn (k n : ℕ) (s : Master) : Prop where
  initialised : s.workers.map ChildWorker.spawned = List.replicate k true
  workers : s.childWorkerCount = k
  counter : s.roundRobinCounter = n % k
  dealt : ∀ i < k, given s i = dealt k i n

variable {k n : ℕ}

theorem init_turn (k : ℕ) : Turn k 0 (init k) where
  initialised := by simp [init, spawnWorker]
  workers := rfl
  counter := (Nat.zero_mod k).symm
  dealt i _ := by simp [given, init]

/-- One event, which is a successful accept or not. -/
theorem Turn.step (h : Turn k n s) (hok : multiEcho.dispatch s e = .ok u) :
    Turn k (n + if Accepts e then 1 else 0) u := by
  obtain ⟨hspawned, hcount⟩ := dispatch_workers hok
  have hturn := dispatch_turn hok
  have hgiven := dispatch_given hok
  rw [h.counter, h.workers] at hturn
  rw [h.counter] at hgiven
  cases hacc : Accepts e with
  | false =>
    refine ⟨hspawned.trans h.initialised, hcount.trans h.workers, ?_, fun i hi => ?_⟩
    · simpa [hacc] using hturn
    · simpa [hacc, h.dealt i hi] using hgiven i
  | true =>
    refine ⟨hspawned.trans h.initialised, hcount.trans h.workers, ?_, fun i hi => ?_⟩
    · simpa [hacc] using hturn
    · simp [dealt_succ, hgiven i, hacc, h.dealt i hi]

theorem Turn.of_run {es : List MasterEvent} (h : multiEcho.Run (init k) es s) :
    Turn k (accepts es) s := by
  refine h.history (P := fun es s => Turn k (accepts es) s) (init_turn k) ?_
  intro es s e u hs _ hok
  have hu := hs.step hok
  rwa [accepts, List.countP_append, List.countP_singleton]

/-- The counter points to a slot that is initialised. -/
theorem Turn.slot (h : Turn k n s) (hk : 0 < k) :
    ∃ worker, s.workers[s.roundRobinCounter]? = some worker ∧ worker.spawned = true := by
  have hlen : s.workers.length = k := by
    simpa using congrArg List.length h.initialised
  have hlt : s.roundRobinCounter < s.workers.length := by
    rw [hlen, h.counter]
    exact Nat.mod_lt n hk
  refine ⟨_, List.getElem?_eq_getElem hlt, ?_⟩
  have hmem : s.workers[s.roundRobinCounter].spawned ∈ s.workers.map ChildWorker.spawned :=
    List.mem_map_of_mem (List.getElem_mem hlt)
  rw [h.initialised] at hmem
  exact List.eq_of_mem_replicate hmem

/-- `connection_cb` returns. -/
theorem Turn.connectionCb_ok (h : Turn k n s) (hk : 0 < k) (status accept write : ℤ) :
    ∃ u, connectionCb s status accept write = .ok u := by
  obtain ⟨worker, hworker, -⟩ := h.slot hk
  unfold connectionCb
  split
  · exact ⟨s, rfl⟩
  · split
    · have hcount : s.childWorkerCount ≠ 0 := by
        rw [h.workers]
        omega
      simp [passClient, hworker, hcount, deref, bind, Except.bind]
    · exact ⟨_, rfl⟩

/-- A master with `k` workers whose turns are those of `n` successful accepts. -/
structure RoundRobin (k n : ℕ) (s : Master) : Prop where
  bound : s.roundRobinCounter < k
  slot : ∃ worker, s.workers[s.roundRobinCounter]? = some worker ∧ worker.spawned = true
  returns : ∀ status accept write, ∃ u, connectionCb s status accept write = .ok u
  advances : ∀ e u, multiEcho.dispatch s e = .ok u → u.roundRobinCounter =
    if Accepts e then (s.roundRobinCounter + 1) % k else s.roundRobinCounter
  given : ∀ i < k, given s i = if i < n then (n - i) ⌈/⌉ k else 0
  balanced : ∀ i < k, ∀ j < k, MultiEchoServer.given s i ≤ MultiEchoServer.given s j + 1

theorem Turn.roundRobin (h : Turn k n s) (hk : 0 < k) : RoundRobin k n s where
  bound := by
    rw [h.counter]
    exact Nat.mod_lt n hk
  slot := h.slot hk
  returns := h.connectionCb_ok hk
  advances e u hok := by
    rw [dispatch_turn hok, h.workers]
  given i hi := by rw [h.dealt i hi, dealt_eq_ceilDiv hi]
  balanced i hi j hj := by
    rw [h.dealt i hi, h.dealt j hj]
    exact dealt_le_dealt_add_one hi hj n

end

/-- **Round robin.**  `setup_workers` initialises each slot once, and the successful accepts of any
run after it go to the workers in turn. -/
theorem connections_roundRobin {k : ℕ} (hk : 0 < k) {spawn : ℕ → ℤ} {s₀ s : Master}
    {es : List MasterEvent} (hsetup : setupWorkers k spawn = .ok s₀)
    (h : multiEcho.Run s₀ es s) :
    ((slots k).foldlM (setupWorker spawn) (List.replicate k callocWorker) = .ok s₀.workers ∧
      ∀ i, (slots k).count i = if i < k then 1 else 0) ∧
    RoundRobin k (accepts es) s := by
  obtain ⟨workers, hloop, heq⟩ := bind_ok_iff.mp hsetup
  obtain ⟨-, rfl⟩ := setupWorkers_ok_iff.mp hsetup
  refine ⟨⟨?_, count_slots k⟩, (Turn.of_run h).roundRobin hk⟩
  rw [← spawnLoop_eq_foldlM, hloop, ← Except.ok.inj heq]

/-- Two workers, and three clients between a connection error and a failed accept. -/
theorem connections_roundRobin_twoWorkers : ∃ s, multiEcho.Run (init 2)
      [.connection 0 0 0, .connection (-1) 0 0, .connection 0 0 0, .connection 0 (-1) 0,
        .connection 0 0 0] s ∧
    RoundRobin 2 3 s ∧ (given s 0 = 2 ∧ given s 1 = 1) := by
  obtain ⟨s, hrun, hp⟩ : ∃ s, multiEcho.Run (init 2)
      [.connection 0 0 0, .connection (-1) 0 0, .connection 0 0 0, .connection 0 (-1) 0,
        .connection 0 0 0] s ∧ (given s 0 == 2 && given s 1 == 1) = true :=
    EventLoop.exists_run_of_plays (by decide +kernel)
  rw [Bool.and_eq_true, beq_iff_eq, beq_iff_eq] at hp
  have hsetup : setupWorkers 2 (fun _ => 0) = .ok (init 2) :=
    setupWorkers_ok_iff.mpr ⟨fun _ _ => rfl, rfl⟩
  exact ⟨s, hrun, (connections_roundRobin (by decide) hsetup hrun).2, hp⟩

end LibuvDox.MultiEchoServer
