import LibuvDox.MultiEchoServer
import LibuvDox.PipeEchoServer

/-!
# 20-multi-echo-server: the master and its workers together

Every worker is a process of its own, which runs the echo of `PipeEchoServer` on the clients it has
taken off its pipe.  The processes go on independently of each other; a worker whose callback fails
an assertion is gone, and the others do not notice.

* `Isolated`: the invariant, for each worker.  The clients it has accepted and those on the pipe to
  it are clients the master has passed to it, in their order.
* `Isolated.run`: what a worker does is a run of the echo of one process.
* `echoesOwn_of_run`: whatever the order of events in all these processes is, a client is echoed by
  one worker only, on one handle, and is sent the buffers of its own reads.
-/

namespace LibuvDox.MultiEchoSystem

open MultiEchoServer

/-- A worker process, and which client of the master each of its clients is. -/
structure Process where
  echo : PipeEchoServer.EchoServer
  origin : List ℕ
  deriving DecidableEq, Repr

structure EchoSystem where
  master : Master
  processes : List Process

/-- Something happens in the master or at one end of a pipe; a read or a completed write in a
worker. -/
inductive SystemEvent where
  | master (e : MasterEvent)
  | client (w : ℕ) (e : PipeEchoServer.EchoEvent)
  deriving DecidableEq, Repr

/-- `UV_NAMED_PIPE`. -/
def UV_NAMED_PIPE : ℤ := 7

/-- The type of the pending handle. -/
def pendingType (known : Bool) : ℤ :=
  if known then UV_NAMED_PIPE else PipeEchoServer.UV_UNKNOWN_HANDLE

namespace EchoSystem

/-- The master listens, and its workers have started. -/
def init (cpuCount : ℕ) : EchoSystem :=
  ⟨MultiEchoServer.init cpuCount, List.replicate cpuCount ⟨PipeEchoServer.init, []⟩⟩

/-- The process of a worker has aborted. -/
def abort (s : EchoSystem) (w : ℕ) : EchoSystem :=
  match s.master.workers[w]? with
  | none => s
  | some worker =>
    { s with master := { s.master with
        workers := s.master.workers.set w { worker with running := false } } }

/-- `connect_cb` in the worker `w`, for the client that has arrived. -/
def connect (s : EchoSystem) (w client : ℕ) (known : Bool) (init accept : ℤ) :
    Except Stop EchoSystem := do
  let p ← deref s.processes[w]? "worker"
  match PipeEchoServer.workerConnectCb p.echo (pendingType known) init accept with
  | .ok echo =>
    let origin := if known then p.origin ++ [client] else p.origin
    .ok { s with processes := s.processes.set w ⟨echo, origin⟩ }
  | .error _ => .ok s

/-- The master's side of an event, and for a message on a pipe the worker's side. -/
def dispatchMaster (s : EchoSystem) (e : MasterEvent) : Except Stop EchoSystem := do
  let m ← multiEcho.dispatch s.master e
  match e with
  | .received w known init accept => do
    let worker ← deref s.master.workers[w]? "queue_"
    let client ← deref worker.queue.head? "queue_"
    connect { s with master := m } w client known init accept
  | _ => .ok { s with master := m }

/-- A read or a completed write in the worker `w`; an assertion that fails ends that process. -/
def dispatchClient (s : EchoSystem) (w : ℕ) (e : PipeEchoServer.EchoEvent) :
    Except Stop EchoSystem := do
  let p ← deref s.processes[w]? "worker"
  match PipeEchoServer.worker.dispatch p.echo e with
  | .ok echo => .ok { s with processes := s.processes.set w { p with echo := echo } }
  | .error _ => .ok (s.abort w)

/-- A worker gets its clients from the pipe only. -/
def IsClientEvent : PipeEchoServer.EchoEvent → Prop
  | .connect _ _ _ => False
  | .read _ _ _ => True
  | .written _ _ => True

instance : DecidablePred IsClientEvent
  | .connect _ _ _ => inferInstanceAs (Decidable False)
  | .read _ _ _ => inferInstanceAs (Decidable True)
  | .written _ _ => inferInstanceAs (Decidable True)

def Enabled (s : EchoSystem) : SystemEvent → Prop
  | .master e => multiEcho.enabled s.master e
  | .client w e => s.master.workers[w]?.any ChildWorker.running = true ∧ IsClientEvent e ∧
    ∃ p ∈ s.processes[w]?, PipeEchoServer.worker.enabled p.echo e

def decideEnabled (s : EchoSystem) : ∀ e, Decidable (Enabled s e)
  | .master e => inferInstanceAs (Decidable (multiEcho.enabled s.master e))
  | .client _ _ => inferInstanceAs (Decidable (_ ∧ _ ∧ _))

def dispatch (s : EchoSystem) : SystemEvent → Except Stop EchoSystem
  | .master e => s.dispatchMaster e
  | .client w e => s.dispatchClient w e

end EchoSystem

/-- The master and its workers. -/
def system : EventLoop EchoSystem SystemEvent Stop := ⟨EchoSystem.Enabled, EchoSystem.dispatch⟩

instance (s : EchoSystem) (e : SystemEvent) : Decidable (system.enabled s e) :=
  EchoSystem.decideEnabled s e

/-- The reads of the client number `c` of the worker `w` with `nread >= 0`, in order. -/
def readsIn (w c : ℕ) (es : List SystemEvent) : List BufferRead :=
  es.flatMap fun
    | .client w' e => if w' = w then PipeEchoServer.readsOf c [e] else []
    | .master _ => []

@[simp] theorem readsIn_concat (w c : ℕ) (es : List SystemEvent) (e : SystemEvent) :
    readsIn w c (es ++ [e]) = readsIn w c es ++ readsIn w c [e] := by
  simp [readsIn]

namespace EchoSystem

/-- **The invariant**, for the worker `w`, whose process is `p`. -/
structure Isolated (es : List SystemEvent) (s : EchoSystem) (w : ℕ) (worker : ChildWorker)
    (p : Process) : Prop where
  routed : ∀ i ∈ p.origin ++ worker.queue, PassedTo s.master i w
  sorted : (p.origin ++ worker.queue).Pairwise (· < ·)
  aligned : p.origin.length = p.echo.clients.length
  run : ∃ fs, PipeEchoServer.worker.Run PipeEchoServer.init fs p.echo ∧
    ∀ c, PipeEchoServer.readsOf c fs = readsIn w c es

/-- It holds for each worker. -/
structure Sound (es : List SystemEvent) (s : EchoSystem) : Prop where
  length : s.processes.length = s.master.workers.length
  isolated : ∀ w worker p, s.master.workers[w]? = some worker → s.processes[w]? = some p →
    Isolated es s w worker p

section

variable {es : List SystemEvent} {s u : EchoSystem} {m m' : Master} {w i : ℕ} {worker : ChildWorker}
variable {p : Process} {cpuCount : ℕ}

theorem init_sound (cpuCount : ℕ) : Sound [] (init cpuCount) where
  length := by simp [init, MultiEchoServer.init]
  isolated w worker p hworker hp := by
    obtain rfl := List.eq_of_mem_replicate (List.mem_of_getElem? hworker)
    obtain rfl := List.eq_of_mem_replicate (List.mem_of_getElem? hp)
    exact ⟨nofun, .nil, rfl, [], .nil, fun c => rfl⟩

/-! ### The side of the master -/

theorem PassedTo.lt (h : PassedTo m i w) : i < m.clients.length := by
  obtain ⟨c, pass, hc, -⟩ := h
  exact (List.getElem?_eq_some_iff.mp hc).1

theorem passedTo_unique {v : ℕ} (h : PassedTo m i v) (h' : PassedTo m i w) : v = w := by
  obtain ⟨c, pass, hc, hpass, rfl⟩ := h
  obtain ⟨c', pass', hc', hpass', rfl⟩ := h'
  obtain rfl := Option.some.inj (hc.symm.trans hc')
  obtain rfl := Option.some.inj (hpass.symm.trans hpass')
  rfl

/-- The pipes to the workers, and who was passed to whom, while no message is read: a pipe stays as
it is, or gets a new client. -/
structure QueuesGrow (m m' : Master) : Prop where
  length : m'.workers.length = m.workers.length
  passed : ∀ i w, PassedTo m i w → PassedTo m' i w
  queue : ∀ w worker', m'.workers[w]? = some worker' → ∃ worker, m.workers[w]? = some worker ∧
    (worker'.queue = worker.queue ∨
      worker'.queue = worker.queue ++ [m.clients.length] ∧ PassedTo m' m.clients.length w)

theorem QueuesGrow.of_same (hworkers : m'.workers = m.workers)
    (hpassed : ∀ i w, PassedTo m i w → PassedTo m' i w) : QueuesGrow m m' where
  length := by rw [hworkers]
  passed := hpassed
  queue w worker' hworker' := ⟨worker', hworkers ▸ hworker', .inl rfl⟩

/-- A process ends, or is reported to have ended. -/
theorem QueuesGrow.set {worker' : ChildWorker} (hworker : m.workers[w]? = some worker)
    (hqueue : worker'.queue = worker.queue) :
    QueuesGrow m { m with workers := m.workers.set w worker' } where
  length := List.length_set
  passed _ _ hpass := hpass
  queue v x hx := by
    rcases set_worker_cases hx with ⟨rfl, rfl⟩ | hold
    · exact ⟨worker, hworker, .inl hqueue⟩
    · exact ⟨x, hold, .inl rfl⟩

theorem QueuesGrow.passClient {write : ℤ} (hok : passClient m write = .ok m') :
    QueuesGrow m m' := by
  obtain ⟨worker, hworker, hclients, hwrite⟩ := passClient_ok hok
  have hpassed : ∀ i w, PassedTo m i w → PassedTo m' i w := fun i w h => h.snoc hclients
  rcases hwrite with ⟨-, -, hworkers⟩ | ⟨-, -, hworkers⟩
  · refine ⟨by rw [hworkers, List.length_set], hpassed, fun w worker' hworker' => ?_⟩
    rw [hworkers] at hworker'
    rcases set_worker_cases hworker' with ⟨rfl, rfl⟩ | hold
    · refine ⟨worker, hworker, .inr ⟨rfl, passedClient m worker write, _, ?_, rfl, rfl⟩⟩
      rw [hclients, List.getElem?_concat_length]
    · exact ⟨worker', hold, .inl rfl⟩
  · exact .of_same hworkers hpassed

/-- The events of the master but the messages on the pipes. -/
theorem queuesGrow_dispatch {e : MasterEvent} (hok : multiEcho.dispatch m e = .ok m')
    (hother : ∀ w known init accept, e ≠ .received w known init accept) : QueuesGrow m m' := by
  cases e with
  | connection status accept write =>
    rcases connectionCb_ok hok with ⟨-, rfl⟩ | ⟨-, -, hpass⟩ | ⟨-, -, rfl⟩
    · exact .of_same rfl fun _ _ h => h
    · exact .passClient hpass
    · exact .of_same rfl fun _ _ h => h.snoc rfl
  | passed i =>
    cases hok
    exact .of_same rfl fun _ _ h => h
  | received w known init accept => exact absurd rfl (hother w known init accept)
  | exited w =>
    obtain ⟨worker, hworker, hok⟩ := bind_ok_iff.mp hok
    cases hok
    exact .set (deref_ok_iff.mp hworker) rfl

/-- Nothing happens in the workers. -/
theorem Isolated.grow {worker' : ChildWorker} (h : Isolated es s w worker p)
    (hgrow : QueuesGrow s.master m') (hqueue : worker'.queue = worker.queue ∨
      worker'.queue = worker.queue ++ [s.master.clients.length] ∧
        PassedTo m' s.master.clients.length w) {e : SystemEvent}
    (he : ∀ c, readsIn w c [e] = []) :
    Isolated (es ++ [e]) { s with master := m' } w worker' p where
  routed i hi := by
    rcases hqueue with hsame | ⟨hnew, hpass⟩
    · rw [hsame] at hi
      exact hgrow.passed _ _ (h.routed i hi)
    · rw [hnew, ← List.append_assoc] at hi
      rcases List.mem_append.mp hi with hold | hlast
      · exact hgrow.passed _ _ (h.routed i hold)
      · rw [List.mem_singleton.mp hlast]
        exact hpass
  sorted := by
    rcases hqueue with hsame | ⟨hnew, -⟩
    · rw [hsame]
      exact h.sorted
    · rw [hnew, ← List.append_assoc, List.pairwise_append]
      refine ⟨h.sorted, List.pairwise_singleton _ _, fun i hi j hj => ?_⟩
      rw [List.mem_singleton.mp hj]
      exact PassedTo.lt (h.routed i hi)
  aligned := h.aligned
  run := by
    obtain ⟨fs, hrun, hreads⟩ := h.run
    refine ⟨fs, hrun, fun c => ?_⟩
    rw [readsIn_concat, he, List.append_nil, hreads]

theorem Sound.grow (h : Sound es s) (hgrow : QueuesGrow s.master m') {e : SystemEvent}
    (he : ∀ w c, readsIn w c [e] = []) : Sound (es ++ [e]) { s with master := m' } where
  length := h.length.trans hgrow.length.symm
  isolated w worker' p hworker' hp := by
    obtain ⟨worker, hworker, hqueue⟩ := hgrow.queue w worker' hworker'
    exact (h.isolated w worker p hworker hp).grow hgrow hqueue (he w)

/-! ### A message on a pipe -/

theorem connectCb_queue (worker : ChildWorker) (client : ℕ) (known : Bool) (init accept : ℤ) :
    (connectCb worker client known init accept).queue = worker.queue := by
  unfold connectCb
  split
  · rfl
  · split
    · rfl
    · split <;> rfl

/-- What the worker's side of a message does. -/
theorem connect_ok {client : ℕ} {known : Bool} {init accept : ℤ}
    (hok : connect s w client known init accept = .ok u) :
    ∃ p p', s.processes[w]? = some p ∧ u = { s with processes := s.processes.set w p' } ∧
      ((p'.origin = p.origin ∨ p'.origin = p.origin ++ [client]) ∧
        (p.origin.length = p.echo.clients.length → p'.origin.length = p'.echo.clients.length) ∧
        (p'.echo = p.echo ∨
          PipeEchoServer.workerConnectCb p.echo (pendingType known) init accept
            = .ok p'.echo)) := by
  obtain ⟨p, hp, hok⟩ := bind_ok_iff.mp hok
  rw [deref_ok_iff] at hp
  refine ⟨p, ?_⟩
  cases hconn : PipeEchoServer.workerConnectCb p.echo (pendingType known) init accept with
  | ok echo =>
    rw [hconn] at hok
    cases hok
    refine ⟨⟨echo, if known then p.origin ++ [client] else p.origin⟩, hp, rfl, ?_, ?_, .inr rfl⟩
    · cases known
      · exact .inl rfl
      · exact .inr rfl
    · intro haligned
      cases known with
      | false =>
        cases hconn
        exact haligned
      | true =>
        obtain ⟨isOpen, rfl⟩ := PipeEchoServer.acceptClient_ok hconn
        simp [haligned]
  | error x =>
    rw [hconn] at hok
    cases hok
    refine ⟨p, hp, ?_, .inl rfl, id, .inl rfl⟩
    obtain ⟨hlt, rfl⟩ := List.getElem?_eq_some_iff.mp hp
    rw [List.set_getElem_self]

/-- The worker has taken a client off its pipe. -/
theorem Isolated.connect (h : Isolated es s w worker p) {client : ℕ} {queue : List ℕ}
    (hqueue : worker.queue = client :: queue) {worker' : ChildWorker} {p' : Process}
    (hqueue' : worker'.queue = queue)
    (horigin : p'.origin = p.origin ∨ p'.origin = p.origin ++ [client])
    (haligned : p'.origin.length = p'.echo.clients.length) {known : Bool} {init accept : ℤ}
    (hecho : p'.echo = p.echo ∨
      PipeEchoServer.workerConnectCb p.echo (pendingType known) init accept = .ok p'.echo)
    (hclients : u.master.clients = s.master.clients) {e : SystemEvent}
    (he : ∀ c, readsIn w c [e] = []) : Isolated (es ++ [e]) u w worker' p' := by
  have hsub : (p'.origin ++ worker'.queue).Sublist (p.origin ++ worker.queue) := by
    rw [hqueue, hqueue']
    rcases horigin with hsame | hnew
    · rw [hsame]
      exact (List.sublist_cons_self _ _).append_left _
    · rw [hnew, List.append_assoc]
      exact List.Sublist.refl _
  constructor
  case routed =>
    intro i hi
    obtain ⟨c, pass, hc, hpass⟩ := h.routed i (hsub.subset hi)
    exact ⟨c, pass, hclients ▸ hc, hpass⟩
  case sorted => exact h.sorted.sublist hsub
  case aligned => exact haligned
  case run =>
    obtain ⟨fs, hrun, hreads⟩ := h.run
    rcases hecho with hsame | hconn
    · refine ⟨fs, hsame ▸ hrun, fun c => ?_⟩
      rw [readsIn_concat, he, List.append_nil, hreads]
    · have he' : PipeEchoServer.worker.enabled p.echo
          (.connect (pendingType known) init accept) := trivial
      refine ⟨_, hrun.snoc he' hconn, fun c => ?_⟩
      rw [PipeEchoServer.readsOf_append, readsIn_concat, he, hreads]
      rfl

/-- Another worker has done something. -/
theorem Isolated.other (h : Isolated es s w worker p)
    (hclients : u.master.clients = s.master.clients) {e : SystemEvent}
    (he : ∀ c, readsIn w c [e] = []) : Isolated (es ++ [e]) u w worker p where
  routed i hi := by
    obtain ⟨c, pass, hc, hpass⟩ := h.routed i hi
    exact ⟨c, pass, hclients ▸ hc, hpass⟩
  sorted := h.sorted
  aligned := h.aligned
  run := by
    obtain ⟨fs, hrun, hreads⟩ := h.run
    refine ⟨fs, hrun, fun c => ?_⟩
    rw [readsIn_concat, he, List.append_nil, hreads]

theorem Sound.received (h : Sound es s) {known : Bool} {init accept : ℤ}
    (hok : s.dispatchMaster (.received w known init accept) = .ok u) :
    Sound (es ++ [.master (.received w known init accept)]) u := by
  obtain ⟨m, hm, hok⟩ := bind_ok_iff.mp hok
  obtain ⟨worker, hworker, hok⟩ := bind_ok_iff.mp hok
  obtain ⟨client, hclient, hok⟩ := bind_ok_iff.mp hok
  rw [deref_ok_iff] at hworker hclient
  obtain ⟨queue, hqueue⟩ : ∃ queue, worker.queue = client :: queue :=
    List.head?_eq_some_iff.mp hclient
  obtain ⟨worker₁, hworker₁, hm⟩ := bind_ok_iff.mp hm
  rw [deref_ok_iff, hworker] at hworker₁
  cases hworker₁
  rw [hqueue] at hm
  cases hm
  obtain ⟨p, p', hp, rfl, horigin, haligned, hecho⟩ := connect_ok hok
  have hnone : ∀ v c, readsIn v c [.master (.received w known init accept)] = [] :=
    fun _ _ => rfl
  refine ⟨by simpa using h.length, fun v worker' q hworker' hq => ?_⟩
  by_cases hv : v = w
  · subst hv
    have hworker'' := (List.getElem?_set_self (List.getElem?_eq_some_iff.mp hworker).1).symm.trans
      hworker'
    have hq' := (List.getElem?_set_self (List.getElem?_eq_some_iff.mp hp).1).symm.trans hq
    cases hworker''
    cases hq'
    have hold := h.isolated v worker p hworker hp
    have hqueue' := connectCb_queue { worker with queue := queue } client known init accept
    refine hold.connect hqueue hqueue' horigin (haligned hold.aligned) hecho ?_ (hnone v)
    rfl
  · have hworker'' := (List.getElem?_set_ne (Ne.symm hv)).symm.trans hworker'
    have hq' := (List.getElem?_set_ne (Ne.symm hv)).symm.trans hq
    refine (h.isolated v worker' q hworker'' hq').other ?_ (hnone v)
    rfl

/-! ### The clients of a worker -/

/-- A read that is enabled is answered. -/
theorem read_returns {t : PipeEchoServer.EchoServer} {c : ℕ} {r : BufferRead} {accepted : Bool}
    (he : PipeEchoServer.worker.enabled t (.read c r accepted)) :
    ∃ t', PipeEchoServer.worker.dispatch t (.read c r accepted) = .ok t' := by
  obtain ⟨client, hclient, -⟩ := Option.map_eq_some_iff.mp he
  have hd : PipeEchoServer.worker.dispatch t (.read c r accepted) =
      PipeEchoServer.readCb (PipeEchoServer.allocCb t r.buf).1 c r.nread
        (PipeEchoServer.allocCb t r.buf).2 accepted := rfl
  have hclient' : (PipeEchoServer.allocCb t r.buf).1.clients[c]? = some client := by
    cases r.buf <;> exact hclient
  rw [hd, PipeEchoServer.readCb, hclient']
  by_cases hneg : r.nread < 0
  · exact ⟨_, if_pos hneg⟩
  · obtain ⟨contents, hbuf⟩ := Option.isSome_iff_exists.mp (r.notNull (by omega))
    refine ⟨_, (if_neg hneg).trans (bind_ok_iff.mpr ⟨contents, ?_, rfl⟩)⟩
    simp [hbuf, PipeEchoServer.allocCb, Heap.get?_alloc]

theorem length_clients {t t' : PipeEchoServer.EchoServer} {e : PipeEchoServer.EchoEvent}
    (hconn : IsClientEvent e) (hd : PipeEchoServer.worker.dispatch t e = .ok t') :
    t'.clients.length = t.clients.length := by
  cases e with
  | connect arg init accept => exact hconn.elim
  | read c r accepted =>
    have hread : PipeEchoServer.readCb (PipeEchoServer.allocCb t r.buf).1 c r.nread
        (PipeEchoServer.allocCb t r.buf).2 accepted = .ok t' := hd
    have hsame : (PipeEchoServer.allocCb t r.buf).1.clients = t.clients := by
      cases r.buf <;> rfl
    obtain ⟨client, -, hread⟩ := bind_ok_iff.mp hread
    split at hread
    · cases hread
      rw [List.length_set, hsame]
    · obtain ⟨sent, -, hu⟩ := bind_ok_iff.mp hread
      cases hu
      rw [List.length_set, hsame]
  | written c status =>
    obtain ⟨client, -, hwrite⟩ := bind_ok_iff.mp hd
    rw [PipeEchoServer.writeCb_clients hwrite, List.length_set]

/-- A callback of the worker returns. -/
theorem Isolated.client (h : Isolated es s w worker p) {e : PipeEchoServer.EchoEvent}
    {echo : PipeEchoServer.EchoServer} (he : PipeEchoServer.worker.enabled p.echo e)
    (hconn : IsClientEvent e) (hd : PipeEchoServer.worker.dispatch p.echo e = .ok echo)
    (hclients : u.master.clients = s.master.clients) :
    Isolated (es ++ [.client w e]) u w worker { p with echo := echo } where
  routed i hi := by
    obtain ⟨c, pass, hc, hpass⟩ := h.routed i hi
    exact ⟨c, pass, hclients ▸ hc, hpass⟩
  sorted := h.sorted
  aligned := by
    rw [h.aligned, length_clients hconn hd]
  run := by
    obtain ⟨fs, hrun, hreads⟩ := h.run
    refine ⟨fs ++ [e], hrun.snoc he hd, fun c => ?_⟩
    rw [PipeEchoServer.readsOf_append, readsIn_concat, hreads]
    simp [readsIn]

/-- What happens in one worker is no read of another one. -/
theorem readsIn_other {v : ℕ} (hv : v ≠ w) (e : PipeEchoServer.EchoEvent) (c : ℕ) :
    readsIn v c [.client w e] = [] := by
  simp [readsIn, Ne.symm hv]

theorem Sound.client (h : Sound es s) {e : PipeEchoServer.EchoEvent}
    (he : system.enabled s (.client w e)) (hok : s.dispatchClient w e = .ok u) :
    Sound (es ++ [.client w e]) u := by
  obtain ⟨-, hconn, p, hp, he⟩ := he
  obtain ⟨p', hp', hok⟩ := bind_ok_iff.mp hok
  rw [deref_ok_iff, hp] at hp'
  cases hp'
  cases hd : PipeEchoServer.worker.dispatch p.echo e with
  | ok echo =>
    rw [hd] at hok
    cases hok
    refine ⟨by simpa using h.length, fun v worker q hworker hq => ?_⟩
    by_cases hv : v = w
    · subst hv
      have hq' := (List.getElem?_set_self (List.getElem?_eq_some_iff.mp hp).1).symm.trans hq
      cases hq'
      exact (h.isolated v worker p hworker hp).client he hconn hd rfl
    · have hq' := (List.getElem?_set_ne (Ne.symm hv)).symm.trans hq
      refine (h.isolated v worker q hworker hq').other ?_ (readsIn_other hv e)
      rfl
  | error x =>
    rw [hd] at hok
    cases hok
    have hnone : ∀ v c, readsIn v c [.client w e] = [] := by
      intro v c
      cases e with
      | connect arg init accept => simp [readsIn, PipeEchoServer.readsOf]
      | read c r accepted =>
        obtain ⟨t, ht⟩ := read_returns he
        rw [ht] at hd
        cases hd
      | written c status => simp [readsIn, PipeEchoServer.readsOf]
    unfold abort
    split
    · exact h.grow (.of_same rfl fun _ _ hpass => hpass) hnone
    · rename_i worker hworker
      have hgrow : QueuesGrow s.master { s.master with
          workers := s.master.workers.set w { worker with running := false } } :=
        .set hworker rfl
      exact h.grow hgrow hnone

/-- **One event** keeps the invariant. -/
theorem Sound.step (h : Sound es s) {e : SystemEvent} (he : system.enabled s e)
    (hok : system.dispatch s e = .ok u) : Sound (es ++ [e]) u := by
  cases e with
  | client w e => exact h.client he hok
  | master e =>
    have hnone : ∀ w c, readsIn w c [.master e] = [] := fun _ _ => rfl
    cases e with
    | received w known init accept => exact h.received hok
    | connection status accept write =>
      obtain ⟨m, hm, hu⟩ := bind_ok_iff.mp hok
      cases hu
      exact h.grow (queuesGrow_dispatch hm nofun) hnone
    | passed i =>
      obtain ⟨m, hm, hu⟩ := bind_ok_iff.mp hok
      cases hu
      exact h.grow (queuesGrow_dispatch hm nofun) hnone
    | exited w =>
      obtain ⟨m, hm, hu⟩ := bind_ok_iff.mp hok
      cases hu
      exact h.grow (queuesGrow_dispatch hm nofun) hnone

theorem sound_of_run (hrun : system.Run (init cpuCount) es s) : Sound es s :=
  hrun.history (init_sound cpuCount) fun _ _ _ _ ht he hok => ht.step he hok

end

end EchoSystem

open EchoSystem

/-- Where the elements of a sorted list are. -/
theorem lt_iff_of_sorted {l : List ℕ} (hl : l.Pairwise (· < ·)) {c c' i i' : ℕ}
    (hi : l[c]? = some i) (hi' : l[c']? = some i') : c < c' ↔ i < i' := by
  obtain ⟨hc, rfl⟩ := List.getElem?_eq_some_iff.mp hi
  obtain ⟨hc', rfl⟩ := List.getElem?_eq_some_iff.mp hi'
  have hmono := List.pairwise_iff_getElem.mp hl
  rcases lt_trichotomy c c' with hlt | rfl | hgt
  · exact iff_of_true hlt (hmono c c' hc hc' hlt)
  · exact iff_of_false (lt_irrefl _) (lt_irrefl _)
  · exact iff_of_false hgt.asymm (hmono c' c hc' hc hgt).asymm

/-- The client number `c` of the worker `w` is the client `i` of the master. -/
def IsClient (s : EchoSystem) (w c i : ℕ) : Prop :=
  ∃ p, s.processes[w]? = some p ∧ p.origin[c]? = some i

/-- What was submitted with `uv_write` to the client number `c` of the worker `w`. -/
def echoed (s : EchoSystem) (w c : ℕ) : Bytes :=
  (s.processes[w]?.map fun p => PipeEchoServer.submittedTo p.echo c).getD []

/-- **Every client gets its own echo.**  In every run of the master and its workers, in whatever
order the processes take their steps and whichever of them abort: a client that a worker has
accepted was passed to this worker by the master, it is no client of another worker and no other
client of this one, a worker accepts its clients in the order in which they came, and what is
written to the client is the buffers of its own reads, one after another. -/
theorem echoesOwn_of_run {cpuCount : ℕ} {es : List SystemEvent} {s : EchoSystem} {w c i : ℕ}
    (hrun : system.Run (init cpuCount) es s) (hclient : IsClient s w c i) :
    PassedTo s.master i w ∧
      (∀ w' c', IsClient s w' c' i → w' = w ∧ c' = c) ∧
      (∀ c' i', IsClient s w c' i' → (c < c' ↔ i < i')) ∧
      echoed s w c = (readsIn w c es).flatMap BufferRead.contents := by
  have hs := sound_of_run hrun
  have hslot : ∀ {w p}, s.processes[w]? = some p → ∃ worker, Isolated es s w worker p := by
    intro w p hp
    have hlt := (List.getElem?_eq_some_iff.mp hp).1
    rw [hs.length] at hlt
    exact ⟨_, hs.isolated w _ p (List.getElem?_eq_getElem hlt) hp⟩
  obtain ⟨p, hp, hi⟩ := hclient
  obtain ⟨worker, hiso⟩ := hslot hp
  have hpassed : PassedTo s.master i w :=
    hiso.routed i (List.mem_append_left _ (List.mem_of_getElem? hi))
  have hsorted := (List.pairwise_append.mp hiso.sorted).1
  refine ⟨hpassed, ?_, ?_, ?_⟩
  · rintro w' c' ⟨p', hp', hi'⟩
    obtain ⟨worker', hiso'⟩ := hslot hp'
    have hpassed' : PassedTo s.master i w' :=
      hiso'.routed i (List.mem_append_left _ (List.mem_of_getElem? hi'))
    obtain rfl : w' = w := passedTo_unique hpassed' hpassed
    obtain rfl := Option.some.inj (hp.symm.trans hp')
    have hlt := lt_iff_of_sorted hsorted hi hi'
    have hgt := lt_iff_of_sorted hsorted hi' hi
    exact ⟨rfl, by omega⟩
  · rintro c' i' ⟨p', hp', hi'⟩
    obtain rfl := Option.some.inj (hp.symm.trans hp')
    exact lt_iff_of_sorted hsorted hi hi'
  · obtain ⟨fs, hfs, hreads⟩ := hiso.run
    rw [echoed, hp, ← hreads]
    exact PipeEchoServer.submittedTo_eq PipeEchoServer.workerConnectCb_accepts hfs c

/-- A read of one byte that fills its buffer. -/
def oneByte (b : UInt8) : BufferRead := ⟨1, some [b], by simp, by simp⟩

/-- Two clients at two workers, of which one aborts at a failed write. -/
theorem echoesOwn_of_run_twoWorkers : ∃ es s, system.Run (init 2) es s ∧
    IsClient s 1 0 1 ∧ echoed s 1 0 = [66] ∧ PassedTo s.master 1 1 ∧
    (∀ w' c', IsClient s w' c' 1 → w' = 1 ∧ c' = 0) ∧
    (∀ c' i', IsClient s 1 c' i' → (0 < c' ↔ 1 < i')) ∧
    echoed s 1 0 = (readsIn 1 0 es).flatMap BufferRead.contents := by
  obtain ⟨s, hrun, hend⟩ := EventLoop.exists_run_of_plays
    (show (system.plays (init 2)
        [.master (.connection 0 0 0), .master (.connection 0 0 0),
          .master (.received 1 true 0 0), .master (.received 0 true 0 0),
          .client 0 (.read 0 (oneByte 65) true), .client 0 (.written 0 (-32)),
          .client 1 (.read 0 (oneByte 66) true)]).any
      (fun s => s.processes[1]?.any (fun p => p.origin[0]? == some 1) &&
        echoed s 1 0 == [66]) = true by decide +kernel)
  simp only [Bool.and_eq_true, Option.any_eq_true, beq_iff_eq] at hend
  obtain ⟨hclient, hechoed⟩ := hend
  exact ⟨_, s, hrun, hclient, hechoed, echoesOwn_of_run hrun hclient⟩

end LibuvDox.MultiEchoSystem
