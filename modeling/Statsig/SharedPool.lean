import Statsig.Shutdowns
import Statsig.Cycles

/-!
# Clients that share a pool

All clients with the same sdk key share one `AsyncHelper`, so one pool of five workers.  Each
`Initialize` starts it, which does nothing if it is running already; each `Shutdown` shuts it down;
and each event logger has a worker to itself, for the loop of its background timer.

Calls of `Initialize` and `Shutdown` come one after the other, on any of the clients, with the steps
of the workers in between.  `progresses_of_run` says in which runs there is always a worker for the
clients that are initialised.
-/

set_option autoImplicit false

namespace Statsig

/-! ## How much of the pool is taken up -/

namespace ThreadPool

variable {s t : ThreadPool} {a : PoolLabel} {p : ℕ → Bool}

/-- The worker runs a task of the kind. -/
def runs (p : ℕ → Bool) (s : ThreadPool) (i : ℕ) : Bool := ((s.workers[i]?).bind Worker.held).any p

/-- The number of tasks of the kind that are queued, or run by workers that the pool has threads
of. -/
def load (p : ℕ → Bool) (s : ThreadPool) : ℕ := s.tasks.countP p + s.threads.countP (s.runs p)

theorem runs_of_at {i : ℕ} {worker : Worker} (h : s.At i worker) :
    s.runs p i = worker.held.any p := by
  rw [runs, show s.workers[i]? = some worker from h, Option.bind_some]

theorem runs_set_of_ne {i j : ℕ} {worker : Worker}
    (hworkers : t.workers = s.workers.set i worker) (hij : j ≠ i) : t.runs p j = s.runs p j := by
  rw [runs, runs, hworkers, List.getElem?_set_ne hij.symm]

theorem runs_set_self {i : ℕ} {old worker : Worker} (hold : s.At i old)
    (hworkers : t.workers = s.workers.set i worker) : t.runs p i = worker.held.any p := by
  refine runs_of_at ?_
  rw [At, hworkers, Slots.getElem?_set_eq_some_iff hold]
  exact .inl ⟨rfl, rfl⟩

/-- A worker that goes on with what it has. -/
theorem countP_runs_of_held {i : ℕ} {old worker : Worker} (hold : s.At i old)
    (hworkers : t.workers = s.workers.set i worker) (hheld : worker.held = old.held) (l : List ℕ) :
    l.countP (t.runs p) = l.countP (s.runs p) := by
  refine List.countP_congr fun j _ ↦ ?_
  by_cases hij : j = i
  · subst hij
    rw [runs_set_self hold hworkers, runs_of_at hold, hheld]
  · rw [runs_set_of_ne hworkers hij]

/-- A worker that takes a task takes it from the queue. -/
theorem load_pop {i task : ℕ} {tasks : List ℕ} (hwf : s.WellFormed) (hworker : s.At i .admitted)
    (htasks : s.tasks = task :: tasks) (hworkers : t.workers = s.workers.set i (.running task))
    (ht : t.tasks = tasks) (hthreads : t.threads = s.threads) : t.load p ≤ s.load p := by
  rw [load, load, htasks, ht, hthreads, List.countP_cons]
  by_cases htask : p task = true
  · have hadmitted : s.runs p i = false := runs_of_at hworker
    have hrunning : t.runs p i = true := by
      rw [runs_set_self hworker hworkers]
      exact htask
    have hcount := Slots.countP_eq_add_count hadmitted hrunning
      (fun j hij ↦ runs_set_of_ne hworkers hij) s.threads
    have hone := List.nodup_iff_count_le_one.mp hwf.nodup i
    rw [if_pos htask]
    omega
  · have hsame : s.threads.countP (t.runs p) = s.threads.countP (s.runs p) := by
      refine List.countP_congr fun j _ ↦ ?_
      by_cases hij : j = i
      · subst hij
        rw [runs_set_self hworker hworkers, runs_of_at hworker]
        simp [Worker.held, htask]
      · rw [runs_set_of_ne hworkers hij]
    rw [hsame]
    omega

/-- **A step of the pool** leaves no more to do than there was, if no task is added. -/
theorem load_le_of_step (hwf : s.WellFormed) (hadd : ∀ woken, a ≠ .add woken)
    (h : step s a = some t) : t.load p ≤ s.load p := by
  have hheld : ∀ {i : ℕ} {old worker : Worker}, s.At i old → t.workers = s.workers.set i worker →
      worker.held = old.held → t.tasks = s.tasks → t.threads = s.threads →
      t.load p ≤ s.load p := by
    intro i old worker hold hworkers hheld htasks hthreads
    rw [load, load, htasks, hthreads, countP_runs_of_held hold hworkers hheld]
  cases Step.of_step h with
  | reset _ _ | detach _ _ | join _ _ => exact Nat.le_add_right _ _
  | create hcall =>
    have hnew : s.createThread.runs p s.workers.length = false := by
      simp [runs, createThread, Worker.held]
    have hkept : s.threads.countP (s.createThread.runs p) = s.threads.countP (s.runs p) := by
      refine List.countP_congr fun i hi ↦ ?_
      rw [runs, createThread, List.getElem?_append_left (hwf.created i hi), runs]
    show s.tasks.countP p +
      (s.threads ++ [s.workers.length]).countP (s.createThread.runs p) ≤ _
    rw [List.countP_append, hkept, List.countP_singleton, hnew]
    exact le_rfl
  | notify hcall =>
    refine Nat.add_le_add_left (List.countP_mono_left fun i _ hi ↦ ?_) _
    rw [runs, List.getElem?_map] at hi
    rw [runs]
    cases hworker : s.workers[i]? with
    | none => simp [hworker] at hi
    | some worker => simpa [hworker] using hi
  | addWaking _ _ | add _ _ => exact absurd rfl (hadd _)
  | pop hworker htasks => exact load_pop hwf hworker htasks rfl rfl rfl
  | decide _ hworker _ _ | admits _ hworker _ | leave hworker _ _ | popEmpty hworker _ _
  | count hworker | exit hworker | block hworker | wake hworker =>
    exact hheld hworker rfl rfl rfl rfl
  | @finish i task hworker =>
    refine Nat.add_le_add_left (List.countP_mono_left fun j _ hj ↦ ?_) _
    by_cases hij : j = i
    · subst hij
      have hready : runs p { s.setWorker j .ready with finished := s.finished ++ [task] } j =
          Worker.ready.held.any p := runs_set_self hworker rfl
      exact absurd (hready.symm.trans hj) (by simp [Worker.held])
    · rwa [runs_set_of_ne rfl hij] at hj
  | _ => exact le_rfl

/-- A task that is added, while the workers keep what they have. -/
theorem load_of_added (htasks : t.tasks = s.tasks ++ [s.added]) (hthreads : t.threads = s.threads)
    (hruns : s.threads.countP (t.runs p) = s.threads.countP (s.runs p)) :
    t.load p = s.load p + if p s.added then 1 else 0 := by
  rw [load, load, htasks, hthreads, hruns, List.countP_append, List.countP_singleton]
  omega

theorem load_add {woken : ℕ} (h : step s (.add woken) = some t) :
    t.added = s.added + 1 ∧ t.load p = s.load p + if p s.added then 1 else 0 := by
  cases Step.of_step h with
  | addWaking hmutex hwoken =>
    have hworkers : (s.setWorker woken .ready).workers = s.workers.set woken .ready := rfl
    exact ⟨rfl, load_of_added rfl rfl (countP_runs_of_held hwoken hworkers rfl s.threads)⟩
  | add hmutex hnone => exact ⟨rfl, load_of_added rfl rfl rfl⟩

theorem load_congr {q : ℕ → Bool} (hs : s.Conserves) (h : ∀ task < s.added, q task = p task) :
    s.load q = s.load p := by
  have hqueued : ∀ task ∈ s.tasks, task < s.added := fun task htask ↦ by
    rw [← List.mem_range, ← hs.queued]
    exact List.mem_append_right _ htask
  have hheld : ∀ worker ∈ s.workers, ∀ task, worker.held = some task → task < s.added := by
    intro worker hworker task htask
    have hpopped := hs.carried.mem_iff.mp
      (List.mem_append_right s.finished (List.mem_filterMap.mpr ⟨worker, hworker, htask⟩))
    rw [← List.mem_range, ← hs.queued]
    exact List.mem_append_left _ hpopped
  have hruns : ∀ i, s.runs q i = s.runs p i := by
    intro i
    rw [runs, runs]
    cases hworker : s.workers[i]? with
    | none => rfl
    | some worker =>
      cases htask : worker.held with
      | none => simp [htask]
      | some task =>
        simpa [htask] using h task (hheld worker (List.mem_of_getElem? hworker) task htask)
  rw [load, load, show s.runs q = s.runs p from funext hruns]
  congr 1
  exact List.countP_congr fun task htask ↦ by rw [h task (hqueued task htask)]

/-- A pool that runs has no thread of a worker that has left, or is bound to. -/
structure Manned (s : ThreadPool) : Prop where
  running : s.isRunning = true → ∀ i ∈ s.threads, ∀ worker, s.At i worker → ¬ worker.Leaves
  starting : ∀ n, s.call = .starting n → s.threads = []

theorem Manned.setWorker {i : ℕ} {old new : Worker} (hs : s.Manned) (hworker : s.At i old)
    (hnew : new.Leaves → old.Leaves ∨ s.isRunning = false)
    (hworkers : t.workers = s.workers.set i new) (hthreads : t.threads = s.threads)
    (hrunning : t.isRunning = s.isRunning)
    (hcall : t.call = s.call) : t.Manned := by
  refine ⟨fun hrun j hj worker hat hleaves ↦ ?_, by rw [hcall, hthreads]; exact hs.starting⟩
  rw [hrunning] at hrun
  rw [hthreads] at hj
  rw [At, hworkers, Slots.getElem?_set_eq_some_iff hworker] at hat
  rcases hat with ⟨rfl, rfl⟩ | ⟨-, hat⟩
  · rcases hnew hleaves with hold | hoff
    · exact hs.running hrun _ hj old hworker hold
    · exact absurd (hoff.symm.trans hrun) (by simp)
  · exact hs.running hrun j hj worker hat hleaves

theorem manned_step (hs : s.Manned) (h : step s a = some t) : t.Manned := by
  cases Step.of_step h with
  | reset hcall hrunning => exact ⟨by simp, fun _ _ ↦ rfl⟩
  | shutdown hcall => exact ⟨by simp, by simp⟩
  | start hcall => exact ⟨fun _ ↦ by simp [hs.starting _ hcall], by simp⟩
  | create hcall =>
    refine ⟨fun hrun ↦ ?_, by simp⟩
    have hold : ∀ i worker, s.createThread.At i worker → worker.Leaves → s.At i worker := by
      intro i worker hi hleaves
      rw [At, createThread, List.getElem?_append] at hi
      split at hi
      · exact hi
      · obtain rfl := List.mem_singleton.mp (List.mem_of_getElem? hi)
        exact False.elim hleaves
    refine Slots.forall_mem_append_singleton (fun i hi worker hat hleaves ↦ ?_) ?_
    · exact hs.running hrun i hi worker (hold i worker hat hleaves) hleaves
    · exact fun worker hat hleaves ↦ absurd (hold _ worker hat hleaves) (by simp [At])
  | notify hcall =>
    refine ⟨fun hrun i hi worker hat hleaves ↦ ?_, by simp⟩
    rw [At, List.getElem?_map, Option.map_eq_some_iff] at hat
    obtain ⟨old, hold, rfl⟩ := hat
    exact hs.running hrun i hi old hold (by simpa using hleaves)
  | started _ | polled _ | checked _ _ => exact ⟨hs.running, by simp⟩
  | detach _ _ | join _ _ => exact ⟨by simp [endShutdown], by simp [endShutdown]⟩
  | addWaking _ hworker | decide _ hworker _ _ | admits _ hworker _ | pop hworker _
  | popEmpty hworker _ _ | block hworker | wake hworker | finish hworker =>
    exact hs.setWorker hworker (by simp [Worker.Leaves]) rfl rfl rfl rfl
  | leave hworker hrunning _ => exact hs.setWorker hworker (fun _ ↦ .inr hrunning) rfl rfl rfl rfl
  | count hworker | exit hworker =>
    exact hs.setWorker hworker (fun _ ↦ .inl trivial) rfl rfl rfl rfl
  | _ => exact ⟨hs.running, hs.starting⟩

/-- Only the calls touch the flag and the threads. -/
theorem frame_of_step (hcontrol : ¬ a.IsControl) (hcall : ∀ expired, a ≠ .call expired)
    (h : step s a = some t) :
    t.call = s.call ∧ t.isRunning = s.isRunning ∧ t.threads = s.threads := by
  cases Step.of_step h with
  | add _ _ | addWaking _ _ | decide _ _ _ _ | admits _ _ _ | pop _ _ | leave _ _ _
  | popEmpty _ _ _ | count _ | exit _ | block _ | wake _ | finish _ => exact ⟨rfl, rfl, rfl⟩
  | _ =>
    first
    | exact absurd trivial hcontrol
    | exact absurd rfl (hcall _)

/-! ## The pool of five -/

/-- The pool is off. -/
structure Rests (s : ThreadPool) : Prop where
  call : s.call = .idle
  stopped : s.isRunning = false

/-- The pool is on. -/
structure Serves (s : ThreadPool) : Prop where
  call : s.call = .idle
  running : s.isRunning = true
  threads : s.threads.length = 5

/-- The pool is being started. -/
def Starts (s : ThreadPool) : Prop :=
  match s.call with
  | .starting n => n = 5 ∧ s.threads = []
  | .creating left => s.threads.length + left = 5 ∧ s.isRunning = true
  | _ => False

/-- The pool is being shut down, or has been. -/
structure Stops (s : ThreadPool) : Prop where
  call : s.call.IsShutdown ∨ s.call = .idle
  stopped : s.isRunning = false

theorem ne_call_of_idle (hidle : s.call = .idle) (h : step s a = some t) :
    ∀ expired, a ≠ .call expired := by
  rintro expired rfl
  simp [step, stepCall, hidle] at h

theorem rests_step (hs : s.Rests) (hcontrol : ¬ a.IsControl) (h : step s a = some t) :
    t.Rests := by
  obtain ⟨hcall, hrunning, -⟩ := frame_of_step hcontrol (ne_call_of_idle hs.call h) h
  exact ⟨hcall.trans hs.call, hrunning.trans hs.stopped⟩

theorem serves_step (hs : s.Serves) (hcontrol : ¬ a.IsControl) (h : step s a = some t) :
    t.Serves := by
  obtain ⟨hcall, hrunning, hthreads⟩ := frame_of_step hcontrol (ne_call_of_idle hs.call h) h
  exact ⟨hcall.trans hs.call, hrunning.trans hs.running, hthreads ▸ hs.threads⟩

theorem starts_step (hs : s.Starts) (hcontrol : ¬ a.IsControl) (h : step s a = some t) :
    t.Starts ∨ t.Serves := by
  by_cases hcall : ∃ expired, a = .call expired
  · obtain ⟨expired, rfl⟩ := hcall
    rw [Starts] at hs
    cases Step.of_step h with
    | start hcall =>
      rw [hcall] at hs
      obtain ⟨rfl, hthreads⟩ := hs
      exact .inl ⟨by simp [hthreads], rfl⟩
    | started hcall =>
      rw [hcall] at hs
      exact .inr ⟨rfl, hs.2, hs.1⟩
    | create hcall =>
      rw [hcall] at hs
      refine .inl ⟨?_, hs.2⟩
      simp only [createThread, List.length_append, List.length_singleton]
      omega
    | _ => simp only [‹s.call = _›] at hs
  · obtain ⟨hsame, hrunning, hthreads⟩ := frame_of_step hcontrol (fun e he ↦ hcall ⟨e, he⟩) h
    rw [Starts] at hs
    rw [Starts, hsame, hrunning, hthreads]
    exact .inl hs

theorem stops_step (hs : s.Stops) (hcontrol : ¬ a.IsControl) (h : step s a = some t) :
    t.Stops := by
  obtain ⟨hcall, hstopped⟩ := hs
  cases Step.of_step h with
  | start hstart | started hstart | create hstart =>
    simp [hstart, PoolCall.IsShutdown] at hcall
  | notify | polled | checked => exact ⟨.inl trivial, hstopped⟩
  | detach | join => exact ⟨.inr rfl, hstopped⟩
  | _ =>
    first
    | exact absurd trivial hcontrol
    | exact ⟨hcall, hstopped⟩

theorem step_reset (hs : s.Rests ∨ s.Serves) (h : step s (.reset 5) = some t) :
    t.Starts ∨ t.Serves := by
  cases Step.of_step h with
  | resetIgnored hcall hrunning =>
    refine .inr (hs.resolve_left fun hrests ↦ ?_)
    exact absurd (hrests.stopped.symm.trans hrunning) (by simp)
  | reset hcall hrunning => exact .inl ⟨rfl, rfl⟩

theorem step_shutdown (h : step s .shutdown = some t) : t.Stops := by
  cases Step.of_step h with
  | shutdown hcall => exact ⟨.inl trivial, rfl⟩

end ThreadPool

/-! ## The machine -/

/-- What the pool has to do with one client. -/
structure PoolClient where
  /-- `Initialize` has returned, and `Shutdown` has not been called since. -/
  initialised : Bool := false
  /-- The loop that `background_flusher_handle_` of its logger stands for. -/
  flusher : Option ℕ := none
  deriving DecidableEq, Repr

/-- What the call in progress has done. -/
inductive ClientCall where
  /-- `Initialize`: the context is constructed. -/
  | constructed (c : ℕ)
  /-- `Initialize`: the pool is being started. -/
  | starting (c : ℕ)
  /-- `Shutdown`: the logger has shut down. -/
  | stopped (c : ℕ)
  /-- `Shutdown`: the pool is being shut down. -/
  | shuttingDown (c : ℕ)
  deriving DecidableEq, Repr

/-- The clients with one sdk key, and their `AsyncHelper`. -/
structure SharedPool where
  pool : ThreadPool := {}
  clients : List PoolClient
  current : Option ClientCall := none
  /-- The tasks that are loops of a background timer. -/
  timers : List ℕ := []
  /-- The loops whose handle has been reset. -/
  resetHandles : List ℕ := []
  deriving DecidableEq, Repr

namespace SharedPool

inductive Label where
  /-- `Initialize`: the constructor of the event logger starts its timer. -/
  | construct (c woken : ℕ)
  /-- `Initialize`: `AsyncHelper::Start` -/
  | start
  /-- `Initialize` returns. -/
  | initialized
  /-- `Shutdown`: `EventLogger::Shutdown` -/
  | stop (c : ℕ)
  /-- `Shutdown`: `AsyncHelper::Shutdown` -/
  | shutdown
  /-- `Shutdown` returns. -/
  | released
  /-- A logger that was replaced is destroyed. -/
  | expire (timer : ℕ)
  /-- A step of a worker, a step of the pool's call in progress, or another task that is added. -/
  | pool (a : PoolLabel)
  deriving DecidableEq, Repr

/-- The loop of a timer ends when its handle has been reset. -/
def mayFinish (s : SharedPool) (i : ℕ) : Bool :=
  !s.pool.runs (fun task ↦ decide (task ∈ s.timers ∧ task ∉ s.resetHandles)) i

/-- The next step of the pool. -/
def stepPool (s : SharedPool) (a : PoolLabel) : Option SharedPool :=
  (ThreadPool.step s.pool a).map fun pool ↦ { s with pool }

/-- One step.  A client without a context has nothing to shut down. -/
def step (s : SharedPool) : Label → Option SharedPool
  | .construct c woken =>
    match s.current, s.clients[c]? with
    | none, some client =>
      (ThreadPool.step s.pool (.add woken)).map fun pool ↦ { s with
        pool
        clients := s.clients.set c { client with flusher := some s.pool.added }
        current := some (.constructed c)
        timers := s.timers ++ [s.pool.added] }
    | _, _ => none
  | .start =>
    match s.current with
    | some (.constructed c) =>
      (ThreadPool.step s.pool (.reset 5)).map fun pool ↦ { s with
        pool, current := some (.starting c) }
    | _ => none
  | .initialized =>
    match s.current with
    | some (.starting c) =>
      if s.pool.call = .idle then
        some { s with
          clients := s.clients.modify c fun client ↦ { client with initialised := true }
          current := none }
      else none
    | _ => none
  | .stop c =>
    match s.current, s.clients[c]? with
    | none, some client =>
      if client.initialised then
        some { s with
          clients := s.clients.set c {}
          current := some (.stopped c)
          resetHandles := s.resetHandles ++ client.flusher.toList }
      else none
    | _, _ => none
  | .shutdown =>
    match s.current with
    | some (.stopped c) =>
      (ThreadPool.step s.pool .shutdown).map fun pool ↦ { s with
        pool, current := some (.shuttingDown c) }
    | _ => none
  | .released =>
    match s.current with
    | some (.shuttingDown _) =>
      if s.pool.call = .idle then some { s with current := none }
      else none
    | _ => none
  | .expire timer =>
    if ∀ client ∈ s.clients, client.flusher ≠ some timer then
      some { s with resetHandles := s.resetHandles ++ [timer] }
    else none
  | .pool a =>
    match a with
    | .reset _ => none
    | .shutdown => none
    | .finish i => if s.mayFinish i then s.stepPool a else none
    | _ => s.stepPool a

/-- Any number of clients, none of them initialised. -/
def init (n : ℕ) : SharedPool where
  clients := List.replicate n {}

/-! ## Progress -/

/-- The worker is taken up by the loop of a timer. -/
def occupied (s : SharedPool) (i : ℕ) : Bool := s.pool.runs (fun task ↦ decide (task ∈ s.timers)) i

/-- Some client is initialised. -/
def InUse (s : SharedPool) : Prop := ∃ client ∈ s.clients, client.initialised = true

instance (s : SharedPool) : Decidable s.InUse :=
  inferInstanceAs (Decidable (∃ client ∈ s.clients, client.initialised = true))

/-- The pool of a client that is initialised runs, and has a worker to spare. -/
def Progresses (s : SharedPool) : Prop :=
  s.InUse → s.pool.isRunning = true ∧
    ∃ i ∈ s.pool.threads, ¬ s.pool.At i .exited ∧ s.occupied i = false

instance (s : SharedPool) : Decidable s.Progresses := inferInstanceAs (Decidable (_ → _))

/-- The loops that are queued, or run by a worker that the pool has a thread of. -/
def timersLeft (s : SharedPool) : ℕ := s.pool.load fun task ↦ decide (task ∈ s.timers)

/-- A logger is constructed while there are at most three loops, and the pool is shut down when no
other client is initialised. -/
def Spaced (s : SharedPool) : Label → Prop
  | .construct _ _ => s.timersLeft ≤ 3
  | .shutdown => ¬ s.InUse
  | _ => True

/-! ### What holds in between -/

/-- What the pool is doing while the call in progress is at this point. -/
def Phase (s : SharedPool) : Prop :=
  match s.current with
  | some (.starting _) => (¬ s.InUse ∧ s.pool.Starts) ∨ s.pool.Serves
  | some (.shuttingDown _) => ¬ s.InUse ∧ s.pool.Stops
  | _ => (¬ s.InUse ∧ s.pool.Rests) ∨ s.pool.Serves

structure Inv (s : SharedPool) : Prop where
  conserves : s.pool.Conserves
  wellFormed : s.pool.WellFormed
  manned : s.pool.Manned
  timers : ∀ timer ∈ s.timers, timer < s.pool.added
  left : s.timersLeft ≤ 4
  phase : s.Phase

variable {s t : SharedPool} {a : Label}

/-- A pool that serves has a worker to spare, if there are at most four loops. -/
theorem Inv.exists_spare (hs : s.Inv) (hserves : s.pool.Serves) :
    ∃ i ∈ s.pool.threads, ¬ s.pool.At i .exited ∧ s.occupied i = false := by
  have hspare : ∃ i ∈ s.pool.threads, s.occupied i = false := by
    by_contra hnone
    have hall : ∀ i ∈ s.pool.threads, s.occupied i = true := fun i hi ↦ by
      by_contra hfree
      exact hnone ⟨i, hi, by simpa using hfree⟩
    have hcount : s.pool.threads.countP s.occupied = 5 := by
      rw [List.countP_eq_length.mpr hall, hserves.threads]
    have hle : s.pool.threads.countP s.occupied ≤ s.timersLeft := Nat.le_add_left _ _
    have hleft := hs.left
    omega
  obtain ⟨i, hi, hfree⟩ := hspare
  exact ⟨i, hi, fun hexited ↦ hs.manned.running hserves.running i hi _ hexited trivial, hfree⟩

theorem Inv.progresses (hs : s.Inv) : s.Progresses := by
  intro hinUse
  have hserves : s.pool.Serves := by
    have hphase := hs.phase
    rw [Phase] at hphase
    split at hphase
    · exact hphase.resolve_left fun h ↦ h.1 hinUse
    · exact absurd hinUse hphase.1
    · exact hphase.resolve_left fun h ↦ h.1 hinUse
  exact ⟨hserves.running, hs.exists_spare hserves⟩

theorem added_le_of_step {pool pool' : ThreadPool} {a : PoolLabel}
    (h : ThreadPool.step pool a = some pool') : pool.added ≤ pool'.added := by
  cases ThreadPool.Step.of_step h with
  | addWaking | add => exact Nat.le_succ _
  | _ => exact le_rfl

theorem Inv.stepPool {pool : ThreadPool} {a : PoolLabel} (hs : s.Inv)
    (h : ThreadPool.step s.pool a = some pool) (hpool : t.pool = pool)
    (htimers : t.timers = s.timers) (hphase : t.Phase) : t.Inv := by
  subst hpool
  refine ⟨ThreadPool.conserves_step hs.conserves h, ThreadPool.wellFormed_step hs.wellFormed h,
    ThreadPool.manned_step hs.manned h, ?_, ?_, hphase⟩
  · rw [htimers]
    exact fun timer htimer ↦ (hs.timers timer htimer).trans_le (added_le_of_step h)
  · refine le_trans ?_ hs.left
    rw [timersLeft, timersLeft, htimers]
    by_cases hadd : ∃ woken, a = .add woken
    · obtain ⟨woken, rfl⟩ := hadd
      have hother : s.pool.added ∉ s.timers := fun hmem ↦ (hs.timers _ hmem).false
      rw [(ThreadPool.load_add h).2]
      simp [hother]
    · exact ThreadPool.load_le_of_step hs.wellFormed (fun woken hw ↦ hadd ⟨woken, hw⟩) h

theorem Inv.of_same (hs : s.Inv) (hpool : t.pool = s.pool) (htimers : t.timers = s.timers)
    (hphase : t.Phase) : t.Inv := by
  refine ⟨hpool ▸ hs.conserves, hpool ▸ hs.wellFormed, hpool ▸ hs.manned, ?_, ?_, hphase⟩
  · rw [hpool, htimers]
    exact hs.timers
  · rw [timersLeft, hpool, htimers]
    exact hs.left

theorem Inv.construct {pool : ThreadPool} {woken : ℕ} (hs : s.Inv) (hleft : s.timersLeft ≤ 3)
    (h : ThreadPool.step s.pool (.add woken) = some pool) (hpool : t.pool = pool)
    (htimers : t.timers = s.timers ++ [s.pool.added]) (hphase : t.Phase) : t.Inv := by
  subst hpool
  obtain ⟨hadded, hload⟩ := ThreadPool.load_add (p := fun task ↦ decide (task ∈ t.timers)) h
  refine ⟨ThreadPool.conserves_step hs.conserves h, ThreadPool.wellFormed_step hs.wellFormed h,
    ThreadPool.manned_step hs.manned h, ?_, ?_, hphase⟩
  · rw [htimers, hadded]
    refine Slots.forall_mem_append_singleton (fun timer htimer ↦ ?_) (Nat.lt_succ_self _)
    exact Nat.lt_succ_of_lt (hs.timers timer htimer)
  · -- the new loop is not among the tasks that were there before
    have hbefore : s.pool.load (fun task ↦ decide (task ∈ t.timers)) = s.timersLeft := by
      refine ThreadPool.load_congr hs.conserves fun task htask ↦ ?_
      rw [htimers]
      simp [Nat.ne_of_lt htask]
    rw [timersLeft, hload, hbefore, htimers]
    simp
    omega

theorem inUse_set {c : ℕ} {client : PoolClient} (hclients : t.clients = s.clients.set c client)
    (hclient : client.initialised = true → s.InUse) : t.InUse → s.InUse := by
  rintro ⟨other, hmem, hinit⟩
  rw [hclients] at hmem
  rcases List.mem_or_eq_of_mem_set hmem with hmem | rfl
  · exact ⟨other, hmem, hinit⟩
  · exact hclient hinit

theorem inv_stepPool {a : PoolLabel} (hs : s.Inv) (hcontrol : ¬ a.IsControl)
    (h : s.stepPool a = some t) : t.Inv := by
  obtain ⟨pool, hpool, rfl⟩ := Option.map_eq_some_iff.mp h
  refine hs.stepPool hpool rfl rfl ?_
  have hphase := hs.phase
  have hrest : (¬ s.InUse ∧ s.pool.Rests) ∨ s.pool.Serves → (¬ s.InUse ∧ pool.Rests) ∨ pool.Serves
    | .inl ⟨hout, hrests⟩ => .inl ⟨hout, ThreadPool.rests_step hrests hcontrol hpool⟩
    | .inr hserves => .inr (ThreadPool.serves_step hserves hcontrol hpool)
  cases hcurrent : s.current with
  | none =>
    simp only [Phase, hcurrent] at hphase ⊢
    exact hrest hphase
  | some call =>
    cases call with
    | constructed c | stopped c =>
      simp only [Phase, hcurrent] at hphase ⊢
      exact hrest hphase
    | starting c =>
      simp only [Phase, hcurrent] at hphase ⊢
      rcases hphase with ⟨hout, hstarts⟩ | hserves
      · exact (ThreadPool.starts_step hstarts hcontrol hpool).imp_left fun hstarts ↦ ⟨hout, hstarts⟩
      · exact .inr (ThreadPool.serves_step hserves hcontrol hpool)
    | shuttingDown c =>
      simp only [Phase, hcurrent] at hphase ⊢
      exact ⟨hphase.1, ThreadPool.stops_step hphase.2 hcontrol hpool⟩

/-- **One step.** -/
theorem inv_step (hs : s.Inv) (hok : s.Spaced a) (h : step s a = some t) : t.Inv := by
  have hphase := hs.phase
  rw [Phase] at hphase
  cases a with
  | construct c woken =>
    rw [step] at h
    split at h
    · rename_i client hnone hclient
      obtain ⟨pool, hpool, rfl⟩ := Option.map_eq_some_iff.mp h
      rw [hnone] at hphase
      refine hs.construct hok hpool rfl rfl ?_
      rcases hphase with ⟨hout, hrests⟩ | hserves
      · refine .inl ⟨fun hinUse ↦ hout (inUse_set rfl (fun hinit ↦ ?_) hinUse), ?_⟩
        · exact ⟨client, List.mem_of_getElem? hclient, hinit⟩
        · exact ThreadPool.rests_step (a := .add woken) hrests not_false hpool
      · exact .inr (ThreadPool.serves_step (a := .add woken) hserves not_false hpool)
    · exact absurd h (by simp)
  | start =>
    rw [step] at h
    split at h
    · rename_i c hcurrent
      obtain ⟨pool, hpool, rfl⟩ := Option.map_eq_some_iff.mp h
      rw [hcurrent] at hphase
      refine hs.stepPool hpool rfl rfl ?_
      rcases hphase with ⟨hout, hrests⟩ | hserves
      · exact (ThreadPool.step_reset (.inl hrests) hpool).imp_left fun hstarts ↦ ⟨hout, hstarts⟩
      · cases ThreadPool.Step.of_step hpool with
        | resetIgnored => exact .inr hserves
        | reset hcall hrunning => exact absurd (hrunning.symm.trans hserves.running) (by simp)
    · exact absurd h (by simp)
  | initialized =>
    rw [step] at h
    split at h
    · rename_i c hcurrent
      split at h
      · rename_i hidle
        obtain rfl := Option.some_inj.mp h
        rw [hcurrent] at hphase
        refine hs.of_same rfl rfl (.inr (hphase.resolve_left fun hstarting ↦ ?_))
        have hstarts := hstarting.2
        simp only [ThreadPool.Starts, hidle] at hstarts
      · exact absurd h (by simp)
    · exact absurd h (by simp)
  | stop c =>
    rw [step] at h
    split at h
    · rename_i client hnone hclient
      split at h
      · obtain rfl := Option.some_inj.mp h
        rw [hnone] at hphase
        refine hs.of_same rfl rfl (hphase.imp_left fun hout ↦ ⟨fun hinUse ↦ hout.1 ?_, hout.2⟩)
        exact inUse_set rfl (fun hinit ↦ absurd hinit (by simp)) hinUse
      · exact absurd h (by simp)
    · exact absurd h (by simp)
  | shutdown =>
    rw [step] at h
    split at h
    · obtain ⟨pool, hpool, rfl⟩ := Option.map_eq_some_iff.mp h
      exact hs.stepPool hpool rfl rfl ⟨hok, ThreadPool.step_shutdown hpool⟩
    · exact absurd h (by simp)
  | released =>
    rw [step] at h
    split at h
    · rename_i c hcurrent
      split at h
      · rename_i hidle
        obtain rfl := Option.some_inj.mp h
        rw [hcurrent] at hphase
        exact hs.of_same rfl rfl (.inl ⟨hphase.1, hidle, hphase.2.stopped⟩)
      · exact absurd h (by simp)
    · exact absurd h (by simp)
  | expire timer =>
    rw [step] at h
    split at h
    · obtain rfl := Option.some_inj.mp h
      exact hs.of_same rfl rfl hs.phase
    · exact absurd h (by simp)
  | pool a =>
    cases a with
    | reset _ | shutdown => exact absurd h (by simp [step])
    | finish i =>
      rw [step] at h
      split at h
      · refine inv_stepPool hs ?_ h
        exact not_false
      · exact absurd h (by simp)
    | _ =>
      refine inv_stepPool hs ?_ h
      exact not_false

/-- **Progress**: whatever the clients do one after the other, while one of them is initialised
their pool runs and has a worker that no loop takes up, in the runs in which at most three loops are
there when a logger is constructed, and no other client is initialised when one shuts down. -/
theorem progresses_of_run {n : ℕ} {labels : List Label}
    (hok : Machine.AllSteps step Spaced (init n) labels)
    (h : Machine.run step (init n) labels = some s) : s.Progresses := by
  have hinit : (init n).Inv :=
    { conserves := ⟨rfl, .refl _⟩
      wellFormed := ThreadPool.wellFormed_init
      manned := ⟨by simp [init], by simp [init]⟩
      timers := by simp [init]
      left := Nat.zero_le 4
      phase := .inl ⟨by simp [InUse, init], rfl, rfl⟩ }
  exact (Machine.run_induct inv_step hinit hok h).progresses

instance (s : SharedPool) : ∀ a, Decidable (s.Spaced a)
  | .construct _ _ => inferInstanceAs (Decidable (s.timersLeft ≤ 3))
  | .start => .isTrue trivial
  | .initialized => .isTrue trivial
  | .stop _ => .isTrue trivial
  | .shutdown => inferInstanceAs (Decidable (¬ s.InUse))
  | .released => .isTrue trivial
  | .expire _ => .isTrue trivial
  | .pool _ => .isTrue trivial

/-- The first of two clients is initialised, which starts the pool, and then the second. -/
def bothInitialised : List Label :=
  [.construct 0 0, .start] ++ List.replicate 7 (.pool (.call false)) ++
    [.initialized, .construct 1 0, .start, .initialized]

/-- A worker takes what is in the queue. -/
def takes (i : ℕ) : List Label := [.pool (.enter i), .pool (.test i)]

/-- A worker leaves. -/
def leaves (i : ℕ) : List Label :=
  [.pool (.enter i), .pool (.test i), .pool (.count i), .pool (.exit i)]

/-- One client comes and goes, with all workers; then there are two, each with a worker in the loop
of its timer. -/
def comesAndGoes : List Label :=
  [.construct 0 0, .start] ++ List.replicate 7 (.pool (.call false)) ++ [.initialized] ++ takes 0 ++
    [.stop 0, .shutdown, .pool (.call false), .pool (.finish 0)] ++ leaves 3 ++ leaves 0 ++
    leaves 1 ++ leaves 4 ++ leaves 2 ++ List.replicate 3 (.pool (.call false)) ++ [.released] ++
    bothInitialised ++ takes 6 ++ takes 5

theorem progresses_comesAndGoes :
    ∃ s, Machine.run step (init 2) comesAndGoes = some s ∧ s.InUse ∧
      s.pool.threads = [5, 6, 7, 8, 9] ∧ s.Progresses := by
  have hok : Machine.AllSteps step Spaced (init 2) comesAndGoes := by
    decide +kernel
  obtain ⟨s, hs, hused⟩ := Option.map_eq_some_iff.mp
    (show (Machine.run step (init 2) comesAndGoes).map
      (fun s ↦ (decide s.InUse, s.pool.threads)) = some (true, [5, 6, 7, 8, 9]) by decide +kernel)
  obtain ⟨hinUse, hthreads⟩ := Prod.ext_iff.mp hused
  exact ⟨s, hs, of_decide_eq_true hinUse, hthreads, progresses_of_run hok hs⟩

/-- Of two clients, one shuts down. -/
theorem not_forall_progresses :
    ¬ ∀ (n : ℕ) (labels : List Label) (s : SharedPool),
      Machine.run step (init n) labels = some s → s.Progresses := by
  intro h
  have hprogresses := h 2 (bothInitialised ++ [.stop 0, .shutdown]) _ rfl
  exact absurd hprogresses (by decide)

end SharedPool

end Statsig
