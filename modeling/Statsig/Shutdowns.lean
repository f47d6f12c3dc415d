import Statsig.ThreadPool
import Mathlib.Data.Nat.Basic
import Mathlib.Order.Basic

/-!
# Shutting the pool down

What one `Shutdown` does to the tasks and to the workers.

A pool that is started once drains: `drained_of_run` says that a graceful shutdown leaves nothing
undone that was added before it.  The last worker to leave the loop has seen an empty queue, and the
threads are joined, so none of them has a task any more.

Whether all workers hear of the shutdown is another matter, as the flag is stored and the workers
are notified without the mutex: `noSleeper_of_run`.
-/

set_option autoImplicit false

namespace Statsig

/-- A call of `Reset` or `Shutdown`. -/
def PoolLabel.IsControl : PoolLabel → Prop
  | reset _ => True
  | shutdown => True
  | _ => False

instance : DecidablePred PoolLabel.IsControl := fun a ↦ by
  cases a <;> first | exact .isTrue trivial | exact .isFalse not_false

namespace ThreadPool

variable {s t : ThreadPool} {a : PoolLabel}

/-! ## One cycle -/

/-- Nothing was called but `Add`. -/
structure Unused (s : ThreadPool) : Prop where
  workers : s.workers = []
  call : s.call = .idle
  stopped : s.isRunning = false

theorem Unused.not_at (hs : s.Unused) {i : ℕ} {worker : Worker} : ¬ s.At i worker := by
  rw [At, hs.workers]
  simp

theorem unused_step (hs : s.Unused) (hcontrol : ¬ a.IsControl) (h : step s a = some t) :
    t.Unused := by
  cases Step.of_step h with
  | add hmutex hnone => exact ⟨hs.workers, hs.call, hs.stopped⟩
  | _ =>
    -- a call would have to be in progress, or there would have to be a worker
    first
    | exact absurd trivial hcontrol
    | exact absurd (hs.call.symm.trans ‹s.call = _›) (by simp)
    | exact absurd ‹s.At _ _› hs.not_at

/-- How far `Reset` has come. -/
def Progress (numThreads : ℕ) (s : ThreadPool) : Prop :=
  match s.call with
  | .starting n => n = numThreads ∧ s.workers = [] ∧ s.isRunning = false
  | .creating left => s.workers.length + left = numThreads ∧ s.isRunning = true
  | .idle => s.workers.length = numThreads ∧ s.isRunning = true
  | _ => False

/-- `Reset` was called once, and `Shutdown` was not. -/
structure Started (numThreads : ℕ) (s : ThreadPool) : Prop where
  threads : s.threads = List.range s.workers.length
  busy : ∀ worker ∈ s.workers, ¬ worker.Leaves ∧ worker ≠ .undefined
  exclusive : s.Exclusive
  /-- A worker is only let out of its wait for a task, which nobody else takes. -/
  admitted : ∀ i, s.At i .admitted → s.tasks ≠ []
  progress : Progress numThreads s

theorem started_reset {numThreads : ℕ} (hs : s.Unused) (h : step s (.reset numThreads) = some t) :
    t.Started numThreads := by
  cases Step.of_step h with
  | resetIgnored hcall hrunning => exact absurd (hs.stopped.symm.trans hrunning) (by simp)
  | reset hcall hrunning =>
    refine ⟨?_, ?_, ?_, ?_, rfl, hs.workers, hs.stopped⟩
    · simp [hs.workers]
    · simp [hs.workers]
    · exact fun i j worker other hi ↦ absurd hi hs.not_at
    · exact fun i hi ↦ absurd hi hs.not_at

theorem Started.setWorker {numThreads i : ℕ} {worker : Worker} (hs : s.Started numThreads)
    (hworker : ¬ worker.Leaves ∧ worker ≠ .undefined) (hexclusive : t.Exclusive)
    (hadmitted : ∀ i, t.At i .admitted → t.tasks ≠ [])
    (hworkers : t.workers = s.workers.set i worker)
    (hthreads : t.threads = s.threads) (hrunning : t.isRunning = s.isRunning)
    (hcall : t.call = s.call) : t.Started numThreads := by
  refine ⟨?_, ?_, hexclusive, hadmitted, ?_⟩
  · rw [hthreads, hworkers, List.length_set]
    exact hs.threads
  · rw [hworkers]
    exact Slots.forall_mem_set hs.busy hworker
  · have hprogress := hs.progress
    rw [Progress] at hprogress
    rw [Progress, hcall, hworkers, hrunning, List.length_set, List.set_eq_nil_iff]
    exact hprogress

/-- A worker that is not let out of its wait leaves the queue to the one that was. -/
theorem Started.admitted_set {numThreads i : ℕ} {old new : Worker} (hs : s.Started numThreads)
    (hworker : s.At i old) (hnew : new ≠ .admitted) (hworkers : t.workers = s.workers.set i new)
    (htasks : t.tasks = s.tasks) : ∀ j, t.At j .admitted → t.tasks ≠ [] := by
  intro j hj
  rw [htasks]
  exact hs.admitted j (at_of_set hworker hworkers hnew.symm hj).2

theorem Started.isRunning {numThreads i : ℕ} {worker : Worker} (hs : s.Started numThreads)
    (hworker : s.At i worker) : s.isRunning = true := by
  have hprogress := hs.progress
  rw [Progress] at hprogress
  split at hprogress
  · rw [At, hprogress.2.1] at hworker
    exact absurd hworker (by simp)
  · exact hprogress.2
  · exact hprogress.2
  · exact hprogress.elim

theorem started_step {numThreads : ℕ} (hs : s.Started numThreads) (hcontrol : ¬ a.IsControl)
    (h : step s a = some t) : t.Started numThreads := by
  have hprogress := hs.progress
  have hexclusive := exclusive_step hs.exclusive h
  cases Step.of_step h with
  | start hcall =>
    simp only [Progress, hcall] at hprogress
    refine ⟨hs.threads, hs.busy, hexclusive, hs.admitted, ?_, rfl⟩
    simp [hprogress.1, hprogress.2.1]
  | started hcall =>
    simp only [Progress, hcall] at hprogress
    exact ⟨hs.threads, hs.busy, hexclusive, hs.admitted, hprogress⟩
  | @create _ left hcall =>
    simp only [Progress, hcall] at hprogress
    refine ⟨?_, ?_, hexclusive, fun i hi ↦ hs.admitted i ?_, ?_, hprogress.2⟩
    · simp [createThread, hs.threads, List.range_succ]
    · exact Slots.forall_mem_append_singleton hs.busy (by simp [Worker.Leaves])
    · rw [At, createThread, List.getElem?_append] at hi
      split at hi
      · exact hi
      · exact absurd (List.mem_of_getElem? hi) (by simp)
    · have hlength : (s.workers ++ [Worker.ready]).length = s.workers.length + 1 := by simp
      simp only [createThread, hlength]
      omega
  | add hmutex hnone =>
    exact ⟨hs.threads, hs.busy, hexclusive, fun _ _ ↦ by simp, hprogress⟩
  | addWaking _ _ =>
    exact hs.setWorker (by simp [Worker.Leaves]) hexclusive (fun _ _ ↦ by simp) rfl rfl rfl rfl
  | admits hmutex hworker hpredicate =>
    refine hs.setWorker (by simp [Worker.Leaves]) hexclusive (fun _ _ ↦ ?_) rfl rfl rfl rfl
    exact hpredicate.resolve_left fun hoff ↦
      absurd (hoff.symm.trans (hs.isRunning hworker)) (by simp)
  | pop hworker htasks =>
    refine hs.setWorker (by simp [Worker.Leaves]) hexclusive (fun j hj ↦ ?_) rfl rfl rfl rfl
    obtain ⟨hne, hj⟩ := at_of_set hworker rfl (by simp) hj
    exact absurd (hs.exclusive hj hworker trivial trivial) hne
  | decide _ hworker _ _ | block hworker | wake hworker | finish hworker =>
    exact hs.setWorker (by simp [Worker.Leaves]) hexclusive
      (hs.admitted_set hworker (by simp) rfl rfl) rfl rfl rfl rfl
  | leave hworker hrunning htasks =>
    exact absurd (hrunning.symm.trans (hs.isRunning hworker)) (by simp)
  | popEmpty hworker hrunning htasks => exact absurd htasks (hs.admitted _ hworker)
  | count hworker | exit hworker =>
    exact absurd trivial (hs.busy _ (List.mem_of_getElem? hworker)).1
  | _ =>
    -- it would have to be a call, or a step of `Shutdown`
    first
    | exact absurd trivial hcontrol
    | simp only [Progress, ‹s.call = _›] at hprogress

/-- `Shutdown` was called, when `mark` tasks had been added. -/
structure Stopping (mark : ℕ) (s : ThreadPool) : Prop where
  conserves : s.Conserves
  workers : s.workers ≠ []
  stopped : s.isRunning = false
  call : ∀ n, s.call ≠ .starting n ∧ s.call ≠ .creating n
  threads : s.call ≠ .idle → s.threads = List.range s.workers.length
  returned : s.call ≠ .idle → s.returned = none
  marked : mark ≤ s.added
  defined : s.Defined
  /-- The first worker that is to leave has seen the end of the queue. -/
  drained : ∀ worker ∈ s.workers, worker.Leaves → mark ≤ s.popped.length
  gone : s.returned = some true → ∀ worker ∈ s.workers, worker = .exited

variable {mark : ℕ}

theorem stopping_shutdown {numThreads : ℕ} (hpos : 1 ≤ numThreads) (hs : s.Started numThreads)
    (hconserves : s.Conserves) (h : step s .shutdown = some t) : t.Stopping s.added := by
  cases Step.of_step h with
  | shutdown hcall =>
    have hprogress := hs.progress
    simp only [Progress, hcall] at hprogress
    exact
      { conserves := ⟨hconserves.queued, hconserves.carried⟩
        workers := List.length_pos_iff.mp (show 0 < s.workers.length by omega)
        stopped := rfl
        call := fun n ↦ ⟨by simp, by simp⟩
        threads := fun _ ↦ hs.threads
        returned := fun _ ↦ rfl
        marked := le_rfl
        defined := fun worker hworker ↦ (hs.busy worker hworker).2
        drained := fun worker hworker hleaves ↦ absurd hleaves (hs.busy worker hworker).1
        gone := fun hreturned ↦ absurd hreturned (by simp) }

theorem Stopping.setWorker {i : ℕ} {old new : Worker} (hs : s.Stopping mark)
    (hworker : s.At i old) (hold : old ≠ .exited) (hnew : new ≠ .undefined)
    (hleaves : new.Leaves → mark ≤ t.popped.length) (ht : t.Conserves)
    (hworkers : t.workers = s.workers.set i new) (hthreads : t.threads = s.threads)
    (hrunning : t.isRunning = s.isRunning) (hcall : t.call = s.call)
    (hreturned : t.returned = s.returned) (hadded : s.added ≤ t.added)
    (hpopped : s.popped.length ≤ t.popped.length) : t.Stopping mark where
  conserves := ht
  workers := by
    rw [hworkers, Ne, List.set_eq_nil_iff]
    exact hs.workers
  stopped := hrunning.trans hs.stopped
  call := hcall ▸ hs.call
  threads := by
    rw [hcall, hthreads, hworkers, List.length_set]
    exact hs.threads
  returned := by
    rw [hcall, hreturned]
    exact hs.returned
  marked := hs.marked.trans hadded
  defined := by
    rw [Defined, hworkers]
    exact Slots.forall_mem_set hs.defined hnew
  drained := by
    rw [hworkers]
    refine Slots.forall_mem_set (fun worker hmem hworker ↦ ?_) hleaves
    exact (hs.drained worker hmem hworker).trans hpopped
  gone hgone := by
    rw [hreturned] at hgone
    exact absurd (hs.gone hgone old (List.mem_of_getElem? hworker)) hold

theorem Stopping.advance (hs : s.Stopping mark) (hbusy : s.call ≠ .idle) {call : PoolCall}
    (hcall : ∀ n, call ≠ .starting n ∧ call ≠ .creating n) : Stopping mark { s with call } :=
  { hs with
    conserves := ⟨hs.conserves.queued, hs.conserves.carried⟩
    call := hcall
    threads := fun _ ↦ hs.threads hbusy
    returned := fun _ ↦ hs.returned hbusy }

theorem Stopping.endShutdown (hs : s.Stopping mark) {graceful : Bool}
    (hgone : graceful = true → ∀ worker ∈ s.workers, worker = .exited) :
    (s.endShutdown graceful).Stopping mark :=
  { hs with
    conserves := ⟨hs.conserves.queued, hs.conserves.carried⟩
    call := fun n ↦ ⟨by simp [ThreadPool.endShutdown], by simp [ThreadPool.endShutdown]⟩
    threads := fun hbusy ↦ absurd rfl hbusy
    returned := fun hbusy ↦ absurd rfl hbusy
    gone := fun hreturned ↦ hgone (Option.some_inj.mp hreturned) }

/-- The threads are those of all workers, so when they can be joined all workers have left. -/
theorem Stopping.exited_of_joinable (hs : s.Stopping mark) (hbusy : s.call ≠ .idle)
    (hjoinable : s.Joinable) : ∀ worker ∈ s.workers, worker = .exited := by
  intro worker hworker
  obtain ⟨i, hi, rfl⟩ := List.getElem_of_mem hworker
  have hthread : i ∈ s.threads := by
    rw [hs.threads hbusy]
    exact List.mem_range.mpr hi
  exact (List.getElem?_eq_some_iff.mp (hjoinable i hthread)).2

theorem stopping_step (hs : s.Stopping mark) (hcontrol : ¬ a.IsControl) (h : step s a = some t) :
    t.Stopping mark := by
  have ht := conserves_step hs.conserves h
  cases Step.of_step h with
  | notify hcall =>
    exact
      { conserves := ht
        workers := fun hnil ↦ hs.workers (List.map_eq_nil_iff.mp hnil)
        stopped := hs.stopped
        call := fun n ↦ ⟨by simp, by simp⟩
        threads := fun _ ↦ by simpa [hcall] using hs.threads
        returned := fun _ ↦ hs.returned (by simp [hcall])
        marked := hs.marked
        defined := fun worker hmem ↦ by
          obtain ⟨old, hold, rfl⟩ := List.mem_map.mp hmem
          exact mt (by cases old <;> simp [Worker.notify]) (hs.defined old hold)
        drained := fun worker hmem hleaves ↦ by
          obtain ⟨old, hold, rfl⟩ := List.mem_map.mp hmem
          exact hs.drained old hold (by simpa using hleaves)
        gone := fun hgone ↦ by
          rw [hs.returned (by simp [hcall])] at hgone
          exact absurd hgone (by simp) }
  | polled hcall | checked hcall _ =>
    exact hs.advance (by simp [hcall]) fun n ↦ ⟨by simp, by simp⟩
  | detach hcall hcount => exact hs.endShutdown (by simp)
  | join hcall hjoinable =>
    exact hs.endShutdown fun _ ↦ hs.exited_of_joinable (by simp [hcall]) hjoinable
  | poll hcall => exact hs
  | addWaking hmutex hwoken =>
    exact hs.setWorker hwoken (by simp) (by simp) (by simp [Worker.Leaves]) ht rfl rfl rfl rfl rfl
      (Nat.le_succ _) le_rfl
  | add hmutex hnone => exact { hs with conserves := ht, marked := hs.marked.trans (Nat.le_succ _) }
  | pop hworker htasks =>
    exact hs.setWorker hworker (by simp) (by simp) (by simp [Worker.Leaves]) ht rfl rfl rfl rfl rfl
      le_rfl (by simp)
  | leave hworker hrunning htasks =>
    have hall : s.popped.length = s.added := by
      have hlength := congrArg List.length hs.conserves.queued
      simpa [htasks] using hlength
    exact hs.setWorker hworker (by simp) (by simp) (fun _ ↦ hs.marked.trans hall.ge) ht rfl rfl rfl
      rfl rfl le_rfl le_rfl
  | count hworker | exit hworker =>
    have hmark := hs.drained _ (List.mem_of_getElem? hworker) trivial
    exact hs.setWorker hworker (by simp) (by simp) (fun _ ↦ hmark) ht rfl rfl rfl rfl rfl le_rfl
      le_rfl
  | decide _ _ hrunning _ | popEmpty _ hrunning _ =>
    exact absurd (hs.stopped.symm.trans hrunning) (by simp)
  | admits _ hworker _ | block hworker | wake hworker | finish hworker =>
    exact hs.setWorker hworker (by simp) (by simp) (by simp [Worker.Leaves]) ht rfl rfl rfl rfl rfl
      le_rfl le_rfl
  | start hcall => exact absurd hcall (hs.call _).1
  | started hcall | create hcall => exact absurd hcall (hs.call _).2
  | _ => exact absurd trivial hcontrol

/-- No task is taken out of order, none is run twice, and none is taken from an empty queue. -/
structure OnceInOrder (s : ThreadPool) : Prop where
  order : s.popped.map Prod.snd = List.range s.popped.length
  once : (s.finished ++ s.workers.filterMap Worker.held).Nodup
  defined : s.Defined

theorem Conserves.mem_finished (hs : s.Conserves) (hgone : ∀ worker ∈ s.workers, worker = .exited)
    {task : ℕ} (h : task < s.popped.length) : task ∈ s.finished := by
  have hheld : s.workers.filterMap Worker.held = [] := by
    rw [List.filterMap_eq_nil_iff]
    intro worker hworker
    rw [hgone worker hworker]
    rfl
  have hperm := hs.carried
  rw [hheld, List.append_nil, hs.popped_eq] at hperm
  exact hperm.mem_iff.mpr (List.mem_range.mpr h)

/-- **Draining**: in a pool that is started once and shut down once, with calls of `Add` and steps
of the workers anywhere in between, every task is taken in order, by one worker, and is run once;
and when `Shutdown` returns `true`, all tasks that were there when it was called have been run. -/
theorem drained_of_run {numThreads : ℕ} (hpos : 1 ≤ numThreads)
    {before work after : List PoolLabel} (hbefore : ∀ a ∈ before, ¬ a.IsControl)
    (hwork : ∀ a ∈ work, ¬ a.IsControl) (hafter : ∀ a ∈ after, ¬ a.IsControl)
    (hs : Machine.run step {} (before ++ .reset numThreads :: work) = some s)
    (ht : Machine.run step s (.shutdown :: after) = some t) :
    s.OnceInOrder ∧ t.OnceInOrder ∧
      (t.returned = some true → ∀ task < s.added, task ∈ t.finished) := by
  have hconserves := conserves_of_run hs
  obtain ⟨u, hu, hrest⟩ := Machine.run_append_eq_some.mp hs
  obtain ⟨v, hv, hrest⟩ := Machine.run_cons_eq_some.mp hrest
  obtain ⟨w, hw, hlast⟩ := Machine.run_cons_eq_some.mp ht
  have hunused : u.Unused := Machine.run_induct unused_step ⟨rfl, rfl, rfl⟩
    (Machine.allSteps_of_forall_mem hbefore _) hu
  have hstarted : s.Started numThreads := Machine.run_induct started_step
    (started_reset hunused hv) (Machine.allSteps_of_forall_mem hwork _) hrest
  have hstopping : t.Stopping s.added := Machine.run_induct stopping_step
    (stopping_shutdown hpos hstarted hconserves hw) (Machine.allSteps_of_forall_mem hafter _) hlast
  refine ⟨⟨hconserves.popped_eq, hconserves.nodup, fun worker hmem ↦ (hstarted.busy worker hmem).2⟩,
    ⟨hstopping.conserves.popped_eq, hstopping.conserves.nodup, hstopping.defined⟩,
    fun hreturned task htask ↦ ?_⟩
  have hgone := hstopping.gone hreturned
  obtain ⟨worker, hworker⟩ := List.exists_mem_of_ne_nil _ hstopping.workers
  have hmark := hstopping.drained worker hworker (by rw [hgone worker hworker]; trivial)
  exact hstopping.conserves.mem_finished hgone (by omega)

/-- Two workers are started, with one task before and two after. -/
def startTwo : List PoolLabel :=
  [.call false, .call false, .call false, .enter 0, .test 0, .add 0, .call false, .enter 1, .test 1,
    .add 0]

/-- The pool is shut down while two tasks are run and one is in the queue; the first worker leaves
while the second runs the last one. -/
def stopTwo : List PoolLabel :=
  [.finish 0, .call false, .finish 1, .enter 1, .test 1, .enter 0, .test 0, .count 0, .exit 0,
    .call false, .finish 1, .enter 1, .test 1, .count 1, .exit 1, .call false, .call false,
    .call false]

theorem drained_threeTasks :
    ∃ s t : ThreadPool, Machine.run step {} ([.add 0] ++ .reset 2 :: startTwo) = some s ∧
      Machine.run step s (.shutdown :: stopTwo) = some t ∧ s.added = 3 ∧
      t.returned = some true ∧ s.OnceInOrder ∧ t.OnceInOrder ∧
      (t.returned = some true → ∀ task < s.added, task ∈ t.finished) := by
  have hbefore : ∀ a ∈ [PoolLabel.add 0], ¬ a.IsControl := by decide
  have hstart : ∀ a ∈ startTwo, ¬ a.IsControl := by decide
  have hstop : ∀ a ∈ stopTwo, ¬ a.IsControl := by decide
  obtain ⟨s, hs, hadded⟩ := Option.map_eq_some_iff.mp
    (show (Machine.run step {} ([.add 0] ++ .reset 2 :: startTwo)).map ThreadPool.added = some 3 by
      decide +kernel)
  obtain ⟨t, ht, hreturned⟩ := Option.map_eq_some_iff.mp
    (show (Machine.run step {} (([.add 0] ++ .reset 2 :: startTwo) ++ .shutdown :: stopTwo)).map
      ThreadPool.returned = some (some true) by decide +kernel)
  obtain ⟨s', hs', ht⟩ := Machine.run_append_eq_some.mp ht
  obtain rfl := Option.some_inj.mp (hs.symm.trans hs')
  exact ⟨s, t, hs, ht, hadded, hreturned, drained_of_run (by decide) hbefore hstart hstop hs ht⟩

/-! ## Wake-ups -/

/-- After `Shutdown` has notified, no worker sleeps on an empty queue. -/
def NoSleeper (s : ThreadPool) : Prop :=
  s.notified = true → s.tasks = [] → ∀ worker ∈ s.workers, worker ≠ .waiting

/-- `Shutdown` notifies while no worker is between its test and its wait. -/
def NotifiesSettled (s : ThreadPool) : PoolLabel → Prop
  | .call _ => s.call = .notifying → ∀ worker ∈ s.workers, worker ≠ .deciding
  | _ => True

/-- After `Shutdown` has notified, no worker sleeps or is about to. -/
structure Settled (s : ThreadPool) : Prop where
  notifying : s.call = .notifying → s.isRunning = false
  stopped : s.notified = true → s.isRunning = false
  awake : s.notified = true → ∀ worker ∈ s.workers, worker ≠ .waiting ∧ worker ≠ .deciding

theorem settled_step (hs : s.Settled) (hok : s.NotifiesSettled a) (h : step s a = some t) :
    t.Settled := by
  obtain ⟨hnotifying, hstopped, hawake⟩ := hs
  cases Step.of_step h with
  | resetIgnored _ _ | poll _ | add _ _ => exact ⟨hnotifying, hstopped, hawake⟩
  | reset hcall hrunning => exact ⟨by simp, hstopped, hawake⟩
  | shutdown hcall => exact ⟨fun _ ↦ rfl, fun _ ↦ rfl, hawake⟩
  | start hcall => exact ⟨by simp, by simp, by simp⟩
  | create hcall =>
    refine ⟨by simp, hstopped, fun hnotified ↦ ?_⟩
    exact Slots.forall_mem_append_singleton (hawake hnotified) (by simp)
  | notify hcall =>
    refine ⟨by simp, fun _ ↦ hnotifying hcall, fun _ worker hworker ↦ ?_⟩
    obtain ⟨old, hold, rfl⟩ := List.mem_map.mp hworker
    have hsettled := hok hcall old hold
    cases old with
    | deciding => exact absurd rfl hsettled
    | _ => simp [Worker.notify]
  | decide hmutex hworker hrunning htasks =>
    -- the worker has read the flag before it was cleared
    refine ⟨hnotifying, hstopped, fun hnotified ↦ ?_⟩
    exact absurd ((hstopped hnotified).symm.trans hrunning) (by simp)
  | block hworker =>
    refine ⟨hnotifying, hstopped, fun hnotified ↦ ?_⟩
    exact absurd rfl (hawake hnotified _ (List.mem_of_getElem? hworker)).2
  | addWaking _ _ | admits _ _ _ | pop _ _ | leave _ _ _ | popEmpty _ _ _ | count _ | exit _
  | wake _ | finish _ =>
    exact ⟨hnotifying, hstopped, fun hnotified ↦ Slots.forall_mem_set (hawake hnotified) (by simp)⟩
  | _ => exact ⟨by simp [endShutdown], hstopped, hawake⟩

/-- **Wake-ups**: no worker sleeps through a shutdown, in the runs in which no worker is between its
test and its wait when `Shutdown` notifies. -/
theorem noSleeper_of_run {labels : List PoolLabel}
    (hok : Machine.AllSteps step NotifiesSettled {} labels)
    (h : Machine.run step {} labels = some s) : s.NoSleeper := by
  have hsettled : s.Settled := Machine.run_induct settled_step ⟨by simp, by simp, by simp⟩ hok h
  exact fun hnotified _ worker hworker ↦ (hsettled.awake hnotified worker hworker).1

instance (s : ThreadPool) : Decidable s.NoSleeper :=
  inferInstanceAs (Decidable (_ → _ → ∀ worker ∈ s.workers, worker ≠ .waiting))

instance (s : ThreadPool) : ∀ a, Decidable (s.NotifiesSettled a)
  | .call _ => inferInstanceAs (Decidable (_ → _))
  | .reset _ => .isTrue trivial
  | .shutdown => .isTrue trivial
  | .add _ => .isTrue trivial
  | .enter _ => .isTrue trivial
  | .block _ => .isTrue trivial
  | .test _ => .isTrue trivial
  | .count _ => .isTrue trivial
  | .exit _ => .isTrue trivial
  | .wake _ => .isTrue trivial
  | .finish _ => .isTrue trivial

/-- One worker is started. -/
def startOne : List PoolLabel := [.call false, .call false, .call false]

theorem noSleeper_oneTask :
    ∃ s : ThreadPool, Machine.run step {} (.reset 1 :: startOne ++
      [.enter 0, .block 0, .shutdown, .call false]) = some s ∧ s.notified = true ∧
      s.NoSleeper := by
  have hok : Machine.AllSteps step NotifiesSettled {} (.reset 1 :: startOne ++
      [.enter 0, .block 0, .shutdown, .call false]) := by
    decide
  exact ⟨_, rfl, rfl, noSleeper_of_run hok rfl⟩

/-- The worker tests, `Shutdown` stores and notifies, the worker blocks. -/
theorem not_forall_noSleeper :
    ¬ ∀ (labels : List PoolLabel) (s : ThreadPool),
      Machine.run step {} labels = some s → s.NoSleeper := by
  intro h
  have hsleeps := h (.reset 1 :: startOne ++ [.enter 0, .shutdown, .call false, .block 0]) _ rfl
  exact absurd hsleeps (by decide)

end ThreadPool

end Statsig
