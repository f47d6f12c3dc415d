import Statsig.Lib.Machine
import Statsig.Lib.Slots

/-!
# The thread pool

`ThreadPool` with its workers: any number of cycles of `Reset` and `Shutdown`, with calls of `Add`
and the steps of the workers in between, in any order.  `Reset` and `Shutdown` are called one at a
time, and neither takes the mutex.  They share two atomics with the workers, `is_running_` and
`completed_count_`, and each access to one of these is a step of its own, except that `Reset` reads
the flag, which nobody else could change then, when it clears the counter.

So a worker takes several steps with the mutex: it tests the wait predicate, and then either blocks
or tests the flag once more, and if it is to leave, it reads the counter and stores it.  Between the
two tests the flag may change under it.  A worker that was let out of its wait because the pool was
stopped, and then finds it started again, takes the front of a queue that may be empty, which is
undefined; nothing is said here of what such a worker does next.

The tasks are numbered in the order in which they are added.
-/

set_option autoImplicit false

namespace Statsig

/-! ## The machine -/

/-- What a worker does next. -/
inductive Worker where
  /-- It takes the mutex. -/
  | ready
  /-- It holds the mutex, has found the wait predicate false, and is about to block. -/
  | deciding
  /-- It is blocked in the wait. -/
  | waiting
  /-- It holds the mutex, has found the wait predicate true, and is about to test whether it is to
  leave. -/
  | admitted
  /-- It holds the mutex, and is to leave. -/
  | leaving
  /-- It holds the mutex, has read this from the counter, and is about to store one more. -/
  | counted (count : ℕ)
  | running (task : ℕ)
  | exited
  /-- It has taken the front of an empty queue. -/
  | undefined
  deriving DecidableEq, Repr

namespace Worker

/-- The task that the worker has. -/
def held : Worker → Option ℕ
  | running task => some task
  | _ => none

/-- `notify_all`, for one worker. -/
def notify : Worker → Worker
  | waiting => ready
  | worker => worker

@[simp] theorem held_notify (worker : Worker) : worker.notify.held = worker.held := by
  cases worker <;> rfl

/-- The worker holds the mutex from one step to the next. -/
def HoldsMutex : Worker → Prop
  | deciding | admitted | leaving | counted _ | undefined => True
  | _ => False

instance : DecidablePred HoldsMutex
  | deciding | admitted | leaving | counted _ | undefined => .isTrue trivial
  | ready | waiting | running _ | exited => .isFalse id

@[simp] theorem holdsMutex_notify (worker : Worker) :
    worker.notify.HoldsMutex ↔ worker.HoldsMutex := by
  cases worker <;> rfl

/-- The worker has left the loop, or is bound to. -/
def Leaves : Worker → Prop
  | leaving | counted _ | exited => True
  | _ => False

@[simp] theorem leaves_notify (worker : Worker) : worker.notify.Leaves ↔ worker.Leaves := by
  cases worker <;> rfl

end Worker

/-- What the call of `Reset` or `Shutdown` that is in progress does next. -/
inductive PoolCall where
  | idle
  /-- `Reset`: it stores the flag. -/
  | starting (numThreads : ℕ)
  /-- `Reset`: so many threads are still to be created. -/
  | creating (left : ℕ)
  /-- `Shutdown`: it notifies all workers. -/
  | notifying
  /-- `Shutdown`: it waits for the workers. -/
  | polling
  /-- `Shutdown`: it looks at the counter once more. -/
  | checking
  /-- `Shutdown`: it joins the threads. -/
  | joining
  deriving DecidableEq, Repr

/-- `ThreadPool` -/
structure ThreadPool where
  /-- All workers that were ever created. -/
  workers : List Worker := []
  /-- Those that the pool has a thread of. -/
  threads : List ℕ := []
  tasks : List ℕ := []
  isRunning : Bool := false
  completedCount : ℕ := 0
  call : PoolCall := .idle
  /-- The last `Shutdown` has notified, and the pool was not started since. -/
  notified : Bool := false
  /-- What the last `Shutdown` returned. -/
  returned : Option Bool := none
  /-- The number of tasks that were added. -/
  added : ℕ := 0
  /-- The tasks that were taken from the queue, each with the worker that took it. -/
  popped : List (ℕ × ℕ) := []
  /-- The tasks that have run to completion. -/
  finished : List ℕ := []
  deriving DecidableEq, Repr

inductive PoolLabel where
  | reset (numThreads : ℕ)
  | shutdown
  /-- The next step of the call in progress; whether its time is up matters where it polls. -/
  | call (expired : Bool)
  /-- `Add`, with the worker that `notify_one` wakes if there is one to wake. -/
  | add (woken : ℕ)
  /-- A worker takes the mutex, and tests the wait predicate. -/
  | enter (i : ℕ)
  | block (i : ℕ)
  /-- A worker that is past the wait tests whether it is to leave, and takes a task if not. -/
  | test (i : ℕ)
  /-- A worker that is to leave reads the counter. -/
  | count (i : ℕ)
  | exit (i : ℕ)
  /-- A worker is woken for no reason. -/
  | wake (i : ℕ)
  | finish (i : ℕ)
  deriving DecidableEq, Repr

namespace ThreadPool

/-- The worker is in this state. -/
def At (s : ThreadPool) (i : ℕ) (worker : Worker) : Prop := s.workers[i]? = some worker

instance (s : ThreadPool) (i : ℕ) (worker : Worker) : Decidable (s.At i worker) :=
  inferInstanceAs (Decidable (_ = _))

/-- No worker holds the mutex. -/
def MutexFree (s : ThreadPool) : Prop := ∀ worker ∈ s.workers, ¬ worker.HoldsMutex

instance (s : ThreadPool) : Decidable s.MutexFree :=
  inferInstanceAs (Decidable (∀ worker ∈ s.workers, ¬ worker.HoldsMutex))

def setWorker (s : ThreadPool) (i : ℕ) (worker : Worker) : ThreadPool :=
  { s with workers := s.workers.set i worker }

/-- The wait predicate in the loop of `CreateThread`. -/
def enter (s : ThreadPool) (i : ℕ) : ThreadPool :=
  s.setWorker i (if !s.isRunning || !s.tasks.isEmpty then .admitted else .deciding)

/-- A worker takes the first task, and gives the mutex back. -/
def pop (s : ThreadPool) (i : ℕ) : ThreadPool :=
  match s.tasks with
  | [] => s.setWorker i .undefined
  | task :: tasks =>
    { s.setWorker i (.running task) with tasks, popped := s.popped ++ [(i, task)] }

/-- What follows the wait in the loop of `CreateThread`. -/
def test (s : ThreadPool) (i : ℕ) : ThreadPool :=
  if !s.isRunning && s.tasks.isEmpty then s.setWorker i .leaving else s.pop i

/-- A worker stores the counter, gives the mutex back and leaves the loop. -/
def exit (s : ThreadPool) (i count : ℕ) : ThreadPool :=
  { s.setWorker i .exited with completedCount := count + 1 }

/-- `CreateThread` -/
def createThread (s : ThreadPool) : ThreadPool :=
  { s with workers := s.workers ++ [.ready], threads := s.threads ++ [s.workers.length] }

/-- `Add`, with the mutex. -/
def add (s : ThreadPool) (woken : ℕ) : Option ThreadPool :=
  let t := { s with tasks := s.tasks ++ [s.added], added := s.added + 1 }
  if s.At woken .waiting then some (t.setWorker woken .ready)
  else if ∀ worker ∈ s.workers, worker ≠ .waiting then some t
  else none

/-- All threads can be joined. -/
def Joinable (s : ThreadPool) : Prop := ∀ i ∈ s.threads, s.At i .exited

instance (s : ThreadPool) : Decidable s.Joinable :=
  inferInstanceAs (Decidable (∀ i ∈ s.threads, s.At i .exited))

/-- `Shutdown` returns, with no threads left. -/
def endShutdown (s : ThreadPool) (graceful : Bool) : ThreadPool :=
  { s with threads := [], returned := some graceful, call := .idle }

/-- The next step of the call in progress. -/
def stepCall (s : ThreadPool) (expired : Bool) : Option ThreadPool :=
  match s.call with
  | .idle => none
  | .starting numThreads =>
    some { s with isRunning := true, notified := false, call := .creating numThreads }
  | .creating 0 => some { s with call := .idle }
  | .creating (left + 1) => some { s.createThread with call := .creating left }
  | .notifying =>
    some { s with workers := s.workers.map Worker.notify, notified := true, call := .polling }
  | .polling =>
    if s.completedCount = s.threads.length ∨ expired then some { s with call := .checking }
    else some s
  | .checking =>
    if s.completedCount = s.threads.length then some { s with call := .joining }
    else some (s.endShutdown false)
  | .joining => if s.Joinable then some (s.endShutdown true) else none

/-- One step. -/
def step (s : ThreadPool) : PoolLabel → Option ThreadPool
  | .reset numThreads =>
    if s.call ≠ .idle then none
    else if s.isRunning then some s
    else some { s with threads := [], completedCount := 0, call := .starting numThreads }
  | .shutdown =>
    if s.call ≠ .idle then none
    else some { s with isRunning := false, returned := none, call := .notifying }
  | .call expired => s.stepCall expired
  | .add woken => if s.MutexFree then s.add woken else none
  | .enter i => if s.At i .ready ∧ s.MutexFree then some (s.enter i) else none
  | .block i => if s.At i .deciding then some (s.setWorker i .waiting) else none
  | .test i => if s.At i .admitted then some (s.test i) else none
  | .count i => if s.At i .leaving then some (s.setWorker i (.counted s.completedCount)) else none
  | .exit i =>
    match s.workers[i]? with
    | some (.counted count) => some (s.exit i count)
    | _ => none
  | .wake i => if s.At i .waiting then some (s.setWorker i .ready) else none
  | .finish i =>
    match s.workers[i]? with
    | some (.running task) => some { s.setWorker i .ready with finished := s.finished ++ [task] }
    | _ => none

/-! ## What a step can do -/

/-- The kinds of steps, each with the state that it needs and the one that it leads to. -/
inductive Step (s : ThreadPool) : PoolLabel → ThreadPool → Prop where
  | resetIgnored {numThreads : ℕ} (hcall : s.call = .idle) (hrunning : s.isRunning = true) :
      Step s (.reset numThreads) s
  | reset {numThreads : ℕ} (hcall : s.call = .idle) (hrunning : s.isRunning = false) :
      Step s (.reset numThreads)
        { s with threads := [], completedCount := 0, call := .starting numThreads }
  | shutdown (hcall : s.call = .idle) :
      Step s .shutdown { s with isRunning := false, returned := none, call := .notifying }
  | start {expired : Bool} {numThreads : ℕ} (hcall : s.call = .starting numThreads) :
      Step s (.call expired)
        { s with isRunning := true, notified := false, call := .creating numThreads }
  | started {expired : Bool} (hcall : s.call = .creating 0) :
      Step s (.call expired) { s with call := .idle }
  | create {expired : Bool} {left : ℕ} (hcall : s.call = .creating (left + 1)) :
      Step s (.call expired) { s.createThread with call := .creating left }
  | notify {expired : Bool} (hcall : s.call = .notifying) :
      Step s (.call expired)
        { s with workers := s.workers.map Worker.notify, notified := true, call := .polling }
  | poll {expired : Bool} (hcall : s.call = .polling) : Step s (.call expired) s
  | polled {expired : Bool} (hcall : s.call = .polling) :
      Step s (.call expired) { s with call := .checking }
  | checked {expired : Bool} (hcall : s.call = .checking)
      (hcount : s.completedCount = s.threads.length) :
      Step s (.call expired) { s with call := .joining }
  | detach {expired : Bool} (hcall : s.call = .checking)
      (hcount : s.completedCount ≠ s.threads.length) :
      Step s (.call expired) (s.endShutdown false)
  | join {expired : Bool} (hcall : s.call = .joining) (hjoinable : s.Joinable) :
      Step s (.call expired) (s.endShutdown true)
  | addWaking {woken : ℕ} (hmutex : s.MutexFree) (hwoken : s.At woken .waiting) :
      Step s (.add woken)
        { s.setWorker woken .ready with tasks := s.tasks ++ [s.added], added := s.added + 1 }
  | add {woken : ℕ} (hmutex : s.MutexFree) (hnone : ∀ worker ∈ s.workers, worker ≠ .waiting) :
      Step s (.add woken) { s with tasks := s.tasks ++ [s.added], added := s.added + 1 }
  | decide {i : ℕ} (hmutex : s.MutexFree) (hworker : s.At i .ready) (hrunning : s.isRunning = true)
      (htasks : s.tasks = []) : Step s (.enter i) (s.setWorker i .deciding)
  | admits {i : ℕ} (hmutex : s.MutexFree) (hworker : s.At i .ready)
      (hpredicate : s.isRunning = false ∨ s.tasks ≠ []) :
      Step s (.enter i) (s.setWorker i .admitted)
  | pop {i task : ℕ} {tasks : List ℕ} (hworker : s.At i .admitted)
      (htasks : s.tasks = task :: tasks) :
      Step s (.test i)
        { s.setWorker i (.running task) with tasks, popped := s.popped ++ [(i, task)] }
  | leave {i : ℕ} (hworker : s.At i .admitted) (hrunning : s.isRunning = false)
      (htasks : s.tasks = []) : Step s (.test i) (s.setWorker i .leaving)
  | popEmpty {i : ℕ} (hworker : s.At i .admitted) (hrunning : s.isRunning = true)
      (htasks : s.tasks = []) : Step s (.test i) (s.setWorker i .undefined)
  | count {i : ℕ} (hworker : s.At i .leaving) :
      Step s (.count i) (s.setWorker i (.counted s.completedCount))
  | exit {i count : ℕ} (hworker : s.At i (.counted count)) : Step s (.exit i) (s.exit i count)
  | block {i : ℕ} (hworker : s.At i .deciding) : Step s (.block i) (s.setWorker i .waiting)
  | wake {i : ℕ} (hworker : s.At i .waiting) : Step s (.wake i) (s.setWorker i .ready)
  | finish {i task : ℕ} (hworker : s.At i (.running task)) :
      Step s (.finish i) { s.setWorker i .ready with finished := s.finished ++ [task] }

variable {s t : ThreadPool} {a : PoolLabel}

/-- Who is somewhere else after a step of a worker was there before. -/
theorem at_of_set {i j : ℕ} {old new worker : Worker} (hworker : s.At i old)
    (hworkers : t.workers = s.workers.set i new) (hne : worker ≠ new) (h : t.At j worker) :
    j ≠ i ∧ s.At j worker := by
  rw [At, hworkers, Slots.getElem?_set_eq_some_iff hworker] at h
  exact h.resolve_left fun hsame ↦ hne hsame.2

theorem Step.of_add {woken : ℕ} (hmutex : s.MutexFree) (h : s.add woken = some t) :
    Step s (.add woken) t := by
  simp only [ThreadPool.add] at h
  split at h
  · rename_i hwoken
    obtain rfl := Option.some_inj.mp h
    exact .addWaking hmutex hwoken
  · split at h
    · rename_i hnone
      obtain rfl := Option.some_inj.mp h
      exact .add hmutex hnone
    · exact absurd h (by simp)

theorem Step.of_enter {i : ℕ} (hmutex : s.MutexFree) (hworker : s.At i .ready) :
    Step s (.enter i) (s.enter i) := by
  cases hrunning : s.isRunning <;> cases htasks : s.tasks
  · simpa [enter, hrunning, htasks] using Step.admits hmutex hworker (.inl hrunning)
  · simpa [enter, hrunning, htasks] using Step.admits hmutex hworker (.inl hrunning)
  · simpa [enter, hrunning, htasks] using Step.decide hmutex hworker hrunning htasks
  · simpa [enter, hrunning, htasks] using Step.admits hmutex hworker (.inr (by simp [htasks]))

theorem Step.of_test {i : ℕ} (hworker : s.At i .admitted) : Step s (.test i) (s.test i) := by
  cases hrunning : s.isRunning <;> cases htasks : s.tasks
  · simpa [test, hrunning, htasks] using Step.leave hworker hrunning htasks
  · simpa [test, ThreadPool.pop, hrunning, htasks] using Step.pop hworker htasks
  · simpa [test, ThreadPool.pop, hrunning, htasks] using Step.popEmpty hworker hrunning htasks
  · simpa [test, ThreadPool.pop, hrunning, htasks] using Step.pop hworker htasks

theorem Step.of_stepCall {expired : Bool} (h : s.stepCall expired = some t) :
    Step s (.call expired) t := by
  rw [stepCall] at h
  split at h
  · exact absurd h (by simp)
  · rename_i hcall
    obtain rfl := Option.some_inj.mp h
    exact .start hcall
  · rename_i hcall
    obtain rfl := Option.some_inj.mp h
    exact .started hcall
  · rename_i hcall
    obtain rfl := Option.some_inj.mp h
    exact .create hcall
  · rename_i hcall
    obtain rfl := Option.some_inj.mp h
    exact .notify hcall
  · rename_i hcall
    split at h <;> obtain rfl := Option.some_inj.mp h
    · exact .polled hcall
    · exact .poll hcall
  · rename_i hcall
    split at h <;> rename_i hcount <;> obtain rfl := Option.some_inj.mp h
    · exact .checked hcall hcount
    · exact .detach hcall hcount
  · rename_i hcall
    split at h
    · rename_i hjoinable
      obtain rfl := Option.some_inj.mp h
      exact .join hcall hjoinable
    · exact absurd h (by simp)

/-- **Nothing else happens.** -/
theorem Step.of_step (h : step s a = some t) : Step s a t := by
  cases a with
  | reset numThreads =>
    rw [step] at h
    split at h
    · exact absurd h (by simp)
    · rename_i hcall
      split at h <;> rename_i hrunning <;> obtain rfl := Option.some_inj.mp h
      · exact .resetIgnored (not_not.mp hcall) hrunning
      · exact .reset (not_not.mp hcall) (by simpa using hrunning)
  | shutdown =>
    rw [step] at h
    split at h
    · exact absurd h (by simp)
    · rename_i hcall
      obtain rfl := Option.some_inj.mp h
      exact .shutdown (not_not.mp hcall)
  | call expired => exact .of_stepCall h
  | add woken =>
    rw [step] at h
    split at h
    · exact .of_add ‹_› h
    · exact absurd h (by simp)
  | enter i =>
    rw [step] at h
    split at h
    · rename_i henter
      obtain rfl := Option.some_inj.mp h
      exact .of_enter henter.2 henter.1
    · exact absurd h (by simp)
  | block i =>
    rw [step] at h
    split at h
    · obtain rfl := Option.some_inj.mp h
      exact .block ‹_›
    · exact absurd h (by simp)
  | test i =>
    rw [step] at h
    split at h
    · obtain rfl := Option.some_inj.mp h
      exact .of_test ‹_›
    · exact absurd h (by simp)
  | count i =>
    rw [step] at h
    split at h
    · obtain rfl := Option.some_inj.mp h
      exact .count ‹_›
    · exact absurd h (by simp)
  | exit i =>
    rw [step] at h
    split at h
    · obtain rfl := Option.some_inj.mp h
      exact .exit ‹_›
    · exact absurd h (by simp)
  | wake i =>
    rw [step] at h
    split at h
    · obtain rfl := Option.some_inj.mp h
      exact .wake ‹_›
    · exact absurd h (by simp)
  | finish i =>
    rw [step] at h
    split at h
    · obtain rfl := Option.some_inj.mp h
      exact .finish ‹_›
    · exact absurd h (by simp)

/-! ## The mutex -/

/-- Only one worker at a time holds the mutex. -/
def Exclusive (s : ThreadPool) : Prop :=
  ∀ ⦃i j : ℕ⦄ ⦃worker other : Worker⦄, s.At i worker → s.At j other → worker.HoldsMutex →
    other.HoldsMutex → i = j

theorem Exclusive.setWorker {i : ℕ} {old new : Worker} (hs : s.Exclusive) (hworker : s.At i old)
    (hmutex : new.HoldsMutex → old.HoldsMutex ∨ s.MutexFree)
    (hworkers : t.workers = s.workers.set i new) : t.Exclusive := by
  have hother : ∀ j other, s.At j other → other.HoldsMutex → new.HoldsMutex → j = i := by
    intro j other hj hholds hnew
    rcases hmutex hnew with hold | hfree
    · exact hs hj hworker hholds hold
    · exact absurd hholds (hfree _ (List.mem_of_getElem? hj))
  intro j k worker other hj hk hholds hholds'
  rw [At, hworkers, Slots.getElem?_set_eq_some_iff hworker] at hj hk
  rcases hj with ⟨rfl, rfl⟩ | ⟨-, hj⟩ <;> rcases hk with ⟨rfl, rfl⟩ | ⟨-, hk⟩
  · rfl
  · exact (hother k other hk hholds' hholds).symm
  · exact hother j worker hj hholds hholds'
  · exact hs hj hk hholds hholds'

/-- **Mutual exclusion.** -/
theorem exclusive_step (hs : s.Exclusive) (h : step s a = some t) : t.Exclusive := by
  cases Step.of_step h with
  | create hcall =>
    have hold : ∀ j worker, s.createThread.At j worker → worker.HoldsMutex → s.At j worker := by
      intro j worker hj hholds
      rw [At, createThread, List.getElem?_append] at hj
      split at hj
      · exact hj
      · obtain rfl := List.mem_singleton.mp (List.mem_of_getElem? hj)
        exact False.elim hholds
    exact fun i j worker other hi hj hholds hholds' ↦
      hs (hold i worker hi hholds) (hold j other hj hholds') hholds hholds'
  | notify hcall =>
    intro i j worker other hi hj hholds hholds'
    rw [At, List.getElem?_map, Option.map_eq_some_iff] at hi hj
    obtain ⟨worker, hi, rfl⟩ := hi
    obtain ⟨other, hj, rfl⟩ := hj
    exact hs hi hj (by simpa using hholds) (by simpa using hholds')
  | addWaking _ hworker | pop hworker _ | block hworker | wake hworker | finish hworker
  | exit hworker => exact hs.setWorker hworker (by simp [Worker.HoldsMutex]) rfl
  | decide hmutex hworker _ _ | admits hmutex hworker _ =>
    exact hs.setWorker hworker (fun _ ↦ .inr hmutex) rfl
  | leave hworker _ _ | popEmpty hworker _ _ | count hworker =>
    exact hs.setWorker hworker (fun _ ↦ .inl trivial) rfl
  | _ => exact hs

/-- A worker that is past its wait does not find the pool started with nothing in the queue. -/
def PopsTask (s : ThreadPool) : PoolLabel → Prop
  | .test i => s.At i .admitted → s.isRunning = true → s.tasks ≠ []
  | _ => True

instance (s : ThreadPool) : DecidablePred s.PopsTask
  | .test i => inferInstanceAs (Decidable (s.At i .admitted → s.isRunning = true → s.tasks ≠ []))
  | .reset _ | .shutdown | .call _ | .add _ | .enter _ | .block _ | .count _ | .exit _ | .wake _
  | .finish _ => .isTrue trivial

/-- No worker has taken the front of an empty queue. -/
def Defined (s : ThreadPool) : Prop := ∀ worker ∈ s.workers, worker ≠ .undefined

instance (s : ThreadPool) : Decidable s.Defined :=
  inferInstanceAs (Decidable (∀ worker ∈ s.workers, worker ≠ .undefined))

theorem defined_step (hs : s.Defined) (hok : s.PopsTask a) (h : step s a = some t) :
    t.Defined := by
  cases Step.of_step h with
  | create hcall => exact Slots.forall_mem_append_singleton hs (by simp)
  | notify hcall =>
    intro worker hworker
    obtain ⟨old, hold, rfl⟩ := List.mem_map.mp hworker
    cases old <;> simp only [Worker.notify, ne_eq, reduceCtorEq, not_false_eq_true]
    exact absurd rfl (hs _ hold)
  | popEmpty hworker hrunning htasks => exact absurd htasks (hok hworker hrunning)
  | addWaking _ _ | decide _ _ _ _ | admits _ _ _ | pop _ _ | leave _ _ _ | count _ | exit _
  | block _ | wake _ | finish _ => exact Slots.forall_mem_set hs (by simp)
  | _ => exact hs

/-! ## What becomes of the tasks -/

/-- Every task is in the queue, with one worker, or done. -/
structure Conserves (s : ThreadPool) : Prop where
  /-- The tasks are taken from the queue in the order in which they were added. -/
  queued : s.popped.map Prod.snd ++ s.tasks = List.range s.added
  /-- What was taken is being run, or has been. -/
  carried : (s.finished ++ s.workers.filterMap Worker.held).Perm (s.popped.map Prod.snd)

theorem filterMap_held_notify (workers : List Worker) :
    (workers.map Worker.notify).filterMap Worker.held = workers.filterMap Worker.held := by
  rw [List.filterMap_map]
  simp

theorem carried_set {i : ℕ} {old new : Worker} {tasks : List ℕ} (hworker : s.At i old)
    (hheld : new.held = old.held)
    (h : (s.finished ++ s.workers.filterMap Worker.held).Perm tasks) :
    (s.finished ++ (s.workers.set i new).filterMap Worker.held).Perm tasks := by
  rw [Slots.filterMap_set_of_eq hworker hheld]
  exact h

/-- **One step.** -/
theorem conserves_step (hs : s.Conserves) (h : step s a = some t) : t.Conserves := by
  obtain ⟨hqueued, hcarried⟩ := hs
  have hadd : s.popped.map Prod.snd ++ (s.tasks ++ [s.added]) = List.range (s.added + 1) := by
    rw [← List.append_assoc, hqueued, List.range_succ]
  cases Step.of_step h with
  | create hcall =>
    refine ⟨hqueued, ?_⟩
    have hnew : [Worker.ready].filterMap Worker.held = [] := rfl
    rw [createThread, List.filterMap_append, hnew, List.append_nil]
    exact hcarried
  | notify hcall => exact ⟨hqueued, (filterMap_held_notify s.workers).symm ▸ hcarried⟩
  | addWaking hmutex hwoken => exact ⟨hadd, carried_set hwoken rfl hcarried⟩
  | add hmutex hnone => exact ⟨hadd, hcarried⟩
  | @pop i task tasks hworker htasks =>
    have hheld : ((s.workers.set i (.running task)).filterMap Worker.held).Perm
        (task :: s.workers.filterMap Worker.held) := Slots.filterMap_set_perm hworker rfl rfl
    refine ⟨?_, ?_⟩
    · rw [htasks] at hqueued
      simpa [setWorker] using hqueued
    · rw [List.map_append]
      have hmove : (s.finished ++ task :: s.workers.filterMap Worker.held).Perm
          (s.finished ++ s.workers.filterMap Worker.held ++ [task]) := by
        rw [List.append_assoc]
        exact (List.perm_append_singleton task _).symm.append_left _
      exact (hheld.append_left _).trans (hmove.trans (hcarried.append_right [task]))
  | decide _ hworker _ _ | admits _ hworker _ | leave hworker _ _ | popEmpty hworker _ _
  | count hworker | exit hworker | block hworker | wake hworker =>
    exact ⟨hqueued, carried_set hworker rfl hcarried⟩
  | @finish i task hworker =>
    have hheld : (task :: (s.workers.set i .ready).filterMap Worker.held).Perm
        (s.workers.filterMap Worker.held) := Slots.perm_filterMap_set hworker rfl rfl
    refine ⟨hqueued, ?_⟩
    show (s.finished ++ [task] ++ (s.workers.set i .ready).filterMap Worker.held).Perm _
    rw [List.append_assoc]
    exact (hheld.append_left _).trans hcarried
  | _ => exact ⟨hqueued, hcarried⟩

/-- **Whole runs**, whatever is called in them. -/
theorem conserves_of_run {labels : List PoolLabel} (h : Machine.run step {} labels = some s) :
    s.Conserves :=
  Machine.invariant_of_run conserves_step ⟨rfl, .refl _⟩ h

/-- The tasks that were taken are the first ones. -/
theorem Conserves.popped_eq (hs : s.Conserves) :
    s.popped.map Prod.snd = List.range s.popped.length := by
  have htake := congrArg (List.take s.popped.length) hs.queued
  have hle : s.popped.length ≤ s.added := by
    have hlength := congrArg List.length hs.queued
    simp only [List.length_append, List.length_map, List.length_range] at hlength
    omega
  rw [List.take_range, Nat.min_eq_left hle, List.take_left' (by simp)] at htake
  exact htake

/-- No task is run twice, nor run while it has already been. -/
theorem Conserves.nodup (hs : s.Conserves) :
    (s.finished ++ s.workers.filterMap Worker.held).Nodup := by
  rw [hs.carried.nodup_iff, hs.popped_eq]
  exact List.nodup_range

end ThreadPool

end Statsig
