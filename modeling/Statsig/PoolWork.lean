import Statsig.ThreadPool

/-!
# No task waits for a worker that sleeps

`Add` notifies one worker, whoever takes the task in the end, and a worker that finds the queue
empty goes to sleep.  `awake_of_run` says that this is enough at every moment of every run, with any
number of cycles of `Reset` and `Shutdown`: while a worker sleeps, there are as many workers on
their way to the queue as there are tasks in it.

So the queue is emptied once the workers get to run and their tasks return: `finished_of_schedule`
says how many steps that takes.

Both are about runs that stay defined.  When the pool is started again while a worker that a
shutdown has detached is past its wait, but has not tested the flag again, that worker pops an empty
queue.
-/

set_option autoImplicit false

namespace Statsig

namespace Worker

/-- It is on its way to the queue. -/
def Comes : Worker → Prop
  | ready | admitted => True
  | _ => False

instance : DecidablePred Comes
  | ready | admitted => .isTrue trivial
  | deciding | waiting | leaving | counted _ | running _ | exited | undefined => .isFalse id

/-- It has found the queue empty, and has the mutex still. -/
def FoundEmpty : Worker → Prop
  | deciding | leaving | counted _ => True
  | _ => False

theorem FoundEmpty.holdsMutex {worker : Worker} (h : worker.FoundEmpty) : worker.HoldsMutex := by
  cases worker <;> first | exact trivial | exact False.elim h

end Worker

namespace ThreadPool

/-! ## Workers that sleep -/

/-- The workers that are on their way to the queue. -/
def readyCount (s : ThreadPool) : ℕ := s.workers.countP (·.Comes)

/-- A worker only goes to sleep or leaves, and only sleeps on, while no task needs it. -/
structure Awake (s : ThreadPool) : Prop where
  found : ∀ worker ∈ s.workers, worker.FoundEmpty → s.tasks = []
  waiting : .waiting ∈ s.workers → s.tasks.length ≤ s.readyCount

variable {s t : ThreadPool} {a : PoolLabel}

theorem readyCount_set {i : ℕ} {old : Worker} (hworker : s.At i old) (new : Worker) :
    (s.setWorker i new).readyCount + (if old.Comes then 1 else 0) =
      s.readyCount + if new.Comes then 1 else 0 := by
  simpa [readyCount, setWorker] using Slots.countP_set (p := (·.Comes)) (b := new) hworker

theorem Awake.of_tasks_nil (h : s.tasks = []) : s.Awake :=
  ⟨fun _ _ _ ↦ h, fun _ ↦ by simp [h]⟩

/-- A worker that goes to the queue, for whatever reason, or goes on. -/
theorem Awake.setWorker {i : ℕ} {old new : Worker} (hs : s.Awake) (hworker : s.At i old)
    (hcomes : old.Comes → new.Comes) (hfound : ¬ new.FoundEmpty) (hwaiting : new ≠ .waiting)
    (hworkers : t.workers = s.workers.set i new) (htasks : t.tasks = s.tasks) : t.Awake := by
  refine ⟨fun worker hmem hempty ↦ ?_, fun hmem ↦ ?_⟩ <;> rw [htasks]
  · rw [hworkers] at hmem
    rcases List.mem_or_eq_of_mem_set hmem with hmem | rfl
    · exact hs.found worker hmem hempty
    · exact absurd hempty hfound
  · rw [hworkers] at hmem
    have hle := hs.waiting ((List.mem_or_eq_of_mem_set hmem).resolve_right hwaiting.symm)
    have hready := readyCount_set hworker new
    have hsame : t.readyCount = (s.setWorker i new).readyCount := by
      rw [readyCount, hworkers]
      rfl
    split at hready
    · rename_i hold
      rw [if_pos (hcomes hold)] at hready
      omega
    · omega

/-- **One step.** -/
theorem awake_step (hs : s.Awake) (h : step s a = some t) : t.Awake := by
  cases Step.of_step h with
  | create hcall =>
    refine ⟨?_, fun hmem ↦ ?_⟩
    · exact Slots.forall_mem_append_singleton hs.found (by simp [Worker.FoundEmpty])
    · have hready : s.createThread.readyCount = s.readyCount + 1 := by
        have hnew : decide Worker.ready.Comes = true := rfl
        simp [readyCount, createThread, hnew]
      have hle := hs.waiting (by simpa [createThread] using hmem)
      show s.tasks.length ≤ s.createThread.readyCount
      omega
  | notify hcall =>
    refine ⟨fun worker hmem hempty ↦ ?_, fun hmem ↦ ?_⟩
    · obtain ⟨old, hold, rfl⟩ := List.mem_map.mp hmem
      refine hs.found old hold ?_
      cases old <;> first | exact trivial | exact False.elim hempty
    · obtain ⟨worker, -, hnotify⟩ := List.mem_map.mp hmem
      cases worker <;> simp only [Worker.notify, reduceCtorEq] at hnotify
  | @addWaking i hmutex hwoken =>
    have hready := readyCount_set hwoken .ready
    rw [if_neg (show ¬ Worker.waiting.Comes from id), if_pos (show Worker.ready.Comes from trivial)]
      at hready
    refine ⟨fun worker hmem hempty ↦ ?_, fun _ ↦ ?_⟩
    · have hfree := Slots.forall_mem_set (i := i) (b := .ready) hmutex
        (by simp [Worker.HoldsMutex])
      exact absurd hempty.holdsMutex (hfree worker hmem)
    · have hle := hs.waiting (List.mem_of_getElem? hwoken)
      show (s.tasks ++ [s.added]).length ≤ (s.setWorker i .ready).readyCount
      rw [List.length_append, List.length_singleton]
      omega
  | add hmutex hnone =>
    exact ⟨fun worker hmem hempty ↦ absurd hempty.holdsMutex (hmutex worker hmem),
      fun hmem ↦ absurd rfl (hnone _ hmem)⟩
  | @pop i task tasks hworker htasks =>
    have hready := readyCount_set hworker (.running task)
    rw [if_neg (show ¬ (Worker.running task).Comes from id),
      if_pos (show Worker.admitted.Comes from trivial)] at hready
    refine ⟨fun worker hmem hempty ↦ ?_, fun hmem ↦ ?_⟩
    · -- there was a task, so nobody has found the queue empty
      have hnone : ∀ other ∈ s.workers, ¬ other.FoundEmpty := fun other hother hempty ↦
        absurd (htasks.symm.trans (hs.found other hother hempty)) (by simp)
      exact absurd hempty (Slots.forall_mem_set hnone (by simp [Worker.FoundEmpty]) worker hmem)
    · have hle := hs.waiting ((List.mem_or_eq_of_mem_set hmem).resolve_right (by simp))
      show tasks.length ≤ (s.setWorker i (.running task)).readyCount
      rw [htasks, List.length_cons] at hle
      omega
  | decide _ _ _ htasks | leave _ _ htasks | popEmpty _ _ htasks => exact .of_tasks_nil htasks
  | block hworker | count hworker | exit hworker =>
    exact .of_tasks_nil (hs.found _ (List.mem_of_getElem? hworker) trivial)
  | admits _ hworker _ | wake hworker | finish hworker =>
    exact hs.setWorker hworker (by simp [Worker.Comes]) (by simp [Worker.FoundEmpty]) (by simp) rfl
      rfl
  | _ => exact ⟨hs.found, hs.waiting⟩

/-- **No task waits for a worker that sleeps**, in any run of calls of `Reset`, `Shutdown` and `Add`
and of the workers, with any wake-ups for no reason, that stays defined: while some worker sleeps,
or is about to, there are as many others on their way to the queue as there are tasks in it. -/
theorem awake_of_run {labels : List PoolLabel} {i : ℕ} {worker : Worker}
    (hok : Machine.AllSteps step PopsTask {} labels)
    (hrun : Machine.run step {} labels = some s) (hworker : s.At i worker)
    (hsleeps : worker = .waiting ∨ worker = .deciding) :
    s.Defined ∧ s.tasks.length ≤ s.readyCount := by
  have hs : s.Awake := Machine.invariant_of_run awake_step (.of_tasks_nil rfl) hrun
  refine ⟨Machine.run_induct defined_step (by simp [Defined]) hok hrun, ?_⟩
  have hmem := List.mem_of_getElem? hworker
  obtain rfl | rfl := hsleeps
  · exact hs.waiting hmem
  · simp [hs.found _ hmem trivial]

/-- Two workers, both of which have gone to sleep before a task is added. -/
def addedToSleeper : List PoolLabel :=
  [.reset 2, .call false, .call false, .call false, .call false, .enter 0, .block 0, .enter 1,
    .block 1, .add 0]

theorem awake_addedToSleeper : ∃ s, Machine.run step {} addedToSleeper = some s ∧
    s.At 1 .waiting ∧ s.Defined ∧ s.tasks.length ≤ s.readyCount := by
  have hok : Machine.AllSteps step PopsTask {} addedToSleeper := by decide +kernel
  obtain ⟨s, hs, hworker⟩ := Option.bind_eq_some_iff.mp
    (show ((Machine.run step {} addedToSleeper).bind fun s ↦ s.workers[1]?) = some .waiting by
      decide +kernel)
  exact ⟨s, hs, hworker, awake_of_run hok hs hworker (.inl rfl)⟩

/-- The pool is shut down, which lets its worker out of the wait, gives the worker up, and is
started again before the worker has tested the flag once more. -/
example :
    ((Machine.run step {}
      [.reset 1, .call false, .call false, .call false, .shutdown, .enter 0, .call false,
        .call true, .call true, .reset 1, .call false, .test 0]).any fun s ↦ ¬ s.Defined) := by
  decide +kernel

/-! ## Emptying the queue -/

end ThreadPool

/-- How many steps a worker takes at most before it sleeps, beside those for what is in the
queue. -/
def Worker.left : Worker → ℕ
  | .waiting | .exited | .undefined => 0
  | .deciding | .counted _ => 1
  | .leaving => 2
  | .admitted => 3
  | .ready => 4
  | .running _ => 5

namespace ThreadPool

variable {s t : ThreadPool} {a : PoolLabel}

/-- A step of a worker that is awake. -/
def IsWork : PoolLabel → Prop
  | .enter _ | .block _ | .test _ | .count _ | .exit _ | .finish _ => True
  | _ => False

/-- How many steps the workers take at most before all of them sleep. -/
def workLeft (s : ThreadPool) : ℕ :=
  3 * s.tasks.length + (s.workers.map Worker.left).foldr (· + ·) 0

theorem workLeft_set {i : ℕ} {old : Worker} (hworker : s.At i old) (new : Worker) :
    old.left + (s.setWorker i new).workLeft = new.left + s.workLeft := by
  have hsum := ((Slots.perm_cons_set (b := new) hworker).map Worker.left).sum_nat
  simp only [List.map_cons, List.sum_cons] at hsum
  show old.left + (3 * s.tasks.length + ((s.workers.set i new).map Worker.left).sum) =
    new.left + (3 * s.tasks.length + (s.workers.map Worker.left).sum)
  omega

/-- Somebody will come to the queue, or nobody has to. -/
def Manageable (s : ThreadPool) : Prop :=
  s.tasks = [] ∨ ∃ i worker, s.At i worker ∧ worker ≠ .exited

/-- **One step of work.** -/
theorem work_step (hs : s.Awake) (hwork : IsWork a) (h : step s a = some t) :
    t.workLeft < s.workLeft ∧ t.added = s.added ∧ (s.Manageable → t.Manageable) := by
  have hkept : ∀ {i : ℕ} {old new : Worker}, s.At i old → (s.setWorker i new).At i new :=
    fun hworker ↦ List.getElem?_set_self (List.getElem?_eq_some_iff.mp hworker).1
  have hlt : ∀ {i : ℕ} {old new : Worker}, s.At i old → new.left < old.left →
      (s.setWorker i new).workLeft < s.workLeft := fun {i old new} hworker hnew ↦ by
    have hleft := workLeft_set hworker new
    omega
  cases Step.of_step h with
  | @pop i task tasks hworker htasks =>
    refine ⟨?_, rfl, fun _ ↦ .inr ⟨i, _, hkept hworker, by simp⟩⟩
    have hleft := workLeft_set hworker (.running task)
    simp only [workLeft, Worker.left, setWorker, htasks, List.length_cons] at hleft ⊢
    omega
  | decide _ hworker _ htasks | leave hworker _ htasks | popEmpty hworker _ htasks =>
    exact ⟨hlt hworker (by simp [Worker.left]), rfl, fun _ ↦ .inl htasks⟩
  | exit hworker =>
    have htasks := hs.found _ (List.mem_of_getElem? hworker) trivial
    exact ⟨hlt hworker (show Worker.exited.left < _ by simp [Worker.left]), rfl,
      fun _ ↦ .inl htasks⟩
  | admits _ hworker _ | count hworker | block hworker =>
    exact ⟨hlt hworker (by simp [Worker.left]), rfl,
      fun _ ↦ .inr ⟨_, _, hkept hworker, by simp⟩⟩
  | finish hworker =>
    exact ⟨hlt hworker (show Worker.ready.left < _ by simp [Worker.left]), rfl,
      fun _ ↦ .inr ⟨_, _, hkept hworker, by simp⟩⟩
  | _ => exact absurd hwork (by simp [IsWork])

/-- No worker that is awake can take a step. -/
def AllAsleep (s : ThreadPool) : Prop := ∀ a, IsWork a → step s a = none

/-- The worker that holds the mutex can take one. -/
theorem AllAsleep.mutexFree (h : s.AllAsleep) (hdefined : s.Defined) : s.MutexFree := by
  intro worker hmem hholds
  obtain ⟨i, hi⟩ := List.mem_iff_getElem?.mp hmem
  have hne := hdefined worker hmem
  cases worker with
  | deciding =>
    have hnone := h (.block i) trivial
    rw [step, if_pos (show s.At i .deciding from hi)] at hnone
    exact absurd hnone (by simp)
  | admitted =>
    have hnone := h (.test i) trivial
    rw [step, if_pos (show s.At i .admitted from hi)] at hnone
    exact absurd hnone (by simp)
  | leaving =>
    have hnone := h (.count i) trivial
    rw [step, if_pos (show s.At i .leaving from hi)] at hnone
    exact absurd hnone (by simp)
  | counted count =>
    have hnone := h (.exit i) trivial
    rw [step, hi] at hnone
    exact absurd hnone (by simp)
  | undefined => exact absurd rfl hne
  | ready | waiting | running _ | exited => exact hholds

/-- Who is left then. -/
theorem AllAsleep.cases (h : s.AllAsleep) (hdefined : s.Defined) {i : ℕ} {worker : Worker}
    (hworker : s.At i worker) : worker = .waiting ∨ worker = .exited := by
  have hmutex := h.mutexFree hdefined
  have hfree := hmutex worker (List.mem_of_getElem? hworker)
  cases worker with
  | waiting => exact .inl rfl
  | exited => exact .inr rfl
  | ready =>
    have hnone := h (.enter i) trivial
    rw [step, if_pos ⟨hworker, hmutex⟩] at hnone
    exact absurd hnone (by simp)
  | running task =>
    have hnone := h (.finish i) trivial
    rw [step, show s.workers[i]? = some (.running task) from hworker] at hnone
    exact absurd hnone (by simp)
  | deciding | admitted | leaving | counted _ | undefined => exact absurd trivial hfree

/-- What any schedule of the workers keeps. -/
theorem work_run {schedule : List PoolLabel} (hs : s.Awake) (hwork : ∀ a ∈ schedule, IsWork a)
    (hrun : Machine.run step s schedule = some t) :
    schedule.length + t.workLeft ≤ s.workLeft ∧ t.added = s.added ∧
      (s.Manageable → t.Manageable) := by
  induction schedule generalizing s with
  | nil =>
    obtain rfl : s = t := by simpa using hrun
    exact ⟨by simp, rfl, id⟩
  | cons a schedule ih =>
    obtain ⟨u, hu, hrest⟩ := Machine.run_cons_eq_some.mp hrun
    obtain ⟨hlt, hadded, hmanageable⟩ := work_step hs (hwork a List.mem_cons_self) hu
    obtain ⟨hle, hadded', hmanageable'⟩ :=
      ih (awake_step hs hu) (fun b hb ↦ hwork b (List.mem_cons_of_mem a hb)) hrest
    refine ⟨?_, hadded'.trans hadded, hmanageable' ∘ hmanageable⟩
    rw [List.length_cons]
    omega

/-- **Every task that was added is run**, from any state that the pool can get into and in which
some worker is left, however the workers are scheduled, in the runs that stay defined: no schedule
is longer than `workLeft` says, and one that cannot be continued has run each task once. -/
theorem finished_of_schedule {labels schedule : List PoolLabel} {i : ℕ} {worker : Worker}
    (hok : Machine.AllSteps step PopsTask {} (labels ++ schedule))
    (hreached : Machine.run step {} labels = some s) (hworker : s.At i worker)
    (hexited : worker ≠ .exited) (hwork : ∀ a ∈ schedule, IsWork a)
    (hrun : Machine.run step s schedule = some t) :
    schedule.length ≤ s.workLeft ∧
      (t.AllAsleep → t.Defined ∧ t.tasks = [] ∧ t.finished.Perm (List.range s.added)) := by
  have hall : Machine.run step {} (labels ++ schedule) = some t :=
    Machine.run_append_eq_some.mpr ⟨s, hreached, hrun⟩
  have hs : s.Awake := Machine.invariant_of_run awake_step (.of_tasks_nil rfl) hreached
  have ht : t.Awake := Machine.invariant_of_run awake_step (.of_tasks_nil rfl) hall
  have hdefined : t.Defined := Machine.run_induct defined_step (by simp [Defined]) hok hall
  obtain ⟨hle, hadded, hmanageable⟩ := work_run hs hwork hrun
  refine ⟨by omega, fun hasleep ↦ ?_⟩
  have hready : t.readyCount = 0 := by
    refine List.countP_eq_zero.mpr fun other hother ↦ ?_
    obtain ⟨j, hj⟩ := List.mem_iff_getElem?.mp hother
    obtain rfl | rfl := hasleep.cases hdefined hj <;> exact Bool.false_ne_true
  have htasks : t.tasks = [] := by
    obtain htasks | ⟨j, other, hother, hne⟩ := hmanageable (.inr ⟨i, worker, hworker, hexited⟩)
    · exact htasks
    · obtain rfl := (hasleep.cases hdefined hother).resolve_right hne
      have hle := ht.waiting (List.mem_of_getElem? hother)
      exact List.length_eq_zero_iff.mp (by omega)
  refine ⟨hdefined, htasks, ?_⟩
  have hheld : t.workers.filterMap Worker.held = [] := by
    refine List.filterMap_eq_nil_iff.mpr fun other hother ↦ ?_
    obtain ⟨j, hj⟩ := List.mem_iff_getElem?.mp hother
    obtain rfl | rfl := hasleep.cases hdefined hj <;> rfl
  have hconserves := conserves_of_run hall
  have hcarried := hconserves.carried
  have hqueued := hconserves.queued
  rw [hheld, List.append_nil] at hcarried
  rw [htasks, List.append_nil, hadded] at hqueued
  exact hqueued ▸ hcarried

/-- The worker that was woken runs the task, and goes to sleep again. -/
def runsTask : List PoolLabel := [.enter 0, .test 0, .finish 0, .enter 0, .block 0]

theorem finished_addedToSleeper : ∃ s t, Machine.run step {} addedToSleeper = some s ∧
    Machine.run step s runsTask = some t ∧
    (t.AllAsleep → t.Defined ∧ t.tasks = [] ∧ t.finished.Perm [0]) := by
  have hok : Machine.AllSteps step PopsTask {} (addedToSleeper ++ runsTask) := by decide +kernel
  obtain ⟨s, hs, hworker⟩ := Option.bind_eq_some_iff.mp
    (show ((Machine.run step {} addedToSleeper).bind fun s ↦ s.workers[0]?) = some .ready by
      decide +kernel)
  have hadded : (Machine.run step {} addedToSleeper).map ThreadPool.added = some 1 := by
    decide +kernel
  have hrun : (Machine.run step {} (addedToSleeper ++ runsTask)).isSome = true := by
    decide +kernel
  obtain ⟨t, ht⟩ := Option.isSome_iff_exists.mp hrun
  obtain ⟨s', hs', ht⟩ := Machine.run_append_eq_some.mp ht
  obtain rfl := Option.some_inj.mp (hs.symm.trans hs')
  have hone : s.added = 1 := by simpa [hs] using hadded
  refine ⟨s, t, hs, ht, fun hasleep ↦ ?_⟩
  obtain ⟨hdefined, htasks, hfinished⟩ :=
    (finished_of_schedule hok hs hworker (by simp) (by simp [runsTask, IsWork]) ht).2 hasleep
  exact ⟨hdefined, htasks, by simpa [hone] using hfinished⟩

end ThreadPool

end Statsig
