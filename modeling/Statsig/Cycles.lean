import Statsig.ThreadPool
import Mathlib.Data.List.Nodup

/-!
# The counter of the thread pool

`completed_count_` is what `Shutdown` decides by: it waits until the counter says that as many
workers have left as there are threads.

The counter belongs to the pool and is cleared by `Reset` alone, while the threads are given up by
every `Shutdown`.  `accounted_iff` says in which runs it counts the workers among the threads that
have left, throughout; `reliable_of_orderly` says in which runs the results of `Shutdown` are right
all the same.
-/

set_option autoImplicit false

namespace Statsig

/-- `Shutdown` is in progress. -/
def PoolCall.IsShutdown : PoolCall → Prop
  | .notifying => True
  | .polling => True
  | .checking => True
  | .joining => True
  | _ => False

namespace ThreadPool

variable {s t : ThreadPool} {a : PoolLabel}

/-! ## The law -/

/-- The number of workers among the threads that have left. -/
def exitedCount (s : ThreadPool) : ℕ := s.threads.countP fun i ↦ s.At i .exited

/-- The counter is right. -/
def Law (s : ThreadPool) : Prop := s.completedCount = s.exitedCount

instance (s : ThreadPool) : Decidable s.Law := inferInstanceAs (Decidable (_ = _))

/-- What the step returns, where `Shutdown` returns with it. -/
def returns (s : ThreadPool) : PoolLabel → Option Bool
  | .call _ =>
    match s.call with
    | .checking => if s.completedCount = s.threads.length then none else some false
    | .joining => if s.Joinable then some true else none
    | _ => none
  | _ => none

theorem returns_cases {graceful : Bool} (h : s.returns a = some graceful) :
    ∃ expired, a = .call expired ∧
      ((graceful = false ∧ s.call = .checking ∧ s.completedCount ≠ s.threads.length) ∨
        (graceful = true ∧ s.call = .joining ∧ s.Joinable)) := by
  cases a with
  | call expired =>
    refine ⟨expired, rfl, ?_⟩
    simp only [returns] at h
    split at h
    · split at h
      · exact absurd h (by simp)
      · exact .inl ⟨(Option.some_inj.mp h).symm, ‹_›, ‹_›⟩
    · split at h
      · exact .inr ⟨(Option.some_inj.mp h).symm, ‹_›, ‹_›⟩
      · exact absurd h (by simp)
    · exact absurd h (by simp)
  | _ => exact absurd h (by simp [returns])

theorem step_of_returns {graceful : Bool} (h : s.returns a = some graceful) :
    step s a = some (s.endShutdown graceful) := by
  obtain ⟨expired, rfl, ⟨rfl, hcall, hcount⟩ | ⟨rfl, hcall, hjoinable⟩⟩ := returns_cases h
  · simp [step, stepCall, hcall, hcount]
  · simp [step, stepCall, hcall, hjoinable]

/-- `Shutdown` returns `false` only if one of the pool's workers is there, and `true` only if no
worker is that was ever created. -/
def ReturnsRight (s : ThreadPool) : Bool → Prop
  | false => ∃ i ∈ s.threads, ¬ s.At i .exited
  | true => ∀ worker ∈ s.workers, worker = .exited

instance (s : ThreadPool) : ∀ graceful, Decidable (s.ReturnsRight graceful)
  | false => inferInstanceAs (Decidable (∃ i ∈ s.threads, ¬ s.At i .exited))
  | true => inferInstanceAs (Decidable (∀ worker ∈ s.workers, worker = .exited))

/-- The step is defined, leads to a state with the right count, and returns what it should. -/
structure Accounted (s : ThreadPool) (a : PoolLabel) : Prop where
  defined : ∀ t, step s a = some t → t.Defined
  law : ∀ t, step s a = some t → t.Law
  returns : ∀ graceful, s.returns a = some graceful → s.ReturnsRight graceful

instance (s : ThreadPool) (a : PoolLabel) : Decidable (s.Accounted a) :=
  decidable_of_iff
    ((∀ t ∈ step s a, t.Defined ∧ t.Law) ∧ ∀ graceful ∈ s.returns a, s.ReturnsRight graceful)
    ⟨fun h ↦ ⟨fun t ht ↦ (h.1 t ht).1, fun t ht ↦ (h.1 t ht).2, h.2⟩,
     fun h ↦ ⟨fun t ht ↦ ⟨h.defined t ht, h.law t ht⟩, h.returns⟩⟩

/-- A worker that leaves is one of the threads, and when the threads are given up none of them has
left; a shutdown only succeeds on a pool that never had a worker. -/
def KeepsCount (s : ThreadPool) : PoolLabel → Prop
  | .exit i => (∃ count, s.At i (.counted count)) → i ∈ s.threads
  | .call _ =>
    match s.call with
    | .checking => ¬ s.Joinable → ∀ i ∈ s.threads, ¬ s.At i .exited
    | .joining => s.Joinable → s.workers = []
    | _ => True
  | _ => True

/-- The count is kept, and a worker that was let out of its wait by a pool that was stopped does not
find it started again with nothing in the queue. -/
structure Accountable (s : ThreadPool) (a : PoolLabel) : Prop where
  count : s.KeepsCount a
  pops : s.PopsTask a

/-! ## Who has left -/

/-- The threads are threads of different workers, one worker at a time holds the mutex, and what it
has read from the counter is still there, unless the pool was restarted since. -/
structure WellFormed (s : ThreadPool) : Prop where
  nodup : s.threads.Nodup
  created : ∀ i ∈ s.threads, i < s.workers.length
  exclusive : s.Exclusive
  counted : ∀ ⦃i count : ℕ⦄, s.At i (.counted count) →
    s.completedCount = count ∨ s.completedCount = 0 ∧ i ∉ s.threads

theorem wellFormed_init : WellFormed {} where
  nodup := List.nodup_nil
  created := by simp
  exclusive := fun i j worker other hi ↦ by simp [At] at hi
  counted := fun i count hi ↦ by simp [At] at hi

/-- The worker that is about to store the counter is the only one. -/
theorem WellFormed.not_counted (hs : s.WellFormed) {i j count : ℕ} {worker : Worker}
    (hworker : s.At i worker) (hholds : worker.HoldsMutex) (hij : j ≠ i) :
    ¬ s.At j (.counted count) :=
  fun hj ↦ hij (hs.exclusive hj hworker trivial hholds)

theorem WellFormed.setWorker {i : ℕ} {old new : Worker} (hs : s.WellFormed)
    (hexclusive : t.Exclusive) (hworker : s.At i old) (hworkers : t.workers = s.workers.set i new)
    (hthreads : t.threads = s.threads)
    (hcount : t.completedCount = s.completedCount ∨ old.HoldsMutex)
    (hnew : ∀ count, new = .counted count → t.completedCount = count) : t.WellFormed := by
  refine ⟨hthreads ▸ hs.nodup, ?_, hexclusive, fun j count hj ↦ ?_⟩
  · rw [hthreads, hworkers, List.length_set]
    exact hs.created
  · rw [At, hworkers, Slots.getElem?_set_eq_some_iff hworker] at hj
    rcases hj with ⟨rfl, hcounted⟩ | ⟨hij, hj⟩
    · exact .inl (hnew count hcounted.symm)
    · rw [hthreads]
      rcases hcount with hsame | hold
      · rw [hsame]
        exact hs.counted hj
      · exact absurd hj (hs.not_counted hworker hold hij)

theorem wellFormed_step (hs : s.WellFormed) (h : step s a = some t) : t.WellFormed := by
  have hexclusive := exclusive_step hs.exclusive h
  cases Step.of_step h with
  | reset hcall hrunning =>
    exact ⟨List.nodup_nil, by simp, hexclusive, fun _ _ _ ↦ .inr ⟨rfl, by simp⟩⟩
  | create hcall =>
    refine ⟨?_, ?_, hexclusive, fun i count hi ↦ ?_⟩
    · refine List.nodup_append.mpr ⟨hs.nodup, by simp, ?_⟩
      intro i hi j hj
      obtain rfl := List.mem_singleton.mp hj
      exact Nat.ne_of_lt (hs.created i hi)
    · refine Slots.forall_mem_append_singleton (fun i hi ↦ ?_) ?_
      · have hi := hs.created i hi
        simp only [createThread, List.length_append, List.length_singleton]
        omega
      · simp [createThread]
    · rw [At, createThread, List.getElem?_append] at hi
      split at hi
      · rename_i hlt
        refine (hs.counted hi).imp_right fun hzero ↦ ⟨hzero.1, fun hmem ↦ ?_⟩
        rcases List.mem_append.mp hmem with hmem | hmem
        · exact hzero.2 hmem
        · exact absurd (List.mem_singleton.mp hmem) (Nat.ne_of_lt hlt)
      · exact absurd (List.mem_of_getElem? hi) (by simp)
  | notify hcall =>
    refine ⟨hs.nodup, by simpa using hs.created, hexclusive, fun i count hi ↦ ?_⟩
    rw [At, List.getElem?_map, Option.map_eq_some_iff] at hi
    obtain ⟨worker, hworker, hnotify⟩ := hi
    cases worker <;> simp [Worker.notify] at hnotify
    exact hs.counted (hnotify ▸ hworker)
  | detach _ _ | join _ _ =>
    refine ⟨List.nodup_nil, by simp [endShutdown], hexclusive, fun i count hi ↦ ?_⟩
    exact (hs.counted hi).imp_right fun hzero ↦ ⟨hzero.1, by simp [endShutdown]⟩
  | addWaking _ hworker | decide _ hworker _ _ | admits _ hworker _ | pop hworker _
  | leave hworker _ _ | popEmpty hworker _ _ | block hworker | wake hworker | finish hworker =>
    exact hs.setWorker hexclusive hworker rfl rfl (.inl rfl) (by simp)
  | count hworker =>
    exact hs.setWorker hexclusive hworker rfl rfl (.inl rfl) (by simp [ThreadPool.setWorker])
  | exit hworker =>
    exact hs.setWorker hexclusive hworker rfl rfl (.inr trivial) (by simp)
  | _ => exact ⟨hs.nodup, hs.created, hexclusive, hs.counted⟩

theorem at_exited_set {i : ℕ} {old new : Worker} (hworker : s.At i old) (hold : old ≠ .exited)
    (hnew : new ≠ .exited) (hworkers : t.workers = s.workers.set i new) (j : ℕ) :
    t.At j .exited ↔ s.At j .exited := by
  rw [At, At, hworkers, Slots.getElem?_set_eq_some_iff hworker]
  constructor
  · rintro (⟨-, heq⟩ | ⟨-, hat⟩)
    · exact absurd heq.symm hnew
    · exact hat
  · intro hat
    refine .inr ⟨?_, hat⟩
    rintro rfl
    exact hold (Option.some_inj.mp (hworker.symm.trans hat))

theorem at_exited_notify (hworkers : t.workers = s.workers.map Worker.notify) (i : ℕ) :
    t.At i .exited ↔ s.At i .exited := by
  rw [At, At, hworkers, List.getElem?_map, Option.map_eq_some_iff]
  constructor
  · rintro ⟨worker, hworker, hnotify⟩
    cases worker <;> simp [Worker.notify] at hnotify
    exact hworker
  · intro hworker
    exact ⟨_, hworker, rfl⟩

theorem at_exited_exit {i count : ℕ} (hworker : s.At i (.counted count)) (j : ℕ) :
    (s.exit i count).At j .exited ↔ j = i ∨ s.At j .exited := by
  rw [At, exit, ThreadPool.setWorker, Slots.getElem?_set_eq_some_iff hworker, At]
  by_cases hij : j = i <;> simp [hij]

theorem at_exited_createThread (i : ℕ) : s.createThread.At i .exited ↔ s.At i .exited := by
  rw [At, At, createThread, List.getElem?_append]
  split
  · rfl
  · rename_i hlast
    rw [List.getElem?_eq_none (Nat.not_lt.mp hlast), List.getElem?_singleton]
    split <;> simp

theorem exitedCount_congr (hthreads : t.threads = s.threads)
    (h : ∀ i, t.At i .exited ↔ s.At i .exited) : t.exitedCount = s.exitedCount := by
  rw [exitedCount, exitedCount, hthreads]
  exact List.countP_congr fun i _ ↦ by simpa using h i

/-- A worker that leaves counts once for each of its threads. -/
theorem exitedCount_exit {i count : ℕ} (hworker : s.At i (.counted count)) :
    (s.exit i count).exitedCount = s.exitedCount + s.threads.count i := by
  have hready : ¬ s.At i .exited := fun hat ↦
    absurd (Option.some_inj.mp (hworker.symm.trans hat)) (by simp)
  refine Slots.countP_eq_add_count (by simpa using hready)
    (by simp [at_exited_exit hworker]) (fun j hij ↦ ?_) _
  simp [at_exited_exit hworker, hij]

theorem exitedCount_createThread : s.createThread.exitedCount = s.exitedCount := by
  have hnew : ¬ s.At s.workers.length .exited := by
    simp [At]
  simp only [exitedCount, at_exited_createThread]
  show (s.threads ++ [s.workers.length]).countP (fun i ↦ s.At i .exited) = _
  simp [List.countP_append, hnew]

/-- Giving up the threads leaves the counter right if it was at zero. -/
theorem law_endShutdown {graceful : Bool} (hlaw : s.Law) :
    (s.endShutdown graceful).Law ↔ ∀ i ∈ s.threads, ¬ s.At i .exited := by
  have hzero : s.exitedCount = 0 ↔ ∀ i ∈ s.threads, ¬ s.At i .exited := by
    rw [exitedCount, List.countP_eq_zero]
    simp
  rw [← hzero, ← hlaw]
  rfl

theorem Law.joinable_iff (hlaw : s.Law) : s.Joinable ↔ s.completedCount = s.threads.length := by
  rw [hlaw, exitedCount, List.countP_eq_length]
  simp [Joinable]

/-! ## When the counter is right throughout -/

theorem law_step (hs : s.WellFormed) (hlaw : s.Law) (hok : s.KeepsCount a)
    (h : step s a = some t) : t.Law := by
  have hset : ∀ {i : ℕ} {old new : Worker}, s.At i old → old ≠ .exited → new ≠ .exited →
      t.workers = s.workers.set i new → t.threads = s.threads →
      t.completedCount = s.completedCount → t.Law := by
    intro i old new hworker hold hnew hworkers hthreads hcount
    rw [Law, hcount, exitedCount_congr hthreads (at_exited_set hworker hold hnew hworkers)]
    exact hlaw
  cases Step.of_step h with
  | reset hcall hrunning => rfl
  | create hcall => exact hlaw.trans exitedCount_createThread.symm
  | notify hcall =>
    refine hlaw.trans (Eq.symm ?_)
    exact exitedCount_congr rfl (at_exited_notify rfl)
  | detach hcall hcount =>
    rw [law_endShutdown hlaw]
    simp only [KeepsCount, hcall] at hok
    exact hok (mt hlaw.joinable_iff.mp hcount)
  | join hcall hjoinable =>
    rw [law_endShutdown hlaw]
    simp only [KeepsCount, hcall] at hok
    intro i hi
    exact absurd (hs.created i hi) (by simp [hok hjoinable])
  | addWaking _ hworker | decide _ hworker _ _ | admits _ hworker _ | pop hworker _
  | leave hworker _ _ | popEmpty hworker _ _ | count hworker | block hworker | wake hworker
  | finish hworker => exact hset hworker (by simp) (by simp) rfl rfl rfl
  | @exit i count hworker =>
    have hmem : i ∈ s.threads := hok ⟨count, hworker⟩
    have hcount : s.completedCount = count :=
      (hs.counted hworker).resolve_right fun hzero ↦ hzero.2 hmem
    rw [Law, exitedCount_exit hworker, List.count_eq_one_of_mem hs.nodup hmem, ← hlaw, hcount]
    rfl
  | _ => exact hlaw

theorem Law.returnsRight_false (hlaw : s.Law) (hcount : s.completedCount ≠ s.threads.length) :
    s.ReturnsRight false := by
  simpa [ReturnsRight, Joinable] using mt hlaw.joinable_iff.mp hcount

theorem accounted_of_accountable (hs : s.WellFormed) (hdefined : s.Defined) (hlaw : s.Law)
    (hok : s.Accountable a) : s.Accounted a := by
  refine ⟨fun t h ↦ defined_step hdefined hok.pops h, fun t h ↦ law_step hs hlaw hok.count h,
    fun graceful h ↦ ?_⟩
  obtain ⟨expired, rfl, ⟨rfl, hcall, hcount⟩ | ⟨rfl, hcall, hjoinable⟩⟩ := returns_cases h
  · exact hlaw.returnsRight_false hcount
  · have hkept := hok.count
    simp only [KeepsCount, hcall] at hkept
    simp [ReturnsRight, hkept hjoinable]

/-- `Reset` clears no threads: a pool that is off and not being shut down has none. -/
structure Emptied (s : ThreadPool) : Prop where
  idle : s.call = .idle → s.isRunning = false → s.threads = []
  creating : ∀ left, s.call = .creating left → s.isRunning = true

theorem emptied_step (hs : s.Emptied) (h : step s a = some t) : t.Emptied := by
  cases Step.of_step h with
  | resetIgnored _ _ | poll _ => exact hs
  | start hcall => exact ⟨by simp, fun _ _ ↦ rfl⟩
  | started hcall =>
    exact ⟨fun _ hoff ↦ absurd (hoff.symm.trans (hs.creating 0 hcall)) (by simp), by simp⟩
  | create hcall => exact ⟨by simp, fun _ _ ↦ hs.creating _ hcall⟩
  | detach _ _ | join _ _ => exact ⟨fun _ _ ↦ rfl, by simp [endShutdown]⟩
  | add _ _ | addWaking _ _ | decide _ _ _ _ | admits _ _ _ | pop _ _ | leave _ _ _
  | popEmpty _ _ _ | count _ | exit _ | block _ | wake _ | finish _ =>
    exact ⟨hs.idle, hs.creating⟩
  | _ => exact ⟨by simp, by simp⟩

/-- All workers that have left are among the threads. -/
def KeepsExited (s : ThreadPool) : Prop := ∀ i, s.At i .exited → i ∈ s.threads

theorem keepsExited_step (hempty : s.Emptied) (hs : s.KeepsExited) (hlaw : s.Law)
    (hok : s.KeepsCount a) (h : step s a = some t) : t.KeepsExited := by
  have hset : ∀ {i : ℕ} {old new : Worker}, s.At i old → old ≠ .exited → new ≠ .exited →
      t.workers = s.workers.set i new → t.threads = s.threads → t.KeepsExited := by
    intro i old new hworker hold hnew hworkers hthreads j hexited
    rw [hthreads]
    exact hs j ((at_exited_set hworker hold hnew hworkers j).mp hexited)
  cases Step.of_step h with
  | reset hcall hrunning =>
    intro i hexited
    have hmem := hs i hexited
    rwa [hempty.idle hcall hrunning] at hmem
  | create hcall =>
    intro i hexited
    exact List.mem_append_left _ (hs i ((at_exited_createThread i).mp hexited))
  | notify hcall => exact fun i hexited ↦ hs i ((at_exited_notify rfl i).mp hexited)
  | detach hcall hcount =>
    simp only [KeepsCount, hcall] at hok
    exact fun i hexited ↦
      absurd hexited (hok (mt hlaw.joinable_iff.mp hcount) i (hs i hexited))
  | join hcall hjoinable =>
    simp only [KeepsCount, hcall] at hok
    intro i hexited
    exact absurd (List.mem_of_getElem? hexited) (by simp [endShutdown, hok hjoinable])
  | addWaking _ hworker | decide _ hworker _ _ | admits _ hworker _ | pop hworker _
  | leave hworker _ _ | popEmpty hworker _ _ | count hworker | block hworker | wake hworker
  | finish hworker => exact hset hworker (by simp) (by simp) rfl rfl
  | exit hworker =>
    intro j hexited
    rcases (at_exited_exit hworker j).mp hexited with rfl | hexited
    · exact hok ⟨_, hworker⟩
    · exact hs j hexited
  | _ => exact hs

theorem keepsCount_of_accounted (hs : s.WellFormed) (hkept : s.KeepsExited) (hlaw : s.Law)
    (h : s.Accounted a) : s.KeepsCount a := by
  cases a with
  | exit i =>
    rintro ⟨count, hworker⟩
    have hexit : step s (.exit i) = some (s.exit i count) := by
      rw [step, show s.workers[i]? = some (.counted count) from hworker]
    have hcount : count + 1 = s.exitedCount + s.threads.count i :=
      exitedCount_exit hworker ▸ h.law _ hexit
    rw [← hlaw] at hcount
    -- the counter is what the worker has read, or zero: one more is only right if it counts
    refine List.count_pos_iff.mp ?_
    rcases hs.counted hworker with hread | ⟨hzero, -⟩ <;> omega
  | call expired =>
    simp only [KeepsCount]
    split
    · rename_i hcall
      intro hbusy
      have hreturned : s.returns (.call expired) = some false := by
        simp [returns, hcall, mt hlaw.joinable_iff.mpr hbusy]
      exact (law_endShutdown hlaw).mp (h.law _ (step_of_returns hreturned))
    · rename_i hcall
      intro hjoinable
      have hreturned : s.returns (.call expired) = some true := by
        simp [returns, hcall, hjoinable]
      have hnone := (law_endShutdown hlaw).mp (h.law _ (step_of_returns hreturned))
      -- a worker that was ever there has left, and is one of the threads
      refine List.eq_nil_iff_forall_not_mem.mpr fun worker hworker ↦ ?_
      obtain ⟨i, hi⟩ := List.mem_iff_getElem?.mp hworker
      rw [h.returns true hreturned worker hworker] at hi
      exact hnone i (hkept i hi) hi
    · trivial
  | _ => trivial

theorem popsTask_of_accounted (h : s.Accounted a) : s.PopsTask a := by
  cases a with
  | test i =>
    intro hworker hrunning htasks
    have hpop : step s (.test i) = some (s.setWorker i .undefined) := by
      simp [step, hworker, test, hrunning, htasks, pop]
    have hi := (List.getElem?_eq_some_iff.mp hworker).1
    exact h.defined _ hpop .undefined (List.mem_set hi _) rfl
  | _ => trivial

/-- **When the counter is right throughout**, nothing undefined happens, and `Shutdown` returns what
it should: in the runs in which every worker that leaves is one of the threads, `Shutdown` gives up
no thread of a worker that has left and joins the threads only of a pool that never had a worker,
and no worker that a stopped pool let out of its wait finds it started again with an empty queue. -/
theorem accounted_iff (labels : List PoolLabel) :
    Machine.AllSteps step Accounted {} labels ↔ Machine.AllSteps step Accountable {} labels := by
  refine Machine.allSteps_congr
    (I := fun s ↦ s.WellFormed ∧ s.Defined ∧ s.Emptied ∧ s.KeepsExited ∧ s.Law) ?_ ?_
    ⟨wellFormed_init, by simp [Defined], ⟨fun _ _ ↦ rfl, by simp⟩, by simp [KeepsExited, At], rfl⟩
  · rintro s t a ⟨hwf, -, hempty, hkept, hlaw⟩ hok h
    exact ⟨wellFormed_step hwf h, hok.defined t h, emptied_step hempty h,
      keepsExited_step hempty hkept hlaw (keepsCount_of_accounted hwf hkept hlaw hok) h,
      hok.law t h⟩
  · rintro s a ⟨hwf, hdefined, -, hkept, hlaw⟩
    exact ⟨fun hok ↦ ⟨keepsCount_of_accounted hwf hkept hlaw hok, popsTask_of_accounted hok⟩,
      accounted_of_accountable hwf hdefined hlaw⟩

/-- A pool that is shut down, and shut down again. -/
def twice : List PoolLabel :=
  [.reset 1, .call false, .call false, .call false,
   .shutdown, .call false, .enter 0, .test 0, .count 0, .exit 0, .call false, .call false,
   .call false, .shutdown, .call false, .call true, .call true]

/-- The first shutdown leaves the counter at one, and the second fails for want of a worker. -/
theorem not_forall_allSteps_accounted :
    ¬ ∀ labels, Machine.AllSteps step Accounted {} labels := by
  intro h
  exact absurd (h twice) (by decide)

/-! ## When the results are right -/

/-- The pool is restarted when all its workers have left, and only shut down while it runs. -/
def Orderly (s : ThreadPool) : PoolLabel → Prop
  | .reset _ => s.isRunning = false → ∀ worker ∈ s.workers, worker = .exited
  | .shutdown => s.isRunning = true
  | _ => True

/-- The threads have been given up. -/
structure Down (s : ThreadPool) : Prop where
  threads : s.threads = []
  call : s.call = .idle
  stopped : s.isRunning = false

/-- All workers that have not left are threads, the counter is right, and a worker is only past its
wait for a reason that still holds. -/
structure Up (s : ThreadPool) : Prop where
  law : s.Law
  kept : ∀ i < s.workers.length, i ∉ s.threads → s.At i .exited
  stopped : s.call.IsShutdown → s.isRunning = false
  gone : ∀ n, s.call = .starting n → ∀ worker ∈ s.workers, worker = .exited
  admitted : ∀ i, s.At i .admitted → s.isRunning = false ∨ s.tasks ≠ []

theorem Up.mem_threads {i : ℕ} {worker : Worker} (hs : s.Up) (hworker : s.At i worker)
    (hne : worker ≠ .exited) : i ∈ s.threads := by
  by_contra hi
  have hlt := (List.getElem?_eq_some_iff.mp hworker).1
  exact hne (Option.some_inj.mp (hworker.symm.trans (hs.kept i hlt hi)))

theorem Up.returnsRight (hs : s.Up) {graceful : Bool} (h : s.returns a = some graceful) :
    s.ReturnsRight graceful := by
  obtain ⟨expired, rfl, ⟨rfl, hcall, hcount⟩ | ⟨rfl, hcall, hjoinable⟩⟩ := returns_cases h
  · exact hs.law.returnsRight_false hcount
  · intro worker hworker
    obtain ⟨i, hi⟩ := List.mem_iff_getElem?.mp hworker
    by_contra hne
    have hexited := hjoinable i (hs.mem_threads hi hne)
    exact hne (Option.some_inj.mp (hi.symm.trans hexited))

theorem Up.popsTask (hs : s.Up) : s.PopsTask a := by
  cases a with
  | test i =>
    intro hworker hrunning
    exact (hs.admitted i hworker).resolve_left (by simp [hrunning])
  | _ => trivial

theorem Up.ofCall (hs : s.Up) (hlaw : t.Law) (hworkers : t.workers = s.workers)
    (hthreads : t.threads = s.threads) (htasks : t.tasks = s.tasks)
    (hstopped : t.call.IsShutdown → t.isRunning = false) (hcall : ∀ n, t.call ≠ .starting n)
    (hrunning : t.isRunning = s.isRunning ∨ t.isRunning = false) : t.Up where
  law := hlaw
  kept i hi hout := by
    rw [hworkers] at hi
    rw [hthreads] at hout
    rw [At, hworkers]
    exact hs.kept i hi hout
  stopped := hstopped
  gone n hstarting := absurd hstarting (hcall n)
  admitted i hi := by
    rw [At, hworkers] at hi
    rw [htasks]
    rcases hrunning with hsame | hoff
    · rw [hsame]
      exact hs.admitted i hi
    · exact .inl hoff

theorem Up.setWorker {i : ℕ} {old new : Worker} (hs : s.Up) (hlaw : t.Law) (hworker : s.At i old)
    (hold : old ≠ .exited) (hworkers : t.workers = s.workers.set i new)
    (hthreads : t.threads = s.threads) (hrunning : t.isRunning = s.isRunning)
    (hcall : t.call = s.call)
    (hadmitted : ∀ j, t.At j .admitted → t.isRunning = false ∨ t.tasks ≠ []) : t.Up where
  law := hlaw
  kept j hj hout := by
    rw [hworkers, List.length_set] at hj
    rw [hthreads] at hout
    have hexited := hs.kept j hj hout
    rw [At, hworkers, Slots.getElem?_set_eq_some_iff hworker]
    refine .inr ⟨?_, hexited⟩
    rintro rfl
    exact hout (hs.mem_threads hworker hold)
  stopped := by
    rw [hcall, hrunning]
    exact hs.stopped
  gone n hstarting :=
    absurd (hs.gone n (hcall ▸ hstarting) old (List.mem_of_getElem? hworker)) hold
  admitted := hadmitted

theorem Up.admitted_set {i : ℕ} {old new : Worker} (hs : s.Up) (hworker : s.At i old)
    (hnew : new ≠ .admitted) (hworkers : t.workers = s.workers.set i new)
    (hrunning : t.isRunning = s.isRunning) (htasks : t.tasks = s.tasks) :
    ∀ j, t.At j .admitted → t.isRunning = false ∨ t.tasks ≠ [] := by
  intro j hj
  rw [hrunning, htasks]
  exact hs.admitted j (at_of_set hworker hworkers hnew.symm hj).2

theorem up_reset {numThreads : ℕ} (hrunning : s.isRunning = false)
    (hgone : ∀ worker ∈ s.workers, worker = .exited) :
    Up { s with threads := [], completedCount := 0, call := .starting numThreads } where
  law := rfl
  kept i hi _ := by
    rw [At, List.getElem?_eq_getElem hi, hgone _ (List.getElem_mem hi)]
  stopped hcall := False.elim hcall
  gone _ _ := hgone
  admitted _ _ := .inl hrunning

theorem up_or_down_step (hwf : s.WellFormed) (hs : s.Down ∨ s.Up) (hok : s.Orderly a)
    (h : step s a = some t) : t.Down ∨ t.Up := by
  rcases hs with hs | hs
  · obtain ⟨hthreads, hidle, hstopped⟩ := hs
    cases Step.of_step h with
    | reset hcall hrunning => exact .inr (up_reset hrunning (hok hrunning))
    | shutdown hcall => exact absurd (hstopped.symm.trans hok) (by simp)
    | _ =>
      first
      | exact .inl ⟨hthreads, hidle, hstopped⟩
      | exact absurd (hidle.symm.trans ‹s.call = _›) (by simp)
  · have hlaw : s.KeepsCount a → t.Law := fun hok ↦ law_step hwf hs.law hok h
    cases Step.of_step h with
    | resetIgnored _ _ | poll _ => exact .inr hs
    | reset hcall hrunning => exact .inr (up_reset hrunning (hok hrunning))
    | shutdown hcall =>
      exact .inr (hs.ofCall hs.law rfl rfl rfl (fun _ ↦ rfl) (by simp) (.inr rfl))
    | start hcall =>
      refine .inr ⟨hs.law, hs.kept, fun hcall ↦ hcall.elim, by simp, fun i hi ↦ ?_⟩
      exact absurd (hs.gone _ hcall _ (List.mem_of_getElem? hi)) (by simp)
    | started hcall =>
      exact .inr (hs.ofCall hs.law rfl rfl rfl (fun hcall ↦ hcall.elim) (by simp) (.inl rfl))
    | create hcall =>
      refine .inr ⟨hlaw (by simp [KeepsCount, hcall]), fun i hi hout ↦ ?_,
        fun hcall ↦ hcall.elim, by simp, fun i hi ↦ hs.admitted i ?_⟩
      · simp only [createThread, List.length_append, List.length_singleton, List.mem_append,
          List.mem_singleton, not_or] at hi hout
        exact (at_exited_createThread i).mpr (hs.kept i (by omega) hout.1)
      · rw [At, createThread, List.getElem?_append] at hi
        split at hi
        · exact hi
        · exact absurd (List.mem_of_getElem? hi) (by simp)
    | notify hcall =>
      refine .inr ⟨hlaw (by simp [KeepsCount, hcall]), fun i hi hout ↦ ?_,
        fun _ ↦ hs.stopped (by rw [hcall]; trivial), by simp, fun i hi ↦ ?_⟩
      · exact (at_exited_notify rfl i).mpr (hs.kept i (by simpa using hi) hout)
      · exact .inl (hs.stopped (by rw [hcall]; trivial))
    | polled hcall | checked hcall _ =>
      have hoff := hs.stopped (by rw [hcall]; trivial)
      exact .inr (hs.ofCall hs.law rfl rfl rfl (fun _ ↦ hoff) (by simp) (.inl rfl))
    | detach hcall _ | join hcall _ => exact .inl ⟨rfl, rfl, hs.stopped (by rw [hcall]; trivial)⟩
    | add hmutex hnone =>
      exact .inr ⟨hs.law, hs.kept, hs.stopped, hs.gone, fun _ _ ↦ .inr (by simp)⟩
    | addWaking _ hworker =>
      exact .inr (hs.setWorker (hlaw trivial) hworker (by simp) rfl rfl rfl rfl
        fun _ _ ↦ .inr (by simp))
    | admits _ hworker hpredicate =>
      exact .inr (hs.setWorker (hlaw trivial) hworker (by simp) rfl rfl rfl rfl
        fun _ _ ↦ hpredicate)
    | pop hworker htasks =>
      refine .inr (hs.setWorker (hlaw trivial) hworker (by simp) rfl rfl rfl rfl fun j hj ↦ ?_)
      obtain ⟨hne, hj⟩ := at_of_set hworker rfl (by simp) hj
      exact absurd (hwf.exclusive hj hworker trivial trivial) hne
    | decide _ hworker _ _ | leave hworker _ _ | popEmpty hworker _ _ | count hworker
    | block hworker | wake hworker | finish hworker =>
      exact .inr (hs.setWorker (hlaw trivial) hworker (by simp) rfl rfl rfl rfl
        (hs.admitted_set hworker (by simp) rfl rfl rfl))
    | exit hworker =>
      have hmem := hs.mem_threads hworker (by simp)
      exact .inr (hs.setWorker (hlaw fun _ ↦ hmem) hworker (by simp) rfl rfl rfl rfl
        (hs.admitted_set hworker (by simp) rfl rfl rfl))

/-- While the pool has threads the counter is right, every result is, and every step is defined. -/
structure Reliable (s : ThreadPool) (a : PoolLabel) : Prop where
  law : s.threads ≠ [] → s.Law
  returns : ∀ graceful, s.returns a = some graceful → s.ReturnsRight graceful
  pops : s.PopsTask a

/-- **Orderly runs**: any number of cycles, and shutdowns that time out, as long as the pool is only
restarted when no worker is left, and only shut down while it runs. -/
theorem reliable_of_orderly {labels : List PoolLabel}
    (hok : Machine.AllSteps step Orderly {} labels) :
    Machine.AllSteps step Reliable {} labels := by
  refine hok.of_invariant (I := fun s ↦ s.WellFormed ∧ (s.Down ∨ s.Up)) ?_ ?_
    ⟨wellFormed_init, .inl ⟨rfl, rfl, rfl⟩⟩
  · intro s t a hs hok h
    exact ⟨wellFormed_step hs.1 h, up_or_down_step hs.1 hs.2 hok h⟩
  · intro s a hs _
    rcases hs.2 with hdown | hup
    · refine ⟨fun hthreads ↦ absurd hdown.threads hthreads, fun graceful h ↦ ?_, ?_⟩
      · have hnone : s.returns a = none := by
          cases a with
          | call expired => simp [returns, hdown.call]
          | _ => rfl
        exact absurd (hnone.symm.trans h) (by simp)
      · cases a with
        | test i => exact fun _ hrunning ↦ absurd (hdown.stopped.symm.trans hrunning) (by simp)
        | _ => trivial
    · exact ⟨fun _ ↦ hup.law, fun graceful h ↦ hup.returnsRight h, hup.popsTask⟩

end ThreadPool

end Statsig
