import Statsig.Client
import Statsig.Lib.Machine
import Statsig.Lib.Slots

/-!
# Whom does an update refresh?

`UpdateUserSync` and `UpdateUserAsync` queue a background task each, which calls `GetDataAsync`.
Both hand it the adapter's answer; only the asynchronous one hands it the user.  `refreshed_iff`
says what becomes of the other.
-/

set_option autoImplicit false

namespace Statsig

/-! ## The machine -/

/-- A call of `GetDataAsync`, with the number of the update whose task makes it. -/
structure Refresh where
  call : ℕ
  user : StatsigUser
  current : Option DataAdapterResult
  deriving DecidableEq, Repr

/-- A background task.  The user of its update is on record also where the task has not captured
it. -/
structure RefreshTask where
  call : ℕ
  initiator : Option StatsigUser
  current : Option DataAdapterResult
  user : StatsigUser
  deriving DecidableEq, Repr

/-- The refresh that the update of a task is to lead to. -/
def RefreshTask.due (task : RefreshTask) : Refresh :=
  { call := task.call, user := task.user, current := task.current }

/-- A client with its background tasks, the refreshes that its updates are to lead to, and those
that were made. -/
structure RefreshRun where
  ctx : ClientState
  adapter : DataAdapter
  tasks : List RefreshTask := []
  started : List Refresh := []
  refreshes : List Refresh := []
  deriving DecidableEq, Repr

/-- What can happen.  Fetches and files may change the store and the adapter at any time. -/
inductive RefreshLabel where
  | updateUser (kind : UpdateKind) (user : StatsigUser) (r : Rehash Str DataAdapterResult)
  | runTask (i : ℕ) (r : Rehash Str DataAdapterResult)
  | changed (store : EvaluationStore) (adapter : DataAdapter)

variable (p : Platform) (lib : JsonText)

namespace RefreshRun

/-- One step. -/
def step (s : RefreshRun) : RefreshLabel → Option RefreshRun
  | .updateUser kind user r =>
    let (result, ctx, adapter) :=
      match kind with
      | .sync => s.ctx.updateUserSync p lib r s.adapter user
      | .async => s.ctx.updateUserAsync p lib r s.adapter user
    let initiator :=
      match kind with
      | .sync => none
      | .async => some ctx.user
    let user := normalizeUser user s.ctx.options
    let call := s.started.length
    some { s with
      ctx
      adapter
      tasks := s.tasks ++ [{ call, initiator, current := result.value, user }]
      started := s.started ++
        [{ call, user, current := (s.adapter.getDataSync p lib r user).1.value }] }
  | .runTask i r =>
    (s.tasks[i]?).map fun task ↦
      let user := task.initiator.getD s.ctx.user
      { s with
        adapter := (s.adapter.currentFor p lib r user task.current).2
        tasks := s.tasks.eraseIdx i
        refreshes := s.refreshes ++ [{ call := task.call, user, current := task.current }] }
  | .changed store adapter => some { s with ctx := { s.ctx with store }, adapter }

/-- A task that looks for the user when it runs finds the one of its update. -/
def FindsUser (s : RefreshRun) : RefreshLabel → Prop
  | .runTask i _ => ∀ task ∈ s.tasks[i]?, task.initiator = none → s.ctx.user = task.user
  | .updateUser _ _ _ | .changed _ _ => True

instance (s : RefreshRun) : DecidablePred (FindsUser s)
  | .runTask i _ => inferInstanceAs (Decidable
      (∀ task ∈ s.tasks[i]?, task.initiator = none → s.ctx.user = task.user))
  | .updateUser _ _ _ | .changed _ _ => .isTrue trivial

/-! ## Invariants -/

/-- Every update has a task or a refresh, and a task has what its update has given it. -/
structure Inv (s : RefreshRun) : Prop where
  calls : (s.refreshes.map Refresh.call ++ s.tasks.map RefreshTask.call).Perm
    (List.range s.started.length)
  started : s.started.map Refresh.call = List.range s.started.length
  due : ∀ task ∈ s.tasks, task.due ∈ s.started ∧ ∀ user ∈ task.initiator, user = task.user

/-- No refresh has been made that no update was to lead to. -/
def Good (s : RefreshRun) : Prop := ∀ refresh ∈ s.refreshes, refresh ∈ s.started

/-- The task of an update, either kind, has what was recorded for the update. -/
theorem step_updateUser (s : RefreshRun) (kind : UpdateKind) (user : StatsigUser)
    (r : Rehash Str DataAdapterResult) :
    ∃ ctx adapter task, (∀ user ∈ task.initiator, user = task.user) ∧
      task.call = s.started.length ∧
      step p lib s (.updateUser kind user r) = some { s with
        ctx, adapter, tasks := s.tasks ++ [task], started := s.started ++ [task.due] } := by
  cases kind with
  | sync =>
    refine ⟨_, _, { call := s.started.length, initiator := none, current := _, user := _ },
      by simp, rfl, rfl⟩
  | async =>
    refine ⟨_, _, { call := s.started.length, initiator := some _, current := _, user := _ },
      ?_, rfl, rfl⟩
    intro user' huser
    rw [← Option.some_inj.mp huser]
    exact ClientState.user_beginUpdate p lib s.ctx user _

variable {p lib}

theorem Inv.call_lt {s : RefreshRun} (hs : Inv s) {refresh : Refresh}
    (h : refresh ∈ s.refreshes) : refresh.call < s.started.length :=
  List.mem_range.mp (hs.calls.mem_iff.mp
    (List.mem_append_left _ (List.mem_map.mpr ⟨refresh, h, rfl⟩)))

theorem Inv.eq_of_call {s : RefreshRun} (hs : Inv s) {refresh refresh' : Refresh}
    (h : refresh ∈ s.started) (h' : refresh' ∈ s.started) (hcall : refresh.call = refresh'.call) :
    refresh = refresh' :=
  List.inj_on_of_nodup_map (hs.started ▸ List.nodup_range) h h' hcall

theorem inv_step {s t : RefreshRun} {a : RefreshLabel} (hs : Inv s)
    (h : step p lib s a = some t) : Inv t := by
  cases a with
  | updateUser kind user r =>
    obtain ⟨ctx, adapter, task, htask, hcall, hstep⟩ := step_updateUser p lib s kind user r
    rw [hstep, Option.some_inj] at h
    subst h
    refine ⟨?_, ?_, ?_⟩
    · show (s.refreshes.map Refresh.call ++ (s.tasks ++ [task]).map RefreshTask.call).Perm
        (List.range (s.started ++ [task.due]).length)
      rw [List.length_append, List.length_singleton, List.range_succ, List.map_append,
        ← List.append_assoc, List.map_singleton, hcall]
      exact hs.calls.append_right _
    · show (s.started ++ [task.due]).map Refresh.call =
        List.range (s.started ++ [task.due]).length
      rw [List.length_append, List.length_singleton, List.range_succ, List.map_append, hs.started,
        List.map_singleton, RefreshTask.due, hcall]
    · refine Slots.forall_mem_append_singleton (fun task' htask' ↦ ?_) ⟨by simp, htask⟩
      exact ⟨List.mem_append_left _ (hs.due task' htask').1, (hs.due task' htask').2⟩
  | runTask i r =>
    obtain ⟨task, htask, rfl⟩ := Option.map_eq_some_iff.mp h
    refine ⟨?_, hs.started, Slots.forall_mem_eraseIdx hs.due⟩
    have hrest := ((Slots.perm_cons_eraseIdx htask).map RefreshTask.call).append_left
      (s.refreshes.map Refresh.call)
    simpa using hrest.symm.trans hs.calls
  | changed store adapter =>
    obtain rfl := Option.some_inj.mp h
    exact ⟨hs.calls, hs.started, hs.due⟩

/-- The refresh that a task makes is the one that is due if it finds the user of its update. -/
theorem good_runTask_iff {s t : RefreshRun} {i : ℕ} {r : Rehash Str DataAdapterResult}
    (hs : Inv s) (hgood : Good s) (h : step p lib s (.runTask i r) = some t) :
    FindsUser s (.runTask i r) ↔ Good t := by
  obtain ⟨task, htask, rfl⟩ := Option.map_eq_some_iff.mp h
  obtain ⟨hdue, hinitiator⟩ := hs.due task (List.mem_of_getElem? htask)
  have hmade : FindsUser s (.runTask i r) ↔ task.initiator.getD s.ctx.user = task.user := by
    simp only [FindsUser, htask, Option.mem_some_iff, forall_eq']
    cases hnone : task.initiator with
    | none => simp
    | some user => simp [hinitiator user hnone]
  rw [hmade]
  constructor
  · intro huser
    refine Slots.forall_mem_append_singleton hgood ?_
    rw [huser]
    exact hdue
  · intro h
    have hmem := h ⟨task.call, task.initiator.getD s.ctx.user, task.current⟩
      (List.mem_append_right _ List.mem_cons_self)
    exact congrArg Refresh.user (hs.eq_of_call hmem hdue rfl)

/-- A refresh that was not due stays one. -/
theorem not_good_step {s t : RefreshRun} {a : RefreshLabel} (hs : Inv s) (hbad : ¬ Good s)
    (h : step p lib s a = some t) : ¬ Good t := by
  rw [Good, not_forall] at hbad
  obtain ⟨refresh, hbad⟩ := hbad
  obtain ⟨hmade, hnot⟩ := Classical.not_imp.mp hbad
  cases a with
  | updateUser kind user r =>
    obtain ⟨ctx, adapter, task, -, hcall, hstep⟩ := step_updateUser p lib s kind user r
    rw [hstep, Option.some_inj] at h
    subst h
    intro hgood
    rcases List.mem_append.mp (hgood refresh hmade) with hold | hnew
    · exact hnot hold
    · have hlt := hs.call_lt hmade
      rw [List.mem_singleton.mp hnew, RefreshTask.due, hcall] at hlt
      exact absurd hlt (by simp)
  | runTask i r =>
    obtain ⟨task, htask, rfl⟩ := Option.map_eq_some_iff.mp h
    exact fun hgood ↦ hnot (hgood refresh (List.mem_append_left _ hmade))
  | changed store adapter =>
    obtain rfl := Option.some_inj.mp h
    exact fun hgood ↦ hnot (hgood refresh hmade)

theorem good_step_iff {s t : RefreshRun} {a : RefreshLabel} (hs : Inv s) (hgood : Good s)
    (h : step p lib s a = some t) : FindsUser s a ↔ Good t := by
  cases a with
  | updateUser kind user r =>
    obtain ⟨ctx, adapter, task, -, -, hstep⟩ := step_updateUser p lib s kind user r
    rw [hstep, Option.some_inj] at h
    subst h
    exact iff_of_true trivial fun refresh hmade ↦ List.mem_append_left _ (hgood refresh hmade)
  | runTask i r => exact good_runTask_iff hs hgood h
  | changed store adapter =>
    obtain rfl := Option.some_inj.mp h
    exact iff_of_true trivial hgood

theorem inv_init (ctx : ClientState) (adapter : DataAdapter) : Inv { ctx, adapter } :=
  ⟨by simp, by simp, by simp⟩

/-- When no task is left, all refreshes are due exactly if they are the refreshes that were due. -/
theorem Inv.good_iff_perm {s : RefreshRun} (hs : Inv s) (hidle : s.tasks = []) :
    Good s ↔ s.refreshes.Perm s.started := by
  refine ⟨fun hgood ↦ ?_, fun hperm _ hmade ↦ hperm.mem_iff.mp hmade⟩
  have hcalls := hs.calls
  rw [hidle, List.map_nil, List.append_nil] at hcalls
  have hnodup : s.refreshes.Nodup := (hcalls.nodup_iff.mpr List.nodup_range).of_map
  have hlength : s.refreshes.length = s.started.length := by
    simpa using hcalls.length_eq
  exact (hnodup.subperm hgood).perm_of_length_le hlength.ge

/-- **Whom the refreshes are for.**  Once all background tasks have run, the refreshes that were
made are those that the updates were to lead to, each for the update's user and with what the
adapter had for that user, exactly if every task of `UpdateUserSync` found the user of its
update. -/
theorem refreshed_iff {ctx : ClientState} {adapter : DataAdapter} {labels : List RefreshLabel}
    {s : RefreshRun} (hrun : Machine.run (step p lib) { ctx, adapter } labels = some s)
    (hidle : s.tasks = []) :
    Machine.AllSteps (step p lib) FindsUser { ctx, adapter } labels ↔
      s.refreshes.Perm s.started := by
  have hs : Inv s := Machine.invariant_of_run inv_step (inv_init ctx adapter) hrun
  rw [← hs.good_iff_perm hidle]
  exact Machine.allSteps_iff_good
    (fun hs hgood h ↦ ⟨inv_step hs h, good_step_iff hs hgood h⟩)
    (fun hs hbad h ↦ ⟨inv_step hs h, not_good_step hs hbad h⟩)
    (inv_init ctx adapter) (by simp [Good]) hrun

/-! ## Two users -/

/-- Two users. -/
def firstUser : StatsigUser := { userId := some (str "first") }
def secondUser : StatsigUser := { userId := some (str "second") }

/-- Both kinds of update, and their tasks in the other order. -/
def asyncThenSync : List RefreshLabel :=
  [.updateUser .async firstUser (Rehash.id _ _), .updateUser .sync secondUser (Rehash.id _ _),
   .runTask 1 (Rehash.id _ _), .runTask 0 (Rehash.id _ _)]

theorem refreshed_asyncThenSync :
    ∃ s, Machine.run (step .linux initializeResponse.twoTexts)
        { ctx := {}, adapter := { sdkKey := str "key" } } asyncThenSync = some s ∧
      s.refreshes.map Refresh.user = [secondUser, firstUser] ∧ s.refreshes.Perm s.started := by
  have hrun : (Machine.run (step .linux initializeResponse.twoTexts)
      { ctx := {}, adapter := { sdkKey := str "key" } } asyncThenSync).map
        (fun s ↦ (s.tasks, s.refreshes.map Refresh.user)) =
      some ([], [secondUser, firstUser]) := by
    decide +kernel
  obtain ⟨s, hs, hend⟩ := Option.map_eq_some_iff.mp hrun
  obtain ⟨hidle, husers⟩ := Prod.mk.inj hend
  exact ⟨s, hs, husers, (refreshed_iff hs hidle).mp (by decide +kernel)⟩

/-- Two synchronous updates before the first task runs: both tasks refresh the second user. -/
def syncTwice : List RefreshLabel :=
  [.updateUser .sync firstUser (Rehash.id _ _), .updateUser .sync secondUser (Rehash.id _ _),
   .runTask 0 (Rehash.id _ _), .runTask 0 (Rehash.id _ _)]

theorem not_forall_refreshed :
    ¬ ∀ (p : Platform) (lib : JsonText) (ctx : ClientState) (adapter : DataAdapter)
      (labels : List RefreshLabel) (s : RefreshRun),
      Machine.run (step p lib) { ctx, adapter } labels = some s → s.tasks = [] →
      s.refreshes.Perm s.started := by
  intro h
  have hrun : (Machine.run (step .linux initializeResponse.twoTexts)
      { ctx := {}, adapter := { sdkKey := str "key" } } syncTwice).map
        (fun s ↦ (s.tasks, decide (s.refreshes.Perm s.started))) = some ([], false) := by
    decide +kernel
  obtain ⟨s, hs, hend⟩ := Option.map_eq_some_iff.mp hrun
  obtain ⟨hidle, hperm⟩ := Prod.mk.inj hend
  exact of_decide_eq_false hperm (h _ _ _ _ _ s hs hidle)

end RefreshRun

end Statsig
