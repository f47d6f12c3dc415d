import Statsig.Fetching
import Statsig.Lib.Slots

/-!
# Is every caller called back?

`InitializeAsync` and `UpdateUserAsync` queue a task each, which fetches and calls back.  A client
may be initialised again at any time; the context it had is replaced, and lives on only as long as
some task is running that has locked it.

Calls of the file system may throw.  In the call itself `Capture` recovers by calling back, but the
store is left as it is; in the task nobody calls back, and an exception that nothing catches ends
the process.

`calledOnce_of_run` says which runs end with every caller called back exactly once.
-/

set_option autoImplicit false

namespace Statsig

/-! ## The machine -/

/-- A client, with every context it has had, the last one being the current one, the tasks that are
outstanding, the number of asynchronous calls, and a record of the callbacks. -/
structure Completion where
  contexts : List StatsigContext := []
  tasks : List FetchTask := []
  calls : ℕ := 0
  called : List (ℕ × StatsigResultCode) := []
  crashed : Bool := false
  deriving DecidableEq, Repr

/-- What can happen.  Steps that insert into the memory map say how it is rearranged, those that may
touch files say what throws, and the cache directory may change at any time. -/
inductive CompletionLabel where
  | initializeClient (kind : UpdateKind) (sdkKey : Str) (user : Option StatsigUser)
      (options : Option StatsigOptions) (network : NetworkService) (dir : CacheDir)
      (faults : FileFaults) (r : Rehash Str DataAdapterResult)
  | updateUser (kind : UpdateKind) (user : StatsigUser) (faults : FileFaults)
      (r : Rehash Str DataAdapterResult)
  | task (i : ℕ) (faults : FileFaults) (response : HttpResponse) (now : Int64)
      (r : Rehash Str DataAdapterResult)
  | filesChanged (g : ℕ) (dir : CacheDir)

variable (p : Platform) (lib : JsonText)

namespace Completion

/-- A task that is making a request has locked the context. -/
def holds (g : ℕ) (task : FetchTask) : Bool :=
  decide (task.ctx = g) && match task.stage with
    | .posted _ _ => true
    | _ => false

/-- A weak pointer to the context locks. -/
def live (s : Completion) (g : ℕ) : Bool :=
  decide (g + 1 = s.contexts.length) || s.tasks.any (holds g)

/-- The `i`-th task takes a step.  Only a task with a caller has anything to do at the end.  An
exception that leaves it ends the process, with all tasks. -/
def stepTask (s : Completion) (i : ℕ) (faults : FileFaults) (response : HttpResponse) (now : Int64)
    (r : Rehash Str DataAdapterResult) (task : FetchTask) (ctx : StatsigContext) : Completion :=
  match task.proceed p lib ctx (s.live task.ctx) faults response now r with
  | none => { s with tasks := [], crashed := true }
  | some (ctx, progress) =>
    match progress with
    | .waits task' =>
      { s with contexts := s.contexts.set task.ctx ctx, tasks := s.tasks.set i task' }
    | .returns user result =>
      match task.call with
      | none => { s with contexts := s.contexts.set task.ctx ctx, tasks := s.tasks.eraseIdx i }
      | some id =>
        { s with
          contexts := s.contexts.set task.ctx
            { ctx with toClientState := ctx.innerCallback p lib user result }
          tasks := s.tasks.eraseIdx i
          called := s.called ++ [(id, result.code)] }
    | .lost => { s with contexts := s.contexts.set task.ctx ctx, tasks := s.tasks.eraseIdx i }

/-- `GetDataSync` throws in an update of the context. -/
def readFails (ctx : StatsigContext) (user : StatsigUser) (faults : FileFaults) : Bool :=
  faults.evaluations && ctx.adapter.readsFile p (ctx.writeUser user).user

/-- An update of the current context, which is given with those before it.  When `GetDataSync`
throws, the store has been reset, and `Capture` calls back, if there is anybody to call. -/
def update (s : Completion) (older : List StatsigContext) (ctx : StatsigContext)
    (kind : UpdateKind) (user : StatsigUser) (faults : FileFaults)
    (r : Rehash Str DataAdapterResult) : Completion :=
  if readFails p ctx user faults then
    let contexts := older ++ [{ ctx with toClientState := (ctx.writeUser user).resetStore }]
    match kind with
    | .sync => { s with contexts }
    | .async =>
      { s with
        contexts
        calls := s.calls + 1
        called := s.called ++ [(s.calls, .unexpectedError)] }
  else
    match kind with
    | .sync =>
      let (result, client, adapter) := ctx.updateUserSync p lib r ctx.adapter user
      { s with
        contexts := older ++ [{ ctx with toClientState := client, adapter }]
        tasks := s.tasks ++
          [{ ctx := older.length, call := none, initiator := none, current := result.value }] }
    | .async =>
      let (result, client, adapter) := ctx.updateUserAsync p lib r ctx.adapter user
      { s with
        contexts := older ++ [{ ctx with toClientState := client, adapter }]
        tasks := s.tasks ++
          [{ ctx := older.length, call := some s.calls, initiator := some client.user
             current := result.value }]
        calls := s.calls + 1 }

/-- One step of a process that runs. -/
def act (s : Completion) : CompletionLabel → Option Completion
  | .initializeClient kind sdkKey user options network dir faults r =>
    if sdkKey = [] then
      match kind with
      | .sync => some s
      | .async => some { s with
          calls := s.calls + 1, called := s.called ++ [(s.calls, .invalidSdkKey)] }
    else
      let ctx := StatsigContext.create sdkKey user options network dir
      some (s.update p lib s.contexts ctx kind ctx.user faults r)
  | .updateUser kind user faults r =>
    match s.contexts.getLast? with
    | none =>
      match kind with
      | .sync => some s
      | .async => some { s with calls := s.calls + 1 }
    | some ctx => some (s.update p lib s.contexts.dropLast ctx kind user faults r)
  | .task i faults response now r =>
    (s.tasks[i]?).bind fun task ↦ (s.contexts[task.ctx]?).map fun ctx ↦
      s.stepTask p lib i faults response now r task ctx
  | .filesChanged g dir => (s.contexts[g]?).map fun ctx ↦ { s with
      contexts := s.contexts.set g { ctx with adapter := { ctx.adapter with dir } } }

/-- One step.  A process that has crashed takes none. -/
def step (s : Completion) (a : CompletionLabel) : Option Completion :=
  if s.crashed then none else act p lib s a

/-! ## The property and what it takes -/

/-- The process runs, and every caller has been called back once. -/
structure CalledBack (s : Completion) : Prop where
  running : s.crashed = false
  once : ∀ id < s.calls, (s.called.map Prod.fst).count id = 1

/-- Every caller has been called back once, and the current context's store is not loading. -/
structure CalledOnce (s : Completion) : Prop extends CalledBack s where
  settled : ∀ ctx ∈ s.contexts.getLast?, ctx.store.sourceInfo.source ≠ .loading

/-- A task with a caller is ready, and nothing that it does throws; what another does throws at most
where it is caught. -/
def Answers (s : Completion) (faults : FileFaults) (response : HttpResponse) (now : Int64)
    (task : FetchTask) (ctx : StatsigContext) : Prop :=
  let thrown := task.thrown p lib ctx (s.live task.ctx) faults response now
  (task.call ≠ none → task.Ready ctx (s.live task.ctx) ∧ thrown = none) ∧ thrown ≠ some .escapes

instance (s : Completion) (faults : FileFaults) (response : HttpResponse) (now : Int64)
    (task : FetchTask) (ctx : StatsigContext) :
    Decidable (s.Answers p lib faults response now task ctx) :=
  inferInstanceAs (Decidable ((_ → _ ∧ _) ∧ _))

/-- An update of a client that has been initialised, or a step of a task that can answer. -/
def Answerable (s : Completion) : CompletionLabel → Prop
  | .updateUser .async _ _ _ => s.contexts ≠ []
  | .task i faults response now _ => ∀ task ∈ s.tasks[i]?, ∀ ctx ∈ s.contexts[task.ctx]?,
      s.Answers p lib faults response now task ctx
  | _ => True

instance (s : Completion) (a : CompletionLabel) : Decidable (Answerable p lib s a) :=
  match a with
  | .updateUser .async _ _ _ => inferInstanceAs (Decidable (s.contexts ≠ []))
  | .task i faults response now _ => inferInstanceAs
      (Decidable (∀ task ∈ s.tasks[i]?, ∀ ctx ∈ s.contexts[task.ctx]?,
        s.Answers p lib faults response now task ctx))
  | .updateUser .sync _ _ _ | .initializeClient _ _ _ _ _ _ _ _ | .filesChanged _ _ =>
    .isTrue trivial

/-- In an update, `GetDataSync` does not throw. -/
def Reads (s : Completion) : CompletionLabel → Prop
  | .initializeClient _ sdkKey user options network dir faults _ =>
    let ctx := StatsigContext.create sdkKey user options network dir
    sdkKey ≠ [] → readFails p ctx ctx.user faults = false
  | .updateUser _ user faults _ => ∀ ctx ∈ s.contexts.getLast?,
      readFails p ctx user faults = false
  | _ => True

instance (s : Completion) (a : CompletionLabel) : Decidable (Reads p s a) :=
  match a with
  | .initializeClient _ _ _ _ _ _ _ _ => inferInstanceAs (Decidable (_ → _ = false))
  | .updateUser _ user faults _ => inferInstanceAs
      (Decidable (∀ ctx ∈ s.contexts.getLast?, readFails p ctx user faults = false))
  | .task _ _ _ _ _ | .filesChanged _ _ => .isTrue trivial

/-! ## Who is owed a callback -/

/-- The calls that have a task, and those that have been called back. -/
def owed (s : Completion) : List ℕ := s.tasks.filterMap FetchTask.call ++ s.called.map Prod.fst

/-- Nobody is called back twice. -/
structure Owing (s : Completion) : Prop where
  nodup : s.owed.Nodup
  lt : ∀ id ∈ s.owed, id < s.calls

/-- Nobody has been forgotten. -/
def Complete (s : Completion) : Prop := ∀ id < s.calls, id ∈ s.owed

theorem owed_callBack (s : Completion) (id : ℕ) (code : StatsigResultCode) :
    (owed { s with called := s.called ++ [(id, code)] }).Perm (id :: s.owed) := by
  simp only [owed, List.map_append, List.map_singleton, ← List.append_assoc]
  exact List.perm_append_singleton _ _

/-- A task that ends takes its call along. -/
theorem perm_call_eraseIdx {tasks : List FetchTask} {i : ℕ} {task : FetchTask}
    (htask : tasks[i]? = some task) :
    (tasks.filterMap FetchTask.call).Perm
      (task.call.toList ++ (tasks.eraseIdx i).filterMap FetchTask.call) := by
  refine ((Slots.perm_cons_eraseIdx htask).filterMap FetchTask.call).trans ?_
  cases hcall : task.call with
  | none => simp [hcall]
  | some id => simp [hcall]

/-- **One step of a task** moves its call on, unless the task is lost or the process ends. -/
theorem owed_stepTask {s : Completion} {i : ℕ} {task : FetchTask}
    (htask : s.tasks[i]? = some task) (hrunning : s.crashed = false) (faults : FileFaults)
    (response : HttpResponse) (now : Int64) (r : Rehash Str DataAdapterResult)
    (ctx : StatsigContext) :
    let t := s.stepTask p lib i faults response now r task ctx
    t.calls = s.calls ∧
      ((s.Answers p lib faults response now task ctx ∧ t.crashed = false ∧
          t.owed.Perm s.owed) ∨
        (¬ s.Answers p lib faults response now task ctx ∧ t.crashed = true ∧
          t.owed.Sublist s.owed) ∨
        (¬ s.Answers p lib faults response now task ctx ∧ t.crashed = false ∧
          ∃ id, s.owed.Perm (id :: t.owed))) := by
  have herase := (perm_call_eraseIdx htask).append_right (s.called.map Prod.fst)
  rcases task.proceed_cases p lib ctx (s.live task.ctx) faults response now r with
    ⟨hthrown, hproceed⟩ | ⟨ctx', progress, hproceed, -, -,
      ⟨hready, hthrown, -, ⟨stage, current, rfl⟩ | ⟨user, result, rfl⟩⟩ |
      ⟨hnot, hthrown, rfl⟩⟩
  · simp only [stepTask, hproceed]
    refine ⟨trivial, .inr (.inl ⟨fun hok ↦ hok.2 hthrown, trivial, ?_⟩)⟩
    simp [owed]
  · simp only [stepTask, hproceed]
    have hok : s.Answers p lib faults response now task ctx :=
      ⟨fun _ ↦ ⟨hready, hthrown⟩, by simp [hthrown]⟩
    refine ⟨trivial, .inl ⟨hok, hrunning, .of_eq (congrArg (· ++ s.called.map Prod.fst) ?_)⟩⟩
    exact Slots.filterMap_set_of_eq htask rfl
  · simp only [stepTask, hproceed]
    have hok : s.Answers p lib faults response now task ctx :=
      ⟨fun _ ↦ ⟨hready, hthrown⟩, by simp [hthrown]⟩
    cases hcall : task.call with
    | none =>
      rw [hcall] at herase
      exact ⟨rfl, .inl ⟨hok, hrunning, herase.symm⟩⟩
    | some id =>
      rw [hcall] at herase
      refine ⟨rfl, .inl ⟨hok, hrunning, .trans ?_ herase.symm⟩⟩
      exact owed_callBack { s with tasks := s.tasks.eraseIdx i } id result.code
  · simp only [stepTask, hproceed]
    cases hcall : task.call with
    | none =>
      rw [hcall] at herase
      exact ⟨trivial, .inl ⟨⟨fun h ↦ absurd hcall h, hthrown⟩, hrunning, herase.symm⟩⟩
    | some id =>
      rw [hcall] at herase
      refine ⟨trivial, .inr (.inr ⟨fun hok ↦ hnot (hok.1 ?_), hrunning, id, herase⟩)⟩
      rw [hcall]
      exact Option.some_ne_none id

variable {p lib}

/-- An update owes a callback if it is asynchronous, or has made it. -/
theorem owed_update (s : Completion) (older : List StatsigContext) (ctx : StatsigContext)
    (kind : UpdateKind) (user : StatsigUser) (faults : FileFaults)
    (r : Rehash Str DataAdapterResult) :
    let t := s.update p lib older ctx kind user faults r
    t.crashed = s.crashed ∧ ((t.calls = s.calls ∧ t.owed.Perm s.owed) ∨
      (t.calls = s.calls + 1 ∧ t.owed.Perm (s.calls :: s.owed))) := by
  simp only [update]
  split
  · cases kind with
    | sync => exact ⟨rfl, .inl ⟨rfl, .refl _⟩⟩
    | async => exact ⟨rfl, .inr ⟨rfl, s.owed_callBack s.calls .unexpectedError⟩⟩
  · cases kind with
    | sync =>
      refine ⟨rfl, .inl ⟨rfl, .of_eq ?_⟩⟩
      simp [owed]
    | async =>
      refine ⟨rfl, .inr ⟨rfl, ?_⟩⟩
      simp only [owed, List.filterMap_append, List.filterMap_cons, List.filterMap_nil]
      rw [← List.cons_append]
      exact (List.perm_append_singleton _ _).append_right _

/-- **One step** moves a call on or adds one; or it ends the process, forgets a call, or never takes
one up. -/
theorem owed_step {s t : Completion} {a : CompletionLabel} (hrunning : s.crashed = false)
    (h : step p lib s a = some t) :
    (Answerable p lib s a ∧ t.crashed = false ∧ ((t.calls = s.calls ∧ t.owed.Perm s.owed) ∨
        (t.calls = s.calls + 1 ∧ t.owed.Perm (s.calls :: s.owed)))) ∨
      (¬ Answerable p lib s a ∧ t.crashed = true ∧ t.calls = s.calls ∧
        t.owed.Sublist s.owed) ∨
      (¬ Answerable p lib s a ∧ t.crashed = false ∧
        ((t.calls = s.calls ∧ ∃ id, s.owed.Perm (id :: t.owed)) ∨
          (t.calls = s.calls + 1 ∧ t.owed = s.owed))) := by
  rw [step, if_neg (by simp [hrunning])] at h
  cases a with
  | initializeClient kind sdkKey user options network dir faults r =>
    simp only [act] at h
    split at h
    · cases kind with
      | sync =>
        obtain rfl := Option.some_inj.mp h
        exact .inl ⟨trivial, hrunning, .inl ⟨rfl, .refl _⟩⟩
      | async =>
        obtain rfl := Option.some_inj.mp h
        exact .inl ⟨trivial, hrunning, .inr ⟨rfl, s.owed_callBack s.calls .invalidSdkKey⟩⟩
    · obtain rfl := Option.some_inj.mp h
      obtain ⟨hcrashed, howed⟩ := owed_update s _ _ kind _ faults r
      exact .inl ⟨trivial, hcrashed.trans hrunning, howed⟩
  | updateUser kind user faults r =>
    simp only [act] at h
    split at h
    · rename_i hnone
      have hnil := List.getLast?_eq_none_iff.mp hnone
      cases kind with
      | sync =>
        obtain rfl := Option.some_inj.mp h
        exact .inl ⟨trivial, hrunning, .inl ⟨rfl, .refl _⟩⟩
      | async =>
        obtain rfl := Option.some_inj.mp h
        exact .inr (.inr ⟨fun hok ↦ hok hnil, hrunning, .inr ⟨rfl, rfl⟩⟩)
    · rename_i ctx hctx
      obtain rfl := Option.some_inj.mp h
      have hne : s.contexts ≠ [] := fun hnil ↦ by simp [hnil] at hctx
      obtain ⟨hcrashed, howed⟩ := owed_update s s.contexts.dropLast ctx kind user faults r
      refine .inl ⟨?_, hcrashed.trans hrunning, howed⟩
      cases kind with
      | sync => trivial
      | async => exact hne
  | task i faults response now r =>
    obtain ⟨task, htask, h⟩ := Option.bind_eq_some_iff.mp h
    obtain ⟨ctx, hctx, rfl⟩ := Option.map_eq_some_iff.mp h
    have hiff : Answerable p lib s (.task i faults response now r) ↔
        s.Answers p lib faults response now task ctx := by
      refine ⟨fun hok ↦ hok task htask ctx hctx, fun hok task' htask' ctx' hctx' ↦ ?_⟩
      obtain rfl := Option.some_inj.mp (htask.symm.trans htask')
      obtain rfl := Option.some_inj.mp (hctx.symm.trans hctx')
      exact hok
    rw [hiff]
    obtain ⟨hcalls, ⟨hok, hcrashed, howed⟩ | ⟨hnot, hcrashed, howed⟩ |
      ⟨hnot, hcrashed, howed⟩⟩ := owed_stepTask p lib htask hrunning faults response now r ctx
    · exact .inl ⟨hok, hcrashed, .inl ⟨hcalls, howed⟩⟩
    · exact .inr (.inl ⟨hnot, hcrashed, hcalls, howed⟩)
    · exact .inr (.inr ⟨hnot, hcrashed, .inl ⟨hcalls, howed⟩⟩)
  | filesChanged g dir =>
    obtain ⟨ctx, -, rfl⟩ := Option.map_eq_some_iff.mp h
    exact .inl ⟨trivial, hrunning, .inl ⟨rfl, .refl _⟩⟩

/-- Nobody is called back twice, and whoever is forgotten stays so. -/
theorem owing_step {s t : Completion} {a : CompletionLabel} (hs : Owing s)
    (hrunning : s.crashed = false) (h : step p lib s a = some t) :
    Owing t ∧ (Complete s → (Answerable p lib s a ↔ t.crashed = false ∧ Complete t)) ∧
      (¬ Complete s → ¬ (t.crashed = false ∧ Complete t)) := by
  have hnew : s.calls ∉ s.owed := fun hmem ↦ lt_irrefl _ (hs.lt _ hmem)
  rcases owed_step hrunning h with ⟨hok, hcrashed, ⟨hcalls, howed⟩ | ⟨hcalls, howed⟩⟩ |
    ⟨hok, hcrashed, hcalls, howed⟩ | ⟨hok, hcrashed, ⟨hcalls, id, howed⟩ | ⟨hcalls, howed⟩⟩
  · refine ⟨⟨howed.nodup_iff.mpr hs.nodup, fun id hid ↦ ?_⟩, fun hall ↦ ?_,
      fun hnot ⟨_, hall⟩ ↦ ?_⟩
    · rw [hcalls]
      exact hs.lt id (howed.mem_iff.mp hid)
    · refine iff_of_true hok ⟨hcrashed, fun id hid ↦ howed.mem_iff.mpr (hall id ?_)⟩
      rwa [← hcalls]
    · refine hnot fun id hid ↦ howed.mem_iff.mp (hall id ?_)
      rwa [hcalls]
  · refine ⟨⟨howed.nodup_iff.mpr (List.nodup_cons.mpr ⟨hnew, hs.nodup⟩), fun id hid ↦ ?_⟩,
      fun hall ↦ ?_, fun hnot ⟨_, hall⟩ ↦ ?_⟩
    · rcases List.mem_cons.mp (howed.mem_iff.mp hid) with rfl | hid
      · omega
      · have := hs.lt id hid
        omega
    · refine iff_of_true hok ⟨hcrashed, fun id hid ↦ howed.mem_iff.mpr (List.mem_cons.mpr ?_)⟩
      by_cases heq : id = s.calls
      · exact .inl heq
      · exact .inr (hall id (by omega))
    · refine hnot fun id hid ↦ ?_
      rcases List.mem_cons.mp (howed.mem_iff.mp (hall id (by omega))) with rfl | hmem
      · exact absurd hid (lt_irrefl _)
      · exact hmem
  · have hdown : ¬ (t.crashed = false ∧ Complete t) := fun hup ↦ by simp [hcrashed] at hup
    refine ⟨⟨howed.nodup hs.nodup, fun id hid ↦ ?_⟩, fun _ ↦ iff_of_false hok hdown,
      fun _ ↦ hdown⟩
    rw [hcalls]
    exact hs.lt id (howed.subset hid)
  · have hnodup := List.nodup_cons.mp (howed.nodup_iff.mp hs.nodup)
    have hlt := hs.lt id (howed.mem_iff.mpr List.mem_cons_self)
    have hforgotten : ¬ Complete t := fun hall ↦ hnodup.1 (hall id (by omega))
    refine ⟨⟨hnodup.2, fun id' hid ↦ ?_⟩, fun _ ↦ iff_of_false hok fun hup ↦ hforgotten hup.2,
      fun _ hup ↦ hforgotten hup.2⟩
    rw [hcalls]
    exact hs.lt id' (howed.mem_iff.mpr (List.mem_cons_of_mem _ hid))
  · have hforgotten : ¬ Complete t := fun hall ↦ hnew (howed ▸ hall s.calls (by omega))
    refine ⟨⟨howed ▸ hs.nodup, fun id hid ↦ ?_⟩,
      fun _ ↦ iff_of_false hok fun hup ↦ hforgotten hup.2,
      fun _ hup ↦ hforgotten hup.2⟩
    have := hs.lt id (howed ▸ hid)
    omega

theorem owing_init : Owing {} := ⟨List.nodup_nil, fun id hid ↦ absurd hid (by simp [owed])⟩

theorem step_of_crashed {s : Completion} {a : CompletionLabel} (h : s.crashed = true) :
    step p lib s a = none := if_pos h

theorem complete_iff {labels : List CompletionLabel} {s : Completion}
    (hrun : Machine.run (step p lib) {} labels = some s) :
    Owing s ∧ (Machine.AllSteps (step p lib) (Answerable p lib) {} labels ↔
      s.crashed = false ∧ Complete s) := by
  have hrunning : ∀ {s t : Completion} {a : CompletionLabel}, step p lib s a = some t →
      s.crashed = false := fun {s t a} h ↦ by
    cases hcrashed : s.crashed with
    | false => rfl
    | true => exact absurd (h.symm.trans (step_of_crashed hcrashed)) (by simp)
  refine ⟨Machine.invariant_of_run (fun hs h ↦ (owing_step hs (hrunning h) h).1) owing_init hrun,
    Machine.allSteps_iff_good (I := Owing) (G := fun s ↦ s.crashed = false ∧ Complete s)
      (fun hs hup h ↦ ?_) (fun hs hnot h ↦ ?_)
      owing_init ⟨rfl, fun id hid ↦ absurd hid (by simp)⟩ hrun⟩
  · obtain ⟨howing, hiff, -⟩ := owing_step hs hup.1 h
    exact ⟨howing, hiff hup.2⟩
  · obtain ⟨howing, -, hdown⟩ := owing_step hs (hrunning h) h
    exact ⟨howing, hdown fun hall ↦ hnot ⟨hrunning h, hall⟩⟩

/-! ## What is left loading -/

/-- Nothing is marked as loading, except the store of the current context while an update of it has
a caller who waits. -/
structure Settled (s : Completion) : Prop where
  sound : ∀ ctx ∈ s.contexts, ctx.Sound
  writable : ∀ task ∈ s.tasks, task.Writable
  awaited : ∀ g ctx, g + 1 = s.contexts.length → s.contexts[g]? = some ctx →
    ctx.store.sourceInfo.source ≠ .loading ∨ ∃ task ∈ s.tasks, task.call ≠ none ∧ task.ctx = g

/-- A context takes the place of one with the same store. -/
theorem getElem?_set_of_store {contexts : List StatsigContext} {k g : ℕ}
    {ctx ctx' ctx'' : StatsigContext} (hctx : contexts[k]? = some ctx)
    (hstore : ctx'.store = ctx.store) (h : (contexts.set k ctx')[g]? = some ctx'') :
    ∃ before, contexts[g]? = some before ∧ ctx''.store = before.store := by
  rw [List.getElem?_set] at h
  split at h
  · rename_i heq
    subst heq
    split at h
    · obtain rfl := Option.some_inj.mp h
      exact ⟨ctx, hctx, hstore⟩
    · exact absurd h (by simp)
  · exact ⟨ctx'', h, rfl⟩

theorem Settled.drop {s : Completion} {i : ℕ} {task : FetchTask} {ctx ctx' : StatsigContext}
    (hs : Settled s) (htask : s.tasks[i]? = some task) (hctx : s.contexts[task.ctx]? = some ctx)
    (hcall : task.call = none) (hstore : ctx'.store = ctx.store) (hsound : ctx'.Sound) :
    Settled { s with
      contexts := s.contexts.set task.ctx ctx', tasks := s.tasks.eraseIdx i } where
  sound := Slots.forall_mem_set hs.sound hsound
  writable := Slots.forall_mem_eraseIdx hs.writable
  awaited := fun g ctx'' hg hctx'' ↦ by
    rw [List.length_set] at hg
    obtain ⟨before, hbefore, hsame⟩ := getElem?_set_of_store hctx hstore hctx''
    rw [hsame]
    exact (hs.awaited g before hg hbefore).imp_right
      (Slots.exists_mem_eraseIdx htask fun hwaiting ↦ hwaiting.1 hcall)

/-- **One step of a task** that can answer. -/
theorem settled_stepTask {s : Completion} {i : ℕ} {faults : FileFaults} {response : HttpResponse}
    {now : Int64} {r : Rehash Str DataAdapterResult} {task : FetchTask} {ctx : StatsigContext}
    (hs : Settled s) (htask : s.tasks[i]? = some task) (hctx : s.contexts[task.ctx]? = some ctx)
    (hok : s.Answers p lib faults response now task ctx) :
    Settled (s.stepTask p lib i faults response now r task ctx) := by
  have hsound := hs.sound ctx (List.mem_of_getElem? hctx)
  obtain ⟨hadapter, hwrites, hresults⟩ := FetchTask.sound_advance p lib hsound
    (hs.writable task (List.mem_of_getElem? htask)) (s.live task.ctx) response now r
  rcases task.proceed_cases p lib ctx (s.live task.ctx) faults response now r with
    ⟨hthrown, -⟩ | ⟨ctx', progress, hproceed, hclient, hmemory, hgoes⟩
  · exact absurd hthrown hok.2
  have hstore : ctx'.store = ctx.store := congrArg ClientState.store hclient
  have hsound' : ctx'.Sound := by
    refine ⟨hstore ▸ hsound.loaded, fun key value hvalue ↦ ?_⟩
    rw [hmemory] at hvalue
    exact hadapter key value hvalue
  rcases hgoes with ⟨-, -, hprogress, ⟨stage, current, rfl⟩ | ⟨user, result, rfl⟩⟩ |
    ⟨hnot, -, rfl⟩
  · simp only [stepTask, hproceed]
    refine ⟨Slots.forall_mem_set hs.sound hsound',
      Slots.forall_mem_set hs.writable (hwrites _ hprogress.symm), fun g ctx'' hg hctx'' ↦ ?_⟩
    rw [List.length_set] at hg
    obtain ⟨before, hbefore, hsame⟩ := getElem?_set_of_store hctx hstore hctx''
    rw [hsame]
    exact (hs.awaited g before hg hbefore).imp_right (Slots.exists_mem_set htask id)
  · simp only [stepTask, hproceed]
    cases hcall : task.call with
    | none => exact hs.drop htask hctx hcall hstore hsound'
    | some id =>
      have hloading := hsound'.innerCallback p lib user (hresults user result hprogress.symm)
      refine ⟨Slots.forall_mem_set hs.sound ⟨fun _ ↦ hloading, hsound'.cached⟩,
        Slots.forall_mem_eraseIdx hs.writable, fun g ctx'' hg hctx'' ↦ ?_⟩
      rw [List.length_set] at hg
      rw [List.getElem?_set] at hctx''
      split at hctx''
      · split at hctx''
        · obtain rfl := Option.some_inj.mp hctx''
          exact .inl hloading
        · exact absurd hctx'' (by simp)
      · rename_i hne
        exact (hs.awaited g ctx'' hg hctx'').imp_right
          (Slots.exists_mem_eraseIdx htask fun hwaiting ↦ hne hwaiting.2)
  · have hcall : task.call = none := by
      by_contra hcall
      exact hnot (hok.1 hcall)
    simp only [stepTask, hproceed]
    exact hs.drop htask hctx hcall hstore hsound'

theorem settled_update {s : Completion} {older : List StatsigContext} {ctx : StatsigContext}
    {kind : UpdateKind} {user : StatsigUser} {faults : FileFaults} (hs : Settled s)
    (holder : ∀ ctx ∈ older, ctx.Sound) (hctx : ctx.Sound)
    (hreads : readFails p ctx user faults = false) (r : Rehash Str DataAdapterResult) :
    Settled (s.update p lib older ctx kind user faults r) := by
  obtain ⟨hresult, hadapter⟩ :=
    hctx.cached.getDataSync p lib r (ctx.writeUser user).user
  have hloaded := StatsigContext.loaded_beginUpdate p lib ctx.toClientState user hresult
  have hwritable : ∀ {task : FetchTask}, task.stage = .queued →
      ∀ task' ∈ s.tasks ++ [task], task'.Writable := fun hstage ↦
    Slots.forall_mem_append_singleton hs.writable
      fun user result h ↦ absurd (hstage.symm.trans h) (by simp)
  simp only [update, hreads, Bool.false_eq_true, if_false]
  cases kind with
  | sync =>
    have hloading := hloaded.finalize
    refine ⟨Slots.forall_mem_append_singleton holder ⟨fun _ ↦ hloading, hadapter⟩,
      hwritable rfl, fun g ctx' hg hctx' ↦ .inl ?_⟩
    obtain rfl : g = older.length := by simpa using hg
    simp only [List.getElem?_concat_length, Option.some_inj] at hctx'
    exact hctx' ▸ hloading
  | async =>
    refine ⟨Slots.forall_mem_append_singleton holder ⟨hloaded, hadapter⟩, hwritable rfl,
      fun g ctx' hg hctx' ↦ .inr ?_⟩
    obtain rfl : g = older.length := by simpa using hg
    exact ⟨_, List.mem_append_right _ List.mem_cons_self, by simp, rfl⟩

/-- **One step.** -/
theorem settled_step {s t : Completion} {a : CompletionLabel} (hs : Settled s)
    (hok : Answerable p lib s a ∧ Reads p s a) (h : step p lib s a = some t) : Settled t := by
  rw [step] at h
  split at h
  · exact absurd h (by simp)
  cases a with
  | initializeClient kind sdkKey user options network dir faults r =>
    simp only [act] at h
    split at h
    · cases kind with
      | sync =>
        obtain rfl := Option.some_inj.mp h
        exact hs
      | async =>
        obtain rfl := Option.some_inj.mp h
        exact ⟨hs.sound, hs.writable, hs.awaited⟩
    · rename_i hkey
      obtain rfl := Option.some_inj.mp h
      exact settled_update hs hs.sound
        (StatsigContext.sound_create sdkKey user options network dir) (hok.2 hkey) r
  | updateUser kind user faults r =>
    simp only [act] at h
    split at h
    · cases kind with
      | sync =>
        obtain rfl := Option.some_inj.mp h
        exact hs
      | async =>
        obtain rfl := Option.some_inj.mp h
        exact ⟨hs.sound, hs.writable, hs.awaited⟩
    · rename_i ctx hctx
      obtain rfl := Option.some_inj.mp h
      exact settled_update hs (fun ctx' hmem ↦ hs.sound ctx' (List.mem_of_mem_dropLast hmem))
        (hs.sound ctx (List.mem_of_getLast? hctx)) (hok.2 ctx hctx) r
  | task i faults response now r =>
    obtain ⟨task, htask, h⟩ := Option.bind_eq_some_iff.mp h
    obtain ⟨ctx, hctx, rfl⟩ := Option.map_eq_some_iff.mp h
    exact settled_stepTask hs htask hctx (hok.1 task htask ctx hctx)
  | filesChanged g dir =>
    obtain ⟨ctx, hctx, rfl⟩ := Option.map_eq_some_iff.mp h
    have hsound := hs.sound ctx (List.mem_of_getElem? hctx)
    refine ⟨Slots.forall_mem_set hs.sound ⟨hsound.loaded, hsound.cached⟩, hs.writable,
      fun g' ctx' hg hctx' ↦ ?_⟩
    rw [List.length_set] at hg
    obtain ⟨before, hbefore, hstore⟩ := getElem?_set_of_store hctx (by rfl) hctx'
    rw [hstore]
    exact hs.awaited g' before hg hbefore

open initializeResponse (twoTexts emptyText)

/-- A client is initialised and gets values from the server, which it writes to a file.  Its user is
updated while no file can be read or written; the server has nothing new for them. -/
def updated : List CompletionLabel :=
  [.initializeClient .async (str "key") (some { userId := some (str "a-user") }) none
      { sessionId := str "a-session", stableId := str "a-stable-id" } ∅ {} (Rehash.id _ _),
    .task 0 {} {} 0 (Rehash.id _ _),
    .task 0 {} { status := 200, text := emptyText 1 } 5 (Rehash.id _ _),
    .task 0 {} {} 6 (Rehash.id _ _),
    .updateUser .async { userId := some (str "a-user") } ⟨true, true⟩ (Rehash.id _ _),
    .task 0 ⟨true, true⟩ {} 7 (Rehash.id _ _),
    .task 0 ⟨true, true⟩ { status := 204 } 8 (Rehash.id _ _)]

/-- The id of the user is half of a character. -/
def brokenUser : List CompletionLabel :=
  [.initializeClient .async (str "key") (some { userId := some [0xC3] }) none
      { sessionId := str "a-session", stableId := str "a-stable-id" } ∅ {} (Rehash.id _ _),
    .task 0 {} {} 0 (Rehash.id _ _)]

end Completion

end Statsig
