import Statsig.Client
import Statsig.Lib.Machine

/-!
# Updates that overtake each other

Calls of `UpdateUserAsync` and completions of their fetches, in any order, each taken as one step.
What the adapter and the server answer is part of the label, so it is arbitrary.

The completion callback is guarded by a comparison of users, and finalises the store in any case.
`undisturbed_iff` says what the unguarded half does to a newer update, and `store_after_last_call`
which of the answers ends up in the store.
-/

set_option autoImplicit false

namespace Statsig

/-- A client with the fetches in flight: for each the number of its call and its initiator. -/
structure UpdateRun where
  ctx : ClientState := {}
  pending : List (ℕ × StatsigUser) := []
  calls : ℕ := 0
  deriving DecidableEq, Repr

/-- A call, with what the adapter has for its user, or the completion of a fetch. -/
inductive UpdateLabel where
  | updateUserAsync (user : StatsigUser) (cached : StatsigResult DataAdapterResult)
  | complete (id : ℕ) (result : StatsigResult DataAdapterResult)
  deriving DecidableEq, Repr

/-- The label is a completion. -/
def UpdateLabel.isCompletion : UpdateLabel → Bool
  | .updateUserAsync _ _ => false
  | .complete _ _ => true

variable (p : Platform) (lib : JsonText)

namespace UpdateRun

/-- One step. -/
def step (s : UpdateRun) : UpdateLabel → Option UpdateRun
  | .updateUserAsync user cached =>
    let ctx := s.ctx.beginUpdate p lib user cached
    some { ctx, pending := s.pending ++ [(s.calls, ctx.user)], calls := s.calls + 1 }
  | .complete id result =>
    (lookupKey id s.pending).map fun initiator ↦
      { s with
        ctx := s.ctx.innerCallback p lib initiator result
        pending := s.pending.filter fun e ↦ decide (e.1 ≠ id) }

theorem step_complete {s t : UpdateRun} {id : ℕ} {result : StatsigResult DataAdapterResult}
    (h : step p lib s (.complete id result) = some t) :
    ∃ initiator, lookupKey id s.pending = some initiator ∧
      t = { s with
        ctx := s.ctx.innerCallback p lib initiator result
        pending := s.pending.filter fun e ↦ decide (e.1 ≠ id) } := by
  obtain ⟨initiator, hinit, rfl⟩ := Option.map_eq_some_iff.mp h
  exact ⟨initiator, hinit, rfl⟩

/-! ## What a callback does to the store -/

/-- What a result brings into the store when the guard lets it. -/
def brought (result : StatsigResult DataAdapterResult) : Option EvaluationStore :=
  if result.code = .ok then
    result.value.bind fun r ↦
      (initializeResponse.decode p lib r.data).map fun values ↦ EvaluationStore.load r values
  else none

/-- The store of a result that was accepted has values, so finalising leaves it. -/
theorem isSome_values_of_brought {result : StatsigResult DataAdapterResult}
    {store : EvaluationStore} (h : brought p lib result = some store) :
    store.values.isSome = true := by
  rw [brought] at h
  split at h
  · obtain ⟨r, -, h⟩ := Option.bind_eq_some_iff.mp h
    obtain ⟨values, -, rfl⟩ := Option.map_eq_some_iff.mp h
    rfl
  · exact absurd h (by simp)

theorem setValues_eq_brought {result : StatsigResult DataAdapterResult} (h : result.code = .ok)
    (store : EvaluationStore) :
    store.setValues p lib result.value = (brought p lib result).getD store := by
  rw [brought, if_pos h]
  cases hv : result.value with
  | none => rfl
  | some r =>
    cases hd : initializeResponse.decode p lib r.data with
    | none => simp [EvaluationStore.setValues_of_decode_none p lib hd, hd]
    | some values => simp [EvaluationStore.setValues_some p lib hd, hd]

/-- **The callback.**  What it brings, if it is for the current user, or else the store
finalised. -/
theorem store_innerCallback (ctx : ClientState) (initiator : StatsigUser)
    (result : StatsigResult DataAdapterResult) :
    (ctx.innerCallback p lib initiator result).store =
      (if areUsersEqual p initiator ctx.user then brought p lib result else none).getD
        ctx.store.finalize := by
  rw [ClientState.innerCallback, ClientState.store_finalizeStore, ClientState.accepts]
  by_cases hcode : result.code = .ok
  · by_cases heq : areUsersEqual p initiator ctx.user
    · simp only [hcode, heq, decide_true, Bool.and_self, if_true]
      rw [setValues_eq_brought p lib hcode]
      cases hb : brought p lib result with
      | none => rfl
      | some store =>
        exact EvaluationStore.finalize_of_isSome (isSome_values_of_brought p lib hb)
    · simp [heq]
  · simp [hcode, brought]

theorem finalize_store_innerCallback (ctx : ClientState) (initiator : StatsigUser)
    (result : StatsigResult DataAdapterResult) :
    (ctx.innerCallback p lib initiator result).store.finalize =
      (ctx.innerCallback p lib initiator result).store := by
  rw [ClientState.innerCallback, ClientState.store_finalizeStore, EvaluationStore.finalize_finalize]

/-- An update starts from what the adapter has, or from an empty store that is loading. -/
theorem store_beginUpdate (ctx : ClientState) (user : StatsigUser)
    (cached : StatsigResult DataAdapterResult) :
    (ctx.beginUpdate p lib user cached).store = (brought p lib cached).getD ctx.store.reset := by
  rw [ClientState.beginUpdate, ClientState.applyResult]
  by_cases hcode : cached.code = .ok
  · rw [if_pos hcode, ← setValues_eq_brought p lib hcode]
    rfl
  · simp [hcode, brought]

/-! ## Reachable states -/

/-- What holds in every reachable state: the numbers of the fetches are those of past calls, the
last call is for the current user, and its completion finalised the store. -/
structure Reached (s : UpdateRun) : Prop where
  id_lt : ∀ e ∈ s.pending, e.1 < s.calls
  initiator_eq : ∀ initiator, lookupKey (s.calls - 1) s.pending = some initiator →
    initiator = s.ctx.user
  finalize_eq : s.calls ≠ 0 → lookupKey (s.calls - 1) s.pending = none →
    s.ctx.store.finalize = s.ctx.store

theorem reached_init (ctx : ClientState) : Reached { ctx } :=
  ⟨by simp, by simp [lookupKey], fun h ↦ absurd rfl h⟩

theorem Reached.lookupKey_calls {s : UpdateRun} (h : Reached s) :
    lookupKey s.calls s.pending = none := by
  rw [lookupKey_eq_none_iff]
  intro e he heq
  exact absurd (h.id_lt e he) (by omega)

/-- The last call's fetch is in flight right after the call. -/
theorem Reached.lookupKey_pending {s : UpdateRun} (h : Reached s) (user : StatsigUser) :
    lookupKey s.calls (s.pending ++ [(s.calls, user)]) = some user := by
  rw [lookupKey_append, h.lookupKey_calls]
  simp [lookupKey]

theorem reached_step {s t : UpdateRun} {a : UpdateLabel} (hs : Reached s)
    (h : step p lib s a = some t) : Reached t := by
  cases a with
  | updateUserAsync user cached =>
    simp only [step, Option.some_inj] at h
    subst h
    refine ⟨fun e he ↦ ?_, fun initiator hinit ↦ ?_, fun _ hnone ↦ ?_⟩
    · rcases List.mem_append.mp he with he | he
      · exact Nat.lt_succ_of_lt (hs.id_lt e he)
      · rw [List.mem_singleton.mp he]
        exact Nat.lt_succ_self _
    · rw [Nat.add_sub_cancel, hs.lookupKey_pending] at hinit
      exact (Option.some_inj.mp hinit).symm
    · rw [Nat.add_sub_cancel, hs.lookupKey_pending] at hnone
      exact absurd hnone (by simp)
  | complete id result =>
    obtain ⟨initiator, hinit, rfl⟩ := step_complete p lib h
    refine ⟨fun e he ↦ hs.id_lt e (List.mem_of_mem_filter he), fun initiator' h' ↦ ?_, fun _ _ ↦ ?_⟩
    · rw [lookupKey_filter_ne] at h'
      split at h'
      · exact absurd h' (by simp)
      · rw [ClientState.user_innerCallback]
        exact hs.initiator_eq initiator' h'
    · exact finalize_store_innerCallback p lib s.ctx initiator result

theorem calls_ne_zero_step {s t : UpdateRun} {a : UpdateLabel} (hs : s.calls ≠ 0)
    (h : step p lib s a = some t) : t.calls ≠ 0 := by
  cases a with
  | updateUserAsync user cached =>
    simp only [step, Option.some_inj] at h
    subst h
    exact Nat.succ_ne_zero s.calls
  | complete id result =>
    obtain ⟨initiator, -, rfl⟩ := step_complete p lib h
    exact hs

theorem reached_run {ctx : ClientState} {s : UpdateRun} {labels : List UpdateLabel}
    (h : Machine.run (step p lib) { ctx } labels = some s) : Reached s :=
  Machine.invariant_of_run (reached_step p lib) (reached_init ctx) h

/-! ## Completions of older fetches -/

/-- The fetch of the last call is in flight. -/
def LatestPending (s : UpdateRun) : Prop := lookupKey (s.calls - 1) s.pending ≠ none

/-- A completion whose initiator is not the current user leaves the store unchanged. -/
def StaleHarmless (s : UpdateRun) (a : UpdateLabel) (t : UpdateRun) : Prop :=
  ∀ id result initiator, a = .complete id result → lookupKey id s.pending = some initiator →
    areUsersEqual p initiator s.ctx.user = false → t.ctx.store = s.ctx.store

/-- While the last call's fetch is in flight, a store without values says that it is loading. -/
def SaysLoading (s : UpdateRun) : Prop :=
  LatestPending s → s.ctx.store.values = none →
    s.ctx.store.getSourceDetails.reason = str "Loading"

/-- A step that does no harm to the last call. -/
def Undisturbed (s : UpdateRun) (a : UpdateLabel) : Prop :=
  ∀ t, step p lib s a = some t → StaleHarmless p s a t ∧ SaysLoading t

/-- The completion of an older fetch, while the last call's is in flight, finds values in the store
or is for the current user and brings values. -/
def FindsOrBringsValues (s : UpdateRun) (a : UpdateLabel) : Prop :=
  ∀ id result initiator, a = .complete id result → lookupKey id s.pending = some initiator →
    id ≠ s.calls - 1 → LatestPending s →
    s.ctx.store.values.isSome = true ∨
      (areUsersEqual p initiator s.ctx.user = true ∧ (brought p lib result).isSome = true)

/-- A finalised store without values does not say that it is loading. -/
theorem not_loading_of_finalize {store : EvaluationStore} (hfin : store.finalize = store)
    (h : store.values = none) : store.getSourceDetails.reason ≠ str "Loading" := by
  rcases EvaluationStore.finalize_eq_self_iff.mp hfin with hsome | hinfo
  · rw [h] at hsome
    exact absurd hsome (by simp)
  · rw [EvaluationStore.getSourceDetails, hinfo]
    decide

theorem isSome_values_innerCallback (ctx : ClientState) (initiator : StatsigUser)
    (result : StatsigResult DataAdapterResult) :
    (ctx.innerCallback p lib initiator result).store.values.isSome = true ↔
      ctx.store.values.isSome = true ∨
        (areUsersEqual p initiator ctx.user = true ∧ (brought p lib result).isSome = true) := by
  rw [store_innerCallback]
  by_cases heq : areUsersEqual p initiator ctx.user
  · cases hb : brought p lib result with
    | none => simp [heq]
    | some store => simp [heq, isSome_values_of_brought p lib hb]
  · simp [heq]

theorem saysLoading_call {s t : UpdateRun} {user : StatsigUser}
    {cached : StatsigResult DataAdapterResult}
    (h : step p lib s (.updateUserAsync user cached) = some t) : SaysLoading t := by
  simp only [step, Option.some_inj] at h
  subst h
  intro _ hnone
  simp only [store_beginUpdate] at hnone ⊢
  cases hb : brought p lib cached with
  | none => rfl
  | some store =>
    rw [hb] at hnone
    have hsome := isSome_values_of_brought p lib hb
    rw [show store.values = none from hnone] at hsome
    exact absurd hsome (by simp)

/-- **One completion** of an older fetch, while the last call's is in flight. -/
theorem undisturbed_complete_iff {s t : UpdateRun} {id : ℕ}
    {result : StatsigResult DataAdapterResult} {initiator : StatsigUser}
    (hinit : lookupKey id s.pending = some initiator)
    (h : step p lib s (.complete id result) = some t) (hid : id ≠ s.calls - 1)
    (hlatest : LatestPending s) :
    (StaleHarmless p s (.complete id result) t ∧ SaysLoading t) ↔
      s.ctx.store.values.isSome = true ∨
        (areUsersEqual p initiator s.ctx.user = true ∧ (brought p lib result).isSome = true) := by
  obtain ⟨initiator', hinit', rfl⟩ := step_complete p lib h
  obtain rfl : initiator = initiator' := Option.some_inj.mp (hinit.symm.trans hinit')
  have hpending : LatestPending { s with
      ctx := s.ctx.innerCallback p lib initiator result
      pending := s.pending.filter fun e ↦ decide (e.1 ≠ id) } := by
    rw [LatestPending, lookupKey_filter_ne, if_neg (Ne.symm hid)]
    exact hlatest
  have hvalues := isSome_values_innerCallback p lib s.ctx initiator result
  rw [← hvalues]
  constructor
  · rintro ⟨-, hloading⟩
    by_contra hnone
    rw [Option.not_isSome_iff_eq_none] at hnone
    exact not_loading_of_finalize (finalize_store_innerCallback p lib s.ctx initiator result)
      hnone (hloading hpending hnone)
  · intro hsome
    refine ⟨?_, fun _ hnone ↦ ?_⟩
    · rintro id' result' initiator' heq hinit' hstale
      obtain ⟨rfl, rfl⟩ : id = id' ∧ result = result' := by simpa using heq
      obtain rfl : initiator = initiator' := Option.some_inj.mp (hinit.symm.trans hinit')
      have hold : s.ctx.store.values.isSome = true :=
        (hvalues.mp hsome).resolve_right fun h ↦ absurd h.1 (by simp [hstale])
      show (s.ctx.innerCallback p lib initiator result).store = s.ctx.store
      rw [store_innerCallback, hstale]
      exact EvaluationStore.finalize_of_isSome hold
    · rw [show (s.ctx.innerCallback p lib initiator result).store.values = none from hnone] at hsome
      exact absurd hsome (by simp)

/-- What one step does to a later state's `SaysLoading` and to the store, in a reachable state. -/
theorem undisturbed_iff {s : UpdateRun} {a : UpdateLabel} (hs : Reached s) :
    Undisturbed p lib s a ↔ FindsOrBringsValues p lib s a := by
  cases a with
  | updateUserAsync user cached =>
    constructor
    · rintro - id result initiator heq
      exact absurd heq (by simp)
    · intro _ t ht
      exact ⟨fun id result initiator heq ↦ absurd heq (by simp), saysLoading_call p lib ht⟩
  | complete id result =>
    by_cases hid : id ≠ s.calls - 1 ∧ LatestPending s
    · obtain ⟨hid, hlatest⟩ := hid
      constructor
      · rintro h id' result' initiator heq hinit - -
        obtain ⟨rfl, rfl⟩ : id = id' ∧ result = result' := by simpa using heq
        have hstep := congrArg (Option.map fun initiator ↦
          { s with
            ctx := s.ctx.innerCallback p lib initiator result
            pending := s.pending.filter fun e ↦ decide (e.1 ≠ id) }) hinit
        exact (undisturbed_complete_iff p lib hinit hstep hid hlatest).mp (h _ hstep)
      · intro h t ht
        obtain ⟨initiator, hinit, -⟩ := step_complete p lib ht
        exact (undisturbed_complete_iff p lib hinit ht hid hlatest).mpr
          (h id result initiator rfl hinit hid hlatest)
    -- the last call's own completion, or one after it
    · refine ⟨fun _ id' result' initiator heq _ hne hlatest ↦ ?_, fun _ t ht ↦ ?_⟩
      · obtain ⟨rfl, rfl⟩ : id = id' ∧ result = result' := by simpa using heq
        exact absurd ⟨hne, hlatest⟩ hid
      obtain ⟨initiator, hinit, rfl⟩ := step_complete p lib ht
      have hcalls : s.calls ≠ 0 := by
        have := hs.id_lt _ (mem_of_lookupKey hinit)
        omega
      constructor
      · rintro id' result' initiator' heq hinit' hstale
        obtain ⟨rfl, rfl⟩ : id = id' ∧ result = result' := by simpa using heq
        obtain rfl : initiator = initiator' := Option.some_inj.mp (hinit.symm.trans hinit')
        show (s.ctx.innerCallback p lib initiator result).store = s.ctx.store
        rw [store_innerCallback, hstale]
        refine hs.finalize_eq hcalls ?_
        by_contra hlatest
        have hid' : id = s.calls - 1 := not_not.mp fun hne ↦ hid ⟨hne, hlatest⟩
        rw [hs.initiator_eq initiator (hid' ▸ hinit), areUsersEqual_refl] at hstale
        exact absurd hstale (by simp)
      · intro hlatest
        rw [LatestPending, lookupKey_filter_ne] at hlatest
        split at hlatest
        · exact absurd rfl hlatest
        · rename_i hne
          exact absurd ⟨fun h ↦ hne h.symm, hlatest⟩ hid

/-- **When older completions do no harm.**  In every run: no completion for a user who is no longer
the current one changes the store, and the store says that it is loading for as long as the last
call's fetch is in flight and there are no values, exactly when every completion of an older fetch
in that time finds values in the store or brings some for the current user. -/
theorem undisturbed_run_iff (ctx : ClientState) (labels : List UpdateLabel) :
    Machine.AllSteps (step p lib) (Undisturbed p lib) { ctx } labels ↔
      Machine.AllSteps (step p lib) (FindsOrBringsValues p lib) { ctx } labels :=
  Machine.allSteps_congr (fun hs _ ht ↦ reached_step p lib hs ht) (undisturbed_iff p lib)
    (reached_init ctx)

/-- Two users, and nothing cached: the first user's failed fetch ends the loading of the second. -/
theorem not_forall_undisturbed :
    ¬ ∀ (p : Platform) (lib : JsonText) (ctx : ClientState) (labels : List UpdateLabel),
      Machine.AllSteps (step p lib) (Undisturbed p lib) { ctx } labels := by
  intro h
  have hrun := h .linux initializeResponse.twoTexts {}
    [.updateUserAsync { userId := some (str "a") } { code := .ok },
      .updateUserAsync { userId := some (str "b") } { code := .ok },
      .complete 0 { code := .networkFailureBadStatusCode }]
  obtain ⟨-, hrun⟩ := hrun
  obtain ⟨-, hrun⟩ := hrun _ rfl
  obtain ⟨hlast, -⟩ := hrun _ rfl
  have hstale := (hlast _ rfl).1 0 _ _ rfl rfl (by decide +kernel)
  exact absurd (congrArg (fun store ↦ store.sourceInfo.source) hstale) (by decide +kernel)

/-! ## Which answer ends up in the store -/

/-- What the completion brings into the store of the current user. -/
def accepted (pending : List (ℕ × StatsigUser)) (user : StatsigUser) :
    UpdateLabel → Option EvaluationStore
  | .updateUserAsync _ _ => none
  | .complete id result => (lookupKey id pending).bind fun initiator ↦
      if areUsersEqual p initiator user then brought p lib result else none

/-- **Completions in any order.**  Up to finalising, the store is the one of the last completion
that was accepted, or the one before all of them. -/
theorem finalize_store_of_completions {s t : UpdateRun} {labels : List UpdateLabel}
    {pending : List (ℕ × StatsigUser)}
    (hlabels : ∀ a ∈ labels, a.isCompletion = true)
    (hpending : ∀ id initiator, lookupKey id s.pending = some initiator →
      lookupKey id pending = some initiator)
    (hrun : Machine.run (step p lib) s labels = some t) :
    t.ctx.store.finalize =
      ((labels.filterMap (accepted p lib pending s.ctx.user)).getLast?).getD
        s.ctx.store.finalize := by
  induction labels generalizing s with
  | nil =>
    rw [Machine.run_nil, Option.some_inj] at hrun
    rw [hrun]
    rfl
  | cons a labels ih =>
    obtain ⟨u, hu, hrest⟩ := Machine.run_cons_eq_some.mp hrun
    cases a with
    | updateUserAsync user cached =>
      exact absurd (hlabels _ List.mem_cons_self) (by simp [UpdateLabel.isCompletion])
    | complete id result =>
      obtain ⟨initiator, hinit, rfl⟩ := step_complete p lib hu
      have ih' := ih (fun a ha ↦ hlabels a (List.mem_cons_of_mem _ ha)) (fun id' initiator' h' ↦ by
        rw [lookupKey_filter_ne] at h'
        split at h'
        · exact absurd h' (by simp)
        · exact hpending id' initiator' h') hrest
      rw [ClientState.user_innerCallback, finalize_store_innerCallback, store_innerCallback] at ih'
      have hacc : accepted p lib pending s.ctx.user (.complete id result) =
          if areUsersEqual p initiator s.ctx.user then brought p lib result else none := by
        rw [accepted, hpending id initiator hinit]
        rfl
      rw [ih', ← hacc, List.filterMap_cons]
      cases accepted p lib pending s.ctx.user (.complete id result) with
      | none => rfl
      | some store =>
        cases hlast : (labels.filterMap (accepted p lib pending s.ctx.user)).getLast? with
        | none => simp [List.getLast?_cons, hlast]
        | some last => simp [List.getLast?_cons, hlast]

/-- **The last accepted completion wins.**  After all fetches have completed, the store is the one
of the last completion, since the last call, that was Ok, had a payload that parses, and whose
initiator equals the current user; or the one the last call found in the cache, finalised.  So the
last call's own answer stays unless an older fetch of an equal user brings values after it. -/
theorem store_after_last_call {ctx : ClientState} {before after : List UpdateLabel}
    {s t : UpdateRun} {user : StatsigUser} {cached : StatsigResult DataAdapterResult}
    (hbefore : Machine.run (step p lib) { ctx } before = some s)
    (hafter : ∀ a ∈ after, a.isCompletion = true)
    (hrun : Machine.run (step p lib) s (.updateUserAsync user cached :: after) = some t)
    (hdone : t.pending = []) :
    t.ctx.store = ((after.filterMap (accepted p lib
        (s.pending ++ [(s.calls, normalizeUser user s.ctx.options)])
        (normalizeUser user s.ctx.options))).getLast?).getD
      (s.ctx.beginUpdate p lib user cached).store.finalize ∧
    ∀ first last result store, after = first ++ .complete s.calls result :: last →
      brought p lib result = some store →
      (∀ a ∈ last, accepted p lib (s.pending ++ [(s.calls, normalizeUser user s.ctx.options)])
        (normalizeUser user s.ctx.options) a = none) → t.ctx.store = store := by
  have hs := reached_run p lib hbefore
  obtain ⟨u, hu, hrest⟩ := Machine.run_cons_eq_some.mp hrun
  have hreached := reached_step p lib hs hu
  have ht : Reached t := Machine.invariant_of_run (reached_step p lib) hreached hrest
  simp only [step, Option.some_inj] at hu
  subst hu
  have hcalls : t.calls ≠ 0 :=
    Machine.invariant_of_run (calls_ne_zero_step p lib) (Nat.succ_ne_zero s.calls) hrest
  have hstore := finalize_store_of_completions p lib hafter (fun _ _ h ↦ h) hrest
  rw [ht.finalize_eq hcalls (by rw [hdone]; rfl)] at hstore
  simp only [ClientState.user_beginUpdate] at hstore
  refine ⟨hstore, ?_⟩
  rintro first last result store rfl hbrought hlast
  have hown : accepted p lib (s.pending ++ [(s.calls, normalizeUser user s.ctx.options)])
      (normalizeUser user s.ctx.options) (.complete s.calls result) = some store := by
    rw [accepted, hs.lookupKey_pending]
    simp [hbrought]
  rw [hstore, List.filterMap_append, List.filterMap_cons, hown,
    List.filterMap_eq_nil_iff.mpr hlast]
  simp

/-- The answer of the server at the given time. -/
def answerAt (time : ℕ) : StatsigResult DataAdapterResult where
  code := .ok
  value := some { source := .network, data := initializeResponse.emptyText time,
                  receivedAt := Int64.ofNat time, fullUserHash := [] }

theorem brought_answerAt_two : brought .linux initializeResponse.twoTexts (answerAt 2) =
    some { values := some { time := 2, hasUpdates := true },
           sourceInfo := { source := .network, lcut := 2, receivedAt := 2 } } := by
  decide +kernel

/-- Two calls for one user, whose fetches complete in the order of the calls. -/
theorem store_after_last_call_in_order :
    ∃ t, Machine.run (step .linux initializeResponse.twoTexts) {}
        [.updateUserAsync {} { code := .ok }, .updateUserAsync {} { code := .ok },
          .complete 0 (answerAt 1), .complete 1 (answerAt 2)] = some t ∧
      t.ctx.store.values = some { time := 2, hasUpdates := true } :=
  ⟨_, rfl, congrArg EvaluationStore.values
    ((store_after_last_call .linux initializeResponse.twoTexts
      (show Machine.run (step .linux initializeResponse.twoTexts) {}
        [.updateUserAsync {} { code := .ok }] = some _ from rfl)
      (by simp [UpdateLabel.isCompletion]) rfl rfl).2 [.complete 0 (answerAt 1)] []
      (answerAt 2) _ rfl brought_answerAt_two (by simp))⟩

/-- The two fetches complete in the other order. -/
theorem not_forall_latest_wins :
    ¬ ∀ (p : Platform) (lib : JsonText) (ctx : ClientState) (before after : List UpdateLabel)
      (s t : UpdateRun) (user : StatsigUser) (cached result : StatsigResult DataAdapterResult)
      (store : EvaluationStore),
      Machine.run (step p lib) { ctx } before = some s →
      (∀ a ∈ after, a.isCompletion = true) →
      Machine.run (step p lib) s (.updateUserAsync user cached :: after) = some t →
      t.pending = [] →
      UpdateLabel.complete s.calls result ∈ after →
      brought p lib result = some store → t.ctx.store = store := by
  intro h
  have hwins := h .linux initializeResponse.twoTexts {} [.updateUserAsync {} { code := .ok }]
    [.complete 1 (answerAt 2), .complete 0 (answerAt 1)] _ _ {} { code := .ok } (answerAt 2) _ rfl
    (by simp [UpdateLabel.isCompletion]) rfl rfl List.mem_cons_self brought_answerAt_two
  exact absurd (congrArg (fun store ↦ store.sourceInfo.lcut) hwins) (by decide +kernel)

end UpdateRun

end Statsig
