import Statsig.ErrorBoundary
import Statsig.UpdateOrder

/-!
# Does Ok mean that there are values?

An update reports the code of the adapter's result.  Whether the store could make anything of the
result is the answer of another function, which nobody looks at.
-/

set_option autoImplicit false

namespace Statsig

variable (p : Platform) (lib : JsonText)

/-- How an update ends: the store, the code that is returned or passed to the callback, and what
`HandleBadResult` is given. -/
structure Report where
  store : EvaluationStore
  code : StatsigResultCode
  handled : List (StatsigResultCode × Option StringMap)
  deriving DecidableEq, Repr

namespace ClientState

/-- `UpdateUserSync`, given what the adapter has for the user. -/
def reportSync (ctx : ClientState) (user : StatsigUser)
    (result : StatsigResult DataAdapterResult) : Report :=
  let captured := ErrorBoundary.capture (some result.code)
  { store := (ctx.beginUpdate p lib user result).finalizeStore.store
    code := captured.code
    handled := (result.code, result.extra) :: captured.handled.toList }

/-- `UpdateUserAsync` up to its callback, given what the adapter has and what the fetch delivers.
No other update starts in between, but those before it may be called back. -/
def reportAsync (ctx : ClientState) (user : StatsigUser) (cached : StatsigResult DataAdapterResult)
    (older : List (StatsigUser × StatsigResult DataAdapterResult))
    (result : StatsigResult DataAdapterResult) : Report :=
  let started := ctx.beginUpdate p lib user cached
  let ctx := older.foldl (fun ctx e ↦ ctx.innerCallback p lib e.1 e.2) started
  { store := (ctx.innerCallback p lib started.user result).store
    code := result.code
    handled := [(result.code, result.extra)] }

theorem user_foldl_innerCallback (older : List (StatsigUser × StatsigResult DataAdapterResult))
    (ctx : ClientState) :
    (older.foldl (fun ctx e ↦ ctx.innerCallback p lib e.1 e.2) ctx).user = ctx.user := by
  induction older generalizing ctx with
  | nil => rfl
  | cons e older ih => rw [List.foldl_cons, ih, user_innerCallback]

end ClientState

/-- Ok means that the values of the result are in the store, and a result without values is a
failure that the error boundary is given. -/
structure AppliedWhenOk (value : DataAdapterResult) (report : Report) : Prop where
  applied : report.code = .ok → ∃ values,
    initializeResponse.decode p lib value.data = some values ∧
      report.store = EvaluationStore.load value values
  reported : initializeResponse.decode p lib value.data = none →
    report.code ≠ .ok ∧ ∃ extra, (report.code, extra) ∈ report.handled

section Reports

variable {p lib} (ctx : ClientState) (user : StatsigUser) (value : DataAdapterResult)
  (code : StatsigResultCode) (extra : Option StringMap)

/-- A report of the result's code is right about values if they would be applied. -/
theorem appliedWhenOk_iff_of_applied {report : Report} (hcode : report.code = code)
    (hhandled : (code, extra) ∈ report.handled)
    (hstore : code = .ok → ∀ values, initializeResponse.decode p lib value.data = some values →
      report.store = EvaluationStore.load value values) :
    AppliedWhenOk p lib value report ↔
      (code = .ok → (initializeResponse.decode p lib value.data).isSome = true) := by
  constructor
  · intro h hok
    obtain ⟨values, hdecode, -⟩ := h.applied (hcode.trans hok)
    rw [hdecode]
    rfl
  · intro h
    refine ⟨fun hok ↦ ?_, fun hnone ↦ ⟨fun hok ↦ ?_, extra, hcode ▸ hhandled⟩⟩
    · obtain ⟨values, hdecode⟩ := Option.isSome_iff_exists.mp (h (hcode.symm.trans hok))
      exact ⟨values, hdecode, hstore (hcode.symm.trans hok) values hdecode⟩
    · have hsome := h (hcode.symm.trans hok)
      rw [hnone] at hsome
      exact absurd hsome (by simp)

theorem brought_of_decode {values : InitializeResponse} (hcode : code = .ok)
    (hdecode : initializeResponse.decode p lib value.data = some values) :
    UpdateRun.brought p lib { code, value := some value, extra } =
      some (EvaluationStore.load value values) := by
  simp [UpdateRun.brought, hcode, hdecode]

/-- **When a reported Ok means that the values were applied**: exactly for results that are not Ok,
or parse. -/
theorem appliedWhenOk_iff (cached : StatsigResult DataAdapterResult)
    (older : List (StatsigUser × StatsigResult DataAdapterResult)) :
    (AppliedWhenOk p lib value
        (ctx.reportSync p lib user { code, value := some value, extra }) ↔
      (code = .ok → (initializeResponse.decode p lib value.data).isSome = true)) ∧
    (AppliedWhenOk p lib value
        (ctx.reportAsync p lib user cached older { code, value := some value, extra }) ↔
      (code = .ok → (initializeResponse.decode p lib value.data).isSome = true)) := by
  constructor
  · refine appliedWhenOk_iff_of_applied value code extra rfl List.mem_cons_self ?_
    intro hok values hdecode
    rw [ClientState.reportSync, ClientState.store_finalizeStore, UpdateRun.store_beginUpdate,
      brought_of_decode value code extra hok hdecode]
    exact EvaluationStore.finalize_of_isSome (UpdateRun.isSome_values_of_brought p lib
      (brought_of_decode value code extra hok hdecode))
  · refine appliedWhenOk_iff_of_applied value code extra rfl List.mem_cons_self ?_
    intro hok values hdecode
    rw [ClientState.reportAsync, UpdateRun.store_innerCallback,
      ClientState.user_foldl_innerCallback, areUsersEqual_refl, if_pos rfl,
      brought_of_decode value code extra hok hdecode]
    rfl

end Reports

/-- What an adapter holds of a user once a server that was told of no payload has answered 204. -/
def emptied (user : StatsigUser) : DataAdapterResult where
  source := .networkNotModified
  data := []
  receivedAt := 1
  fullUserHash := getFullUserHash .linux user

/-- An adapter that holds just that. -/
def emptiedAdapter (user : StatsigUser) : DataAdapter where
  sdkKey := str "key"
  inMemoryCache :=
    .ofList [(DataAdapter.getCacheKey .linux (str "key") user, emptied user)]

/-- The update is reported as Ok, and the store has no values. -/
theorem not_forall_appliedWhenOk :
    ¬ ∀ (p : Platform) (lib : JsonText) (r : Rehash Str DataAdapterResult) (ctx : ClientState)
      (adapter : DataAdapter) (user : StatsigUser) (value : DataAdapterResult),
      (ctx.updateUserSync p lib r adapter user).1.value = some value →
      AppliedWhenOk p lib value
        (ctx.reportSync p lib user (ctx.updateUserSync p lib r adapter user).1) := by
  intro h
  have hanswer : ((({} : ClientState).updateUserSync .linux initializeResponse.twoTexts
      (Rehash.id _ _) (emptiedAdapter {}) {}).1) = { code := .ok, value := some (emptied {}) } := by
    decide +kernel
  have happlied := h .linux initializeResponse.twoTexts (Rehash.id _ _) {} (emptiedAdapter {}) {}
    (emptied {}) (by rw [hanswer])
  rw [hanswer] at happlied
  exact (happlied.reported (initializeResponse.decode_twoTexts_nil .linux)).1 rfl

end Statsig
