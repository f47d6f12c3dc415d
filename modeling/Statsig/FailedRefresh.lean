import Statsig.DecoderSafety
import Statsig.Fetching
import Statsig.Revalidation
import Statsig.StoreHistory

/-!
# A refresh that fails

The final response passes through four functions, and each of them also inserts, evicts, writes or
sets something when there is a value.  After a failure there is none: `intact_of_failing` follows it
from the response to the store.
-/

set_option autoImplicit false

namespace Statsig

variable (p : Platform) (lib : JsonText)

/-- The response is a failure: its status says so, or its body does not parse. -/
inductive HttpResponse.Failing (response : HttpResponse) : Prop where
  | status (h : hasSuccessCode response = false)
  | body (hnot : response.status ≠ 204)
      (hread : initializeResponse.read p lib response.text = .error .thrown)

/-- The store is as it was, or it was loading, had no values, and now says that there are none. -/
def EvaluationStore.Intact (store store' : EvaluationStore) : Prop :=
  store' = store ∨
    (store = { values := none, sourceInfo := { source := .loading } } ∧
      store' = { values := none, sourceInfo := { source := .noValues } })

variable {p lib} {response : HttpResponse}

theorem HttpResponse.Failing.kind_eq (h : response.Failing p lib) :
    response.kind p lib = .failed := by
  rw [HttpResponse.kind]
  cases h with
  | status h => simp [h]
  | body hnot hread =>
    rw [initializeResponse.decode_eq_read, hread]
    simp [hnot, Except.toOption]

/-- A failure leaves the adapter alone, files included, and calls back at once, without a value. -/
theorem DataAdapter.onLatest_of_failed (h : response.kind p lib = .failed) (adapter : DataAdapter)
    (r : Rehash Str DataAdapterResult) (user : StatsigUser) (current : Option DataAdapterResult)
    (now : Int64) :
    ∃ result, adapter.onLatest p lib r user (latestOf p lib user current now response) =
        (adapter, .now result) ∧
      result.code ≠ .ok ∧ result.value = none := by
  obtain ⟨hcode, hvalue⟩ := fetchLatest_of_failed user current now h
  refine ⟨{ latestOf p lib user current now response with value := none }, ?_, hcode, rfl⟩
  rw [← latestOf] at hvalue
  simp only [onLatest, hvalue]

theorem ClientState.store_innerCallback_of_failed {result : StatsigResult DataAdapterResult}
    (h : result.code ≠ .ok) (ctx : ClientState) (initiator : StatsigUser) :
    (ctx.innerCallback p lib initiator result).store = ctx.store.finalize := by
  rw [innerCallback, store_finalizeStore, accepts]
  simp [h]

/-- A store that has been reset is not uninitialized: the `Reset` is open, or there is a `Finalize`
after it. -/
theorem after_ne_uninitialized (before later : List StoreOp) :
    StoreContents.after p lib (before ++ .reset :: later) ≠ .empty .uninitialized := by
  intro hafter
  have hnothing : NothingSet p lib (before ++ .reset :: later) := by
    intro result values hset
    rw [(after_eq_loaded_iff _).mpr hset] at hafter
    exact absurd hafter (by simp)
  rw [after_eq_empty hnothing, StoreContents.empty.injEq] at hafter
  by_cases hopen : ResetOpen (before ++ .reset :: later)
  · rw [(emptyReason_eq_loading_iff _).mpr hopen] at hafter
    exact absurd hafter (by simp)
  · rw [emptyReason_of_not_resetOpen hopen] at hafter
    exact hopen ⟨before, later, rfl, fun hfinalize ↦ by simp [hfinalize] at hafter⟩

theorem EvaluationStore.intact_finalize (before later : List StoreOp) :
    (run p lib (before ++ .reset :: later)).Intact
      (run p lib (before ++ .reset :: later)).finalize := by
  have hne : StoreContents.after p lib (before ++ .reset :: later) ≠ .empty .uninitialized :=
    after_ne_uninitialized before later
  rw [StoreContents.run_eq_repr]
  cases hafter : StoreContents.after p lib (before ++ .reset :: later) with
  | loaded result values => exact .inl rfl
  | empty reason =>
    cases reason with
    | uninitialized => exact absurd hafter hne
    | loading => exact .inr ⟨rfl, rfl⟩
    | noValues => exact .inl rfl

/-- **A failed refresh leaves everything cached intact.**  When the response of the last attempt is
a failure, the task calls back without having touched the memory map or a file, and its callback
leaves the store, which has been reset at some time, intact. -/
theorem intact_of_failing {task : FetchTask} {ctx : StatsigContext} {user : StatsigUser}
    {attempt : ℤ} (hstage : task.stage = .posted user attempt)
    (hfinal : shouldRetry constants.kInitializeRetryCount attempt response = false)
    (hfailing : response.Failing p lib) {before later : List StoreOp}
    (hstore : ctx.store = EvaluationStore.run p lib (before ++ .reset :: later)) (live : Bool)
    (now : Int64) (r : Rehash Str DataAdapterResult) :
    ∃ result, task.advance p lib ctx live response now r = (ctx.adapter, .returns user result) ∧
      ctx.store.Intact (ctx.innerCallback p lib user result).store := by
  obtain ⟨result, hlatest, hcode, -⟩ :=
    DataAdapter.onLatest_of_failed hfailing.kind_eq ctx.adapter r user task.current now
  refine ⟨result, ?_, ?_⟩
  · rw [DataAdapter.latestOf] at hlatest
    simp [FetchTask.advance, hstage, hfinal, hlatest]
  · rw [ClientState.store_innerCallback_of_failed hcode, hstore]
    exact EvaluationStore.intact_finalize before later

/-! ## The server is unavailable -/

section Unavailable

open initializeResponse (twoTexts)

/-- A client that has loaded a cached payload. -/
noncomputable def cachedContext : StatsigContext :=
  { StatsigContext.create (str "key") none none ⟨str "session", str "stable"⟩ ∅ with
    store := EvaluationStore.run .linux twoTexts cachedOnly }

/-- Its refresh, in the last attempt. -/
def lastAttempt : FetchTask :=
  { ctx := 0, call := some 0, initiator := some {}, current := none, stage := .posted {} 3 }

/-- The payload stays. -/
theorem intact_cachedContext :
    ∃ result, lastAttempt.advance .linux twoTexts cachedContext true { status := 503 } 9
        (Rehash.id _ _) = (cachedContext.adapter, .returns {} result) ∧
      (cachedContext.innerCallback .linux twoTexts {} result).store = cachedContext.store ∧
      cachedContext.store.values.isSome = true := by
  have hloaded : cachedContext.store.values.isSome = true := by decide +kernel
  obtain ⟨result, hadvance, hintact⟩ := intact_of_failing
    (show lastAttempt.stage = .posted {} 3 from rfl)
    (show shouldRetry constants.kInitializeRetryCount 3 { status := 503 } = false by decide)
    (.status (by decide))
    (show cachedContext.store =
      EvaluationStore.run .linux twoTexts ([] ++ .reset :: cachedOnly.tail) from rfl)
    true 9 (Rehash.id _ _)
  refine ⟨result, hadvance, hintact.resolve_right fun hempty ↦ ?_, hloaded⟩
  rw [hempty.1] at hloaded
  exact absurd hloaded (by simp)

end Unavailable

end Statsig
