import Statsig.Fetching
import Statsig.Retries
import Statsig.Revalidation

/-!
# The processing of an answer

`GetDataAsync` from the request to the callback, as the list of what it does.  The marker that
processing has started is left by `HandleFetchValuesResponse`; the marker that it has ended is left
there, in the lambda of `GetDataAsync`, or when the file has been written.

`onFetchValuesResponse_eq` and `deliver_spec` say what each of the two parts adds to the list, and
`balanced_getDataAsync` puts them together.  `advance_attempts` says that the background task of an
update goes through the same attempts.
-/

set_option autoImplicit false

namespace Statsig

/-- What a call of `GetDataAsync` meets with. -/
structure FetchEnv extends Exchange where
  processStarted : Int64
  processEnded : Int64
  /-- The time of the payload. -/
  fetched : Int64
  rehash : Rehash Str DataAdapterResult
  /-- The adapter when the answer comes. -/
  later : DataAdapter
  /-- It is still there then. -/
  adapterAlive : Bool
  /-- The file is written. -/
  written : Bool

namespace FetchEnv

open NetworkService

variable (p : Platform) (lib : JsonText) {α : Type} (env : FetchEnv)

/-- The lambda of `HandleFetchValuesResponse`. -/
def onFetchValuesResponse (callback : NetworkResult InitializeResponse → List (NetworkAction α))
    (response : HttpResponse) : List (NetworkAction α) :=
  if !hasSuccessCode response then
    callback { code := .networkFailureBadStatusCode, extra := getStatusCodeErr response }
  else
    .mark (markers.processStart env.processStarted) ::
      if response.status = 204 then callback { code := .ok, value := some {} }
      else
        match initializeResponse.decode p lib response.text with
        | none =>
          .mark (markers.processEnd env.processEnded false) ::
            callback { code := .jsonFailureInitializeResponse }
        | some value => callback { code := .ok, value := some value, raw := response.text }

/-- `FetchValues`.  An exception ends it without a callback. -/
def fetchValues (net : NetworkService) (user : StatsigUser) (current : Option DataAdapterResult)
    (callback : NetworkResult InitializeResponse → List (NetworkAction α)) :
    List (NetworkAction α) :=
  match net.fetchValuesBody p lib user current with
  | none => []
  | some body =>
    env.postWithRetry constants.kEndpointInitialize body constants.kInitializeRetryCount
      (env.onFetchValuesResponse p lib callback)

/-- The callback of `WriteToCacheFile`. -/
def onWritten (latest : StatsigResult DataAdapterResult) (code : StatsigResultCode) :
    List (NetworkAction (StatsigResult DataAdapterResult)) :=
  [.mark (markers.processEnd env.processEnded (decide (code = .ok))), .callback latest]

/-- The lambda of `GetDataAsync`: how the adapter delivers the result. -/
def deliver (user : StatsigUser) (latest : StatsigResult DataAdapterResult) :
    List (NetworkAction (StatsigResult DataAdapterResult)) :=
  if env.adapterAlive then
    match (env.later.onLatest p lib env.rehash user latest).2 with
    | .now result =>
      if result.value.isSome then
        [.mark (markers.processEnd env.processEnded true), .callback result]
      else [.callback result]
    | .afterWrite (cacheKey, content) result =>
      .write cacheKey content ::
        env.onWritten result (if env.written then .ok else .fileFailureDataAdapterResult)
    | .thrown => []
  else [.callback { code := .sharedPointerLost }]

/-- `GetDataAsync` -/
def getDataAsync (net : NetworkService) (adapter : DataAdapter) (user : StatsigUser)
    (current : Option DataAdapterResult) :
    List (NetworkAction (StatsigResult DataAdapterResult)) :=
  let cache := (adapter.currentFor p lib env.rehash user current).1
  env.fetchValues p lib net user cache fun netResult ↦
    env.deliver p lib user (DataAdapter.fetchLatest p user cache env.fetched netResult)

/-! ### The parts of the list -/

/-- The markers that `HandleFetchValuesResponse` leaves. -/
def handled (response : HttpResponse) : List (NetworkAction α) :=
  if !hasSuccessCode response then []
  else
    .mark (markers.processStart env.processStarted) ::
      if response.status ≠ 204 ∧ initializeResponse.decode p lib response.text = none then
        [.mark (markers.processEnd env.processEnded false)]
      else []

/-- The callback gets what `handleFetchValuesResponse` makes of the response. -/
theorem onFetchValuesResponse_eq
    (callback : NetworkResult InitializeResponse → List (NetworkAction α))
    (response : HttpResponse) :
    env.onFetchValuesResponse p lib callback response =
      env.handled p lib response ++ callback (handleFetchValuesResponse p lib response) := by
  simp only [onFetchValuesResponse, handled, handleFetchValuesResponse]
  split
  · rfl
  · split
    · rename_i h
      simp [h]
    · rename_i h
      split <;> simp [*]

end FetchEnv

/-! ## Process markers -/

namespace markers

/-- The marker is one of processing. -/
def isProcess (marker : Json) : Bool := marker.find? (str "step") == some (.str (str "process"))

/-- No marker adds a value under a name that all markers have. -/
theorem find?_step_base (now : Int64) (action key : Str) (step : Option Str)
    (values : List (Str × Option Json))
    (h : ([str "action", str "key", str "timestamp", str "step"] ++ values.map Prod.fst).Nodup) :
    (base now action key step values).find? (str "step") = step.map .str := by
  rw [base, Json.find?_ofFields (by rw [List.map_append]; exact h), lookupKey_append]
  cases step <;> rfl

@[simp] theorem isProcess_networkStart (now : Int64) (attempt : ℤ) :
    isProcess (networkStart now attempt) = false := by
  have hnames : [str "action", str "key", str "timestamp", str "step", str "attempt"].Nodup := by
    decide
  rw [isProcess, networkStart, networkBase, find?_step_base]
  · decide
  · exact hnames

@[simp] theorem isProcess_networkEnd (now : Int64) (attempt : ℤ) (response : HttpResponse) :
    isProcess (response.networkEnd now attempt) = false := by
  have hnames : [str "action", str "key", str "timestamp", str "step", str "attempt",
      str "success", str "statusCode", str "sdkRegion", str "error"].Nodup := by
    decide
  rw [isProcess, HttpResponse.networkEnd, networkEnd, networkBase,
    find?_step_base]
  · decide
  · exact hnames

@[simp] theorem isProcess_processStart (now : Int64) : isProcess (processStart now) = true := by
  rw [isProcess, processStart, processBase, find?_step_base _ _ _ _ _ (by decide)]
  decide

@[simp] theorem isProcess_processEnd (now : Int64) (isSuccessful : Bool) :
    isProcess (processEnd now isSuccessful) = true := by
  have hnames : [str "action", str "key", str "timestamp", str "step", str "success"].Nodup := by
    decide
  rw [isProcess, processEnd, processBase, find?_step_base]
  · decide
  · exact hnames

end markers

namespace FetchEnv

open NetworkAction NetworkService

/-- The process markers of a call. -/
def processMarks {α : Type} (actions : List (NetworkAction α)) : List Json :=
  (marks actions).filter markers.isProcess

variable {α : Type}

theorem processMarks_append (xs ys : List (NetworkAction α)) :
    processMarks (xs ++ ys) = processMarks xs ++ processMarks ys := by
  rw [processMarks, marks_append, List.filter_append, processMarks, processMarks]

theorem processMarks_attempts (env : Exchange) (endpoint body : Str) (ns : List ℕ) :
    processMarks (ns.flatMap (env.attemptActions (α := α) endpoint body)) = [] := by
  rw [processMarks, Exchange.marks_attempts]
  split
  · rw [List.filter_eq_nil_iff]
    intro marker hmarker
    obtain ⟨n, -, hn⟩ := List.mem_flatMap.mp hmarker
    simp only [Exchange.attemptMarks, List.mem_cons, List.not_mem_nil, or_false] at hn
    rcases hn with rfl | rfl <;> simp
  · rfl

variable (p : Platform) (lib : JsonText) (env : FetchEnv)

/-- What one call leaves behind: the callback once, and markers of processing that come in pairs. -/
structure Balanced (k : ℕ) (actions : List (NetworkAction (StatsigResult DataAdapterResult))) :
    Prop where
  process : ∃ result, callbacks actions = [result] ∧
    processMarks actions =
      if hasSuccessCode (env.response k) then
        [markers.processStart env.processStarted,
          markers.processEnd env.processEnded result.value.isSome]
      else []
  /-- The markers are in the buffer afterwards, if it is not full on the way. -/
  marked : ∀ d : Diagnostics,
    d.markers.length + (marks actions).length ≤ constants.kMaxDiagnosticsMarkers + 1 →
      (d.markAll (marks actions)).markers = d.markers ++ marks actions

/-- **What is delivered**: the result once, and a value after its marker. -/
theorem deliver_spec (user : StatsigUser) (current : Option DataAdapterResult)
    (response : HttpResponse) (halive : env.adapterAlive = true) (hwritten : env.written = true) :
    callbacks (env.deliver p lib user
        (DataAdapter.latestOf p lib user current env.fetched response)) =
          [DataAdapter.latestOf p lib user current env.fetched response] ∧
      processMarks (env.deliver p lib user
        (DataAdapter.latestOf p lib user current env.fetched response)) =
          if (DataAdapter.latestOf p lib user current env.fetched response).value.isSome then
            [markers.processEnd env.processEnded true] else [] := by
  cases hvalue : (DataAdapter.latestOf p lib user current env.fetched response).value with
  | none =>
    have hresult : { DataAdapter.latestOf p lib user current env.fetched response with
        value := none } = DataAdapter.latestOf p lib user current env.fetched response := by
      rw [← hvalue]
    simp [deliver, halive, DataAdapter.onLatest, hvalue, hresult, callbacks, processMarks, marks]
  | some value =>
    rcases DataAdapter.fetchLatest_response p lib user current env.fetched response hvalue with
      ⟨hsource, hdata, hhash⟩ | hsource
    · obtain ⟨text, htext⟩ := dataAdapterResult.exists_serialize lib hdata hhash
      simp [deliver, halive, DataAdapter.onLatest, hvalue, hsource, DataAdapter.writeToCacheFile,
        htext, onWritten, hwritten, callbacks, processMarks, marks]
    · simp [deliver, halive, DataAdapter.onLatest, hvalue, hsource, callbacks, processMarks,
        marks]

theorem callbacks_handled (response : HttpResponse) :
    callbacks (α := α) (env.handled p lib response) = [] := by
  rw [handled]
  split
  · rfl
  · split <;> rfl

theorem isSome_value_latestOf (user : StatsigUser) (current : Option DataAdapterResult)
    (response : HttpResponse) :
    (DataAdapter.latestOf p lib user current env.fetched response).value.isSome =
      (hasSuccessCode response && !(decide (response.status ≠ 204) &&
        (initializeResponse.decode p lib response.text).isNone)) := by
  simp only [DataAdapter.latestOf, handleFetchValuesResponse]
  cases hasSuccessCode response with
  | false => rfl
  | true =>
    by_cases hstatus : response.status = 204
    · simp [hstatus, DataAdapter.fetchLatest]
    · cases hdecode : initializeResponse.decode p lib response.text <;>
        simp [hstatus, DataAdapter.fetchLatest]

/-- **The callback's share and the handler's share of the markers.** -/
theorem processMarks_answer (user : StatsigUser) (current : Option DataAdapterResult)
    (response : HttpResponse) :
    processMarks (α := α) (env.handled p lib response) ++
        (if (DataAdapter.latestOf p lib user current env.fetched response).value.isSome then
          [markers.processEnd env.processEnded true] else []) =
      if hasSuccessCode response then
        [markers.processStart env.processStarted, markers.processEnd env.processEnded
          (DataAdapter.latestOf p lib user current env.fetched response).value.isSome]
      else [] := by
  rw [isSome_value_latestOf, handled]
  cases hasSuccessCode response with
  | false => rfl
  | true =>
    by_cases h : response.status ≠ 204 ∧ initializeResponse.decode p lib response.text = none
    · simp [h, processMarks, marks]
    · simp only [Bool.not_true, Bool.false_eq_true, if_false, if_neg h, Bool.true_and, if_true]
      have hsome : (decide (response.status ≠ 204) &&
          (initializeResponse.decode p lib response.text).isNone) = false := by
        rwa [Bool.eq_false_iff, Ne, Bool.and_eq_true, decide_eq_true_eq,
          Option.isNone_iff_eq_none]
      rw [hsome]
      simp [processMarks, marks]

/-- **A call is the attempts of its request, what the handler does with the final response, and
what the adapter delivers.** -/
theorem getDataAsync_eq {net : NetworkService} {user : StatsigUser}
    (huser : user.validUtf8 = true)
    (hids : (Utf8.valid net.sessionId && Utf8.valid net.stableId) = true)
    (hservice : ∀ n, env.alive n = true) (adapter : DataAdapter)
    (current : Option DataAdapterResult) :
    ∃ k body, IsLeast {k | 1 ≤ k ∧
        Exchange.Stops constants.kInitializeRetryCount k (env.response k)} k ∧
      env.getDataAsync p lib net adapter user current =
        (List.range' 1 k).flatMap (env.attemptActions constants.kEndpointInitialize body) ++
          (env.handled p lib (env.response k) ++
            env.deliver p lib user (DataAdapter.latestOf p lib user
              (adapter.currentFor p lib env.rehash user current).1 env.fetched
                (env.response k))) := by
  set cache := (adapter.currentFor p lib env.rehash user current).1 with hcache
  obtain ⟨body, hbody⟩ : ∃ body, net.fetchValuesBody p lib user cache = some body := by
    rw [← Option.isSome_iff_exists, isSome_fetchValuesBody, huser, hids]
    rfl
  obtain ⟨k, hk, heq⟩ := Exchange.postWithRetry_eq constants.kEndpointInitialize body
    constants.kInitializeRetryCount (env.onFetchValuesResponse p lib fun netResult ↦
      env.deliver p lib user (DataAdapter.fetchLatest p user cache env.fetched netResult)) hservice
  refine ⟨k, body, hk, ?_⟩
  rw [getDataAsync, fetchValues, ← hcache, hbody]
  exact heq.trans (congrArg _ (env.onFetchValuesResponse_eq p lib _ _))

/-- **What a call comes to**: the callback gets what the final response is worth, and the markers
of processing say so. -/
theorem getDataAsync_spec {net : NetworkService} {user : StatsigUser}
    (huser : user.validUtf8 = true)
    (hids : (Utf8.valid net.sessionId && Utf8.valid net.stableId) = true)
    (hservice : ∀ n, env.alive n = true) (hadapter : env.adapterAlive = true)
    (hwritten : env.written = true) (adapter : DataAdapter)
    (current : Option DataAdapterResult) :
    ∃ k latest, IsLeast {k | 1 ≤ k ∧
        Exchange.Stops constants.kInitializeRetryCount k (env.response k)} k ∧
      latest = DataAdapter.latestOf p lib user
        (adapter.currentFor p lib env.rehash user current).1 env.fetched (env.response k) ∧
      callbacks (env.getDataAsync p lib net adapter user current) = [latest] ∧
      processMarks (env.getDataAsync p lib net adapter user current) =
        if hasSuccessCode (env.response k) then
          [markers.processStart env.processStarted,
            markers.processEnd env.processEnded latest.value.isSome]
        else [] := by
  obtain ⟨k, body, hk, hactions⟩ :=
    env.getDataAsync_eq p lib huser hids hservice adapter current
  obtain ⟨hcallbacks, hmarks⟩ := env.deliver_spec p lib user
    (adapter.currentFor p lib env.rehash user current).1 (env.response k) hadapter hwritten
  refine ⟨k, _, hk, rfl, ?_, ?_⟩
  · rw [hactions, callbacks_append, callbacks_append, Exchange.callbacks_attempts,
      callbacks_handled, hcallbacks]
    rfl
  · rw [hactions, processMarks_append, processMarks_append, processMarks_attempts, hmarks,
      List.nil_append, processMarks_answer]

/-- **The markers of processing are balanced**, whatever the server answers. -/
theorem balanced_getDataAsync {net : NetworkService} {user : StatsigUser}
    (huser : user.validUtf8 = true)
    (hids : (Utf8.valid net.sessionId && Utf8.valid net.stableId) = true)
    (hservice : ∀ n, env.alive n = true) (hadapter : env.adapterAlive = true)
    (hwritten : env.written = true) (adapter : DataAdapter)
    (current : Option DataAdapterResult) :
    ∃ k, IsLeast {k | 1 ≤ k ∧
        Exchange.Stops constants.kInitializeRetryCount k (env.response k)} k ∧
      env.Balanced k (env.getDataAsync p lib net adapter user current) := by
  obtain ⟨k, latest, hk, -, hcallbacks, hmarks⟩ :=
    env.getDataAsync_spec p lib huser hids hservice hadapter hwritten adapter current
  exact ⟨k, hk, ⟨latest, hcallbacks, hmarks⟩, fun d hroom ↦ Diagnostics.markers_markAll hroom⟩

open initializeResponse (twoTexts emptyText)

/-- A server that is down at first and then has values, which are written. -/
def recovered : FetchEnv where
  response n := if n ≤ 1 then { status := 503 } else { status := 200, text := emptyText 2 }
  started n := .ofNat n
  ended n := .ofNat (n + 1)
  alive _ := true
  processStarted := 3
  processEnded := 4
  fetched := 4
  rehash := Rehash.id _ _
  later := { sdkKey := str "key" }
  adapterAlive := true
  written := true

theorem balanced_recovered :
    ∃ k, IsLeast {k | 1 ≤ k ∧
        Exchange.Stops constants.kInitializeRetryCount k (recovered.response k)} k ∧
      recovered.Balanced k (recovered.getDataAsync .linux twoTexts
        { sessionId := str "session", stableId := str "stable" } { sdkKey := str "key" }
          { userId := some (str "a-user") }
          (some { source := .cache, data := emptyText 1, receivedAt := 1,
                  fullUserHash := str "hash" })) :=
  balanced_getDataAsync .linux twoTexts recovered (by decide) (by decide) (fun _ ↦ rfl) rfl rfl _ _

end FetchEnv

/-! ## The background task -/

/-- **The task of an update goes through the attempts of `postWithRetry`**: it waits for the next
one until the last, and then has the adapter deliver. -/
theorem FetchTask.advance_attempts (p : Platform) (lib : JsonText) (task : FetchTask)
    (ctx : StatsigContext) (live : Bool) (env : FetchEnv) (user : StatsigUser) (k : ℕ)
    (hk : IsLeast {k | 1 ≤ k ∧
      Exchange.Stops constants.kInitializeRetryCount k (env.response k)} k) :
    (∀ n, 1 ≤ n → n < k →
      { task with stage := .posted user n }.advance p lib ctx live (env.response n) env.fetched
          env.rehash =
        (ctx.adapter, .waits { task with stage := .posted user (n + 1 : ℕ) })) ∧
    ({ task with stage := .posted user k }.advance p lib ctx live (env.response k) env.fetched
        env.rehash).2 =
      match (ctx.adapter.onLatest p lib env.rehash user
        (DataAdapter.latestOf p lib user task.current env.fetched (env.response k))).2 with
      | .now result => .returns user result
      | .afterWrite _ result => .waits { task with stage := .writing user result }
      | .thrown => .lost := by
  constructor
  · intro n hpos hlt
    have hretry : shouldRetry constants.kInitializeRetryCount n (env.response n) = true := by
      rw [← Bool.not_eq_false, Exchange.shouldRetry_eq_false_iff]
      exact fun hstops ↦ absurd (hk.2 ⟨hpos, hstops⟩) (not_le.mpr hlt)
    simp only [advance, hretry, if_true]
    push_cast
    rfl
  · have hretry : shouldRetry constants.kInitializeRetryCount k (env.response k) = false :=
      (Exchange.shouldRetry_eq_false_iff _).mpr hk.1.2
    simp only [advance, hretry, Bool.false_eq_true, if_false, DataAdapter.latestOf]
    split <;> simp [*]

end Statsig
