import Statsig.ErrorBoundary
import Statsig.Processing

/-!
# Reports of errors

What an error boundary posts, and what an initialisation makes it post.

An initialisation goes through two boundaries, the context's and the network service's, from two
threads.  `reports_of_perm` says that the order of their calls does not matter as long as at most
one of them logs, and `reports_initializeAsync` which one does.
-/

set_option autoImplicit false

namespace Statsig

variable (p : Platform) (lib : JsonText)

/-! ## One report -/

structure ErrorBoundaryRequestArgs where
  tag : Str
  exception : Str
  info : List Str
  extra : Option StringMap
  deriving DecidableEq, Repr

namespace errorBoundaryRequestArgs

def toJson (args : ErrorBoundaryRequestArgs) : Json := .ofFields
  [(str "tag", some (.str args.tag)), (str "exception", some (.str args.exception)),
   (str "info", some (.arr (args.info.map .str))), (str "extra", args.extra.map .ofStrMap)]

/-- `error_boundary_request_args::Serialize`; `none` where `dump` throws. -/
def serialize (args : ErrorBoundaryRequestArgs) : Option (StatsigResult Str) :=
  (lib.dump (toJson args)).map fun text ↦ { code := .ok, value := some text }

theorem validUtf8_toJson (args : ErrorBoundaryRequestArgs) :
    (toJson args).validUtf8 = (Utf8.valid args.tag && Utf8.valid args.exception &&
      args.info.all Utf8.valid && args.extra.all StringMap.validUtf8) := by
  have hextra : (args.extra.map Json.ofStrMap).all Json.validUtf8 =
      args.extra.all StringMap.validUtf8 := by
    rw [Option.all_map]
    congr 1
    exact funext validUtf8_ofStrMap
  rw [toJson, validUtf8_ofFields_of_names (by simp; decide)]
  simp only [List.all_cons, List.all_nil, Option.all_some, Json.validUtf8_str,
    Json.validUtf8_arr, List.all_map, Function.comp_def, hextra, Bool.and_true, Bool.and_assoc]

end errorBoundaryRequestArgs

namespace constants

def kDefaultApi : Str := str "https://statsigapi.net"
def kEndpointException : Str := str "/v1/sdk_exception"

end constants

/-- What is handed to `NetworkClient::Post`. -/
structure HttpRequest where
  api : Str
  path : Str
  headers : StringMap
  body : Str
  deriving DecidableEq, Repr

/-- A report, and the request it is posted with. -/
structure ExceptionReport where
  args : ErrorBoundaryRequestArgs
  request : HttpRequest
  deriving DecidableEq, Repr

/-- `ErrorBoundary` -/
structure ErrorBoundary where
  sdkKey : Str
  /-- The errors that were logged. -/
  seen : List Str := []
  deriving DecidableEq, Repr

namespace ErrorBoundary

/-- `ErrorFromResultCode` -/
def errorFromResultCode (code : StatsigResultCode) (extra : Option StringMap) : Str :=
  (extra.bind (·.find? kBadNetworkErr)).getD (resultCodeToString code)

/-- `LogError`, with `GetStackTrace`'s answer: the boundary afterwards, and the report that is
posted.  An exception from the serialiser is swallowed. -/
def logError (trace : List Str) (boundary : ErrorBoundary) (tag error : Str)
    (extra : Option StringMap) : ErrorBoundary × Option ExceptionReport :=
  if boundary.seen.contains error then (boundary, none)
  else
    let args : ErrorBoundaryRequestArgs := { tag, exception := error, info := trace, extra }
    ({ boundary with seen := error :: boundary.seen },
     ((errorBoundaryRequestArgs.serialize lib args).bind StatsigResult.value).map fun body ↦
       { args
         request := {
           api := constants.kDefaultApi
           path := constants.kEndpointException
           headers := UnorderedMap.ofList
             [(str "STATSIG-API-KEY", boundary.sdkKey),
              (str "STATSIG-SDK-TYPE", constants.kSdkType),
              (str "STATSIG-SDK-VERSION", constants.kSdkVersion)]
           body } })

/-- A new error is reported, if its strings are UTF-8. -/
theorem logError_of_valid {trace : List Str} {boundary : ErrorBoundary} {tag error : Str}
    {extra : Option StringMap} (hnew : error ∉ boundary.seen)
    (htrace : ∀ frame ∈ trace, Utf8.valid frame = true) (htag : Utf8.valid tag = true)
    (herror : Utf8.valid error = true) (hextra : extra.all StringMap.validUtf8 = true) :
    (logError lib trace boundary tag error extra).2.map (·.args.exception) = some error := by
  have hdump : lib.dump (errorBoundaryRequestArgs.toJson
      { tag, exception := error, info := trace, extra }) =
        some (lib.text (errorBoundaryRequestArgs.toJson
          { tag, exception := error, info := trace, extra })) := by
    rw [JsonText.dump, errorBoundaryRequestArgs.validUtf8_toJson, htag, herror, hextra,
      List.all_eq_true.mpr htrace]
    rfl
  simp [logError, hnew, errorBoundaryRequestArgs.serialize, hdump]

end ErrorBoundary

/-! ## Two boundaries -/

/-- Who has a boundary. -/
inductive BoundaryOwner where
  | context
  | network
  deriving DecidableEq, Repr

/-- A call of `HandleBadResult`, or of `LogError` with the text of an exception. -/
structure BoundaryCall where
  owner : BoundaryOwner
  tag : Str
  outcome : Except Str (StatsigResultCode × Option StringMap)

namespace BoundaryCall

/-- What the call logs, if it logs anything. -/
def logs (call : BoundaryCall) : Option (Str × Option StringMap) :=
  match call.outcome with
  | .error what => some (what, none)
  | .ok (code, extra) =>
    if ErrorBoundary.handleBadResult code extra then
      some (ErrorBoundary.errorFromResultCode code extra, extra) else none

end BoundaryCall

/-- The two boundaries of a client. -/
structure Boundaries where
  context : ErrorBoundary
  network : ErrorBoundary
  deriving DecidableEq, Repr

namespace Boundaries

/-- The boundaries of a new client. -/
def fresh (sdkKey : Str) : Boundaries := { context := { sdkKey }, network := { sdkKey } }

/-- One call. -/
def call (trace : List Str) (s : Boundaries) (c : BoundaryCall) :
    Boundaries × Option ExceptionReport :=
  match c.logs with
  | none => (s, none)
  | some (error, extra) =>
    match c.owner with
    | .context =>
      let (context, report) := s.context.logError lib trace c.tag error extra
      ({ s with context }, report)
    | .network =>
      let (network, report) := s.network.logError lib trace c.tag error extra
      ({ s with network }, report)

/-- The reports of a sequence of calls. -/
def reports (trace : List Str) : Boundaries → List BoundaryCall → List ExceptionReport
  | _, [] => []
  | s, c :: calls => (s.call lib trace c).2.toList ++ reports trace (s.call lib trace c).1 calls

theorem reports_filter (trace : List Str) (s : Boundaries) (calls : List BoundaryCall) :
    s.reports lib trace calls = s.reports lib trace (calls.filter (·.logs.isSome)) := by
  induction calls generalizing s with
  | nil => rfl
  | cons c calls ih =>
    cases hlogs : c.logs with
    | none =>
      have hcall : s.call lib trace c = (s, none) := by rw [call, hlogs]
      rw [List.filter_cons_of_neg (by simp [hlogs]), reports, hcall, ← ih s]
      rfl
    | some logged =>
      rw [List.filter_cons_of_pos (by simp [hlogs]), reports, reports, ← ih]

/-- **The order of the calls does not matter** when at most one of them logs. -/
theorem reports_of_perm (trace : List Str) (s : Boundaries) {calls calls' : List BoundaryCall}
    (h : calls'.Perm calls) (hone : (calls.filter (·.logs.isSome)).length ≤ 1) :
    s.reports lib trace calls' = s.reports lib trace calls := by
  have hfilter := h.filter (·.logs.isSome)
  rw [reports_filter, reports_filter lib trace s calls]
  congr 1
  match hlist : calls.filter (·.logs.isSome) with
  | [] =>
    rw [hlist] at hfilter
    exact (List.perm_nil.mp hfilter).trans hlist.symm
  | [c] =>
    rw [hlist] at hfilter
    exact (List.perm_singleton.mp hfilter).trans hlist.symm
  | _ :: _ :: _ =>
    rw [hlist] at hone
    exact absurd hone (by simp)

end Boundaries

/-! ## An initialisation -/

/-- How an initialisation ends: the codes its callback gets, and the calls of the boundaries. -/
structure Initialisation where
  codes : List StatsigResultCode
  calls : List BoundaryCall

namespace FetchEnv

open NetworkAction

variable (env : FetchEnv)

/-- What the `Capture` of `FetchValues` ends with, `what` being the text of an exception. -/
def fetchValuesOutcome (net : NetworkService) (user : StatsigUser)
    (current : Option DataAdapterResult) (what : Str) :
    Except Str (StatsigResultCode × Option StringMap) :=
  match net.fetchValuesBody p lib user current with
  | none => .error what
  | some _ => .ok (.ok, none)

/-- `InitializeAsync`, with the calls of the threads one after the other: those of `UpdateUserAsync`
and of `InitializeAsync` itself, which end with Ok, then those of the background task. -/
def initializeAsync (sdkKey : Str) (user : Option StatsigUser) (options : Option StatsigOptions)
    (net : NetworkService) (dir : CacheDir) (what : Str) : Initialisation :=
  if sdkKey = [] then { codes := [.invalidSdkKey], calls := [] }
  else
    let ctx := StatsigContext.create sdkKey user options net dir
    let (cached, client, adapter) :=
      ctx.updateUserAsync p lib env.rehash ctx.adapter ctx.user
    let current := (adapter.currentFor p lib env.rehash client.user cached.value).1
    let delivered := callbacks (env.getDataAsync p lib net adapter client.user cached.value)
    { codes := delivered.map StatsigResult.code
      calls :=
        [⟨.context, str "UpdateUserAsync", .ok (.ok, none)⟩,
         ⟨.context, str "InitializeAsync", .ok (.ok, none)⟩] ++
        delivered.map (fun result ↦
          ⟨.context, str "UpdateUserAsync", .ok (result.code, result.extra)⟩) ++
        [⟨.network, str "FetchValues", fetchValuesOutcome p lib net client.user current what⟩] }

end FetchEnv

/-- The code that an initialisation is to end with, given the final response. -/
def HttpResponse.finalCode (response : HttpResponse) : StatsigResultCode :=
  if !hasSuccessCode response then .networkFailureBadStatusCode
  else if response.status ≠ 204 ∧ initializeResponse.decode p lib response.text = none then
    .jsonFailureInitializeResponse
  else .ok

/-- The exceptions that it is to report. -/
def HttpResponse.finalExceptions (response : HttpResponse) : List Str :=
  match response.finalCode p lib with
  | .networkFailureBadStatusCode =>
    if 500 ≤ response.status then [kBadNetworkErr ++ decimal response.status.toNat] else []
  | .jsonFailureInitializeResponse => [str "JsonFailureInitializeResponse"]
  | _ => []

namespace DataAdapter

open NetworkService

/-- **What the adapter delivers** tells the codes apart, and names a status from 500 on. -/
theorem code_latestOf (user : StatsigUser) (current : Option DataAdapterResult) (now : Int64)
    (response : HttpResponse) :
    (latestOf p lib user current now response).code = response.finalCode p lib ∧
      (latestOf p lib user current now response).extra =
        if hasSuccessCode response then none else getStatusCodeErr response := by
  simp only [latestOf, handleFetchValuesResponse, HttpResponse.finalCode]
  cases hasSuccessCode response with
  | false => exact ⟨rfl, rfl⟩
  | true =>
    by_cases hstatus : response.status = 204
    · simp [hstatus, fetchLatest]
    · cases hdecode : initializeResponse.decode p lib response.text <;>
        simp [hstatus, fetchLatest]

end DataAdapter

theorem logs_finalCode (owner : BoundaryOwner) (tag : Str) (response : HttpResponse) :
    BoundaryCall.logs ⟨owner, tag, .ok (response.finalCode p lib,
        if hasSuccessCode response then none else getStatusCodeErr response)⟩ =
      if !hasSuccessCode response then
        if 500 ≤ response.status then
          some (kBadNetworkErr ++ decimal response.status.toNat, getStatusCodeErr response)
        else none
      else if response.finalCode p lib = .ok then none
      else some (str "JsonFailureInitializeResponse", none) := by
  cases hsuccess : hasSuccessCode response with
  | false =>
    simp only [HttpResponse.finalCode, hsuccess, Bool.not_false, if_true, Bool.false_eq_true,
      if_false, BoundaryCall.logs, getStatusCodeErr]
    by_cases hstatus : response.status < 500
    · rw [if_pos hstatus, if_neg (show ¬ 500 ≤ response.status by omega)]
      rfl
    · have hfind : (UnorderedMap.ofList [(kBadNetworkErr, kBadNetworkErr ++
          decimal response.status.toNat)]).find? kBadNetworkErr =
            some (kBadNetworkErr ++ decimal response.status.toNat) := by
        rw [UnorderedMap.find?_eq_some_iff, UnorderedMap.entries_ofList (by simp)]
        exact List.mem_cons_self
      rw [if_neg hstatus, if_pos (show 500 ≤ response.status by omega)]
      simp [ErrorBoundary.handleBadResult, ErrorBoundary.errorFromResultCode, hfind]
  | true =>
    simp only [HttpResponse.finalCode, hsuccess, Bool.not_true, Bool.false_eq_true, if_false,
      if_true, BoundaryCall.logs]
    split <;> rfl

theorem fst_logs_finalCode (owner : BoundaryOwner) (tag : Str) (response : HttpResponse) :
    ((BoundaryCall.logs ⟨owner, tag, .ok (response.finalCode p lib,
        if hasSuccessCode response then none else getStatusCodeErr response)⟩).map
          Prod.fst).toList = response.finalExceptions p lib := by
  rw [logs_finalCode]
  cases hsuccess : hasSuccessCode response with
  | false =>
    have hcode : response.finalCode p lib = .networkFailureBadStatusCode := by
      simp [HttpResponse.finalCode, hsuccess]
    simp only [HttpResponse.finalExceptions, hcode, Bool.not_false, if_true]
    split <;> rfl
  | true =>
    simp only [HttpResponse.finalExceptions, HttpResponse.finalCode, hsuccess, Bool.not_true,
      Bool.false_eq_true, if_false]
    split <;> rfl

theorem valid_logs_finalCode {owner : BoundaryOwner} {tag : Str} {response : HttpResponse}
    {error : Str} {extra : Option StringMap}
    (h : BoundaryCall.logs ⟨owner, tag, .ok (response.finalCode p lib,
      if hasSuccessCode response then none else getStatusCodeErr response)⟩ =
        some (error, extra)) :
    Utf8.valid error = true ∧ extra.all StringMap.validUtf8 = true := by
  have hnetwork : Utf8.valid (kBadNetworkErr ++ decimal response.status.toNat) = true :=
    Utf8.valid_append (by decide) (valid_decimal _)
  rw [logs_finalCode] at h
  split_ifs at h
  · obtain ⟨rfl, rfl⟩ := Prod.mk.inj (Option.some_inj.mp h)
    refine ⟨hnetwork, ?_⟩
    rw [getStatusCodeErr]
    split
    · rfl
    · rw [Option.all_some, StringMap.validUtf8, UnorderedMap.entries_ofList (by simp)]
      simp only [List.all_cons, List.all_nil, hnetwork,
        show Utf8.valid kBadNetworkErr = true by decide, Bool.and_self]
  · obtain ⟨rfl, rfl⟩ := Prod.mk.inj (Option.some_inj.mp h)
    exact ⟨by decide, rfl⟩

/-- A boundary of a new client reports what a call logs. -/
theorem exceptions_fresh {trace : List Str} (htrace : ∀ frame ∈ trace, Utf8.valid frame = true)
    (sdkKey : Str) {c : BoundaryCall} (htag : Utf8.valid c.tag = true)
    (hvalid : ∀ error extra, c.logs = some (error, extra) →
      Utf8.valid error = true ∧ extra.all StringMap.validUtf8 = true) :
    ((Boundaries.fresh sdkKey).reports lib trace [c]).map (·.args.exception) =
      (c.logs.map Prod.fst).toList := by
  rw [Boundaries.reports, Boundaries.reports, List.append_nil, Boundaries.call]
  cases hlogs : c.logs with
  | none => rfl
  | some logged =>
    obtain ⟨error, extra⟩ := logged
    obtain ⟨herror, hextra⟩ := hvalid error extra hlogs
    have hlog : ∀ boundary : ErrorBoundary, boundary.seen = [] →
        (boundary.logError lib trace c.tag error extra).2.toList.map (·.args.exception) =
          [error] := fun boundary hseen ↦ by
      obtain ⟨report, hreport, hexception⟩ := Option.map_eq_some_iff.mp
        (ErrorBoundary.logError_of_valid lib (hseen ▸ List.not_mem_nil) htrace htag herror hextra)
      rw [hreport]
      exact congrArg (fun e ↦ [e]) hexception
    cases c.owner with
    | context => exact hlog _ rfl
    | network => exact hlog _ rfl

namespace FetchEnv

open NetworkAction

/-- The four calls of the boundaries in an initialisation: of the two synchronous parts, of the
callback, which has the final result, and of the task of `FetchValues`. -/
def boundaryCalls (response : HttpResponse) : List BoundaryCall :=
  [⟨.context, str "UpdateUserAsync", .ok (.ok, none)⟩,
   ⟨.context, str "InitializeAsync", .ok (.ok, none)⟩,
   ⟨.context, str "UpdateUserAsync", .ok (response.finalCode p lib,
     if hasSuccessCode response then none else getStatusCodeErr response)⟩,
   ⟨.network, str "FetchValues", .ok (.ok, none)⟩]

/-- **An initialisation**, with its final response. -/
theorem initializeAsync_eq (env : FetchEnv) {sdkKey : Str} (hkey : sdkKey ≠ [])
    {user : Option StatsigUser} {options : Option StatsigOptions}
    (huser : (normalizeUser (user.getD {}) (options.getD {})).validUtf8 = true)
    {net : NetworkService}
    (hids : (Utf8.valid net.sessionId && Utf8.valid net.stableId) = true)
    (hservice : ∀ n, env.alive n = true) (hadapter : env.adapterAlive = true)
    (hwritten : env.written = true) (dir : CacheDir) (what : Str) :
    ∃ k, IsLeast {k | 1 ≤ k ∧
        Exchange.Stops constants.kInitializeRetryCount k (env.response k)} k ∧
      env.initializeAsync p lib sdkKey user options net dir what =
        { codes := [(env.response k).finalCode p lib]
          calls := boundaryCalls p lib (env.response k) } := by
  set ctx := StatsigContext.create sdkKey user options net dir with hctx
  set started := ctx.updateUserAsync p lib env.rehash ctx.adapter ctx.user with hstarted
  have hclient : started.2.1.user.validUtf8 = true := by
    rw [hstarted, ClientState.updateUserAsync, ClientState.user_beginUpdate]
    exact huser
  set current := (started.2.2.currentFor p lib env.rehash started.2.1.user started.1.value).1
    with hcurrent
  obtain ⟨k, latest, hk, hlatest, hcallbacks, -⟩ := env.getDataAsync_spec p lib hclient hids
    hservice hadapter hwritten started.2.2 started.1.value
  obtain ⟨hcode, hextra⟩ := DataAdapter.code_latestOf p lib started.2.1.user current env.fetched
    (env.response k)
  rw [← hlatest] at hcode hextra
  have houtcome : fetchValuesOutcome p lib net started.2.1.user current what =
      .ok (.ok, none) := by
    have hbody : (net.fetchValuesBody p lib started.2.1.user current).isSome = true := by
      rw [NetworkService.isSome_fetchValuesBody, hclient, hids]
      rfl
    obtain ⟨body, hbody⟩ := Option.isSome_iff_exists.mp hbody
    rw [fetchValuesOutcome, hbody]
  refine ⟨k, hk, ?_⟩
  rw [boundaryCalls, ← hcode, ← hextra]
  simp only [initializeAsync, if_neg hkey, ← hctx, ← hstarted, ← hcurrent, hcallbacks, houtcome]
  rfl

/-- **Whichever thread calls its boundary first**, only the call with the final result may log. -/
theorem exceptions_boundaryCalls (sdkKey : Str) {trace : List Str}
    (htrace : ∀ frame ∈ trace, Utf8.valid frame = true) {response : HttpResponse}
    {calls : List BoundaryCall} (hperm : calls.Perm (boundaryCalls p lib response)) :
    ((Boundaries.fresh sdkKey).reports lib trace calls).map (·.args.exception) =
      response.finalExceptions p lib := by
  set final : BoundaryCall := ⟨.context, str "UpdateUserAsync",
    .ok (response.finalCode p lib, if hasSuccessCode response then none
      else getStatusCodeErr response)⟩ with hfinal
  have hfilter : (boundaryCalls p lib response).filter (·.logs.isSome) =
      [final].filter (·.logs.isSome) := by
    have hok : ∀ owner tag, BoundaryCall.logs ⟨owner, tag, .ok (.ok, none)⟩ = none :=
      fun _ _ ↦ rfl
    rw [boundaryCalls, ← hfinal]
    cases hlogs : final.logs <;> simp [hok, hlogs]
  have htag : Utf8.valid final.tag = true :=
    show Utf8.valid (str "UpdateUserAsync") = true by decide
  have hone := List.length_filter_le (fun c : BoundaryCall ↦ c.logs.isSome) [final]
  rw [Boundaries.reports_of_perm lib trace _ hperm (hfilter ▸ hone), Boundaries.reports_filter,
    hfilter, ← Boundaries.reports_filter, exceptions_fresh lib htrace sdkKey htag
      fun error extra hlogs ↦ valid_logs_finalCode p lib hlogs]
  exact fst_logs_finalCode p lib _ _ _

/-- A server that answers 590. -/
def failing : FetchEnv :=
  { recovered with response := fun _ ↦ { text := str "\x7b\x7d", status := 590 } }

end FetchEnv

end Statsig
