import Statsig.DataAdapter
import Statsig.ValidUtf8

/-!
# Requests and responses

`NetworkService`, without the transport: the bodies of the two requests, what `PostWithRetry` does
with a response, and what the two callers make of the final one.

Building a body can throw, since it may contain a string that is not UTF-8; the functions that do
return `none` then.
-/

set_option autoImplicit false

namespace Statsig

variable (p : Platform) (lib : JsonText)

/-! ## Responses -/

/-- `retryable_codes_` -/
def retryableCodes : List ℤ := [408, 500, 502, 503, 504, 522, 524, 599]

/-- `HasSuccessCode` -/
def hasSuccessCode (response : HttpResponse) : Bool :=
  decide (200 ≤ response.status) && decide (response.status < 300)

def kBadNetworkErr : Str := str "NetworkError_"

/-- `GetStatusCodeErr` -/
def getStatusCodeErr (response : HttpResponse) : Option StringMap :=
  if response.status < 500 then none
  else some (UnorderedMap.ofList
    [(kBadNetworkErr, kBadNetworkErr ++ decimal response.status.toNat)])

/-- `PostWithRetry`, after a response: the attempt is repeated, unless it succeeded, the status
does not warrant it, or it was the last one. -/
def shouldRetry (maxAttempts attempt : ℤ) (response : HttpResponse) : Bool :=
  !hasSuccessCode response && decide (response.status ∈ retryableCodes) &&
    decide (attempt < maxAttempts)

/-! ## The service -/

/-- The two ids that a service sends along: its session's, and what `StableID::Get` returns. -/
structure NetworkService where
  sessionId : Str
  stableId : Str
  deriving DecidableEq, Repr

namespace NetworkService

/-- `GetStatsigMetadata` -/
def getStatsigMetadata (net : NetworkService) : StringMap := UnorderedMap.ofList
  [(str "sdkType", constants.kSdkType), (str "sdkVersion", constants.kSdkVersion),
   (str "sessionID", net.sessionId), (str "stableID", net.stableId)]

end NetworkService

theorem entries_getStatsigMetadata (net : NetworkService) :
    net.getStatsigMetadata.entries =
      [(str "sdkType", constants.kSdkType), (str "sdkVersion", constants.kSdkVersion),
       (str "sessionID", net.sessionId), (str "stableID", net.stableId)] :=
  UnorderedMap.entries_ofList (by simp; decide)

theorem validUtf8_getStatsigMetadata (net : NetworkService) :
    StringMap.validUtf8 net.getStatsigMetadata =
      (Utf8.valid net.sessionId && Utf8.valid net.stableId) := by
  rw [StringMap.validUtf8, entries_getStatsigMetadata]
  simp only [List.all_cons, List.all_nil,
    show Utf8.valid (str "sdkType") = true by decide,
    show Utf8.valid constants.kSdkType = true by decide,
    show Utf8.valid (str "sdkVersion") = true by decide,
    show Utf8.valid constants.kSdkVersion = true by decide,
    show Utf8.valid (str "sessionID") = true by decide,
    show Utf8.valid (str "stableID") = true by decide, Bool.true_and, Bool.and_true]

/-! ## Log event -/

namespace logEventRequestArgs

def toJson (args : LogEventRequestArgs) : Json := .ofFields
  [(str "events", some (.arr (args.events.map statsigEvent.toJson))),
   (str "statsigMetadata", some (.ofStrMap args.statsigMetadata))]

/-- `log_event_request_args::Serialize`; `none` where `dump` throws. -/
def serialize (args : LogEventRequestArgs) : Option (StatsigResult Str) :=
  if args.statsigMetadata.entries = [] then some { code := .jsonFailureLogEventRequestArgs }
  else (lib.dump (toJson args)).map fun text ↦ { code := .ok, value := some text }

theorem validUtf8_toJson (args : LogEventRequestArgs) :
    (toJson args).validUtf8 = (args.events.all StatsigEventInternal.validUtf8 &&
      StringMap.validUtf8 args.statsigMetadata) := by
  rw [toJson, validUtf8_ofFields_of_names (by simp; decide)]
  simp only [List.all_cons, List.all_nil, Option.all_some, Json.validUtf8_arr, List.all_map,
    validUtf8_ofStrMap, Bool.and_true, Function.comp_def, statsigEvent.validUtf8_toJson]

end logEventRequestArgs

namespace NetworkService

/-- `SendEvents` up to the request: the body, `none` where serialising throws.  There is always a
body otherwise, as the metadata are never empty. -/
def sendEventsBody (net : NetworkService) (events : List StatsigEventInternal) : Option Str :=
  (logEventRequestArgs.serialize lib ⟨events, net.getStatsigMetadata⟩).bind StatsigResult.value

/-- **When `SendEvents` throws**: on a string that is not UTF-8. -/
theorem isSome_sendEventsBody (net : NetworkService) (events : List StatsigEventInternal) :
    (net.sendEventsBody lib events).isSome = (events.all StatsigEventInternal.validUtf8 &&
      (Utf8.valid net.sessionId && Utf8.valid net.stableId)) := by
  rw [sendEventsBody, logEventRequestArgs.serialize, if_neg (by simp [entries_getStatsigMetadata]),
    JsonText.dump, logEventRequestArgs.validUtf8_toJson, validUtf8_getStatsigMetadata]
  split
  · rename_i h
    rw [h]
    rfl
  · rename_i h
    rw [Bool.not_eq_true] at h
    rw [h]
    rfl

/-- What the caller of `SendEvents` is told of the final response.  `LogEventResponse` is never
given a value, so a 2xx response is reported as the value `false`. -/
def sendEventsResult (response : HttpResponse) : NetworkResult Bool :=
  if hasSuccessCode response then { code := .ok, value := some false }
  else { code := .networkFailureBadStatusCode, extra := getStatusCodeErr response }

end NetworkService

/-- `LogEventResponse` -/
structure LogEventResponse where
  success : Bool
  deriving DecidableEq, Repr

/-- `log_event_response::Deserialize`, which does not look at the text. -/
def logEventResponse.deserialize (_input : Str) : StatsigResult LogEventResponse := { code := .ok }

namespace NetworkService

/-- The lambda of `SendEvents`, given the final response: what it passes to the callback. -/
def onLogEventResponse (response : HttpResponse) : NetworkResult Bool :=
  if !hasSuccessCode response then
    { code := .networkFailureBadStatusCode, extra := getStatusCodeErr response }
  else
    let res := logEventResponse.deserialize response.text
    { code := res.code
      value := some (res.value.isSome && (res.value.map LogEventResponse.success).getD false) }

theorem onLogEventResponse_eq (response : HttpResponse) :
    onLogEventResponse response = sendEventsResult response := by
  rw [onLogEventResponse, sendEventsResult]
  cases hasSuccessCode response <;> rfl

/-- The callers test for a value: the batch counts as sent exactly on a 2xx response. -/
theorem isSome_sendEventsResult (response : HttpResponse) :
    (sendEventsResult response).value.isSome = hasSuccessCode response := by
  rw [sendEventsResult]
  split <;> simp [*]

end NetworkService

/-! ## Initialize -/

namespace initializeRequestArgs

def toJson (args : InitializeRequestArgs) : Json := .ofFields
  [(str "hash", some (.str args.hash)), (str "user", some (statsigUser.toJson args.user)),
   (str "statsigMetadata", some (.ofStrMap args.statsigMetadata)),
   (str "sinceTime", some (.int args.sinceTime.toInt))]

/-- `initialize_request_args::Serialize`; `none` where `dump` throws. -/
def serialize (args : InitializeRequestArgs) : Option (StatsigResult Str) :=
  (lib.dump (toJson args)).map fun text ↦ { code := .ok, value := some text }

theorem validUtf8_toJson (args : InitializeRequestArgs) :
    (toJson args).validUtf8 = (Utf8.valid args.hash && args.user.validUtf8 &&
      StringMap.validUtf8 args.statsigMetadata) := by
  rw [toJson, validUtf8_ofFields_of_names (by simp; decide)]
  simp only [List.all_cons, List.all_nil, Option.all_some, Json.validUtf8_str,
    statsigUser.validUtf8_toJson, validUtf8_ofStrMap, Bool.and_true,
    show (Json.int args.sinceTime.toInt).validUtf8 = true from rfl, Bool.and_assoc]

end initializeRequestArgs

namespace NetworkService

/-- `DeserializeCacheValueIfValidFor204` -/
def deserializeCacheValueIfValidFor204 (user : StatsigUser)
    (cached : Option DataAdapterResult) : Option InitializeResponse :=
  cached.bind fun result ↦
    if getFullUserHash p user = result.fullUserHash then
      (initializeResponse.deserialize p lib result.data).value
    else none

/-- The arguments of the request that `FetchValues` makes. -/
def fetchValuesArgs (net : NetworkService) (user : StatsigUser)
    (current : Option DataAdapterResult) : InitializeRequestArgs :=
  { hash := str "djb2"
    user
    statsigMetadata := net.getStatsigMetadata
    sinceTime := (((deserializeCacheValueIfValidFor204 p lib user current).filter
      InitializeResponse.hasUpdates).map InitializeResponse.time).getD 0 }

/-- `FetchValues` up to the request: the body, `none` where serialising throws. -/
def fetchValuesBody (net : NetworkService) (user : StatsigUser)
    (current : Option DataAdapterResult) : Option Str :=
  (initializeRequestArgs.serialize lib (net.fetchValuesArgs p lib user current)).bind
    StatsigResult.value

/-- **When the task of `FetchValues` throws**: on a string that is not UTF-8. -/
theorem isSome_fetchValuesBody (net : NetworkService) (user : StatsigUser)
    (current : Option DataAdapterResult) :
    (net.fetchValuesBody p lib user current).isSome = (user.validUtf8 &&
      (Utf8.valid net.sessionId && Utf8.valid net.stableId)) := by
  rw [fetchValuesBody, initializeRequestArgs.serialize, JsonText.dump,
    initializeRequestArgs.validUtf8_toJson]
  simp only [fetchValuesArgs, validUtf8_getStatsigMetadata,
    show Utf8.valid (str "djb2") = true by decide, Bool.true_and]
  split
  · rename_i h
    rw [h]
    rfl
  · rename_i h
    rw [Bool.not_eq_true] at h
    rw [h]
    rfl

/-- `HandleFetchValuesResponse`: what the caller of `FetchValues` is told of the final response. -/
def handleFetchValuesResponse (response : HttpResponse) : NetworkResult InitializeResponse :=
  if !hasSuccessCode response then
    { code := .networkFailureBadStatusCode, extra := getStatusCodeErr response }
  else if response.status = 204 then { code := .ok, value := some {} }
  else
    match initializeResponse.decode p lib response.text with
    | none => { code := .jsonFailureInitializeResponse }
    | some value => { code := .ok, value := some value, raw := response.text }

end NetworkService

end Statsig
