import Statsig.EventLogger

/-!
# Diagnostic markers

What `diagnostic_markers.hpp` puts into a marker, and what comes of it when the batch with the
diagnostics event is written.

The marker of a failed request quotes the body, and cuts it after a hundred bytes.
`keepsSerialisable_networkEnd_iff` says which bodies that does not break.
-/

set_option autoImplicit false

namespace Statsig

/-- `ResultCodeToString` -/
def resultCodeToString : StatsigResultCode → Str
  | .jsonFailureInitializeRequestArgs => str "JsonFailureInitializeRequestArgs"
  | .jsonFailureInitializeResponse => str "JsonFailureInitializeResponse"
  | .jsonFailureLogEventResponse => str "JsonFailureLogEventResponse"
  | .jsonFailureNoDeserializerFound => str "JsonFailureNoDeserializerFound"
  | .jsonFailureStatsigUser => str "JsonFailureStatsigUser"
  | .ok => str "Ok"
  | .unexpectedError => str "UnexpectedError"
  | .invalidSdkKey => str "InvalidSdkKey"
  | .jsonFailureDataAdapterResult => str "JsonFailureDataAdapterResult"
  | .jsonFailureRetryableEventPayload => str "JsonFailureRetryableEventPayload"
  | .networkFailureBadStatusCode => str "NetworkFailureBadStatusCode"
  | .clientUninitialized => str "ClientUninitialized"
  | .jsonFailureNoSerializerFound => str "JsonFailureNoSerializerFound"
  | .jsonFailureLogEventRequestArgs => str "JsonFailureLogEventRequestArgs"
  | .fileFailureDataAdapterResult => str "FileFailureDataAdapterResult"
  | .fileFailureStableID => str "FileFailureStableID"
  | .fileFailureRetryableEventPayload => str "FileFailureRetryableEventPayload"
  | .shutdownFailureDanglingThreads => str "ShutdownFailureDanglingThreads"
  | .sharedPointerLost => str "SharedPointerLost"

namespace markers

/-- `Base`, with the values that a marker adds. -/
def base (now : Int64) (action key : Str) (step : Option Str) (values : List (Str × Option Json)) :
    Json :=
  .ofFields ([(str "action", some (.str action)), (str "key", some (.str key)),
    (str "timestamp", some (.int now.toInt)), (str "step", step.map .str)] ++ values)

/-- `Base::Snippet` -/
def snippet (s : Str) : Str := if 100 < s.length then s.take 100 else s

/-- What a marker says of an error. -/
def errorData (text : Str) : Json :=
  .ofFields [(str "name", some (.str text)), (str "message", some (.str text))]

/-- `NetworkBase` -/
def networkBase (now : Int64) (action : Str) (attempt : ℤ) (key : Str)
    (values : List (Str × Option Json)) : Json :=
  base now action key (some (str "network_request"))
    ((str "attempt", some (.int attempt)) :: values)

/-- `NetworkStart` -/
def networkStart (now : Int64) (attempt : ℤ) (key : Str := str "initialize") : Json :=
  networkBase now (str "start") attempt key []

/-- The error that `NetworkEnd` reports: the transport's, or a snippet of the body. -/
def networkError (status : ℤ) (responseText : Str) (error : Option Str) : Option Str :=
  match error with
  | some error => some error
  | none => if 200 ≤ status ∧ status < 300 then none else some (snippet responseText)

/-- `NetworkEnd` -/
def networkEnd (now : Int64) (attempt status : ℤ) (responseText sdkRegion : Str)
    (error : Option Str) (key : Str := str "initialize") : Json :=
  networkBase now (str "end") attempt key
    [(str "success", some (.bool (decide (200 ≤ status ∧ status < 300)))),
     (str "statusCode", if 0 < status then some (.int status) else none),
     (str "sdkRegion", if sdkRegion = [] then none else some (.str sdkRegion)),
     (str "error", (networkError status responseText error).map errorData)]

/-- `ProcessBase` -/
def processBase (now : Int64) (action : Str) (values : List (Str × Option Json)) : Json :=
  base now action (str "initialize") (some (str "process")) values

/-- `ProcessStart` -/
def processStart (now : Int64) : Json := processBase now (str "start") []

/-- `ProcessEnd` -/
def processEnd (now : Int64) (isSuccessful : Bool) : Json :=
  processBase now (str "end") [(str "success", some (.bool isSuccessful))]

/-! ## Strings in markers -/

theorem validUtf8_base (now : Int64) {action key : Str} {step : Option Str}
    {values : List (Str × Option Json)} (haction : Utf8.valid action = true)
    (hkey : Utf8.valid key = true) (hstep : step.all Utf8.valid = true)
    (hvalues : ∀ k ∈ values.map Prod.fst, Utf8.valid k = true) :
    (base now action key step values).validUtf8 =
      values.all fun f ↦ f.2.all Json.validUtf8 := by
  have hnames : ∀ k ∈ ([(str "action", some (Json.str action)), (str "key", some (.str key)),
      (str "timestamp", some (.int now.toInt)), (str "step", step.map .str)] ++ values).map
        Prod.fst, Utf8.valid k = true := by
    intro k hk
    rw [List.map_append, List.mem_append] at hk
    rcases hk with hk | hk
    · simp only [List.map_cons, List.map_nil, List.mem_cons, List.not_mem_nil, or_false] at hk
      rcases hk with rfl | rfl | rfl | rfl <;> decide
    · exact hvalues k hk
  have hstep' : (step.map Json.str).all Json.validUtf8 = true := by
    rw [Option.all_map]
    exact hstep
  rw [base, validUtf8_ofFields_of_names hnames, List.all_append]
  simp only [List.all_cons, List.all_nil, Option.all_some, Json.validUtf8_str, haction, hkey,
    hstep', show (Json.int now.toInt).validUtf8 = true from rfl, Bool.and_self, Bool.true_and]

theorem validUtf8_errorData (text : Str) : (errorData text).validUtf8 = Utf8.valid text := by
  rw [errorData, validUtf8_ofFields_of_names (by simp; decide)]
  simp

/-- **The strings of `NetworkEnd`** that depend on the response: the region and the error. -/
theorem validUtf8_networkEnd (now : Int64) (attempt status : ℤ) (responseText sdkRegion : Str)
    (error : Option Str) :
    (networkEnd now attempt status responseText sdkRegion error).validUtf8 =
      (Utf8.valid sdkRegion && (networkError status responseText error).all Utf8.valid) := by
  have hregion : (if sdkRegion = [] then none else some (Json.str sdkRegion)).all
      Json.validUtf8 = Utf8.valid sdkRegion := by
    split
    · rename_i h
      rw [h]
      rfl
    · rfl
  have hstatus : (if 0 < status then some (Json.int status) else none).all Json.validUtf8 =
      true := by
    split <;> rfl
  have herror : ((networkError status responseText error).map errorData).all Json.validUtf8 =
      (networkError status responseText error).all Utf8.valid := by
    rw [Option.all_map]
    congr 1
    exact funext validUtf8_errorData
  rw [networkEnd, networkBase, validUtf8_base now (by decide) (by decide) (by decide)
    (by simp; decide)]
  simp only [List.all_cons, List.all_nil, Option.all_some, hregion, hstatus, herror,
    show (Json.int attempt).validUtf8 = true from rfl,
    show ∀ b, (Json.bool b).validUtf8 = true from fun _ ↦ rfl, Bool.true_and, Bool.and_true]

/-- The other markers of a fetch do not depend on what the server says. -/
theorem validUtf8_networkStart (now : Int64) (attempt : ℤ) :
    (networkStart now attempt).validUtf8 = true := by
  rw [networkStart, networkBase,
    validUtf8_base now (by decide) (by decide) (by decide) (by simp; decide)]
  rfl

theorem validUtf8_processStart (now : Int64) : (processStart now).validUtf8 = true := by
  rw [processStart, processBase,
    validUtf8_base now (by decide) (by decide) (by decide) (by simp)]
  rfl

theorem validUtf8_processEnd (now : Int64) (isSuccessful : Bool) :
    (processEnd now isSuccessful).validUtf8 = true := by
  rw [processEnd, processBase,
    validUtf8_base now (by decide) (by decide) (by decide) (by simp; decide)]
  rfl

/-- **Where the cut is harmless**: if nothing is cut, or the cut falls between characters. -/
theorem valid_snippet_iff {s : Str} (h : Utf8.valid s = true) :
    Utf8.valid (snippet s) = true ↔ ∀ b, s[100]? = some b → ¬ Utf8.IsContinuation b := by
  rw [snippet]
  split
  · exact Utf8.valid_take_iff h 100
  · rename_i hlen
    refine iff_of_true h fun b hb ↦ absurd hb ?_
    rw [List.getElem?_eq_none (by omega)]
    simp

end markers

/-! ## The event with the markers -/

theorem Diagnostics.validUtf8_pendingEvent {d : Diagnostics} {now : Int64}
    {event : StatsigEventInternal} (h : d.pendingEvent now = some event) :
    event.validUtf8 = (d.user.validUtf8 && d.markers.all Json.validUtf8) := by
  simp only [pendingEvent] at h
  split at h
  · exact absurd h (by simp)
  · obtain rfl := Option.some_inj.mp h
    have hmetadata : (UnorderedMap.ofList [(str "markers", Json.arr d.markers),
        (str "context", .str (str "initialize"))]).entries =
          [(str "markers", Json.arr d.markers), (str "context", .str (str "initialize"))] :=
      UnorderedMap.entries_ofList (by simp; decide)
    simp only [StatsigEventInternal.validUtf8, Option.all_some, Option.all_none, hmetadata,
      List.all_cons, List.all_nil, Json.validUtf8_arr, Json.validUtf8_str,
      show Utf8.valid (str "statsig::diagnostics") = true by decide,
      show Utf8.valid (str "markers") = true by decide,
      show Utf8.valid (str "context") = true by decide,
      show Utf8.valid (str "initialize") = true by decide, Bool.true_and, Bool.and_true]

namespace EventLogger

/-- **A flush of what is UTF-8 can be sent.** -/
theorem isSome_sendEventsBody_flush (lib : JsonText) {net : NetworkService} {logger : EventLogger}
    {d : Diagnostics} {now : Int64} {batch : List StatsigEventInternal}
    (hids : (Utf8.valid net.sessionId && Utf8.valid net.stableId) = true)
    (hevents : ∀ e ∈ logger.events, e.validUtf8 = true) (huser : d.user.validUtf8 = true)
    (hmarkers : ∀ m ∈ d.markers, m.validUtf8 = true)
    (hbatch : (logger.flush d now).batch = some batch) :
    (net.sendEventsBody lib batch).isSome = true := by
  have hadded : ∀ e ∈ (logger.flush d now).added, e.validUtf8 = true := by
    intro e he
    have hpending : d.pendingEvent now = some e := by
      rw [← he]
      simp only [flush, flushImpl]
      split <;> rfl
    rw [Diagnostics.validUtf8_pendingEvent hpending, huser, List.all_eq_true.mpr hmarkers]
    rfl
  have hall : ∀ e ∈ batch, e.validUtf8 = true := by
    intro e he
    have hparts := batch_flushImpl logger d now
    rw [show (logger.flushImpl d now).batch = some batch from hbatch, Option.getD_some] at hparts
    rw [hparts, List.mem_append] at he
    rcases he with he | he
    · exact hevents e he
    · exact hadded e (Option.mem_toList.mp he)
  rw [NetworkService.isSome_sendEventsBody, hids, List.all_eq_true.mpr hall]
  rfl

end EventLogger

/-- The strings of a marker are UTF-8, and so whatever else is in a batch with it can be sent. -/
structure KeepsSerialisable (lib : JsonText) (marker : Json) : Prop where
  valid : marker.validUtf8 = true
  sent : ∀ (net : NetworkService) (logger : EventLogger) (d : Diagnostics) (now : Int64)
    (batch : List StatsigEventInternal),
    (Utf8.valid net.sessionId && Utf8.valid net.stableId) = true →
    (∀ e ∈ logger.events, e.validUtf8 = true) → d.user.validUtf8 = true →
    (∀ m ∈ d.markers, m = marker ∨ m.validUtf8 = true) →
    (logger.flush d now).batch = some batch → (net.sendEventsBody lib batch).isSome = true

/-- What `NetworkEnd` says of a response. -/
def HttpResponse.networkEnd (now : Int64) (attempt : ℤ) (response : HttpResponse) : Json :=
  markers.networkEnd now attempt response.status response.text response.sdkRegion response.error

/-- The strings of a response are UTF-8. -/
def HttpResponse.validUtf8 (response : HttpResponse) : Bool :=
  Utf8.valid response.text && Utf8.valid response.sdkRegion && response.error.all Utf8.valid

/-- No character of the body is cut: the body is not quoted, or the hundredth byte is its last one
or the last one of a character. -/
def HttpResponse.QuotedWhole (response : HttpResponse) : Prop :=
  response.error.isSome = true ∨ hasSuccessCode response = true ∨
    ∀ b, response.text[100]? = some b → ¬ Utf8.IsContinuation b

theorem validUtf8_networkEnd_iff (now : Int64) (attempt : ℤ) {response : HttpResponse}
    (h : response.validUtf8 = true) :
    (response.networkEnd now attempt).validUtf8 = true ↔ response.QuotedWhole := by
  simp only [HttpResponse.validUtf8, Bool.and_eq_true] at h
  obtain ⟨⟨htext, hregion⟩, herror⟩ := h
  rw [HttpResponse.networkEnd, markers.validUtf8_networkEnd, hregion, Bool.true_and,
    HttpResponse.QuotedWhole]
  cases hsome : response.error with
  | some error =>
    rw [hsome] at herror
    exact iff_of_true herror (.inl rfl)
  | none =>
    simp only [markers.networkError, hasSuccessCode, Option.isSome_none, Bool.false_eq_true,
      false_or, Bool.and_eq_true, decide_eq_true_eq]
    split
    · rename_i hsuccess
      exact iff_of_true rfl (.inl hsuccess)
    · rename_i hfailed
      rw [Option.all_some, markers.valid_snippet_iff htext]
      simp [hfailed]

/-- **When the diagnostics can be written**: exactly if no character of the body was cut. -/
theorem keepsSerialisable_networkEnd_iff (lib : JsonText) (now : Int64) (attempt : ℤ)
    {response : HttpResponse} (h : response.validUtf8 = true) :
    KeepsSerialisable lib (response.networkEnd now attempt) ↔ response.QuotedWhole := by
  rw [← validUtf8_networkEnd_iff now attempt h]
  refine ⟨KeepsSerialisable.valid, fun hvalid ↦ ⟨hvalid, ?_⟩⟩
  intro net logger d now' batch hids hevents huser hmarkers hbatch
  refine EventLogger.isSome_sendEventsBody_flush lib hids hevents huser (fun m hm ↦ ?_) hbatch
  rcases hmarkers m hm with rfl | hm
  · exact hvalid
  · exact hm

/-- The body of an answer of more than a hundred bytes, with a two-byte character that ends with the
hundredth. -/
def alignedBody : Str := List.replicate 98 0x61 ++ [0xC3, 0xA9] ++ str "and so on"

theorem keepsSerialisable_alignedBody :
    KeepsSerialisable (.ofTable [] (by decide))
      (HttpResponse.networkEnd 0 1 { text := alignedBody, status := 503 }) :=
  (keepsSerialisable_networkEnd_iff _ 0 1 (by decide +kernel)).mpr (.inr (by decide +kernel))

/-- The body of an answer with a two-byte character over the hundredth byte. -/
def straddlingBody : Str := List.replicate 99 0x61 ++ [0xC3, 0xA9]

/-- The character is cut in two. -/
theorem not_forall_keepsSerialisable :
    ¬ ∀ (lib : JsonText) (now : Int64) (attempt : ℤ) (response : HttpResponse),
      response.validUtf8 = true → KeepsSerialisable lib (response.networkEnd now attempt) := by
  intro h
  have hkeeps := h (.ofTable [] (by decide)) 0 1 { text := straddlingBody, status := 500 }
    (by decide)
  have hvalid := hkeeps.valid
  rw [HttpResponse.networkEnd, markers.validUtf8_networkEnd] at hvalid
  exact absurd hvalid (by decide)

end Statsig
