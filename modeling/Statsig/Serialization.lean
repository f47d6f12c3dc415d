import Statsig.Hashing

/-!
# Serialisation of users, events and failed batches

The encoders and decoders of `statsig_user_json.hpp`, `statsig_event_json.hpp` and
`retryable_event_payload_json.hpp`.  A decoder returns `none` where the source throws; each
`deserialize` turns that into its failure code.

Each `fields` lists the members in the order in which the source assigns them, so that encoder and
decoder can be compared name by name.
-/

set_option autoImplicit false

namespace Statsig

/-! ## Users -/

namespace statsigUser

/-- `OPT_STR_FROM_JSON` -/
def optStrFromJson (j : Json) (k : Str) : Option (Option Str) :=
  match j.find? k with
  | none => some none
  | some v => v.getStr.map some

/-- `OPT_STR_MAP_FROM_JSON` -/
def optStrMapFromJson (j : Json) (k : Str) : Option (Option StringMap) :=
  match j.find? k with
  | none => some none
  | some v => v.getStrMap.map some

def envToJson (e : StatsigEnvironment) : Json := .ofFields [(str "tier", e.tier.map .str)]

def envFromJson (j : Json) : Option StatsigEnvironment :=
  (optStrFromJson j (str "tier")).map fun tier ↦ ⟨tier⟩

/-- The environment, if there is a member for it. -/
def optEnvFromJson (j : Json) : Option (Option StatsigEnvironment) :=
  match j.find? (str "statsigEnvironment") with
  | none => some none
  | some v => (envFromJson v).map some

/-- The assignments that `ToJson` makes. -/
def fields (u : StatsigUser) : List (Str × Option Json) :=
  [(str "customIDs", if u.customIds.entries = [] then none else some (.ofStrMap u.customIds)),
   (str "userID", u.userId.map .str),
   (str "email", u.email.map .str),
   (str "ip", u.ip.map .str),
   (str "userAgent", u.userAgent.map .str),
   (str "country", u.country.map .str),
   (str "locale", u.locale.map .str),
   (str "appVersion", u.appVersion.map .str),
   (str "custom", u.custom.map .ofStrMap),
   (str "privateAttributes", u.privateAttributes.map .ofStrMap),
   (str "statsigEnvironment", u.statsigEnvironment.map envToJson)]

/-- `statsig_user::ToJson`: `null` for a user that has nothing set. -/
def toJson (u : StatsigUser) : Json := .ofFields (fields u)

/-- `statsig_user::FromJson` -/
def fromJson (j : Json) : Option StatsigUser := do
  let userId ← j.value (str "userID") Json.getStr []
  let customIds ← j.value (str "customIDs") Json.getStrMap ∅
  let email ← optStrFromJson j (str "email")
  let ip ← optStrFromJson j (str "ip")
  let userAgent ← optStrFromJson j (str "userAgent")
  let country ← optStrFromJson j (str "country")
  let locale ← optStrFromJson j (str "locale")
  let appVersion ← optStrFromJson j (str "appVersion")
  let custom ← optStrMapFromJson j (str "custom")
  let privateAttributes ← optStrMapFromJson j (str "privateAttributes")
  let statsigEnvironment ← optEnvFromJson j
  return { userId := some userId, customIds, email, ip, userAgent, country, locale, appVersion,
           custom, privateAttributes, statsigEnvironment }

end statsigUser

/-! ## Events -/

namespace statsigEvent

/-- The assignments that `ToJson` makes: of the two values, the string wins. -/
def fields (event : StatsigEventInternal) : List (Str × Option Json) :=
  [(str "eventName", some (.str event.eventName)),
   (str "time", some (.int event.time.toInt)),
   (str "user", some (statsigUser.toJson event.user)),
   (str "metadata", event.metadata.map .ofMap),
   (str "secondaryExposures",
     event.secondaryExposures.map fun exposures ↦ .arr (exposures.map .ofStrMap)),
   (str "value", (event.stringValue.map .str).or (event.doubleValue.map .float))]

/-- `statsig_event::ToJson` -/
def toJson (event : StatsigEventInternal) : Json := .ofFields (fields event)

/-- What the member "user" stands for. -/
def readUser (userJson : Json) : Option StatsigUser :=
  if userJson.isObject then statsigUser.fromJson userJson else some {}

/-- What the member "metadata" stands for. -/
def readMetadata (metadata : Json) : Option (Option (UnorderedMap Str Json)) :=
  if metadata.isObject then metadata.getMap.map some else some none

/-- What the secondary exposures stand for. -/
def readExposures (exposures : Json) : Option (Option (List StringMap)) :=
  if exposures.isArray then (exposures.getArr.bind fun xs ↦ xs.mapM Json.getStrMap).map some
  else some none

/-- The string value, if "value" is a string. -/
def readStringValue (value : Json) : Option (Option Str) :=
  if value.isString then value.getStr.map some else some none

/-- The double value, if "value" is a number. -/
def readDoubleValue (value : Json) : Option (Option Double) :=
  if value.isString then some none
  else if value.isNumber then value.getDouble.map some else some none

/-- `statsig_event::FromJson` -/
def fromJson (json : Json) : Option StatsigEventInternal := do
  let eventName ← (json.find? (str "eventName")).bind Json.getStr
  let time ← (json.find? (str "time")).bind Json.getInt64
  let user ← (json.value (str "user") some .null).bind readUser
  let metadata ← (json.value (str "metadata") some .null).bind readMetadata
  -- `fields` has this member under another name
  let secondaryExposures ← (json.value (str "secondary_exposures") some .null).bind readExposures
  let value ← json.value (str "value") some .null
  let stringValue ← readStringValue value
  let doubleValue ← readDoubleValue value
  return { eventName, time, user, stringValue, doubleValue, metadata, secondaryExposures }

end statsigEvent

/-! ## Failed batches -/

namespace retryableEventPayload

/-- `retryable_event_payload::ToJson` -/
def toJson (payload : RetryableEventPayload) : Json :=
  .ofFields [(str "attempts", some (.int payload.attempts.toInt)),
    (str "events", some (.arr (payload.events.map statsigEvent.toJson)))]

/-- `retryable_event_payload::FromJson` -/
def fromJson (json : Json) : Option RetryableEventPayload := do
  let attempts ← (json.find? (str "attempts")).bind Json.getInt32
  let eventsJson ← (json.find? (str "events")).bind Json.getArr
  let events ← eventsJson.mapM statsigEvent.fromJson
  return { attempts, events }

/-- The document of a list of payloads. -/
def toJsonArray (failures : List RetryableEventPayload) : Json := .arr (failures.map toJson)

/-- `FromJsonArray` -/
def fromJsonArray (json : Json) : Option (List RetryableEventPayload) :=
  json.getArr.bind fun xs ↦ xs.mapM fromJson

variable (lib : JsonText)

/-- `retryable_event_payload::Serialize`; `none` where `dump` throws.  The source also dumps each
payload by itself and drops the text, which throws only where dumping the whole list would. -/
def serialize (failures : List RetryableEventPayload) : Option (StatsigResult Str) :=
  (lib.dump (toJsonArray failures)).map fun text ↦ { code := .ok, value := some text }

/-- `retryable_event_payload::Deserialize` -/
def deserialize (input : Str) : StatsigResult (List RetryableEventPayload) :=
  match (lib.parse input).bind fromJsonArray with
  | some failures => { code := .ok, value := some failures }
  | none => { code := .jsonFailureRetryableEventPayload }

end retryableEventPayload

end Statsig
