import Statsig.Lib.Json

/-!
# The data of the client

The records that the components exchange, under the names of the source.  Maps are
`UnorderedMap`s, so their iteration order is part of the data and never specified; `time_t` is a
64-bit integer and `int` a 32-bit one, both of which wrap.

Fields that no modelled function reads are left out: of the options, what only configures the
transport, the log level and the timers; of the evaluation of a config or a layer, `id_type`,
`is_device_based`, `is_user_in_experiment` and `is_experiment_active`, which the decoder does not
fill either.
-/

set_option autoImplicit false

namespace Statsig

/-- `std::unordered_map<std::string, std::string>` -/
abbrev StringMap := UnorderedMap Str Str

/-- The outcome that an operation reports. -/
inductive StatsigResultCode where
  | ok
  | unexpectedError
  | invalidSdkKey
  | jsonFailureDataAdapterResult
  | jsonFailureInitializeRequestArgs
  | jsonFailureInitializeResponse
  | jsonFailureLogEventResponse
  | jsonFailureLogEventRequestArgs
  | jsonFailureRetryableEventPayload
  | jsonFailureStatsigUser
  | jsonFailureNoDeserializerFound
  | jsonFailureNoSerializerFound
  | networkFailureBadStatusCode
  | clientUninitialized
  | fileFailureDataAdapterResult
  | fileFailureStableID
  | fileFailureRetryableEventPayload
  | shutdownFailureDanglingThreads
  | sharedPointerLost
  deriving DecidableEq, Repr

/-- A code with what was produced, and with details of the failure. -/
structure StatsigResult (α : Type) where
  code : StatsigResultCode := .ok
  value : Option α := none
  extra : Option StringMap := none
  deriving DecidableEq, Repr

structure StatsigEnvironment where
  tier : Option Str := none
  deriving DecidableEq, Repr

structure StatsigUser where
  userId : Option Str := none
  customIds : StringMap := ∅
  email : Option Str := none
  ip : Option Str := none
  userAgent : Option Str := none
  country : Option Str := none
  locale : Option Str := none
  appVersion : Option Str := none
  custom : Option StringMap := none
  privateAttributes : Option StringMap := none
  statsigEnvironment : Option StatsigEnvironment := none
  deriving DecidableEq, Repr

/-- The options that the modelled code reads. -/
structure StatsigOptions where
  environment : Option StatsigEnvironment := none
  loggingMaxBufferSize : Option Int32 := none
  deriving DecidableEq, Repr

/-! ## Evaluations -/

/-- Where the values in the store come from. -/
inductive ValueSource where
  | uninitialized
  | loading
  | noValues
  | cache
  | network
  | networkNotModified
  | bootstrap
  deriving DecidableEq, Repr

/-- A payload of evaluations as the data adapter hands it out. -/
structure DataAdapterResult where
  source : ValueSource
  data : Str
  receivedAt : Int64
  fullUserHash : Str
  deriving DecidableEq, Repr

structure EvaluationDetails where
  reason : Str
  lcut : Int64
  receivedAt : Int64
  deriving DecidableEq, Repr

structure GateEvaluation where
  name : Str := []
  ruleId : Str := []
  value : Bool := false
  secondaryExposures : List StringMap := []
  idType : Option Str := none
  deriving DecidableEq, Repr

structure ConfigEvaluation where
  name : Str := []
  ruleId : Str := []
  value : Json := .null
  secondaryExposures : List StringMap := []
  groupName : Option Str := none
  deriving DecidableEq, Repr

structure LayerEvaluation extends ConfigEvaluation where
  allocatedExperimentName : Option Str := none
  explicitParameters : List Str := []
  undelegatedSecondaryExposures : List StringMap := []
  deriving DecidableEq, Repr

/-- A parsed payload. -/
structure InitializeResponse where
  time : Int64 := 0
  hasUpdates : Bool := false
  featureGates : UnorderedMap Str GateEvaluation := ∅
  dynamicConfigs : UnorderedMap Str ConfigEvaluation := ∅
  layerConfigs : UnorderedMap Str LayerEvaluation := ∅
  deriving DecidableEq, Repr

/-! ## Events and requests -/

structure StatsigEventInternal where
  eventName : Str
  time : Int64 := 0
  user : StatsigUser := {}
  stringValue : Option Str := none
  doubleValue : Option Double := none
  metadata : Option (UnorderedMap Str Json) := none
  secondaryExposures : Option (List StringMap) := none
  deriving DecidableEq, Repr

/-- A batch whose sending failed, with the number of attempts made. -/
structure RetryableEventPayload where
  attempts : Int32
  events : List StatsigEventInternal
  deriving DecidableEq, Repr

structure LogEventRequestArgs where
  events : List StatsigEventInternal
  statsigMetadata : StringMap
  deriving DecidableEq, Repr

structure InitializeRequestArgs where
  hash : Str
  user : StatsigUser
  statsigMetadata : StringMap
  sinceTime : Int64 := 0
  deriving DecidableEq, Repr

structure HttpResponse where
  text : Str := []
  status : ℤ := -1
  sdkRegion : Str := []
  error : Option Str := none
  deriving DecidableEq, Repr

namespace constants

def kInitializeRetryCount : ℤ := 3
def kLogEventRetryCount : ℤ := 2
def kCachedEvaluationsPrefix : Str := str "statsig.cached.evaluations."
def kMaxCachedEvaluationsCount : ℕ := 10
def kFailedEventPayloadRetryCount : Int32 := 3
def kMaxCachedFailedEventPayloadsCount : ℕ := 5
def kMaxQueuedEvents : Int32 := 50
def kMaxDiagnosticsMarkers : ℕ := 30
def kSdkType : Str := str "cpp-client"
def kSdkVersion : Str := str "0.0.10"

end constants

end Statsig
