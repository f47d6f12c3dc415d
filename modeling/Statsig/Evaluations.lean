import Statsig.Client
import Statsig.DecoderSafety
import Statsig.EventLogger
import Statsig.Exposures

/-!
# Reading gates, configs and layers

What `CheckGate`, `GetFeatureGate`, `GetDynamicConfig`, `GetExperiment` and `GetLayer` return, and
what `GetValue` makes of it.  Each returns a bare object, without rule or value, unless the client
is initialised and the task that fills the object gets to its end; an exception in the task is
captured, and the caller does not learn of it.

`gatesAgree_iff` and `reads_getLayer_iff` say what that does to whoever reads the value.
-/

set_option autoImplicit false

namespace Statsig

variable (p : Platform)

/-! ## What is returned -/

/-- `EvaluatedSpec`, with its base `BaseSpec`. -/
structure EvaluatedSpec (α : Type) where
  name : Str
  ruleId : Str
  groupName : Option Str
  details : EvaluationDetails
  value : α
  deriving DecidableEq, Repr

/-- `evaluation_details::Uninitialized` -/
def uninitializedDetails : EvaluationDetails :=
  { reason := str "Uninitialized", lcut := 0, receivedAt := 0 }

/-- The constructor of `EvaluatedSpec` without a value, which initialises the value to what its type
has by default. -/
def EvaluatedSpec.bare {α : Type} (default : α) (name : Str) : EvaluatedSpec α :=
  { name, ruleId := [], groupName := none, details := uninitializedDetails, value := default }

/-- `FeatureGate`.  A `bool` has no default: the value may be undefined. -/
abbrev FeatureGate := EvaluatedSpec (Option Bool)

/-- `DynamicConfig` -/
abbrev DynamicConfig := EvaluatedSpec Json

/-- `Experiment` -/
abbrev Experiment := EvaluatedSpec Json

/-- What the callback of a layer has captured, apart from the logger. -/
structure LogExposure where
  layerName : Str
  user : StatsigUser
  layer : DetailedEvaluation LayerEvaluation
  deriving DecidableEq, Repr

/-- `Layer`; `none` for an empty `std::function`. -/
structure Layer extends EvaluatedSpec Json where
  logParamExposure : Option LogExposure
  deriving DecidableEq, Repr

/-- `FeatureGate::GetValue` -/
def EvaluatedSpec.getValue (gate : FeatureGate) : Option Bool := gate.value

/-- `GetJsonValueFromJsonObject` -/
def getJsonValueFromJsonObject (key : Str) (object : Json) : Except Fault Json :=
  if object.isObject then object.index key else .ok .null

/-! ## The client -/

/-- The part of `StatsigContext` that is read, and what reading changes. -/
structure ReadContext extends ClientState where
  sdkKey : Str
  logger : EventLogger
  diagnostics : Diagnostics := {}
  deriving DecidableEq, Repr

/-- `StatsigClient` -/
structure StatsigClient where
  context : Option ReadContext := none
  deriving DecidableEq, Repr

/-- What a call returns, with the client afterwards and the batch that was handed to a worker. -/
structure Read (α : Type) where
  result : α
  client : StatsigClient
  batch : Option (List StatsigEventInternal) := none
  deriving DecidableEq, Repr

/-- How far the task of a call gets. -/
inductive TaskFate where
  | completes
  /-- An exception is captured before the event is enqueued, or the context does not lock. -/
  | stopsBefore
  /-- An exception is captured after that. -/
  | stopsAfter
  deriving DecidableEq, Repr

namespace StatsigClient

/-- `EnsureInitialized`: the context, if there is one. -/
def ensureInitialized (client : StatsigClient) : Option ReadContext :=
  client.context.filter fun ctx ↦ decide (ctx.sdkKey ≠ [])

/-- What the calls that enqueue an exposure have in common: the task enqueues the event, and fills
the object. -/
def readSpec {α : Type} (client : StatsigClient) (fate : TaskFate) (bare : α)
    (evaluate : ReadContext → StatsigEventInternal × α) (now : Int64) : Read α :=
  match client.ensureInitialized with
  | none => { result := bare, client }
  | some ctx =>
    let (event, full) := evaluate ctx
    let flushed := ctx.logger.enqueue ctx.diagnostics event now
    let logged : StatsigClient :=
      { context := some
          { ctx with logger := flushed.logger, diagnostics := flushed.diagnostics } }
    match fate with
    | .completes => { result := full, client := logged, batch := flushed.batch }
    | .stopsBefore => { result := bare, client }
    | .stopsAfter => { result := bare, client := logged, batch := flushed.batch }

/-- `GetFeatureGate` -/
def getFeatureGate (client : StatsigClient) (fate : TaskFate) (gateName : Str) (now : Int64) :
    Read FeatureGate :=
  client.readSpec fate (.bare none gateName) (fun ctx ↦
    let gate := ctx.store.getGate p gateName
    let evaluation := gate.evaluation.getD {}
    (makeGateExposure p gateName ctx.user gate now,
     { name := gateName
       ruleId := evaluation.ruleId
       groupName := none
       details := gate.details
       value := some evaluation.value })) now

/-- `CheckGate` -/
def checkGate (client : StatsigClient) (fate : TaskFate) (gateName : Str) (now : Int64) :
    Read (Option Bool) :=
  match client.ensureInitialized with
  | none => { result := some false, client }
  | some _ =>
    let read := client.getFeatureGate p fate gateName now
    { result := read.result.getValue, client := read.client, batch := read.batch }

/-- `GetDynamicConfig` -/
def getDynamicConfig (client : StatsigClient) (fate : TaskFate) (configName : Str) (now : Int64) :
    Read DynamicConfig :=
  client.readSpec fate (.bare .null configName) (fun ctx ↦
    let config := ctx.store.getConfig p configName
    let evaluation := config.evaluation.getD {}
    (makeConfigExposure p configName ctx.user config now,
     { name := configName
       ruleId := evaluation.ruleId
       groupName := none
       details := config.details
       value := evaluation.value })) now

/-- `GetExperiment`, which unlike `GetDynamicConfig` passes the name of the group on. -/
def getExperiment (client : StatsigClient) (fate : TaskFate) (experimentName : Str)
    (now : Int64) : Read Experiment :=
  client.readSpec fate (.bare .null experimentName) (fun ctx ↦
    let experiment := ctx.store.getConfig p experimentName
    let evaluation := experiment.evaluation.getD {}
    (makeConfigExposure p experimentName ctx.user experiment now,
     { name := experimentName
       ruleId := evaluation.ruleId
       groupName := evaluation.groupName
       details := experiment.details
       value := evaluation.value })) now

/-- The layer that `GetLayer` returns from a store. -/
def fullLayer (ctx : ReadContext) (layerName : Str) : Layer :=
  let layer := ctx.store.getLayer p layerName
  let evaluation := layer.evaluation.getD {}
  { name := layerName
    ruleId := evaluation.ruleId
    groupName := evaluation.groupName
    details := layer.details
    value := evaluation.value
    logParamExposure := some { layerName, user := ctx.user, layer } }

/-- `GetLayer`, which leaves the exposures to those who read the layer's parameters. -/
def getLayer (client : StatsigClient) (fate : TaskFate) (layerName : Str) : Read Layer :=
  let bare : Layer := { EvaluatedSpec.bare .null layerName with logParamExposure := none }
  match client.ensureInitialized with
  | none => { result := bare, client }
  | some ctx =>
    match fate with
    | .completes => { result := fullLayer p ctx layerName, client }
    | .stopsBefore | .stopsAfter => { result := bare, client }

end StatsigClient

/-- The callback that `GetValue` calls before it looks at the value, with the logger that its weak
pointer locks: what has become of the logger. -/
def Layer.exposeParam (layer : Layer) (parameterName : Str)
    (logger : Option (EventLogger × Diagnostics)) (now : Int64) : Except Fault (Option Flushed) :=
  match layer.logParamExposure with
  | none => .error .thrown
  | some expo => .ok (logger.map fun (logger, diagnostics) ↦
      logger.enqueue diagnostics
        (makeLayerParamExposure p expo.layerName parameterName expo.user expo.layer now) now)

/-- `Layer::GetValue`: the parameter, and what has become of the logger. -/
def Layer.getValue (layer : Layer) (parameterName : Str)
    (logger : Option (EventLogger × Diagnostics)) (now : Int64) :
    Except Fault (Json × Option Flushed) := do
  let flushed ← layer.exposeParam p parameterName logger now
  let value ← getJsonValueFromJsonObject parameterName layer.value
  return (value, flushed)

/-! ## Gates -/

section Gates

variable (client : StatsigClient)

/-- An initialised client is one that has a context, with a key. -/
theorem StatsigClient.ensureInitialized_eq_some_iff {client : StatsigClient} {ctx : ReadContext} :
    client.ensureInitialized = some ctx ↔ client.context = some ctx ∧ ctx.sdkKey ≠ [] := by
  simp [ensureInitialized, Option.filter_eq_some_iff]

theorem StatsigClient.result_readSpec {α : Type} (fate : TaskFate) (bare : α)
    (evaluate : ReadContext → StatsigEventInternal × α) (now : Int64) :
    (client.readSpec fate bare evaluate now).result =
      match client.ensureInitialized, fate with
      | some ctx, .completes => (evaluate ctx).2
      | _, _ => bare := by
  rw [readSpec]
  cases client.ensureInitialized with
  | none => rfl
  | some ctx => cases fate <;> rfl

/-- Reading changes neither the user nor the store. -/
theorem StatsigClient.toClientState_readSpec {α : Type} (fate : TaskFate) (bare : α)
    (evaluate : ReadContext → StatsigEventInternal × α) (now : Int64) :
    (client.readSpec fate bare evaluate now).client.context.map ReadContext.toClientState =
      client.context.map ReadContext.toClientState := by
  rw [readSpec]
  cases hctx : client.ensureInitialized with
  | none => rfl
  | some ctx =>
    obtain ⟨hcontext, -⟩ := ensureInitialized_eq_some_iff.mp hctx
    cases fate with
    | completes => simp [hcontext]
    | stopsBefore => rfl
    | stopsAfter => simp [hcontext]

/-- The evaluation of a gate that a client reads from its store, if it reads one. -/
def StatsigClient.storedGate (gateName : Str) : Option GateEvaluation :=
  client.ensureInitialized.bind fun ctx ↦ (ctx.store.getGate p gateName).evaluation

/-- `GetFeatureGate` returns a value that is defined, is what `CheckGate` returns, and is false
when no evaluation was read. -/
def GatesAgree (client : StatsigClient) (fate checkFate : TaskFate) (gateName : Str)
    (now : Int64) : Prop :=
  ∃ value, (client.getFeatureGate p fate gateName now).result.getValue = some value ∧
    (client.checkGate p checkFate gateName now).result = some value ∧
    (client.storedGate p gateName = none → value = false)

/-- The value of a gate is defined when the task that reads it gets to its end. -/
theorem StatsigClient.getValue_getFeatureGate (fate : TaskFate) (gateName : Str) (now : Int64) :
    (client.getFeatureGate p fate gateName now).result.getValue =
      match client.ensureInitialized, fate with
      | some _, .completes =>
        some (((client.storedGate p gateName).map GateEvaluation.value).getD false)
      | _, _ => none := by
  rw [getFeatureGate, result_readSpec, storedGate]
  cases client.ensureInitialized with
  | none => rfl
  | some ctx =>
    cases fate with
    | completes =>
      simp only [Option.bind_some, EvaluatedSpec.getValue]
      cases (ctx.store.getGate p gateName).evaluation <;> rfl
    | stopsBefore => rfl
    | stopsAfter => rfl

/-- **When `CheckGate` and `GetFeatureGate` agree**: on an initialised client, if neither call is
stopped by an exception. -/
theorem gatesAgree_iff (fate checkFate : TaskFate) (gateName : Str) (now : Int64) :
    GatesAgree p client fate checkFate gateName now ↔
      (∃ ctx, client.context = some ctx ∧ ctx.sdkKey ≠ []) ∧
        fate = .completes ∧ checkFate = .completes := by
  simp only [← StatsigClient.ensureInitialized_eq_some_iff, GatesAgree, StatsigClient.checkGate,
    StatsigClient.getValue_getFeatureGate]
  cases hctx : client.ensureInitialized with
  | none => simp
  | some ctx =>
    cases fate <;> cases checkFate <;> simp
    intro hnone
    simp [hnone]

/-- A client that was never initialised, or that was shut down, has no value. -/
theorem not_forall_gatesAgree :
    ¬ ∀ (p : Platform) (client : StatsigClient) (fate checkFate : TaskFate) (gateName : Str)
      (now : Int64), GatesAgree p client fate checkFate gateName now := by
  intro h
  obtain ⟨value, hvalue, -⟩ := h .linux {} .completes .completes (str "gate") 0
  exact absurd hvalue (by simp [StatsigClient.getValue_getFeatureGate,
    StatsigClient.ensureInitialized])

end Gates

/-! ## Parameters of layers -/

namespace Layer

variable (layer : Layer) (parameterName : Str) (logger : Option (EventLogger × Diagnostics))
  (now : Int64)

/-- `GetValue` returns: the parameter if the value is an object that has it, and null otherwise. -/
def Reads : Prop :=
  ∃ value flushed, layer.getValue p parameterName logger now = .ok (value, flushed) ∧
    value =
      if layer.value.isObject then (layer.value.find? parameterName).getD .null else .null

/-- **When a layer reads a parameter**: it has a callback, and its value is not an object that lacks
the parameter. -/
theorem reads_iff :
    layer.Reads p parameterName logger now ↔
      layer.logParamExposure.isSome = true ∧
        (layer.value.isObject = true → layer.value.has parameterName = true) := by
  rw [Reads, getValue, exposeParam, getJsonValueFromJsonObject, Json.index, Json.has]
  cases layer.logParamExposure with
  | none => simp [bind, Except.bind]
  | some expo =>
    by_cases hobj : layer.value.isObject = true
    · cases hfind : layer.value.find? parameterName with
      | none => simp [hobj, bind, Except.bind]
      | some value => simp [hobj, bind, Except.bind, pure, Except.pure]
    · simp [hobj, bind, Except.bind, pure, Except.pure]

end Layer

namespace StatsigClient

/-- The value that a store has for a layer. -/
def layerValue (ctx : ReadContext) (layerName : Str) : Json :=
  ((ctx.store.getLayer p layerName).evaluation.map fun e ↦ e.value).getD .null

theorem value_fullLayer (ctx : ReadContext) (layerName : Str) :
    (fullLayer p ctx layerName).value = layerValue p ctx layerName := by
  rw [layerValue, fullLayer]
  cases (ctx.store.getLayer p layerName).evaluation <;> rfl

/-- **When the parameters of a layer can be read**: on an initialised client, if `GetLayer` is not
stopped by an exception, and what the store has for the layer is not an object without the
parameter. -/
theorem reads_getLayer_iff (client : StatsigClient) (fate : TaskFate)
    (layerName parameterName : Str) (logger : Option (EventLogger × Diagnostics)) (now : Int64) :
    (client.getLayer p fate layerName).result.Reads p parameterName logger now ↔
      fate = .completes ∧ ∃ ctx, client.context = some ctx ∧ ctx.sdkKey ≠ [] ∧
        ((layerValue p ctx layerName).isObject = true →
          (layerValue p ctx layerName).has parameterName = true) := by
  simp only [← and_assoc, ← ensureInitialized_eq_some_iff]
  rw [Layer.reads_iff, getLayer]
  cases hctx : client.ensureInitialized with
  | none => simp
  | some ctx =>
    cases fate with
    | completes =>
      simp only [value_fullLayer, true_and, Option.some_inj, exists_eq_left']
      simp [fullLayer]
    | stopsBefore => simp
    | stopsAfter => simp

/-- A client that was never initialised, or that was shut down, throws. -/
theorem not_forall_reads_getLayer :
    ¬ ∀ (p : Platform) (client : StatsigClient) (fate : TaskFate) (layerName parameterName : Str)
      (logger : Option (EventLogger × Diagnostics)) (now : Int64),
      (client.getLayer p fate layerName).result.Reads p parameterName logger now := by
  intro h
  obtain ⟨value, flushed, hvalue, -⟩ := h .linux {} .completes (str "layer") (str "param") none 0
  exact absurd hvalue (by simp [getLayer, ensureInitialized, Layer.getValue,
    Layer.exposeParam, bind, Except.bind])

end StatsigClient

end Statsig
