import Statsig.EvaluationStore

/-!
# Exposure events

Whoever reads a gate, a config, an experiment or a parameter of a layer leaves an event behind,
which says what was read and where it came from.
-/

set_option autoImplicit false

namespace Statsig

variable (p : Platform)

/-- `JsonValueFromNumber`, which takes a `long`. -/
def jsonValueFromNumber (n : Int64) : Json := .int (BitVec.ofInt p.longBits n.toInt).toInt

/-- The text of a flag. -/
def flagText (b : Bool) : Str := if b then str "true" else str "false"

/-- `MakeExposureEvent`: the metadata, followed by the details of the evaluation. -/
def makeExposureEvent (eventName : Str) (user : StatsigUser) (details : EvaluationDetails)
    (metadata : List (Str × Str)) (secondaryExposures : List StringMap) (now : Int64) :
    StatsigEventInternal :=
  { eventName
    time := now
    user
    secondaryExposures := some secondaryExposures
    metadata := some (UnorderedMap.ofList (metadata.map (fun e ↦ (e.1, .str e.2)) ++
      [(str "reason", .str details.reason), (str "lcut", jsonValueFromNumber p details.lcut),
       (str "receivedAt", jsonValueFromNumber p details.receivedAt)])) }

/-- `MakeGateExposure` -/
def makeGateExposure (gateName : Str) (user : StatsigUser)
    (gate : DetailedEvaluation GateEvaluation) (now : Int64) : StatsigEventInternal :=
  let evaluation := gate.evaluation.getD {}
  makeExposureEvent p (str "statsig::gate_exposure") user gate.details
    [(str "gate", gateName), (str "gateValue", flagText evaluation.value),
     (str "ruleID", evaluation.ruleId)]
    evaluation.secondaryExposures now

/-- `MakeConfigExposure` -/
def makeConfigExposure (configName : Str) (user : StatsigUser)
    (config : DetailedEvaluation ConfigEvaluation) (now : Int64) : StatsigEventInternal :=
  let evaluation := config.evaluation.getD {}
  makeExposureEvent p (str "statsig::config_exposure") user config.details
    [(str "config", configName), (str "ruleID", evaluation.ruleId)]
    evaluation.secondaryExposures now

/-- `MakeLayerParamExposure`: an explicit parameter is allocated, and has the exposures of the
experiment. -/
def makeLayerParamExposure (layerName paramName : Str) (user : StatsigUser)
    (layer : DetailedEvaluation LayerEvaluation) (now : Int64) : StatsigEventInternal :=
  let evaluation := layer.evaluation.getD {}
  let isExplicit := decide (paramName ∈ evaluation.explicitParameters)
  let allocated := if isExplicit then evaluation.allocatedExperimentName else none
  makeExposureEvent p (str "statsig::layer_exposure") user layer.details
    [(str "config", layerName), (str "ruleID", evaluation.ruleId),
     (str "parameterName", paramName), (str "isExplicitParameter", flagText isExplicit),
     (str "allocatedExperiment", allocated.getD [])]
    (if isExplicit then evaluation.secondaryExposures
      else evaluation.undelegatedSecondaryExposures) now

end Statsig
