import Statsig.Hashing

/-!
# The payload of evaluations

The decoder of `initialize_response_json.hpp`.  It reads members in two ways: `at` throws when the
member is missing, `operator[]` on a constant document must not be used on a missing member at all.
`Fault` keeps the two apart.

`initializeResponse.deserialize` is what the rest of the client sees.  A text on which the source
has no defined behaviour counts as one that is rejected.
-/

set_option autoImplicit false

/-! ## Access to members -/

/-- How a decoder ends without a value. -/
inductive Fault where
  /-- An exception, which `Deserialize` catches. -/
  | thrown
  /-- The precondition of `operator[]` was violated. -/
  | undefined
  deriving DecidableEq, Repr

namespace Json

/-- A conversion that throws where `none` is. -/
def orThrow {α : Type} : Option α → Except Fault α
  | some a => .ok a
  | none => .error .thrown

/-- `j.at(k)` -/
def atKey (j : Json) (k : Str) : Except Fault Json := orThrow (j.find? k)

/-- `j[k]` on a constant document. -/
def index (j : Json) (k : Str) : Except Fault Json :=
  if j.isObject then
    match j.find? k with
    | some v => .ok v
    | none => .error .undefined
  else .error .thrown

/-- `j.at(k).get_to(x)` -/
def getTo {α : Type} (j : Json) (k : Str) (get : Json → Option α) : Except Fault α :=
  (j.atKey k).bind fun v ↦ orThrow (get v)

/-- `if (j.contains(k)) { x = j[k].get<T>(); }` -/
def getIfPresent {α : Type} (j : Json) (k : Str) (get : Json → Option α) :
    Except Fault (Option α) :=
  match j.find? k with
  | none => .ok none
  | some v => (orThrow (get v)).map some

/-- `get<bool>()` -/
def getBool : Json → Option Bool
  | .bool b => some b
  | _ => none

/-- `get<std::vector<std::string>>()` -/
def getStrList (j : Json) : Option (List Str) := j.getArr.bind fun xs ↦ xs.mapM getStr

/-- `get<std::vector<SecondaryExposure>>()` -/
def getStrMapList (j : Json) : Option (List (UnorderedMap Str Str)) :=
  j.getArr.bind fun xs ↦ xs.mapM getStrMap

end Json

namespace Statsig

/-! ## Evaluations -/

variable (p : Platform) (lib : JsonText)

namespace gateEvaluation

/-- `gate_evaluation::FromJson` -/
def fromJson (j : Json) : Except Fault GateEvaluation := do
  let name ← j.getTo (str "name") Json.getStr
  let ruleId ← j.getTo (str "rule_id") Json.getStr
  let secondaryExposures ← j.getTo (str "secondary_exposures") Json.getStrMapList
  let value ← j.getTo (str "value") Json.getBool
  let idType ← j.getIfPresent (str "id_type") Json.getStr
  return { name, ruleId, value, secondaryExposures, idType }

end gateEvaluation

namespace configEvaluation

/-- `config_evaluation::FromJson` -/
def fromJson (j : Json) : Except Fault ConfigEvaluation := do
  let name ← j.getTo (str "name") Json.getStr
  let ruleId ← j.getTo (str "rule_id") Json.getStr
  let secondaryExposures ← j.getTo (str "secondary_exposures") Json.getStrMapList
  let value ← j.index (str "value")
  let groupName ← j.getIfPresent (str "group_name") Json.getStr
  return { name, ruleId, value, secondaryExposures, groupName }

end configEvaluation

namespace layerEvaluation

/-- `layer_evaluation::FromJson` -/
def fromJson (j : Json) : Except Fault LayerEvaluation := do
  let name ← j.getTo (str "name") Json.getStr
  let ruleId ← j.getTo (str "rule_id") Json.getStr
  let secondaryExposures ← j.getTo (str "secondary_exposures") Json.getStrMapList
  let value ← j.index (str "value")
  let explicitParameters ← j.getTo (str "explicit_parameters") Json.getStrList
  let undelegatedSecondaryExposures ←
    j.getTo (str "undelegated_secondary_exposures") Json.getStrMapList
  let groupName ← j.getIfPresent (str "group_name") Json.getStr
  let allocatedExperimentName ← j.getIfPresent (str "allocated_experiment_name") Json.getStr
  return { name, ruleId, value, secondaryExposures, groupName, allocatedExperimentName,
           explicitParameters, undelegatedSecondaryExposures }

end layerEvaluation

/-! ## The whole payload -/

namespace initializeResponse

/-- One of the three maps of evaluations. -/
def readEvaluations {α : Type} (fromJson : Json → Except Fault α) (j : Json) (k : Str) :
    Except Fault (UnorderedMap Str α) := do
  let evaluations ← j.index k
  let entries ← Json.orThrow evaluations.getMap
  let read ← (p.memberOrder.toFun entries.entries).mapM fun entry ↦
    (fromJson entry.2).map fun e ↦ (entry.1, e)
  return UnorderedMap.ofList read

/-- `initialize_response::FromJson` -/
def fromJson (j : Json) : Except Fault InitializeResponse := do
  let time ← j.getTo (str "time") Json.getInt64
  let hasUpdates ← j.getTo (str "has_updates") Json.getBool
  let featureGates ← readEvaluations p gateEvaluation.fromJson j (str "feature_gates")
  let dynamicConfigs ← readEvaluations p configEvaluation.fromJson j (str "dynamic_configs")
  let layerConfigs ← readEvaluations p layerEvaluation.fromJson j (str "layer_configs")
  return { time, hasUpdates, featureGates, dynamicConfigs, layerConfigs }

/-- What a text decodes to, if it does. -/
def decode (input : Str) : Option InitializeResponse :=
  (lib.parse input).bind fun j ↦ (fromJson p j).toOption

/-- `initialize_response::Deserialize` -/
def deserialize (input : Str) : StatsigResult InitializeResponse :=
  match decode p lib input with
  | some response => { code := .ok, value := some response }
  | none => { code := .jsonFailureInitializeResponse }

/-- Only UTF-8 is ever accepted. -/
theorem valid_of_decode {input : Str} {response : InitializeResponse}
    (h : decode p lib input = some response) : Utf8.valid input = true := by
  obtain ⟨j, hj, -⟩ := Option.bind_eq_some_iff.mp h
  exact (lib.valid_of_parse input j hj).1

@[simp] theorem deserialize_value (input : Str) :
    (deserialize p lib input).value = decode p lib input := by
  rw [deserialize]
  split <;> simp [*]

/-- The document of a payload without evaluations. -/
def emptyDoc (time : ℕ) : Json := .ofFields
  [(str "time", some (.int time)), (str "has_updates", some (.bool true)),
   (str "feature_gates", some (.obj [])), (str "dynamic_configs", some (.obj [])),
   (str "layer_configs", some (.obj []))]

example : fromJson .linux (emptyDoc 7) = .ok { time := 7, hasUpdates := true } := by
  decide +kernel

example : fromJson .linux (.ofFields [(str "time", some (.int 7)),
    (str "has_updates", some (.bool false))]) = .error .undefined := by
  decide +kernel

/-- The text of a payload without evaluations. -/
def emptyText (time : ℕ) : Str :=
  str "\x7b\"time\":" ++ decimal time ++ str (",\"has_updates\":true,\"feature_gates\":\x7b\x7d," ++
    "\"dynamic_configs\":\x7b\x7d,\"layer_configs\":\x7b\x7d\x7d")

/-- A library that reads the payloads of the times 1 and 2 as they are written. -/
noncomputable def twoTexts : JsonText :=
  .ofTable [(emptyDoc 1, emptyText 1), (emptyDoc 2, emptyText 2)] (by decide +kernel)

theorem decode_twoTexts_nil (p : Platform) : decode p twoTexts [] = none := by
  have hparse : twoTexts.parse [] = none := JsonText.parse_nil_ofTable _ (by decide +kernel)
  rw [decode, hparse]
  rfl

end initializeResponse

end Statsig
