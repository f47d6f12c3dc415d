import Statsig.InitializeResponse

/-!
# The evaluation store

The values of the current user, with where they came from.  `Reset` forgets the values and
`Finalize` closes a load that brought none; in between the store says that it is loading.

Each method runs under the store's own lock, so each is one function of the store.
-/

set_option autoImplicit false

namespace Statsig

/-- Where the values in the store came from, and when. -/
structure SourceInfo where
  source : ValueSource := .uninitialized
  lcut : Int64 := 0
  receivedAt : Int64 := 0
  deriving DecidableEq, Repr

/-- `GetValueSourceString` -/
def getValueSourceString : ValueSource → Str
  | .uninitialized => str "Uninitialized"
  | .loading => str "Loading"
  | .noValues => str "NoValues"
  | .cache => str "Cache"
  | .network => str "Network"
  | .networkNotModified => str "NetworkNotModified"
  | .bootstrap => str "Bootstrap"

theorem getValueSourceString_injective : Function.Injective getValueSourceString := by
  intro a b h
  cases a <;> cases b <;> first | rfl | exact absurd h (by decide)

/-- `EvaluationStore` -/
structure EvaluationStore where
  values : Option InitializeResponse := none
  sourceInfo : SourceInfo := {}
  deriving DecidableEq, Repr

/-- `UnrecognizedFromSourceInfo` -/
def unrecognizedFromSourceInfo (info : SourceInfo) : EvaluationDetails :=
  let result := getValueSourceString info.source
  if info.source = .uninitialized ∨ info.source = .noValues then
    { reason := result, lcut := 0, receivedAt := 0 }
  else
    { reason := result ++ str ":Unrecognized", lcut := info.lcut, receivedAt := info.receivedAt }

/-- `RecognizedFromSourceInfo` -/
def recognizedFromSourceInfo (info : SourceInfo) : EvaluationDetails :=
  { reason := getValueSourceString info.source ++ str ":Recognized"
    lcut := info.lcut
    receivedAt := info.receivedAt }

/-- What a lookup gives. -/
structure DetailedEvaluation (α : Type) where
  evaluation : Option α
  details : EvaluationDetails
  deriving DecidableEq, Repr

namespace EvaluationStore

variable (p : Platform) (lib : JsonText)

/-- `Reset` -/
def reset (_ : EvaluationStore) : EvaluationStore :=
  { values := none, sourceInfo := { source := .loading } }

/-- `Finalize` -/
def finalize (store : EvaluationStore) : EvaluationStore :=
  if store.values.isSome then store
  else { store with sourceInfo := { source := .noValues } }

/-- `GetSourceDetails` -/
def getSourceDetails (store : EvaluationStore) : EvaluationDetails :=
  { reason := getValueSourceString store.sourceInfo.source
    lcut := store.sourceInfo.lcut
    receivedAt := store.sourceInfo.receivedAt }

/-- The store with the values of a payload. -/
def load (result : DataAdapterResult) (values : InitializeResponse) : EvaluationStore :=
  { values := some values
    sourceInfo :=
      { source := result.source, lcut := values.time, receivedAt := result.receivedAt } }

/-- `SetValuesFromDataAdapterResult` -/
def setValuesFromDataAdapterResult (store : EvaluationStore) (result : Option DataAdapterResult) :
    StatsigResultCode × EvaluationStore :=
  match result with
  | none => (.ok, store)
  | some result =>
    match initializeResponse.decode p lib result.data with
    | none => (.jsonFailureInitializeResponse, store)
    | some values => (.ok, load result values)

/-- The store afterwards. -/
def setValues (store : EvaluationStore) (result : Option DataAdapterResult) : EvaluationStore :=
  (store.setValuesFromDataAdapterResult p lib result).2

/-- What `GetGate`, `GetConfig` and `GetLayer` have in common: each looks the hash of the name up in
one of the maps. -/
def lookup {α : Type} (evaluations : InitializeResponse → UnorderedMap Str α)
    (store : EvaluationStore) (name : Str) : DetailedEvaluation α :=
  match store.values.bind fun values ↦ (evaluations values).find? (hashing.djb2 p name) with
  | none => { evaluation := none, details := unrecognizedFromSourceInfo store.sourceInfo }
  | some evaluation =>
    { evaluation := some evaluation, details := recognizedFromSourceInfo store.sourceInfo }

/-- `GetGate` -/
def getGate (store : EvaluationStore) (gateName : Str) : DetailedEvaluation GateEvaluation :=
  store.lookup p InitializeResponse.featureGates gateName

/-- `GetConfig` -/
def getConfig (store : EvaluationStore) (configName : Str) : DetailedEvaluation ConfigEvaluation :=
  store.lookup p InitializeResponse.dynamicConfigs configName

/-- `GetLayer` -/
def getLayer (store : EvaluationStore) (layerName : Str) : DetailedEvaluation LayerEvaluation :=
  store.lookup p InitializeResponse.layerConfigs layerName

/-! ## What the methods do -/

@[simp] theorem values_reset (store : EvaluationStore) : store.reset.values = none := rfl

@[simp] theorem source_reset (store : EvaluationStore) :
    store.reset.sourceInfo.source = .loading := rfl

@[simp] theorem values_load (result : DataAdapterResult) (values : InitializeResponse) :
    (load result values).values = some values := rfl

@[simp] theorem values_finalize (store : EvaluationStore) :
    store.finalize.values = store.values := by
  rw [finalize]
  split <;> rfl

theorem finalize_of_isSome {store : EvaluationStore} (h : store.values.isSome = true) :
    store.finalize = store := if_pos h

/-- A load that brought no values ends with `NoValues`. -/
theorem finalize_of_none {store : EvaluationStore} (h : store.values = none) :
    store.finalize = { store with sourceInfo := { source := .noValues } } :=
  if_neg (by simp [h])

theorem finalize_eq_self_iff {store : EvaluationStore} :
    store.finalize = store ↔
      store.values.isSome = true ∨ store.sourceInfo = { source := .noValues } := by
  cases hv : store.values with
  | some v =>
    have hsome : store.values.isSome = true := by rw [hv]; rfl
    simp [finalize_of_isSome hsome]
  | none =>
    rw [finalize_of_none hv]
    obtain ⟨values, info⟩ := store
    simp [eq_comm]

@[simp] theorem finalize_finalize (store : EvaluationStore) :
    store.finalize.finalize = store.finalize := by
  rw [finalize_eq_self_iff, values_finalize]
  cases hv : store.values with
  | some v => exact .inl rfl
  | none => exact .inr (by rw [finalize_of_none hv])

@[simp] theorem setValues_none (store : EvaluationStore) : store.setValues p lib none = store :=
  rfl

theorem setValues_some {result : DataAdapterResult} {values : InitializeResponse}
    (h : initializeResponse.decode p lib result.data = some values) (store : EvaluationStore) :
    store.setValues p lib (some result) = load result values := by
  simp [setValues, setValuesFromDataAdapterResult, h]

/-- A payload that does not parse leaves the store alone. -/
theorem setValues_of_decode_none {result : DataAdapterResult}
    (h : initializeResponse.decode p lib result.data = none) (store : EvaluationStore) :
    store.setValues p lib (some result) = store := by
  simp [setValues, setValuesFromDataAdapterResult, h]

/-- The values that a result brings, if it brings any. -/
def broughtBy (result : Option DataAdapterResult) : Option InitializeResponse :=
  result.bind fun r ↦ initializeResponse.decode p lib r.data

/-- Either the result brings values, and they replace the store, or the store stays. -/
theorem setValues_cases (store : EvaluationStore) (result : Option DataAdapterResult) :
    (∃ r values, result = some r ∧ initializeResponse.decode p lib r.data = some values ∧
      broughtBy p lib result = some values ∧ store.setValues p lib result = load r values) ∨
    (broughtBy p lib result = none ∧ store.setValues p lib result = store) := by
  cases result with
  | none => exact .inr ⟨rfl, rfl⟩
  | some r =>
    cases h : initializeResponse.decode p lib r.data with
    | none => exact .inr ⟨h, setValues_of_decode_none p lib h store⟩
    | some values => exact .inl ⟨r, values, rfl, h, h, setValues_some p lib h store⟩

end EvaluationStore

end Statsig
