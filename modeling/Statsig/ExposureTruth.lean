import Statsig.Evaluations
import Statsig.StoreHistory

/-!
# Exposures against what was returned

A read builds the event it logs and the object it returns from one lookup, by different code.
`tellsTruth_iff` says when the two agree: the only number that does not get through unharmed is one
that does not fit in a `long`, through which `JsonValueFromNumber` takes it.
-/

set_option autoImplicit false

namespace Statsig

variable (p : Platform)

/-! ## Numbers that fit -/

/-- A `long` can hold the number. -/
def Platform.FitsLong (n : Int64) : Prop :=
  -2 ^ (p.longBits - 1) ≤ n.toInt ∧ n.toInt < 2 ^ (p.longBits - 1)

instance (n : Int64) : Decidable (p.FitsLong n) := inferInstanceAs (Decidable (_ ∧ _))

/-- **Numbers that get through** `JsonValueFromNumber`. -/
theorem jsonValueFromNumber_eq_iff (n : Int64) :
    jsonValueFromNumber p n = .int n.toInt ↔ p.FitsLong n := by
  have hpos : 0 < p.longBits := lt_of_lt_of_le (by decide) p.longBits_ge
  rw [jsonValueFromNumber, Json.int.injEq]
  constructor
  · intro h
    rw [Platform.FitsLong, ← h]
    exact ⟨BitVec.le_toInt _, BitVec.toInt_lt⟩
  · exact fun h ↦ BitVec.toInt_ofInt_eq_self hpos h.1 h.2

/-- Where `long` has 64 bits, every number fits. -/
theorem fitsLong_of_le (h : 64 ≤ p.longBits) (n : Int64) : p.FitsLong n := by
  have hnat : 2 ^ 63 ≤ 2 ^ (p.longBits - 1) := Nat.pow_le_pow_right (by decide) (by omega)
  have hpow : (2 : ℤ) ^ 63 ≤ 2 ^ (p.longBits - 1) := by exact_mod_cast hnat
  have hle : -2 ^ 63 ≤ n.toInt := Int64.le_toInt n
  have hlt : n.toInt < 2 ^ 63 := Int64.toInt_lt n
  exact ⟨by omega, by omega⟩

/-! ## What an event tells -/

namespace StatsigEventInternal

/-- What the metadata of an event has under a key. -/
def told (event : StatsigEventInternal) (key : Str) : Option Json :=
  event.metadata.bind fun metadata ↦ metadata.find? key

/-- An event tells the name under some key, and the rest of what was returned except the value. -/
structure Tells {α : Type} (event : StatsigEventInternal) (nameKey : Str)
    (spec : EvaluatedSpec α) : Prop where
  name : event.told nameKey = some (.str spec.name)
  ruleId : event.told (str "ruleID") = some (.str spec.ruleId)
  reason : event.told (str "reason") = some (.str spec.details.reason)
  lcut : event.told (str "lcut") = some (.int spec.details.lcut.toInt)
  receivedAt : event.told (str "receivedAt") = some (.int spec.details.receivedAt.toInt)

end StatsigEventInternal

section MakeExposureEvent

variable (eventName : Str) (user : StatsigUser) (details : EvaluationDetails)
  (metadata : List (Str × Str)) (secondaryExposures : List StringMap) (now : Int64)

/-- The keys that every exposure has. -/
def detailKeys : List Str := [str "reason", str "lcut", str "receivedAt"]

/-- What an exposure tells, if no key of the metadata is used twice. -/
theorem told_makeExposureEvent (hkeys : (metadata.map Prod.fst ++ detailKeys).Nodup) (key : Str) :
    (makeExposureEvent p eventName user details metadata secondaryExposures now).told key =
      ((lookupKey key metadata).map Json.str).or
        (lookupKey key [(str "reason", .str details.reason),
          (str "lcut", jsonValueFromNumber p details.lcut),
          (str "receivedAt", jsonValueFromNumber p details.receivedAt)]) := by
  have hnodup : ((metadata.map (fun e ↦ (e.1, Json.str e.2)) ++
      [(str "reason", .str details.reason), (str "lcut", jsonValueFromNumber p details.lcut),
       (str "receivedAt", jsonValueFromNumber p details.receivedAt)]).map Prod.fst).Nodup := by
    rw [List.map_append, List.map_map]
    exact hkeys
  have hmap : ∀ l : List (Str × Str),
      lookupKey key (l.map fun e ↦ (e.1, Json.str e.2)) = (lookupKey key l).map Json.str := by
    intro l
    induction l with
    | nil => rfl
    | cons e l ih =>
      rw [List.map_cons, lookupKey, lookupKey, ih]
      split <;> rfl
  rw [StatsigEventInternal.told, makeExposureEvent, Option.bind_some, UnorderedMap.find?,
    UnorderedMap.entries_ofList hnodup, lookupKey_append, hmap]

variable {metadata} (hkeys : (metadata.map Prod.fst ++ detailKeys).Nodup)

include hkeys

/-- Every exposure tells the details of the evaluation, as far as its numbers get through. -/
theorem told_details :
    let event := makeExposureEvent p eventName user details metadata secondaryExposures now
    event.told (str "reason") = some (.str details.reason) ∧
      event.told (str "lcut") = some (jsonValueFromNumber p details.lcut) ∧
      event.told (str "receivedAt") = some (jsonValueFromNumber p details.receivedAt) := by
  have hnone : ∀ key ∈ detailKeys, lookupKey key metadata = none := by
    intro key hkey
    rw [lookupKey_eq_none_iff]
    rintro e he rfl
    exact (List.nodup_append.mp hkeys).2.2 _ (List.mem_map_of_mem he) _ hkey rfl
  simp only [told_makeExposureEvent p eventName user details metadata secondaryExposures now hkeys]
  rw [hnone _ (by decide), hnone _ (by decide), hnone _ (by decide)]
  exact ⟨rfl, rfl, rfl⟩

/-- **When an exposure tells** what was returned with the details that it was made from. -/
theorem tells_makeExposureEvent_iff {α : Type} {nameKey : Str} {spec : EvaluatedSpec α}
    (hname : lookupKey nameKey metadata = some spec.name)
    (hruleId : lookupKey (str "ruleID") metadata = some spec.ruleId)
    (hdetails : spec.details = details) :
    (makeExposureEvent p eventName user details metadata secondaryExposures now).Tells nameKey
        spec ↔ p.FitsLong details.lcut ∧ p.FitsLong details.receivedAt := by
  obtain ⟨hreason, hlcut, hreceivedAt⟩ :=
    told_details p eventName user details secondaryExposures now hkeys
  have htold : ∀ key value, lookupKey key metadata = some value →
      (makeExposureEvent p eventName user details metadata secondaryExposures now).told key =
        some (.str value) := by
    intro key value hvalue
    rw [told_makeExposureEvent p eventName user details metadata secondaryExposures now hkeys,
      hvalue]
    rfl
  rw [← jsonValueFromNumber_eq_iff, ← jsonValueFromNumber_eq_iff]
  constructor
  · intro h
    have hl := h.lcut
    have hr := h.receivedAt
    rw [hlcut, hdetails, Option.some_inj] at hl
    rw [hreceivedAt, hdetails, Option.some_inj] at hr
    exact ⟨hl, hr⟩
  · rintro ⟨hl, hr⟩
    refine ⟨htold _ _ hname, htold _ _ hruleId, ?_, ?_, ?_⟩
    · rw [hreason, hdetails]
    · rw [hlcut, hdetails, hl]
    · rw [hreceivedAt, hdetails, hr]

omit hkeys

variable (name : Str)

theorem nodup_gateKeys (value ruleId : Str) : ([(str "gate", name), (str "gateValue", value),
    (str "ruleID", ruleId)].map Prod.fst ++ detailKeys).Nodup := by
  simp only [List.map_cons, List.map_nil]
  decide

theorem tells_makeGateExposure_iff (gate : DetailedEvaluation GateEvaluation)
    {spec : FeatureGate} (hname : spec.name = name)
    (hruleId : spec.ruleId = (gate.evaluation.getD {}).ruleId)
    (hdetails : spec.details = gate.details) :
    (makeGateExposure p name user gate now).Tells (str "gate") spec ↔
      p.FitsLong gate.details.lcut ∧ p.FitsLong gate.details.receivedAt :=
  tells_makeExposureEvent_iff p _ user gate.details _ now (nodup_gateKeys name _ _)
    (congrArg some hname.symm) (congrArg some hruleId.symm) hdetails

theorem told_gateValue (gate : DetailedEvaluation GateEvaluation) :
    (makeGateExposure p name user gate now).told (str "gateValue") =
      some (.str (flagText (gate.evaluation.getD {}).value)) :=
  told_makeExposureEvent p _ user gate.details _ _ now (nodup_gateKeys name _ _) (str "gateValue")

theorem nodup_configKeys (ruleId : Str) : ([(str "config", name), (str "ruleID", ruleId)].map
    Prod.fst ++ detailKeys).Nodup := by
  simp only [List.map_cons, List.map_nil]
  decide

theorem tells_makeConfigExposure_iff (config : DetailedEvaluation ConfigEvaluation)
    {spec : DynamicConfig} (hname : spec.name = name)
    (hruleId : spec.ruleId = (config.evaluation.getD {}).ruleId)
    (hdetails : spec.details = config.details) :
    (makeConfigExposure p name user config now).Tells (str "config") spec ↔
      p.FitsLong config.details.lcut ∧ p.FitsLong config.details.receivedAt :=
  tells_makeExposureEvent_iff p _ user config.details _ now (nodup_configKeys name _)
    (congrArg some hname.symm) (congrArg some hruleId.symm) hdetails

theorem tells_makeLayerParamExposure_iff (parameterName : Str)
    (layer : DetailedEvaluation LayerEvaluation) {spec : EvaluatedSpec Json}
    (hname : spec.name = name) (hruleId : spec.ruleId = (layer.evaluation.getD {}).ruleId)
    (hdetails : spec.details = layer.details) :
    (makeLayerParamExposure p name parameterName user layer now).Tells (str "config") spec ↔
      p.FitsLong layer.details.lcut ∧ p.FitsLong layer.details.receivedAt := by
  refine tells_makeExposureEvent_iff p _ user layer.details _ now ?_
    (congrArg some hname.symm) (congrArg some hruleId.symm) hdetails
  simp only [List.map_cons, List.map_nil]
  decide

end MakeExposureEvent

/-! ## Stores of initialised clients -/

namespace EvaluationStore

/-- What `Initialize` establishes with its first `Reset`: the source is known, and a load that
brought nothing leaves no times behind. -/
structure Initialized (store : EvaluationStore) : Prop where
  known : store.sourceInfo.source ≠ .uninitialized
  noValues : store.sourceInfo.source = .noValues → store.sourceInfo = { source := .noValues }

theorem initialized_reset (store : EvaluationStore) : store.reset.Initialized :=
  ⟨by simp, by simp⟩

theorem Initialized.finalize {store : EvaluationStore} (h : store.Initialized) :
    store.finalize.Initialized := by
  rw [EvaluationStore.finalize]
  split
  · exact h
  · exact ⟨by simp, fun _ ↦ rfl⟩

/-- The adapter only hands out payloads that it has from somewhere. -/
theorem Initialized.setValues {lib : JsonText} {store : EvaluationStore} (h : store.Initialized)
    {result : Option DataAdapterResult}
    (hsource : ∀ r, result = some r → r.source ≠ .uninitialized ∧ r.source ≠ .noValues) :
    (store.setValues p lib result).Initialized := by
  obtain ⟨r, values, hr, -, -, hset⟩ | ⟨-, hset⟩ := setValues_cases p lib store result
  · obtain ⟨hknown, hvalues⟩ := hsource r hr
    rw [hset]
    exact ⟨hknown, fun hno ↦ absurd hno hvalues⟩
  · rwa [hset]

/-- One operation, with a payload of the data adapter. -/
theorem Initialized.apply {lib : JsonText} {store : EvaluationStore} {op : StoreOp}
    (h : store.Initialized) (hsource : ∀ r, op = .setValues (some r) →
      r.source ≠ .uninitialized ∧ r.source ≠ .noValues) :
    (store.apply p lib op).Initialized := by
  cases op with
  | reset => exact initialized_reset store
  | finalize => exact h.finalize
  | setValues result =>
    exact h.setValues p fun r hr ↦ hsource r (congrArg StoreOp.setValues hr)

/-- **Stores of initialised clients**: the first `Reset` and whatever comes after it. -/
theorem initialized_foldl_apply {lib : JsonText} (store : EvaluationStore) {ops : List StoreOp}
    (hsource : ∀ op ∈ ops, ∀ r, op = .setValues (some r) →
      r.source ≠ .uninitialized ∧ r.source ≠ .noValues) :
    (ops.foldl (EvaluationStore.apply p lib) store.reset).Initialized := by
  suffices ∀ store : EvaluationStore, store.Initialized →
      (ops.foldl (EvaluationStore.apply p lib) store).Initialized from
    this store.reset (initialized_reset store)
  induction ops with
  | nil => exact fun _ hstore ↦ hstore
  | cons op ops ih =>
    rw [List.forall_mem_cons] at hsource
    exact fun store hstore ↦ ih hsource.2 _ (hstore.apply p hsource.1)

variable {α : Type} (evaluations : InitializeResponse → UnorderedMap Str α)
  (store : EvaluationStore) (name : Str)

/-- The details of a lookup: those of the store, with a word on whether the name was found, unless
there is nothing to look the name up in. -/
theorem details_lookup_cases :
    (store.lookup p evaluations name).details = recognizedFromSourceInfo store.sourceInfo ∨
      (store.lookup p evaluations name).details = unrecognizedFromSourceInfo store.sourceInfo := by
  rw [lookup]
  split
  · exact .inr rfl
  · exact .inl rfl

variable {store}

theorem Initialized.reason_lookup_ne (h : store.Initialized) :
    (store.lookup p evaluations name).details.reason ≠ uninitializedDetails.reason := by
  have hrecognized : ∀ source, getValueSourceString source ++ str ":Recognized" ≠
      uninitializedDetails.reason := by
    intro source
    cases source <;> decide
  have hunrecognized : ∀ source, getValueSourceString source ++ str ":Unrecognized" ≠
      uninitializedDetails.reason := by
    intro source
    cases source <;> decide
  rcases details_lookup_cases p evaluations store name with hdetails | hdetails
  · rw [hdetails]
    exact hrecognized _
  · rw [hdetails, unrecognizedFromSourceInfo]
    split
    · exact fun heq ↦ h.known (getValueSourceString_injective heq)
    · exact hunrecognized _

theorem Initialized.fitsLong_lookup_iff (h : store.Initialized) :
    p.FitsLong (store.lookup p evaluations name).details.lcut ∧
        p.FitsLong (store.lookup p evaluations name).details.receivedAt ↔
      p.FitsLong store.sourceInfo.lcut ∧ p.FitsLong store.sourceInfo.receivedAt := by
  rcases details_lookup_cases p evaluations store name with hdetails | hdetails
  · rw [hdetails]
    rfl
  · rw [hdetails, unrecognizedFromSourceInfo]
    split
    · rename_i hsource
      rw [h.noValues (hsource.resolve_left h.known)]
    · rfl

end EvaluationStore

/-! ## Calls that enqueue one event -/

namespace EventLogger

variable {logger : EventLogger} {d : Diagnostics} {event event' : StatsigEventInternal}
  {now : Int64}

/-- What the diagnostics add does not depend on the event. -/
theorem added_enqueue (logger : EventLogger) (d : Diagnostics) (event event' : StatsigEventInternal)
    (now : Int64) : (logger.enqueue d event now).added = (logger.enqueue d event' now).added := by
  simp only [enqueue, List.length_append, List.length_singleton]
  split
  · simp only [flushImpl]
    split <;> split <;> rfl
  · rfl

theorem enqueue_ne_self (h : (logger.enqueue d event now).logger = logger) :
    (logger.enqueue d event now).batch ≠ none := by
  intro hbatch
  have hevents := congrArg List.length (events_enqueue logger d event now)
  rw [h, hbatch] at hevents
  simp only [Option.getD_none, List.append_nil, List.length_append, List.length_singleton]
    at hevents
  omega

theorem enqueue_inj (hlogger : (logger.enqueue d event now).logger =
    (logger.enqueue d event' now).logger)
    (hbatch : (logger.enqueue d event now).batch = (logger.enqueue d event' now).batch) :
    event = event' := by
  have hevents := events_enqueue logger d event now
  rw [hlogger, hbatch, events_enqueue, added_enqueue logger d event' event now] at hevents
  simpa [eq_comm] using hevents

end EventLogger

/-- The effect of one `Enqueue` on the context, and the batch that it hands to a worker. -/
def ReadContext.enqueue (ctx : ReadContext) (event : StatsigEventInternal) (now : Int64) :
    ReadContext × Option (List StatsigEventInternal) :=
  let flushed := ctx.logger.enqueue ctx.diagnostics event now
  ({ ctx with logger := flushed.logger, diagnostics := flushed.diagnostics }, flushed.batch)

/-- The call enqueued this event, and did nothing else. -/
structure Read.Enqueues {α : Type} (read : Read α) (ctx : ReadContext)
    (event : StatsigEventInternal) (now : Int64) : Prop where
  context : read.client.context = some (ctx.enqueue event now).1
  batch : read.batch = (ctx.enqueue event now).2

/-- The call left the client as it was, and handed no batch to a worker. -/
structure Read.EnqueuesNothing {α : Type} (read : Read α) (client : StatsigClient) : Prop where
  client : read.client = client
  batch : read.batch = none

namespace StatsigClient

variable {client : StatsigClient} {ctx : ReadContext} {α : Type}

/-- **What a call enqueues and returns**: an event with its object, or the event with the bare
object, or nothing. -/
theorem exists_enqueues_readSpec_iff (hctx : client.ensureInitialized = some ctx)
    (fate : TaskFate) (bare : α) (evaluate : ReadContext → StatsigEventInternal × α) (now : Int64)
    (P : StatsigEventInternal → α → Prop) (hbare : ¬ P (evaluate ctx).1 bare) :
    (∃ event, (client.readSpec fate bare evaluate now).Enqueues ctx event now ∧
        P event (client.readSpec fate bare evaluate now).result) ↔
      fate = .completes ∧ P (evaluate ctx).1 (evaluate ctx).2 := by
  obtain ⟨hcontext, -⟩ := ensureInitialized_eq_some_iff.mp hctx
  have hunique : ∀ {read : Read α} {event : StatsigEventInternal},
      read.Enqueues ctx (evaluate ctx).1 now → read.Enqueues ctx event now →
        event = (evaluate ctx).1 := by
    intro read event h h'
    have hlogger := congrArg (Option.map ReadContext.logger) (h'.context.symm.trans h.context)
    exact EventLogger.enqueue_inj (Option.some_inj.mp hlogger) (h'.batch.symm.trans h.batch)
  rw [readSpec, hctx]
  cases fate with
  | completes =>
    constructor
    · rintro ⟨event, hevent, hP⟩
      rw [hunique ⟨rfl, rfl⟩ hevent] at hP
      exact ⟨rfl, hP⟩
    · exact fun h ↦ ⟨_, ⟨rfl, rfl⟩, h.2⟩
  | stopsBefore =>
    refine iff_of_false ?_ (by simp)
    rintro ⟨event, hevent, -⟩
    have hself := hcontext.symm.trans hevent.context
    refine EventLogger.enqueue_ne_self ?_ hevent.batch.symm
    exact (congrArg ReadContext.logger (Option.some_inj.mp hself)).symm
  | stopsAfter =>
    refine iff_of_false ?_ (by simp)
    rintro ⟨event, hevent, hP⟩
    rw [hunique ⟨rfl, rfl⟩ hevent] at hP
    exact hbare hP

/-! ## The four reads -/

/-- `GetFeatureGate` enqueues one event, which tells what is returned. -/
def GateTells (client : StatsigClient) (ctx : ReadContext) (fate : TaskFate) (name : Str)
    (now : Int64) : Prop :=
  ∃ event, (client.getFeatureGate p fate name now).Enqueues ctx event now ∧
    event.user = ctx.user ∧
    event.Tells (str "gate") (client.getFeatureGate p fate name now).result ∧
    ∃ value, (client.getFeatureGate p fate name now).result.value = some value ∧
      event.told (str "gateValue") = some (.str (flagText value))

/-- A read of a config enqueues one event, which tells what is returned. -/
def ConfigTells (read : Read DynamicConfig) (ctx : ReadContext) (now : Int64) : Prop :=
  ∃ event, read.Enqueues ctx event now ∧ event.user = ctx.user ∧
    event.Tells (str "config") read.result

/-- `GetLayer` enqueues nothing, and whoever reads a parameter of its layer enqueues one event,
which tells what the layer says, and has the user for whom it was read. -/
structure LayerTells (read : Read Layer) (client : StatsigClient) (ctx : ReadContext) : Prop where
  nothing : read.EnqueuesNothing client
  parameter : ∀ (parameterName : Str) (logger : EventLogger) (d : Diagnostics) (now : Int64),
    ∃ event, read.result.exposeParam p parameterName (some (logger, d)) now =
        .ok (some (logger.enqueue d event now)) ∧
      event.user = ctx.user ∧ event.Tells (str "config") read.result.toEvaluatedSpec

/-- The times of the store fit in a `long`. -/
def TimesFit (ctx : ReadContext) : Prop :=
  p.FitsLong ctx.store.sourceInfo.lcut ∧ p.FitsLong ctx.store.sourceInfo.receivedAt

variable (hctx : client.ensureInitialized = some ctx) (hstore : ctx.store.Initialized)
  (fate : TaskFate) (name : Str) (now : Int64)

include hctx hstore

theorem gateTells_iff :
    GateTells p client ctx fate name now ↔ fate = .completes ∧ TimesFit p ctx := by
  have htells : ∀ {spec : FeatureGate}, spec.name = name →
      spec.ruleId = ((ctx.store.getGate p name).evaluation.getD {}).ruleId →
      spec.details = (ctx.store.getGate p name).details →
      ((makeGateExposure p name ctx.user (ctx.store.getGate p name) now).Tells (str "gate") spec ↔
        TimesFit p ctx) := fun hname hruleId hdetails ↦
    (tells_makeGateExposure_iff p ctx.user now name _ hname hruleId hdetails).trans
      (hstore.fitsLong_lookup_iff p _ name)
  refine (exists_enqueues_readSpec_iff hctx fate _ _ now (fun event gate ↦ event.user = ctx.user ∧
    event.Tells (str "gate") gate ∧ ∃ value, gate.value = some value ∧
      event.told (str "gateValue") = some (.str (flagText value))) ?_).trans
    (and_congr_right fun _ ↦ ⟨fun h ↦ (htells rfl rfl rfl).mp h.2.1, fun h ↦
      ⟨rfl, (htells rfl rfl rfl).mpr h, _, rfl, told_gateValue p ctx.user now name _⟩⟩)
  rintro ⟨-, -, value, hvalue, -⟩
  exact absurd hvalue (by simp [EvaluatedSpec.bare])

theorem configTells_readSpec_iff (evaluate : ReadContext → StatsigEventInternal × DynamicConfig)
    (hevent : (evaluate ctx).1 =
      makeConfigExposure p name ctx.user (ctx.store.getConfig p name) now)
    (hname : (evaluate ctx).2.name = name)
    (hruleId : (evaluate ctx).2.ruleId =
      ((ctx.store.getConfig p name).evaluation.getD {}).ruleId)
    (hdetails : (evaluate ctx).2.details = (ctx.store.getConfig p name).details) :
    ConfigTells (client.readSpec fate (.bare .null name) evaluate now) ctx now ↔
      fate = .completes ∧ TimesFit p ctx := by
  refine (exists_enqueues_readSpec_iff hctx fate _ _ now (fun event config ↦
    event.user = ctx.user ∧ event.Tells (str "config") config) ?_).trans
    (and_congr_right fun _ ↦ ?_)
  · rintro ⟨-, htells⟩
    -- the bare object says that the client is not initialised
    have hreason := htells.reason
    rw [hevent, makeConfigExposure, (told_details p _ ctx.user _ _ now
      (nodup_configKeys name _)).1, Option.some_inj, Json.str.injEq] at hreason
    exact hstore.reason_lookup_ne p _ name hreason
  · rw [hevent]
    exact (and_iff_right rfl).trans
      ((tells_makeConfigExposure_iff p ctx.user now name _ hname hruleId hdetails).trans
        (hstore.fitsLong_lookup_iff p _ name))

omit hstore in
theorem getLayer_eq : client.getLayer p fate name =
    { result := if fate = .completes then fullLayer p ctx name else
        { EvaluatedSpec.bare .null name with logParamExposure := none }
      client } := by
  rw [getLayer, hctx]
  cases fate with
  | completes => rfl
  | stopsBefore => rfl
  | stopsAfter => rfl

theorem layerTells_iff :
    LayerTells p (client.getLayer p fate name) client ctx ↔
      fate = .completes ∧ TimesFit p ctx := by
  rw [getLayer_eq p hctx fate name]
  by_cases hfate : fate = .completes
  · have htells : ∀ (parameterName : Str) (now : Int64),
        (makeLayerParamExposure p name parameterName ctx.user (ctx.store.getLayer p name) now).Tells
          (str "config") (fullLayer p ctx name).toEvaluatedSpec ↔ TimesFit p ctx :=
      fun parameterName now ↦
        (tells_makeLayerParamExposure_iff p ctx.user now name parameterName _ rfl rfl rfl).trans
          (hstore.fitsLong_lookup_iff p _ name)
    rw [if_pos hfate]
    constructor
    · intro h
      obtain ⟨event, hexpose, -, hevent⟩ := h.parameter [] ⟨[], 0, []⟩ {} 0
      have hflushed := Option.some_inj.mp (Except.ok.inj hexpose)
      rw [← EventLogger.enqueue_inj (congrArg Flushed.logger hflushed)
        (congrArg Flushed.batch hflushed)] at hevent
      exact ⟨hfate, (htells [] 0).mp hevent⟩
    · exact fun h ↦ ⟨⟨rfl, rfl⟩, fun parameterName logger d now ↦
        ⟨_, rfl, rfl, (htells parameterName now).mpr h.2⟩⟩
  · refine iff_of_false (fun h ↦ ?_) (fun h ↦ hfate h.1)
    obtain ⟨event, hexpose, -⟩ := h.parameter [] ⟨[], 0, []⟩ {} 0
    rw [if_neg hfate, Layer.exposeParam] at hexpose
    exact absurd hexpose (by simp)

omit hctx hstore

/-- The exposures of all four reads tell the truth. -/
structure TellsTruth (client : StatsigClient) (ctx : ReadContext) (fate : TaskFate) (name : Str)
    (now : Int64) : Prop where
  gate : GateTells p client ctx fate name now
  config : ConfigTells (client.getDynamicConfig p fate name now) ctx now
  experiment : ConfigTells (client.getExperiment p fate name now) ctx now
  layer : LayerTells p (client.getLayer p fate name) client ctx

/-- **When exposures tell the truth**: on an initialised client, if no exception stops the read, and
the times of the store fit in a `long`. -/
theorem tellsTruth_iff (client : StatsigClient) (ctx : ReadContext)
    (hctx : client.ensureInitialized = some ctx) (hstore : ctx.store.Initialized)
    (fate : TaskFate) (name : Str) (now : Int64) :
    TellsTruth p client ctx fate name now ↔
      fate = .completes ∧ p.FitsLong ctx.store.sourceInfo.lcut ∧
        p.FitsLong ctx.store.sourceInfo.receivedAt := by
  constructor
  · exact fun h ↦ (gateTells_iff p hctx hstore fate name now).mp h.gate
  · exact fun h ↦ ⟨(gateTells_iff p hctx hstore fate name now).mpr h,
      (configTells_readSpec_iff p hctx hstore fate name now _ rfl rfl rfl rfl).mpr h,
      (configTells_readSpec_iff p hctx hstore fate name now _ rfl rfl rfl rfl).mpr h,
      (layerTells_iff p hctx hstore fate name).mpr h⟩

/-- A client that has loaded a payload of April 2024, with times in milliseconds. -/
def loadedContext : ReadContext where
  sdkKey := str "key"
  logger := { sdkKey := str "key", maxBufferSize := constants.kMaxQueuedEvents }
  user := { userId := some (str "a-user") }
  store := {
    values := some { time := 1711988482163, hasUpdates := true }
    sourceInfo := { source := .network, lcut := 1711988482163, receivedAt := 1711988490000 } }

theorem initialized_loadedContext : loadedContext.store.Initialized := ⟨by decide, by decide⟩

theorem tellsTruth_iff_loadedContext :
    TellsTruth .linux { context := some loadedContext } loadedContext .completes (str "a_gate") 0 ↔
      TaskFate.completes = .completes ∧
        Platform.linux.FitsLong loadedContext.store.sourceInfo.lcut ∧
        Platform.linux.FitsLong loadedContext.store.sourceInfo.receivedAt :=
  tellsTruth_iff .linux { context := some loadedContext } loadedContext (by decide)
    initialized_loadedContext .completes (str "a_gate") 0

/-- Where `long` has 32 bits, the times of today do not fit. -/
theorem not_forall_tellsTruth :
    ¬ ∀ (p : Platform) (client : StatsigClient) (ctx : ReadContext) (name : Str) (now : Int64),
      client.ensureInitialized = some ctx → ctx.store.Initialized →
      TellsTruth p client ctx .completes name now := by
  intro h
  have htells := h .windows { context := some loadedContext } loadedContext (str "a_gate") 0
    (by decide) initialized_loadedContext
  obtain ⟨-, hlcut, -⟩ := (gateTells_iff .windows (by decide) initialized_loadedContext .completes
    (str "a_gate") 0).mp htells.gate
  exact absurd hlcut (by decide)

end StatsigClient

end Statsig
