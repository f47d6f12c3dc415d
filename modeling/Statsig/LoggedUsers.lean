import Statsig.ExposureTruth
import Statsig.Lib.Machine
import Statsig.Lib.Slots

/-!
# Whose events are logged?

Three components keep a copy of the user: the context, the callback of each layer, and the
diagnostics.  The context's copy is normalised, and events and layers take theirs from it.  The
diagnostics are given the argument of `UpdateUser` as it is.  During initialisation that argument is
the context's own field, which has just been overwritten with the normalised user; in every later
update it is the caller's.

`normalized_iff` says that this is the only way in which a user who is not normalised gets into a
batch.
-/

set_option autoImplicit false

namespace Statsig

variable (p : Platform) (lib : JsonText)

/-! ## Events of the caller -/

/-- `StatsigEvent` -/
structure StatsigEvent where
  eventName : Str
  time : Option Int64 := none
  stringValue : Option Str := none
  doubleValue : Option Double := none
  metadata : Option StringMap := none
  deriving DecidableEq, Repr

/-- `InternalizeEvent` -/
def internalizeEvent (event : StatsigEvent) (user : StatsigUser) (now : Int64) :
    StatsigEventInternal where
  eventName := event.eventName
  time := event.time.getD now
  user := user
  stringValue := event.stringValue
  doubleValue := event.doubleValue
  metadata := event.metadata.map (UnorderedMap.mapValues Json.str)

/-! ## The machine -/

/-- What an update does next. -/
inductive UserUpdatePhase where
  | writeUser
  | resetStore
  | setDiagnosticsUser
  | getDataSync
  deriving DecidableEq, Repr

/-- A call of `UpdateUserSync` or `UpdateUserAsync` in progress. -/
structure UserUpdate where
  kind : UpdateKind
  user : StatsigUser
  phase : UserUpdatePhase := .writeUser
  deriving DecidableEq, Repr

/-- The calls that read an evaluation and log it. -/
inductive ReadCall where
  | checkGate
  | getFeatureGate
  | getDynamicConfig
  | getExperiment
  deriving DecidableEq, Repr

/-- The context, the layers that the application holds, the updates in progress, and records of the
users that were passed to `Initialize` and `UpdateUser` and of the batches that were handed off. -/
structure LoggedRun where
  context : ReadContext
  layers : List Layer := []
  updates : List UserUpdate := []
  passed : List StatsigUser
  batches : List (List StatsigEventInternal) := []
  deriving DecidableEq, Repr

/-- One call of the application, or one step of an update, a callback or a worker. -/
inductive LoggedLabel where
  | updateUser (kind : UpdateKind) (user : StatsigUser)
  /-- An update goes on, with this answer of the adapter. -/
  | update (i : ℕ) (answer : StatsigResult DataAdapterResult)
  /-- The completion callback of an `UpdateUserAsync`. -/
  | callback (initiator : StatsigUser) (result : StatsigResult DataAdapterResult)
  | logEvent (event : StatsigEvent) (now : Int64)
  | read (call : ReadCall) (fate : TaskFate) (name : Str) (now : Int64)
  | getLayer (fate : TaskFate) (name : Str)
  | getValue (i : ℕ) (parameterName : Str) (now : Int64)
  | flush (now : Int64)
  | mark (marker : Json)
  deriving DecidableEq, Repr

/-- `FlushImpl`, and the batch that it hands off. -/
def ReadContext.flush (ctx : ReadContext) (now : Int64) :
    ReadContext × Option (List StatsigEventInternal) :=
  let flushed := ctx.logger.flush ctx.diagnostics now
  ({ ctx with logger := flushed.logger, diagnostics := flushed.diagnostics }, flushed.batch)

namespace LoggedRun

/-- The context that `Initialize` constructs. -/
def construct (sdkKey : Str) (options : StatsigOptions) (user : Option StatsigUser)
    (markers : List Json) : ReadContext where
  sdkKey := sdkKey
  options := options
  user := user.getD {}
  logger := (EventLogger.create sdkKey options).1
  diagnostics := { markers }

/-- The client after `Initialize`, whose update is given the context's own user: what is read of it
for the diagnostics is what has just been written. -/
def start (sdkKey : Str) (options : StatsigOptions) (kind : UpdateKind) (user : Option StatsigUser)
    (markers : List Json) : LoggedRun :=
  let ctx := construct sdkKey options user markers
  let written := (ctx.writeUser ctx.user).resetStore
  { context := { ctx with
      toClientState := written
      diagnostics := ctx.diagnostics.setUser written.user }
    updates := [{ kind, user := ctx.user, phase := .getDataSync }]
    passed := [ctx.user] }

/-- The run after something has been done to the context. -/
def withContext (s : LoggedRun) (done : ReadContext × Option (List StatsigEventInternal)) :
    LoggedRun :=
  { s with context := done.1, batches := s.batches ++ done.2.toList }

/-- The run after a read. -/
def afterRead {α : Type} (s : LoggedRun) (read : Read α) : LoggedRun :=
  s.withContext (read.client.context.getD s.context, read.batch)

/-- The next step of the `i`-th update. -/
def stepUpdate (s : LoggedRun) (i : ℕ) (answer : StatsigResult DataAdapterResult)
    (u : UserUpdate) : LoggedRun :=
  let ctx := s.context
  match u.phase with
  | .writeUser => { s with
      context := { ctx with toClientState := ctx.writeUser u.user }
      updates := s.updates.set i { u with phase := .resetStore } }
  | .resetStore => { s with
      context := { ctx with toClientState := ctx.resetStore }
      updates := s.updates.set i { u with phase := .setDiagnosticsUser } }
  | .setDiagnosticsUser => { s with
      -- the argument, and not the user of the context
      context := { ctx with diagnostics := ctx.diagnostics.setUser u.user }
      updates := s.updates.set i { u with phase := .getDataSync } }
  | .getDataSync =>
    let loaded := ctx.applyResult p lib answer
    { s with
      context := { ctx with
        toClientState := match u.kind with
          | .sync => loaded.finalizeStore
          | .async => loaded }
      updates := s.updates.eraseIdx i }

/-- One step. -/
def step (s : LoggedRun) : LoggedLabel → Option LoggedRun
  | .updateUser kind user => some { s with
      updates := s.updates ++ [{ kind, user }]
      passed := s.passed ++ [user] }
  | .update i answer => (s.updates[i]?).map (stepUpdate p lib s i answer)
  | .callback initiator result => some { s with
      context := { s.context with
        toClientState := s.context.innerCallback p lib initiator result } }
  | .logEvent event now =>
    some (s.withContext (s.context.enqueue (internalizeEvent event s.context.user now) now))
  | .read call fate name now =>
    let client : StatsigClient := { context := some s.context }
    some (match call with
      | .checkGate => s.afterRead (client.checkGate p fate name now)
      | .getFeatureGate => s.afterRead (client.getFeatureGate p fate name now)
      | .getDynamicConfig => s.afterRead (client.getDynamicConfig p fate name now)
      | .getExperiment => s.afterRead (client.getExperiment p fate name now))
  | .getLayer fate name =>
    let client : StatsigClient := { context := some s.context }
    some { s with layers := s.layers ++ [(client.getLayer p fate name).result] }
  | .getValue i parameterName now => (s.layers[i]?).map fun layer ↦
    let logger := some (s.context.logger, s.context.diagnostics)
    match layer.exposeParam p parameterName logger now with
    | .ok (some flushed) => s.withContext
        ({ s.context with logger := flushed.logger, diagnostics := flushed.diagnostics },
          flushed.batch)
    | _ => s
  | .flush now => some (s.withContext (s.context.flush now))
  | .mark marker => some { s with
      context := { s.context with diagnostics := s.context.diagnostics.mark marker } }

/-! ## The property and what it takes -/

/-- A user who was passed to the client, normalised. -/
def Known (s : LoggedRun) (user : StatsigUser) : Prop :=
  ∃ v ∈ s.passed, user = normalizeUser v s.context.options

/-- Every event in every batch has the environment of the options, and a user who was passed to the
client, normalised. -/
def Normalized (s : LoggedRun) : Prop :=
  ∀ batch ∈ s.batches, ∀ event ∈ batch,
    event.user.statsigEnvironment = s.context.options.environment ∧ Known s event.user

/-- The step enqueues an event. -/
def Enqueues (s : LoggedRun) : LoggedLabel → Prop
  | .logEvent _ _ => True
  | .read _ fate _ _ => fate ≠ .stopsBefore
  | .getValue i _ _ => ∃ layer, s.layers[i]? = some layer ∧ layer.logParamExposure.isSome = true
  | .updateUser _ _ | .update _ _ | .callback _ _ | .getLayer _ _ | .flush _ | .mark _ => False

/-- The step runs `FlushImpl`: it asks for it, or the buffer is full. -/
def Flushes (s : LoggedRun) : LoggedLabel → Prop
  | .flush _ => True
  | a => Enqueues s a ∧ EventLogger.exceeds (s.context.logger.events.length + 1)
      s.context.logger.maxBufferSize = true

/-- If the step flushes while there are markers, the diagnostics have been given a user with the
environment of the options. -/
def CleanFlush (s : LoggedRun) (a : LoggedLabel) : Prop :=
  Flushes s a → s.context.diagnostics.markers ≠ [] →
    s.context.diagnostics.user.statsigEnvironment = s.context.options.environment

/-- The copies of the user: normalised, except those that the diagnostics have made. -/
structure Inv (s : LoggedRun) : Prop where
  sdkKey : s.context.sdkKey ≠ []
  user : Known s s.context.user
  layers : ∀ layer ∈ s.layers, ∀ expo, layer.logParamExposure = some expo → Known s expo.user
  events : ∀ event ∈ s.context.logger.events, Known s event.user
  updates : ∀ u ∈ s.updates, u.user ∈ s.passed
  diagnostics : s.context.diagnostics.user ∈ s.passed ∨ Known s s.context.diagnostics.user
  batches : ∀ batch ∈ s.batches, ∀ event ∈ batch, event.user ∈ s.passed ∨ Known s event.user

section Users

variable {s t : LoggedRun} {user : StatsigUser}

theorem Known.mono (h : Known s user) (hoptions : t.context.options = s.context.options)
    (hpassed : s.passed ⊆ t.passed) : Known t user := by
  obtain ⟨v, hv, rfl⟩ := h
  exact ⟨v, hpassed hv, by rw [hoptions]⟩

/-- A normalised user has the environment of the options. -/
theorem Known.environment (h : Known s user) :
    user.statsigEnvironment = s.context.options.environment := by
  obtain ⟨v, -, rfl⟩ := h
  rfl

/-- A user who was passed with the environment of the options is normalised already. -/
theorem known_of_environment (h : user ∈ s.passed ∨ Known s user)
    (henv : user.statsigEnvironment = s.context.options.environment) : Known s user := by
  refine h.elim (fun hpassed ↦ ⟨user, hpassed, ?_⟩) id
  rw [normalizeUser, ← henv]

/-- As far as batches are concerned, the environment is all that matters. -/
theorem Inv.normalized_iff_environment (hs : Inv s) :
    Normalized s ↔ ∀ batch ∈ s.batches, ∀ event ∈ batch,
      event.user.statsigEnvironment = s.context.options.environment :=
  ⟨fun h batch hbatch event hevent ↦ (h batch hbatch event hevent).1,
    fun h batch hbatch event hevent ↦ ⟨h batch hbatch event hevent,
      known_of_environment (hs.batches batch hbatch event hevent) (h batch hbatch event hevent)⟩⟩

end Users

/-! ## Flushes -/

section Flush

variable {s : LoggedRun} {event : StatsigEventInternal} {now : Int64}

/-- The context with an event in the buffer. -/
def push (ctx : ReadContext) (event : StatsigEventInternal) : ReadContext :=
  { ctx with logger := { ctx.logger with events := ctx.logger.events ++ [event] } }

theorem enqueue_eq (ctx : ReadContext) (event : StatsigEventInternal) (now : Int64) :
    ctx.enqueue event now =
      if EventLogger.exceeds (ctx.logger.events.length + 1) ctx.logger.maxBufferSize then
        (push ctx event).flush now
      else (push ctx event, none) := by
  simp only [ReadContext.enqueue, ReadContext.flush, EventLogger.enqueue, EventLogger.flush, push,
    List.length_append, List.length_singleton]
  split <;> rfl

/-- What a flush leaves behind: an empty buffer, and no markers. -/
theorem context_flush (ctx : ReadContext) (now : Int64) :
    (ctx.flush now).1 = { ctx with
      logger := { ctx.logger with events := [] }
      diagnostics := { ctx.diagnostics with markers := [] } } := by
  have hlogger : ∀ (logger : EventLogger) (d : Diagnostics),
      (logger.flushImpl d now).logger = { logger with events := [] } := by
    intro logger d
    simp only [EventLogger.flushImpl]
    split
    · rename_i hnil
      rw [hnil]
    · rfl
  have hdiagnostics : ∀ (logger : EventLogger) (d : Diagnostics),
      (logger.flushImpl d now).diagnostics = { d with markers := [] } := by
    intro logger d
    simp only [EventLogger.flushImpl]
    split <;> rfl
  rw [ReadContext.flush, EventLogger.flush, hlogger, hdiagnostics]

/-- What a flush hands off: the buffer, and the event of the diagnostics. -/
theorem batch_flush (ctx : ReadContext) (now : Int64) :
    (ctx.flush now).2.getD [] =
      ctx.logger.events ++ (ctx.diagnostics.pendingEvent now).toList := by
  have hadded : (ctx.logger.flushImpl ctx.diagnostics now).added =
      ctx.diagnostics.pendingEvent now := by
    simp only [EventLogger.flushImpl]
    split <;> rfl
  rw [ReadContext.flush, EventLogger.flush, EventLogger.batch_flushImpl, hadded]

theorem forall_batches_flush_iff {P : StatsigEventInternal → Prop} :
    (∀ batch ∈ (s.withContext (s.context.flush now)).batches, ∀ event ∈ batch, P event) ↔
      (∀ batch ∈ s.batches, ∀ event ∈ batch, P event) ∧
        (∀ event ∈ s.context.logger.events, P event) ∧
        ∀ event, s.context.diagnostics.pendingEvent now = some event → P event := by
  have hbatch : (∀ batch ∈ (s.context.flush now).2.toList, ∀ event ∈ batch, P event) ↔
      ∀ event ∈ (s.context.flush now).2.getD [], P event := by
    cases (s.context.flush now).2 <;> simp
  rw [withContext, List.forall_mem_append, hbatch, batch_flush, List.forall_mem_append]
  simp [Option.mem_toList]

theorem forall_pendingEvent_iff {d : Diagnostics} {P : StatsigUser → Prop} :
    (∀ event, d.pendingEvent now = some event → P event.user) ↔ (d.markers ≠ [] → P d.user) := by
  rw [Diagnostics.pendingEvent]
  split_ifs with h <;> simp [h]

theorem inv_flush (hs : Inv s) : Inv (s.withContext (s.context.flush now)) := by
  have hknown : ∀ {user}, Known s user → Known (s.withContext (s.context.flush now)) user :=
    fun h ↦ h.mono (by rw [withContext, context_flush]) (List.Subset.refl _)
  have hpassed : ∀ {user}, user ∈ s.passed ∨ Known s user →
      user ∈ s.passed ∨ Known (s.withContext (s.context.flush now)) user := Or.imp_right hknown
  have hpending : ∀ event, s.context.diagnostics.pendingEvent now = some event →
      event.user ∈ s.passed ∨ Known (s.withContext (s.context.flush now)) event.user :=
    forall_pendingEvent_iff
      (P := fun user ↦ user ∈ s.passed ∨ Known (s.withContext (s.context.flush now)) user)
      |>.mpr fun _ ↦ hpassed hs.diagnostics
  refine
    { sdkKey := ?_
      user := ?_
      layers := fun layer hlayer expo hexpo ↦ hknown (hs.layers layer hlayer expo hexpo)
      events := ?_
      updates := hs.updates
      diagnostics := ?_
      batches := ?_ }
  · rw [withContext, context_flush]
    exact hs.sdkKey
  · rw [show (s.withContext (s.context.flush now)).context.user = s.context.user by
      rw [withContext, context_flush]]
    exact hknown hs.user
  · rw [withContext, context_flush]
    simp
  · rw [show (s.withContext (s.context.flush now)).context.diagnostics.user =
      s.context.diagnostics.user by rw [withContext, context_flush]]
    exact hpassed hs.diagnostics
  · exact forall_batches_flush_iff.mpr ⟨fun batch hbatch event hevent ↦
      hpassed (hs.batches batch hbatch event hevent),
      fun event hevent ↦ .inr (hknown (hs.events event hevent)), hpending⟩

/-- **What a flush hands off**: users who are normalised, if there are no markers, or the user of
the diagnostics has the right environment. -/
theorem normalized_flush_iff (hs : Inv s) (hgood : Normalized s) :
    Normalized (s.withContext (s.context.flush now)) ↔ (s.context.diagnostics.markers ≠ [] →
      s.context.diagnostics.user.statsigEnvironment = s.context.options.environment) := by
  rw [(inv_flush hs).normalized_iff_environment, forall_batches_flush_iff, withContext,
    context_flush]
  have hbatches := hs.normalized_iff_environment.mp hgood
  have hevents : ∀ event ∈ s.context.logger.events,
      event.user.statsigEnvironment = s.context.options.environment :=
    fun event hevent ↦ (hs.events event hevent).environment
  rw [and_iff_right hbatches, and_iff_right hevents]
  exact forall_pendingEvent_iff
    (P := fun user ↦ user.statsigEnvironment = s.context.options.environment)

theorem inv_push (hs : Inv s) (hevent : Known s event.user) :
    Inv { s with context := push s.context event } :=
  { hs with events := Slots.forall_mem_append_singleton hs.events hevent }

/-- Enqueuing an event is a flush after it went into the buffer, or nothing more than that. -/
theorem withContext_enqueue (s : LoggedRun) (event : StatsigEventInternal) (now : Int64) :
    s.withContext (s.context.enqueue event now) =
      let pushed := { s with context := push s.context event }
      if EventLogger.exceeds (s.context.logger.events.length + 1)
          s.context.logger.maxBufferSize then
        pushed.withContext (pushed.context.flush now)
      else pushed := by
  rw [enqueue_eq]
  split
  · rfl
  · simp [withContext]

theorem inv_enqueue (hs : Inv s) (hevent : Known s event.user) :
    Inv (s.withContext (s.context.enqueue event now)) := by
  rw [withContext_enqueue]
  split
  · exact inv_flush (inv_push hs hevent)
  · exact inv_push hs hevent

/-- **What enqueuing hands off**, if the buffer is full: the same as a flush. -/
theorem normalized_enqueue_iff (hs : Inv s) (hgood : Normalized s) (hevent : Known s event.user) :
    Normalized (s.withContext (s.context.enqueue event now)) ↔
      (EventLogger.exceeds (s.context.logger.events.length + 1)
          s.context.logger.maxBufferSize = true →
        s.context.diagnostics.markers ≠ [] →
          s.context.diagnostics.user.statsigEnvironment = s.context.options.environment) := by
  rw [withContext_enqueue]
  split
  · rename_i hfull
    rw [normalized_flush_iff (inv_push hs hevent) hgood, hfull]
    simp [push]
  · rename_i hfull
    exact iff_of_true hgood fun h ↦ absurd h hfull

end Flush

/-! ## Steps -/

/-- The step neither adds to the buffer nor hands anything off. -/
structure Quiet (s t : LoggedRun) : Prop where
  sdkKey : t.context.sdkKey = s.context.sdkKey
  options : t.context.options = s.context.options
  logger : t.context.logger = s.context.logger
  batches : t.batches = s.batches
  passed : s.passed ⊆ t.passed

namespace Quiet

variable {s t : LoggedRun}

theorem refl (s : LoggedRun) : Quiet s s := ⟨rfl, rfl, rfl, rfl, List.Subset.refl _⟩

theorem known (h : Quiet s t) {user : StatsigUser} (huser : Known s user) : Known t user :=
  huser.mono h.options h.passed

theorem layers (h : Quiet s t) (hs : Inv s) :
    ∀ layer ∈ s.layers, ∀ expo, layer.logParamExposure = some expo → Known t expo.user :=
  fun layer hlayer expo hexpo ↦ h.known (hs.layers layer hlayer expo hexpo)

/-- The copy of the diagnostics, if the step does not make another one. -/
theorem diagnostics (h : Quiet s t) (hs : Inv s) :
    s.context.diagnostics.user ∈ t.passed ∨ Known t s.context.diagnostics.user :=
  hs.diagnostics.imp (h.passed ·) h.known

/-- Only the copies that the step makes have to be looked at. -/
theorem inv (h : Quiet s t) (hs : Inv s) (huser : Known t t.context.user)
    (hlayers : ∀ layer ∈ t.layers, ∀ expo, layer.logParamExposure = some expo → Known t expo.user)
    (hupdates : ∀ u ∈ t.updates, u.user ∈ t.passed)
    (hdiagnostics : t.context.diagnostics.user ∈ t.passed ∨ Known t t.context.diagnostics.user) :
    Inv t where
  sdkKey := by
    rw [h.sdkKey]
    exact hs.sdkKey
  user := huser
  layers := hlayers
  events := by
    rw [h.logger]
    exact fun event hevent ↦ h.known (hs.events event hevent)
  updates := hupdates
  diagnostics := hdiagnostics
  batches := by
    rw [h.batches]
    exact fun batch hbatch event hevent ↦
      (hs.batches batch hbatch event hevent).imp (h.passed ·) h.known

theorem normalized_iff_normalized (h : Quiet s t) (hs : Inv s) (ht : Inv t) :
    Normalized t ↔ Normalized s := by
  rw [ht.normalized_iff_environment, hs.normalized_iff_environment, h.batches, h.options]

end Quiet

section Steps

variable {s t : LoggedRun} {a : LoggedLabel}

/-- **What a step can do**: enqueue an event of a user who is known, flush, or neither. -/
inductive Effect (s : LoggedRun) (a : LoggedLabel) (t : LoggedRun) : Prop where
  | enqueues (event : StatsigEventInternal) (now : Int64)
    (hflushes : Flushes s a ↔ EventLogger.exceeds (s.context.logger.events.length + 1)
      s.context.logger.maxBufferSize = true)
    (hevent : Known s event.user) (ht : t = s.withContext (s.context.enqueue event now))
  | flushes (now : Int64) (hflushes : Flushes s a)
    (ht : t = s.withContext (s.context.flush now))
  | quiet (hflushes : ¬ Flushes s a) (hquiet : Quiet s t) (ht : Inv t)

theorem user_mark (d : Diagnostics) (marker : Json) : (d.mark marker).user = d.user := by
  rw [Diagnostics.mark]
  split <;> rfl

theorem user_of_getLayer {ctx : ReadContext} {fate : TaskFate} {name : Str}
    {expo : LogExposure}
    (h : (StatsigClient.getLayer p { context := some ctx } fate name).result.logParamExposure =
      some expo) : expo.user = ctx.user := by
  rw [StatsigClient.getLayer] at h
  split at h
  · exact absurd h (by simp)
  · rename_i ctx' hctx
    obtain rfl := Option.some_inj.mp (StatsigClient.ensureInitialized_eq_some_iff.mp hctx).1
    cases fate with
    | completes => exact (Option.some_inj.mp h) ▸ rfl
    | stopsBefore | stopsAfter => exact absurd h (by simp)

theorem Inv.ensureInitialized (hs : Inv s) :
    StatsigClient.ensureInitialized { context := some s.context } = some s.context :=
  StatsigClient.ensureInitialized_eq_some_iff.mpr ⟨rfl, hs.sdkKey⟩

/-- A read enqueues an event of the context's user, unless it stops before that. -/
theorem effect_read {α : Type} (hs : Inv s) (call : ReadCall) (fate : TaskFate) (name : Str)
    (now : Int64) {bare : α} {evaluate : ReadContext → StatsigEventInternal × α}
    (huser : (evaluate s.context).1.user = s.context.user) :
    Effect s (.read call fate name now) (s.afterRead
      (StatsigClient.readSpec { context := some s.context } fate bare evaluate now)) := by
  have hevent : Known s (evaluate s.context).1.user := huser ▸ hs.user
  rw [StatsigClient.readSpec, hs.ensureInitialized]
  cases fate with
  | completes => exact .enqueues _ now (and_iff_right TaskFate.noConfusion) hevent rfl
  | stopsBefore =>
    rw [show s.afterRead _ = s by simp [afterRead, withContext]]
    exact .quiet (fun h ↦ h.1 rfl) (Quiet.refl s) hs
  | stopsAfter => exact .enqueues _ now (and_iff_right TaskFate.noConfusion) hevent rfl

/-- The copies that an update makes: of its argument, normalised for the context and as it is for
the diagnostics. -/
theorem effect_update (hs : Inv s) {i : ℕ} {u : UserUpdate} (hu : s.updates[i]? = some u)
    (answer : StatsigResult DataAdapterResult) :
    Effect s (.update i answer) (stepUpdate p lib s i answer u) := by
  have hpassed : u.user ∈ s.passed := hs.updates u (List.mem_of_getElem? hu)
  have hset : ∀ phase, ∀ v ∈ s.updates.set i { u with phase }, v.user ∈ s.passed :=
    fun phase ↦ Slots.forall_mem_set hs.updates hpassed
  obtain ⟨kind, user, phase⟩ := u
  cases phase with
  | writeUser =>
    have hquiet : Quiet s (stepUpdate p lib s i answer ⟨kind, user, .writeUser⟩) :=
      ⟨rfl, rfl, rfl, rfl, List.Subset.refl _⟩
    refine .quiet (fun h ↦ h.1) hquiet (hquiet.inv hs ⟨user, hpassed, rfl⟩ ?_ (hset _) ?_)
    · exact hquiet.layers hs
    · exact hquiet.diagnostics hs
  | resetStore =>
    have hquiet : Quiet s (stepUpdate p lib s i answer ⟨kind, user, .resetStore⟩) :=
      ⟨rfl, rfl, rfl, rfl, List.Subset.refl _⟩
    refine .quiet (fun h ↦ h.1) hquiet (hquiet.inv hs (hquiet.known hs.user) ?_ (hset _) ?_)
    · exact hquiet.layers hs
    · exact hquiet.diagnostics hs
  | setDiagnosticsUser =>
    have hquiet : Quiet s (stepUpdate p lib s i answer ⟨kind, user, .setDiagnosticsUser⟩) :=
      ⟨rfl, rfl, rfl, rfl, List.Subset.refl _⟩
    refine .quiet (fun h ↦ h.1) hquiet
      (hquiet.inv hs (hquiet.known hs.user) ?_ (hset _) (.inl hpassed))
    exact hquiet.layers hs
  | getDataSync =>
    have hquiet : Quiet s (stepUpdate p lib s i answer ⟨kind, user, .getDataSync⟩) := by
      refine ⟨rfl, ?_, rfl, rfl, List.Subset.refl _⟩
      cases kind <;> simp [stepUpdate]
    have huser : (stepUpdate p lib s i answer ⟨kind, user, .getDataSync⟩).context.user =
        s.context.user := by
      cases kind <;> simp [stepUpdate]
    refine .quiet (fun h ↦ h.1) hquiet (hquiet.inv hs (huser ▸ hquiet.known hs.user) ?_
      (Slots.forall_mem_eraseIdx hs.updates) ?_)
    · exact hquiet.layers hs
    · exact hquiet.diagnostics hs

/-- A layer enqueues an event of the user that it was read for, if it was read. -/
theorem effect_getValue (hs : Inv s) {i : ℕ} {layer : Layer} (hlayer : s.layers[i]? = some layer)
    (parameterName : Str) (now : Int64)
    (ht : step p lib s (.getValue i parameterName now) = some t) :
    Effect s (.getValue i parameterName now) t := by
  have hflushes : Flushes s (.getValue i parameterName now) ↔
      layer.logParamExposure.isSome = true ∧ EventLogger.exceeds
        (s.context.logger.events.length + 1) s.context.logger.maxBufferSize = true := by
    simp [Flushes, Enqueues, hlayer]
  simp only [step, hlayer, Option.map_some, Option.some_inj, Layer.exposeParam] at ht
  cases hexpo : layer.logParamExposure with
  | none =>
    rw [hexpo] at ht hflushes
    subst ht
    exact .quiet (fun h ↦ absurd (hflushes.mp h).1 (by simp)) (Quiet.refl s) hs
  | some expo =>
    rw [hexpo] at ht hflushes
    refine .enqueues _ now (hflushes.trans (and_iff_right rfl)) ?_ ht.symm
    exact hs.layers layer (List.mem_of_getElem? hlayer) expo hexpo

/-- Every label has one of the three effects. -/
theorem effect_of_step (hs : Inv s) (h : step p lib s a = some t) : Effect s a t := by
  cases a with
  | updateUser kind user =>
    obtain rfl := Option.some_inj.mp h
    have hquiet : Quiet s { s with
        updates := s.updates ++ [{ kind, user }], passed := s.passed ++ [user] } :=
      ⟨rfl, rfl, rfl, rfl, List.subset_append_left _ _⟩
    refine .quiet (fun h ↦ h.1) hquiet (hquiet.inv hs (hquiet.known hs.user) ?_ ?_ ?_)
    · exact hquiet.layers hs
    · exact Slots.forall_mem_append_singleton (fun u hu ↦ hquiet.passed (hs.updates u hu))
        (List.mem_append_right _ List.mem_cons_self)
    · exact hquiet.diagnostics hs
  | update i answer =>
    obtain ⟨u, hu, rfl⟩ := Option.map_eq_some_iff.mp h
    exact effect_update p lib hs hu answer
  | callback initiator result =>
    obtain rfl := Option.some_inj.mp h
    have hquiet : Quiet s { s with context := { s.context with
        toClientState := s.context.innerCallback p lib initiator result } } :=
      ⟨rfl, by simp, rfl, rfl, List.Subset.refl _⟩
    refine .quiet (fun h ↦ h.1) hquiet (hquiet.inv hs ?_ ?_ hs.updates ?_)
    · rw [ClientState.user_innerCallback]
      exact hquiet.known hs.user
    · exact hquiet.layers hs
    · exact hquiet.diagnostics hs
  | logEvent event now =>
    obtain rfl := Option.some_inj.mp h
    exact .enqueues _ now (and_iff_right trivial) hs.user rfl
  | read call fate name now =>
    obtain rfl := Option.some_inj.mp h
    cases call with
    | checkGate =>
      simp only [StatsigClient.checkGate, hs.ensureInitialized]
      exact effect_read hs .checkGate fate name now rfl
    | getFeatureGate => exact effect_read hs .getFeatureGate fate name now rfl
    | getDynamicConfig => exact effect_read hs .getDynamicConfig fate name now rfl
    | getExperiment => exact effect_read hs .getExperiment fate name now rfl
  | getLayer fate name =>
    obtain rfl := Option.some_inj.mp h
    have hquiet : Quiet s { s with layers := s.layers ++
        [(StatsigClient.getLayer p { context := some s.context } fate name).result] } :=
      ⟨rfl, rfl, rfl, rfl, List.Subset.refl _⟩
    refine .quiet (fun h ↦ h.1) hquiet (hquiet.inv hs (hquiet.known hs.user) ?_ hs.updates
      (hquiet.diagnostics hs))
    refine Slots.forall_mem_append_singleton (hquiet.layers hs) ?_
    intro expo hexpo
    rw [user_of_getLayer p hexpo]
    exact hquiet.known hs.user
  | getValue i parameterName now =>
    obtain ⟨layer, hlayer, -⟩ := Option.map_eq_some_iff.mp h
    exact effect_getValue p lib hs hlayer parameterName now h
  | flush now =>
    obtain rfl := Option.some_inj.mp h
    exact .flushes now trivial rfl
  | mark marker =>
    obtain rfl := Option.some_inj.mp h
    have hquiet : Quiet s { s with context := { s.context with
        diagnostics := s.context.diagnostics.mark marker } } :=
      ⟨rfl, rfl, rfl, rfl, List.Subset.refl _⟩
    refine .quiet (fun h ↦ h.1) hquiet (hquiet.inv hs (hquiet.known hs.user) ?_ hs.updates ?_)
    · exact hquiet.layers hs
    · rw [user_mark]
      exact hquiet.diagnostics hs

/-- **One step keeps the copies in order.** -/
theorem inv_step (hs : Inv s) (h : step p lib s a = some t) : Inv t := by
  cases effect_of_step p lib hs h with
  | enqueues event now _ hevent ht => exact ht ▸ inv_enqueue hs hevent
  | flushes now _ ht => exact ht ▸ inv_flush hs
  | quiet _ _ ht => exact ht

/-- **One step, while all is well**: it stays so exactly if the step is clean. -/
theorem cleanFlush_iff_normalized (hs : Inv s) (hgood : Normalized s)
    (h : step p lib s a = some t) : CleanFlush s a ↔ Normalized t := by
  cases effect_of_step p lib hs h with
  | enqueues event now hflushes hevent ht =>
    rw [ht, normalized_enqueue_iff hs hgood hevent, CleanFlush, hflushes]
  | flushes now hflushes ht =>
    rw [ht, normalized_flush_iff hs hgood, CleanFlush]
    exact imp_iff_right hflushes
  | quiet hflushes hquiet ht =>
    rw [hquiet.normalized_iff_normalized hs ht]
    exact iff_of_true (fun h ↦ absurd h hflushes) hgood

/-- What is done to the context of a run does not change its options, and only adds batches. -/
theorem normalized_of_withContext {done : ReadContext × Option (List StatsigEventInternal)}
    (hs : Inv s) (hoptions : done.1.options = s.context.options)
    (h : Normalized (s.withContext done)) : Normalized s := by
  refine hs.normalized_iff_environment.mpr fun batch hbatch event hevent ↦ ?_
  exact (h batch (List.mem_append_left _ hbatch) event hevent).1.trans
    (congrArg StatsigOptions.environment hoptions)

/-- **What has been handed off stays handed off.** -/
theorem normalized_of_step (hs : Inv s) (h : step p lib s a = some t) (ht : Normalized t) :
    Normalized s := by
  cases effect_of_step p lib hs h with
  | enqueues event now _ _ heq =>
    subst heq
    refine normalized_of_withContext hs ?_ ht
    rw [enqueue_eq]
    split
    · rw [context_flush, push]
    · rfl
  | flushes now _ heq =>
    subst heq
    exact normalized_of_withContext hs (by rw [context_flush]) ht
  | quiet _ hquiet hinv => exact (hquiet.normalized_iff_normalized hs hinv).mp ht

end Steps

/-! ## Whole runs -/

section Runs

variable {sdkKey : Str} (options : StatsigOptions) (kind : UpdateKind) (user : Option StatsigUser)
  (markers : List Json)

/-- `Initialize` gives the diagnostics the user that it has just normalised. -/
theorem inv_start (hsdkKey : sdkKey ≠ []) : Inv (start sdkKey options kind user markers) where
  sdkKey := hsdkKey
  user := ⟨user.getD {}, List.mem_cons_self, rfl⟩
  layers := by simp [start]
  events := by simp [start, construct, EventLogger.create, EventLogger.construct]
  updates := by simp [start, construct]
  diagnostics := .inr ⟨user.getD {}, List.mem_cons_self, rfl⟩
  batches := by simp [start]

theorem normalized_start : Normalized (start sdkKey options kind user markers) := by
  simp [Normalized, start]

/-- **Whose events are logged**: in every batch of a run there are only users who are normalised,
exactly if none of its flushes finds markers together with a user of the diagnostics who does not
have the environment of the options. -/
theorem normalized_iff {t : LoggedRun} {labels : List LoggedLabel} (hsdkKey : sdkKey ≠ [])
    (hrun : Machine.run (step p lib) (start sdkKey options kind user markers) labels = some t) :
    Normalized t ↔ Machine.AllSteps (step p lib) CleanFlush
      (start sdkKey options kind user markers) labels :=
  (Machine.allSteps_iff_good
    (fun hs hgood hst ↦ ⟨inv_step p lib hs hst, cleanFlush_iff_normalized p lib hs hgood hst⟩)
    (fun hs hbad hst ↦ ⟨inv_step p lib hs hst, fun ht ↦ hbad (normalized_of_step p lib hs hst ht)⟩)
    (inv_start options kind user markers hsdkKey)
    (normalized_start options kind user markers) hrun).symm

end Runs

instance : DecidableRel Known := fun s user ↦
  inferInstanceAs (Decidable (∃ v ∈ s.passed, user = normalizeUser v s.context.options))

instance : DecidablePred Normalized := fun s ↦
  inferInstanceAs (Decidable (∀ batch ∈ s.batches, ∀ event ∈ batch, _ ∧ Known s event.user))

/-- Options with an environment. -/
def stagingOptions : StatsigOptions := { environment := some { tier := some (str "staging") } }

/-- The update of `Initialize` ends, and another user becomes the current one. -/
def updateToAnother : List LoggedLabel :=
  [.update 0 { code := .ok }, .updateUser .sync { userId := some (str "b") },
   .update 0 { code := .ok }, .update 0 { code := .ok }, .update 0 { code := .ok },
   .update 0 { code := .ok }]

/-- Two events with a flush after each, and the markers of `Initialize` in the first batch. -/
def twoFlushes : List LoggedLabel :=
  [.logEvent { eventName := str "before" } 1, .flush 2] ++ updateToAnother ++
    [.logEvent { eventName := str "after" } 3, .flush 4]

theorem normalized_iff_twoFlushes :
    ∃ t, Machine.run (step .linux initializeResponse.twoTexts)
        (start (str "key") stagingOptions .sync none [.null]) twoFlushes = some t ∧
      t.batches.map List.length = [2, 1] ∧
      (Normalized t ↔ Machine.AllSteps (step .linux initializeResponse.twoTexts) CleanFlush
        (start (str "key") stagingOptions .sync none [.null]) twoFlushes) :=
  ⟨_, rfl, by decide, normalized_iff .linux initializeResponse.twoTexts stagingOptions .sync none
    [.null] (show str "key" ≠ [] by decide) rfl⟩

/-- The markers of `Initialize` are flushed after the update, with the argument of the update. -/
theorem not_forall_normalized :
    ¬ ∀ (p : Platform) (lib : JsonText) (sdkKey : Str) (options : StatsigOptions)
      (kind : UpdateKind) (user : Option StatsigUser) (markers : List Json)
      (labels : List LoggedLabel) (t : LoggedRun), sdkKey ≠ [] →
      Machine.run (step p lib) (start sdkKey options kind user markers) labels = some t →
      Normalized t := by
  intro h
  have hnormalized := h .linux initializeResponse.twoTexts (str "key") stagingOptions .sync none
    [.null] (updateToAnother ++ [.flush 2]) _ (by decide) rfl
  exact absurd hnormalized (by decide)

end LoggedRun

end Statsig
