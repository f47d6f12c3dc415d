import Statsig.FailedEvents
import Statsig.Lib.Slots

/-!
# From the buffer to the server

Events on their way: the buffer, the batches that wait for a worker, the requests, and the
failed-events file.  Calls of the client, the tasks of the event logger, the steps of the file's
writes, the answers of the server and the failures of the file system interleave in any order.

A task holds a weak pointer to the logger until it runs.  The client's context owns the logger and
the network.  `Shutdown` flushes the buffer first and lets go of the context last, when its time is
up, whether or not all tasks have run; until then, and for as long as anything else holds the
logger, events can still be logged.

A worker has no handler around a task, so an exception in one ends the process:
`crashed_eq_false_iff` says which.
-/

set_option autoImplicit false

namespace Statsig

/-! ## The machine -/

/-- Where a batch comes from: a flush, or the failed-events file, with the number of the attempt. -/
inductive Origin where
  | flush
  | file (attempt : Int32)
  deriving DecidableEq, Repr

/-- The attempt that a failure is saved with. -/
def Origin.attempt : Origin → Int32
  | .flush => 1
  | .file attempt => attempt

/-- Whether a failure is saved at all. -/
def Origin.saves : Origin → Bool
  | .flush => true
  | .file attempt => decide (attempt ≤ constants.kFailedEventPayloadRetryCount)

/-- What the task of a batch does next. -/
inductive SendStage where
  /-- It waits for a worker. -/
  | queued
  /-- It has locked the logger. -/
  | locked
  /-- It waits for the answer to this attempt. -/
  | posted (attempt : ℤ)
  /-- It has failed, and is to be saved. -/
  | saving
  /-- The file has been read, and this is what is going to be written to it, without the events
  that the file has no room for. -/
  | storing (text : Str) (excluded : List StatsigEventInternal)
  deriving DecidableEq, Repr

/-- The request has been built. -/
def SendStage.built : SendStage → Bool
  | .queued => false
  | .locked => false
  | .posted _ => true
  | .saving => true
  | .storing _ _ => true

/-- A write to the file is about to be queued. -/
def SendStage.stores : SendStage → Bool
  | .storing _ _ => true
  | _ => false

/-- A batch on its way. -/
structure Send where
  events : List StatsigEventInternal
  weakSelf : WeakPtr
  origin : Origin := .flush
  stage : SendStage := .queued
  deriving DecidableEq, Repr

/-- What the task of `RetryFailedEvents` does next. -/
inductive RetryStage where
  | queued
  | reading
  | deleting (failures : List RetryableEventPayload)
  | sending (failures : List RetryableEventPayload)
  | finished
  deriving DecidableEq, Repr

/-- A record of what became of the events. -/
structure Ledger where
  /-- Passed to `Enqueue`. -/
  enqueued : List StatsigEventInternal := []
  /-- Added by the diagnostics. -/
  appended : List StatsigEventInternal := []
  /-- In a batch that the server answered with 2xx. -/
  delivered : List StatsigEventInternal := []
  /-- In a payload that the limits of the failed-events file excluded. -/
  dropped : List StatsigEventInternal := []
  deriving DecidableEq, Repr

/-- The event logger with all that it has set in motion. -/
structure EventDelivery where
  logger : EventLogger
  diagnostics : Diagnostics := {}
  sessionId : Str
  /-- `stable_id_` of the context's network, which the first `StableID::Get` sets. -/
  stableId : Option Str := none
  /-- The client's own pointer to the context, and those of the calls and tasks that run. -/
  context : Ownership
  loggerOwners : Ownership
  networkOwners : Ownership
  /-- The pointers to the logger that a layer's exposure, the timer or the platform has locked. -/
  holders : ℕ := 0
  retryRef : WeakPtr
  retry : RetryStage := .queued
  sends : List Send := []
  file : AsyncFile UInt8 := {}
  shutDown : Bool := false
  crashed : Bool := false
  ledger : Ledger := {}
  deriving DecidableEq, Repr

/-- What a task's step meets outside the process. -/
structure World where
  /-- The answer, if the step waits for one. -/
  response : HttpResponse := {}
  /-- What the stable-id file holds, or else what `UUID::v4` draws. -/
  stableId : Str := []
  /-- A call of the file system throws. -/
  fails : Bool := false
  deriving DecidableEq, Repr

inductive DeliveryLabel where
  | enqueue (event : StatsigEventInternal) (now : Int64)
  | flush (now : Int64)
  | mark (marker : Json)
  | setUser (user : StatsigUser)
  /-- `Shutdown`, up to its flush. -/
  | shutdown (now : Int64)
  /-- A call or a task locks the context. -/
  | lockContext
  /-- One that has it, or at last `Shutdown`, lets go of it. -/
  | releaseContext
  | lockLogger
  | releaseLogger
  /-- The next step of a batch's task. -/
  | send (i : ℕ) (world : World)
  /-- The next step of the retry task. -/
  | retry (world : World)
  /-- A queued write goes on, or fails. -/
  | file (a : AsyncFile.Label UInt8)
  deriving DecidableEq, Repr

/-- What the step meets, if it is one of a task. -/
def DeliveryLabel.world : DeliveryLabel → World
  | .send _ world => world
  | .retry world => world
  | _ => {}

variable (lib : JsonText)

namespace EventDelivery

open EventLogger

/-- The events of a payload that a save pushes out of the file. -/
def pushedOut (content : Option Str) (events : List StatsigEventInternal) (attempt : Int32) :
    List StatsigEventInternal :=
  ((⟨attempt, events⟩ :: readFailures lib content).drop
    (insertFailure ⟨attempt, events⟩ (readFailures lib content)).length).flatMap
      RetryableEventPayload.events

/-- The state after a call that may have flushed the buffer. -/
def afterFlush (s : EventDelivery) (flushed : Flushed) : EventDelivery :=
  { s with
    logger := flushed.logger
    diagnostics := flushed.diagnostics
    sends := s.sends ++ (flushed.batch.map fun events ↦
      { events, weakSelf := s.loggerOwners.weakFromThis : Send }).toList
    ledger := { s.ledger with appended := s.ledger.appended ++ flushed.added.toList } }

/-- The `i`-th batch goes on to another stage. -/
def setStage (s : EventDelivery) (i : ℕ) (send : Send) (stage : SendStage) : EventDelivery :=
  { s with sends := s.sends.set i { send with stage } }

/-- The `i`-th batch is done with, and the pointers that its request held are released.  A batch of
the retry task has no pointer to the logger of its own. -/
def endSend (s : EventDelivery) (i : ℕ) (send : Send) : EventDelivery :=
  { s with
    sends := s.sends.eraseIdx i
    networkOwners := s.networkOwners.release
    loggerOwners :=
      match send.origin with
      | .flush => s.loggerOwners.release
      | .file _ => s.loggerOwners }

/-- `StableID::Get`; `none` where reading or queueing its file throws. -/
def getStableId (s : EventDelivery) (world : World) : Option Str :=
  match s.stableId with
  | some id => some id
  | none => File.attempt world.fails world.stableId

/-- `NetworkService::SendEvents` up to the request; `none` where it throws. -/
def sendEvents (s : EventDelivery) (world : World) (events : List StatsigEventInternal) :
    Option EventDelivery :=
  (s.getStableId world).bind fun id ↦
    (({ sessionId := s.sessionId, stableId := id } : NetworkService).sendEventsBody lib events).map
      fun _ ↦ { s with stableId := some id }

/-- The next step of the `i`-th batch.  Both callbacks of a request run while its task holds the
logger, so locking it there does not fail. -/
def stepSend (s : EventDelivery) (i : ℕ) (world : World) (send : Send) : EventDelivery :=
  match send.stage with
  | .queued =>
    match Ownership.lock send.weakSelf s.loggerOwners with
    | none => { s with sends := s.sends.eraseIdx i }
    | some loggerOwners => { s.setStage i send .locked with loggerOwners }
  | .locked =>
    match Ownership.lock .toObject s.networkOwners with
    | none => { s with sends := s.sends.eraseIdx i, loggerOwners := s.loggerOwners.release }
    | some networkOwners =>
      match sendEvents lib s world send.events with
      | none => { s with crashed := true }
      | some t => { t.setStage i send (.posted 1) with networkOwners }
  | .posted attempt =>
    if shouldRetry constants.kLogEventRetryCount attempt world.response then
      s.setStage i send (.posted (attempt + 1))
    else if (NetworkService.sendEventsResult world.response).value.isSome then
      { s.endSend i send with
        ledger := { s.ledger with delivered := s.ledger.delivered ++ send.events } }
    else if send.origin.saves then s.setStage i send .saving
    else
      { s.endSend i send with
        ledger := { s.ledger with dropped := s.ledger.dropped ++ send.events } }
  | .saving =>
    match File.attempt world.fails s.file.content with
    | none => { s with crashed := true }
    | some content =>
      match saveFailedEvents lib content send.events send.origin.attempt with
      | none => { s with crashed := true }
      | some text =>
        s.setStage i send (.storing text (pushedOut lib content send.events send.origin.attempt))
  | .storing text excluded =>
    match File.attempt world.fails (s.file.queue text) with
    | none => { s with crashed := true }
    | some file =>
      { s.endSend i send with
        file
        ledger := { s.ledger with dropped := s.ledger.dropped ++ excluded } }

/-- A batch of the retry task is on its way; the task waits for it. -/
def retrying (s : EventDelivery) : Bool := s.sends.any fun send ↦ decide (send.origin ≠ .flush)

/-- The retry task ends. -/
def endRetry (s : EventDelivery) : EventDelivery :=
  { s with retry := .finished, loggerOwners := s.loggerOwners.release }

/-- The next step of the retry task. -/
def stepRetry (s : EventDelivery) (world : World) : Option EventDelivery :=
  match s.retry with
  | .queued =>
    match Ownership.lock s.retryRef s.loggerOwners with
    | none => some { s with retry := .finished }
    | some loggerOwners => some { s with retry := .reading, loggerOwners }
  | .reading =>
    match File.attempt world.fails s.file.content with
    | none => some { s with crashed := true }
    | some none => some s.endRetry
    | some (some text) => some { s with retry := .deleting (readFailures lib (some text)) }
  | .deleting failures =>
    match File.attempt world.fails s.file.delete with
    | none => some { s with crashed := true }
    | some file => some { s with retry := .sending failures, file }
  | .sending [] => if s.retrying then none else some s.endRetry
  | .sending (failure :: failures) =>
    if s.retrying then none
    else
      match Ownership.lock .toObject s.networkOwners with
      | none => some s.endRetry
      | some networkOwners =>
        match sendEvents lib s world failure.events with
        | none => some { s with crashed := true }
        | some t => some { t with
            networkOwners
            retry := .sending failures
            sends := s.sends ++ [{
              events := failure.events
              weakSelf := s.retryRef
              origin := .file (failure.attempts + 1)
              stage := .posted 1 }] }
  | .finished => none

/-- A pointer to the context goes away, and with the last one the context. -/
def dropContext (s : EventDelivery) : EventDelivery :=
  if s.context.owners = 1 then
    { s with
      context := s.context.release
      loggerOwners := s.loggerOwners.release
      networkOwners := s.networkOwners.release }
  else { s with context := s.context.release }

/-- One step of a process that runs.  Events are logged, and the buffer is flushed, through the
context or through a pointer to the logger; the client keeps its own pointer to the context up to
its shutdown. -/
def act (s : EventDelivery) : DeliveryLabel → Option EventDelivery
  | .enqueue event now =>
    if s.loggerOwners.Alive then
      let t := s.afterFlush (s.logger.enqueue s.diagnostics event now)
      some { t with ledger := { t.ledger with enqueued := t.ledger.enqueued ++ [event] } }
    else none
  | .flush now =>
    if s.loggerOwners.Alive then some (s.afterFlush (s.logger.flush s.diagnostics now)) else none
  | .mark marker => some { s with diagnostics := s.diagnostics.mark marker }
  | .setUser user => some { s with diagnostics := s.diagnostics.setUser user }
  | .shutdown now =>
    if s.context.Alive then
      some { s.afterFlush (s.logger.flush s.diagnostics now) with shutDown := true }
    else none
  | .lockContext => (Ownership.lock .toObject s.context).map fun context ↦ { s with context }
  | .releaseContext =>
    if s.context.Alive ∧ (s.shutDown = true ∨ 1 < s.context.owners) then some s.dropContext
    else none
  | .lockLogger =>
    (Ownership.lock .toObject s.loggerOwners).map fun loggerOwners ↦
      { s with loggerOwners, holders := s.holders + 1 }
  | .releaseLogger =>
    if 0 < s.holders then
      some { s with loggerOwners := s.loggerOwners.release, holders := s.holders - 1 }
    else none
  | .send i world => (s.sends[i]?).map (stepSend lib s i world)
  | .retry world => stepRetry lib s world
  | .file a =>
    if a.request?.isSome then none else (s.file.step a).map fun file ↦ { s with file }

/-- One step.  A process that has crashed takes none. -/
def step (s : EventDelivery) (a : DeliveryLabel) : Option EventDelivery :=
  if s.crashed then none else act lib s a

/-- A client that has just been initialised, with the content of the failed-events file. -/
def init (sdkKey : Str) (options : StatsigOptions) (sessionId : Str) (content : Option Str) :
    EventDelivery :=
  let (logger, callbacks, loggerOwners) := EventLogger.create sdkKey options
  { logger
    sessionId
    context := Ownership.constructing.adopt
    loggerOwners
    networkOwners := Ownership.constructing.adopt
    retryRef := callbacks.retry
    file := { content } }

/-! ## Exceptions -/

/-- The request for these events can be built, once the service has its stable id. -/
def sendable (s : EventDelivery) (world : World) (events : List StatsigEventInternal) : Bool :=
  events.all StatsigEventInternal.validUtf8 &&
    (Utf8.valid s.sessionId && Utf8.valid (s.stableId.getD world.stableId))

/-- The events that a step hands to `NetworkService::SendEvents`. -/
def handedOver (s : EventDelivery) : DeliveryLabel → Option (List StatsigEventInternal)
  | .send i _ => (s.sends[i]?).bind fun send ↦
      if send.stage = .locked ∧ s.networkOwners.Alive then some send.events else none
  | .retry _ =>
    match s.retry with
    | .sending (failure :: _) =>
      if s.retrying = false ∧ s.networkOwners.Alive then some failure.events else none
    | _ => none
  | _ => none

/-- A step that hands events over finds only strings that are UTF-8. -/
def SendsUtf8 (s : EventDelivery) (a : DeliveryLabel) : Prop :=
  (s.handedOver a).all (s.sendable a.world) = true

instance (s : EventDelivery) (a : DeliveryLabel) : Decidable (SendsUtf8 s a) :=
  inferInstanceAs (Decidable (_ = true))

/-- The step calls the file system: it saves a batch, it reads or removes the failed-events file, or
it is the first to ask for the stable id. -/
def callsFiles (s : EventDelivery) (a : DeliveryLabel) : Bool :=
  ((s.handedOver a).isSome && s.stableId.isNone) ||
    match a with
    | .send i _ => (s.sends[i]?).any fun send ↦
        decide (send.stage = .saving) || send.stage.stores
    | .retry _ =>
      match s.retry with
      | .reading => true
      | .deleting _ => true
      | _ => false
    | _ => false

/-- No call of the file system that the step makes throws. -/
def FilesWork (s : EventDelivery) (a : DeliveryLabel) : Prop :=
  s.callsFiles a = true → a.world.fails = false

instance (s : EventDelivery) (a : DeliveryLabel) : Decidable (FilesWork s a) :=
  inferInstanceAs (Decidable (_ → _))

/-- Nothing in the step throws. -/
structure Harmless (s : EventDelivery) (a : DeliveryLabel) : Prop where
  utf8 : SendsUtf8 s a
  files : FilesWork s a

instance (s : EventDelivery) (a : DeliveryLabel) : Decidable (Harmless s a) :=
  decidable_of_iff (SendsUtf8 s a ∧ FilesWork s a)
    ⟨fun h ↦ ⟨h.1, h.2⟩, fun h ↦ ⟨h.utf8, h.files⟩⟩

/-- A step that neither hands events over nor calls the file system. -/
theorem Harmless.of_idle {s : EventDelivery} {a : DeliveryLabel} (h : s.handedOver a = none)
    (hfiles : s.callsFiles a = false) : Harmless s a :=
  ⟨by rw [SendsUtf8, h]; rfl, fun hcalls ↦ absurd (hfiles.symm.trans hcalls) (by simp)⟩

/-- A step that only calls the file system. -/
theorem harmless_iff_of_callsFiles {s : EventDelivery} {a : DeliveryLabel}
    (h : s.handedOver a = none) (hfiles : s.callsFiles a = true) :
    Harmless s a ↔ a.world.fails = false :=
  ⟨fun hs ↦ hs.files hfiles, fun hfails ↦ ⟨by rw [SendsUtf8, h]; rfl, fun _ ↦ hfails⟩⟩

/-- **When `SendEvents` does not throw.** -/
theorem isSome_sendEvents (s : EventDelivery) (world : World)
    (events : List StatsigEventInternal) :
    (sendEvents lib s world events).isSome = true ↔
      s.sendable world events = true ∧ (s.stableId = none → world.fails = false) := by
  rw [sendEvents, getStableId, sendable]
  cases hid : s.stableId with
  | some id => simp [NetworkService.isSome_sendEventsBody]
  | none => cases hfails : world.fails <;> simp [File.attempt, NetworkService.isSome_sendEventsBody]

/-- What it leaves behind, and what it has found out about the events. -/
theorem of_sendEvents {s t : EventDelivery} {world : World} {events : List StatsigEventInternal}
    (h : sendEvents lib s world events = some t) :
    (∃ id, t = { s with stableId := some id }) ∧ ∀ e ∈ events, e.validUtf8 = true := by
  have hsendable := ((isSome_sendEvents lib s world events).mp (by rw [h]; rfl)).1
  refine ⟨?_, List.all_eq_true.mp (Bool.and_eq_true_iff.mp hsendable).1⟩
  obtain ⟨id, -, hid⟩ := Option.bind_eq_some_iff.mp h
  obtain ⟨body, -, rfl⟩ := Option.map_eq_some_iff.mp hid
  exact ⟨id, rfl⟩

/-- A step that hands events over. -/
theorem harmless_iff_of_handedOver {s : EventDelivery} {a : DeliveryLabel}
    {events : List StatsigEventInternal} (h : s.handedOver a = some events)
    (hfiles : s.callsFiles a = s.stableId.isNone) :
    Harmless s a ↔ (sendEvents lib s a.world events).isSome = true := by
  rw [isSome_sendEvents]
  have hutf8 : SendsUtf8 s a ↔ s.sendable a.world events = true := by simp [SendsUtf8, h]
  have hwork : FilesWork s a ↔ (s.stableId = none → a.world.fails = false) := by
    rw [FilesWork, hfiles, Option.isNone_iff_eq_none]
  exact ⟨fun hs ↦ ⟨hutf8.mp hs.utf8, hwork.mp hs.files⟩,
    fun hs ↦ ⟨hutf8.mpr hs.1, hwork.mpr hs.2⟩⟩

/-- What has been put into a request was UTF-8. -/
def BuiltUtf8 (sends : List Send) : Prop :=
  ∀ send ∈ sends, send.stage.built = true → ∀ e ∈ send.events, e.validUtf8 = true

theorem BuiltUtf8.eraseIdx {sends : List Send} (h : BuiltUtf8 sends) (i : ℕ) :
    BuiltUtf8 (sends.eraseIdx i) := Slots.forall_mem_eraseIdx h

theorem BuiltUtf8.append {sends more : List Send} (h : BuiltUtf8 sends) (hmore : BuiltUtf8 more) :
    BuiltUtf8 (sends ++ more) := by
  intro send hsend
  rcases List.mem_append.mp hsend with hsend | hsend
  · exact h send hsend
  · exact hmore send hsend

theorem BuiltUtf8.set {sends : List Send} (h : BuiltUtf8 sends) (i : ℕ) {send : Send}
    (hsend : send.stage.built = true → ∀ e ∈ send.events, e.validUtf8 = true) :
    BuiltUtf8 (sends.set i send) := Slots.forall_mem_set h hsend

theorem builtUtf8_afterFlush {s : EventDelivery} (h : BuiltUtf8 s.sends) (flushed : Flushed) :
    BuiltUtf8 (s.afterFlush flushed).sends := by
  refine h.append fun send hsend hbuilt ↦ ?_
  obtain ⟨events, -, rfl⟩ := by simpa using hsend
  exact absurd hbuilt (by simp [SendStage.built])

/-- **A step that only calls the file system** ends the process if a call throws. -/
theorem builtUtf8_of_callsFiles {s t : EventDelivery} {a : DeliveryLabel}
    (hs : BuiltUtf8 s.sends) (h : s.handedOver a = none) (hfiles : s.callsFiles a = true)
    (hthrows : a.world.fails = true → t.sends = s.sends ∧ t.crashed = true)
    (hworks : a.world.fails = false → BuiltUtf8 t.sends ∧ t.crashed = false) :
    BuiltUtf8 t.sends ∧ (Harmless s a ↔ t.crashed = false) := by
  rw [harmless_iff_of_callsFiles h hfiles]
  cases hfails : a.world.fails with
  | true =>
    obtain ⟨hsends, hcrashed⟩ := hthrows hfails
    rw [hsends, hcrashed]
    exact ⟨hs, by simp⟩
  | false =>
    obtain ⟨hsends, hrunning⟩ := hworks hfails
    exact ⟨hsends, iff_of_true rfl hrunning⟩

/-- **One step of a batch.** -/
theorem builtUtf8_stepSend {s : EventDelivery} {i : ℕ} {world : World} {send : Send}
    (hs : BuiltUtf8 s.sends) (hnot : s.crashed = false) (hsend : s.sends[i]? = some send) :
    BuiltUtf8 (stepSend lib s i world send).sends ∧
      (Harmless s (.send i world) ↔ (stepSend lib s i world send).crashed = false) := by
  have hvalid := hs send (List.mem_of_getElem? hsend)
  cases hstage : send.stage with
  | queued =>
    have hidle : Harmless s (.send i world) := .of_idle (by simp [handedOver, hsend, hstage])
      (by simp [callsFiles, handedOver, hsend, hstage, SendStage.stores])
    simp only [stepSend, hstage]
    split
    · exact ⟨hs.eraseIdx i, iff_of_true hidle hnot⟩
    · exact ⟨hs.set i (by simp [SendStage.built]), iff_of_true hidle hnot⟩
  | locked =>
    simp only [stepSend, hstage]
    cases hlock : Ownership.lock .toObject s.networkOwners with
    | none =>
      have hdead := Ownership.lock_toObject_eq_none_iff.mp hlock
      have hidle : Harmless s (.send i world) := .of_idle (by simp [handedOver, hsend, hdead])
        (by simp [callsFiles, handedOver, hsend, hstage, hdead, SendStage.stores])
      exact ⟨hs.eraseIdx i, iff_of_true hidle hnot⟩
    | some networkOwners =>
      have halive := Ownership.alive_of_lock hlock
      have hover : s.handedOver (.send i world) = some send.events := by
        simp [handedOver, hsend, hstage, halive]
      rw [harmless_iff_of_handedOver lib hover
        (by simp [callsFiles, hover, hsend, hstage, SendStage.stores])]
      show _ ∧ ((sendEvents lib s world send.events).isSome = true ↔ _)
      cases hbody : sendEvents lib s world send.events with
      | none => exact ⟨hs, by simp⟩
      | some t =>
        obtain ⟨⟨id, rfl⟩, hevents⟩ := of_sendEvents lib hbody
        exact ⟨hs.set i fun _ ↦ hevents, iff_of_true rfl hnot⟩
  | posted attempt =>
    have hidle : Harmless s (.send i world) := .of_idle (by simp [handedOver, hsend, hstage])
      (by simp [callsFiles, handedOver, hsend, hstage, SendStage.stores])
    have hevents := hvalid (by rw [hstage]; rfl)
    simp only [stepSend, hstage]
    split
    · exact ⟨hs.set i fun _ ↦ hevents, iff_of_true hidle hnot⟩
    · split
      · exact ⟨hs.eraseIdx i, iff_of_true hidle hnot⟩
      · split
        · exact ⟨hs.set i fun _ ↦ hevents, iff_of_true hidle hnot⟩
        · exact ⟨hs.eraseIdx i, iff_of_true hidle hnot⟩
  | saving =>
    have hevents := hvalid (by rw [hstage]; rfl)
    obtain ⟨text, htext⟩ := FailedEvents.exists_saveFailedEvents lib s.file.content
      send.origin.attempt hevents
    refine builtUtf8_of_callsFiles hs (by simp [handedOver, hsend, hstage])
      (by simp [callsFiles, hsend, hstage]) (fun hfails ↦ ?_) fun hfails ↦ ?_
    · rw [DeliveryLabel.world] at hfails
      simp only [stepSend, hstage, hfails, File.attempt_true, and_self]
    · rw [DeliveryLabel.world] at hfails
      simp only [stepSend, hstage, hfails, File.attempt_false, htext]
      exact ⟨hs.set i fun _ ↦ hevents, hnot⟩
  | storing text excluded =>
    refine builtUtf8_of_callsFiles hs (by simp [handedOver, hsend, hstage])
      (by simp [callsFiles, hsend, hstage, SendStage.stores]) (fun hfails ↦ ?_) fun hfails ↦ ?_
    · rw [DeliveryLabel.world] at hfails
      simp only [stepSend, hstage, hfails, File.attempt_true, and_self]
    · rw [DeliveryLabel.world] at hfails
      simp only [stepSend, hstage, hfails, File.attempt_false]
      exact ⟨hs.eraseIdx i, hnot⟩

/-- **One step of the retry task.** -/
theorem builtUtf8_stepRetry {s t : EventDelivery} {world : World} (hs : BuiltUtf8 s.sends)
    (hnot : s.crashed = false) (h : stepRetry lib s world = some t) :
    BuiltUtf8 t.sends ∧ (Harmless s (.retry world) ↔ t.crashed = false) := by
  cases hretry : s.retry with
  | queued =>
    have hidle : Harmless s (.retry world) := .of_idle (by simp [handedOver, hretry])
      (by simp [callsFiles, handedOver, hretry])
    simp only [stepRetry, hretry] at h
    split at h <;> obtain rfl := Option.some_inj.mp h <;> exact ⟨hs, iff_of_true hidle hnot⟩
  | reading =>
    refine builtUtf8_of_callsFiles hs (by simp [handedOver, hretry])
      (by simp [callsFiles, hretry]) (fun hfails ↦ ?_) fun hfails ↦ ?_
    · rw [DeliveryLabel.world] at hfails
      simp only [stepRetry, hretry, hfails, File.attempt_true] at h
      obtain rfl := Option.some_inj.mp h
      exact ⟨rfl, rfl⟩
    · rw [DeliveryLabel.world] at hfails
      simp only [stepRetry, hretry, hfails, File.attempt_false] at h
      cases hcontent : s.file.content <;> rw [hcontent] at h <;>
        obtain rfl := Option.some_inj.mp h <;> exact ⟨hs, hnot⟩
  | deleting failures =>
    refine builtUtf8_of_callsFiles hs (by simp [handedOver, hretry])
      (by simp [callsFiles, hretry]) (fun hfails ↦ ?_) fun hfails ↦ ?_
    · rw [DeliveryLabel.world] at hfails
      simp only [stepRetry, hretry, hfails, File.attempt_true] at h
      obtain rfl := Option.some_inj.mp h
      exact ⟨rfl, rfl⟩
    · rw [DeliveryLabel.world] at hfails
      simp only [stepRetry, hretry, hfails, File.attempt_false] at h
      obtain rfl := Option.some_inj.mp h
      exact ⟨hs, hnot⟩
  | sending failures =>
    cases failures with
    | nil =>
      have hidle : Harmless s (.retry world) := .of_idle (by simp [handedOver, hretry])
        (by simp [callsFiles, handedOver, hretry])
      simp only [stepRetry, hretry] at h
      split at h
      · exact absurd h (by simp)
      · obtain rfl := Option.some_inj.mp h
        exact ⟨hs, iff_of_true hidle hnot⟩
    | cons failure failures =>
      simp only [stepRetry, hretry] at h
      split at h
      · exact absurd h (by simp)
      rename_i hfree
      rw [Bool.not_eq_true] at hfree
      cases hlock : Ownership.lock .toObject s.networkOwners with
      | none =>
        have hdead := Ownership.lock_toObject_eq_none_iff.mp hlock
        have hidle : Harmless s (.retry world) := .of_idle (by simp [handedOver, hretry, hdead])
          (by simp [callsFiles, handedOver, hretry, hdead])
        rw [hlock] at h
        obtain rfl := Option.some_inj.mp h
        exact ⟨hs, iff_of_true hidle hnot⟩
      | some networkOwners =>
        have halive := Ownership.alive_of_lock hlock
        have hover : s.handedOver (.retry world) = some failure.events := by
          simp [handedOver, hretry, hfree, halive]
        rw [harmless_iff_of_handedOver lib hover (by simp [callsFiles, hover, hretry])]
        show _ ∧ ((sendEvents lib s world failure.events).isSome = true ↔ _)
        rw [hlock] at h
        cases hbody : sendEvents lib s world failure.events with
        | none =>
          simp only [hbody] at h
          obtain rfl := Option.some_inj.mp h
          exact ⟨hs, by simp⟩
        | some u =>
          obtain ⟨⟨id, rfl⟩, hevents⟩ := of_sendEvents lib hbody
          simp only [hbody] at h
          obtain rfl := Option.some_inj.mp h
          refine ⟨hs.append fun send hsend _ ↦ ?_, iff_of_true rfl hnot⟩
          obtain rfl := List.mem_singleton.mp hsend
          exact hevents
  | finished =>
    simp only [stepRetry, hretry] at h
    exact absurd h (by simp)

theorem dropContext_eq (s : EventDelivery) : ∃ context loggerOwners networkOwners,
    s.dropContext = { s with context, loggerOwners, networkOwners } := by
  rw [dropContext]
  split <;> exact ⟨_, _, _, rfl⟩

theorem builtUtf8_step {s t : EventDelivery} {a : DeliveryLabel} (hs : BuiltUtf8 s.sends)
    (hnot : s.crashed = false) (h : step lib s a = some t) :
    BuiltUtf8 t.sends ∧ (Harmless s a ↔ t.crashed = false) := by
  rw [step, if_neg (by simp [hnot])] at h
  cases a with
  | enqueue _ now | flush now | shutdown now =>
    rw [act] at h
    split at h
    · obtain rfl := Option.some_inj.mp h
      exact ⟨builtUtf8_afterFlush hs _, iff_of_true (.of_idle rfl rfl) hnot⟩
    · exact absurd h (by simp)
  | mark _ | setUser _ =>
    obtain rfl := Option.some_inj.mp h
    exact ⟨hs, iff_of_true (.of_idle rfl rfl) hnot⟩
  | releaseContext =>
    rw [act] at h
    split at h
    · obtain rfl := Option.some_inj.mp h
      obtain ⟨context, loggerOwners, networkOwners, hdrop⟩ := s.dropContext_eq
      rw [hdrop]
      exact ⟨hs, iff_of_true (.of_idle rfl rfl) hnot⟩
    · exact absurd h (by simp)
  | releaseLogger =>
    rw [act] at h
    split at h
    · obtain rfl := Option.some_inj.mp h
      exact ⟨hs, iff_of_true (.of_idle rfl rfl) hnot⟩
    · exact absurd h (by simp)
  | lockContext | lockLogger =>
    obtain ⟨owners, -, rfl⟩ := Option.map_eq_some_iff.mp h
    exact ⟨hs, iff_of_true (.of_idle rfl rfl) hnot⟩
  | send i world =>
    obtain ⟨send, hsend, rfl⟩ := Option.map_eq_some_iff.mp h
    exact builtUtf8_stepSend lib hs hnot hsend
  | retry world => exact builtUtf8_stepRetry lib hs hnot h
  | file a =>
    rw [act] at h
    split at h
    · exact absurd h (by simp)
    · obtain ⟨file, -, rfl⟩ := Option.map_eq_some_iff.mp h
      exact ⟨hs, iff_of_true (.of_idle rfl rfl) hnot⟩

theorem step_of_crashed {s : EventDelivery} {a : DeliveryLabel} (h : s.crashed = true) :
    step lib s a = none := if_pos h

/-- **When no exception leaves a worker**: exactly in the runs in which all that is handed to the
network is UTF-8, the strings of the events as well as the two ids, and no call of the file system
throws.  This holds for any pointer that the retry task may have captured. -/
theorem crashed_eq_false_iff (sdkKey : Str) (options : StatsigOptions) (sessionId : Str)
    (content : Option Str) (retryRef : WeakPtr) {labels : List DeliveryLabel} {s : EventDelivery}
    (hrun : Machine.run (step lib) { init sdkKey options sessionId content with retryRef } labels =
      some s) :
    s.crashed = false ↔ Machine.AllSteps (step lib) Harmless
      { init sdkKey options sessionId content with retryRef } labels := by
  refine (Machine.allSteps_iff_good (I := fun s ↦ BuiltUtf8 s.sends)
    (G := fun s ↦ s.crashed = false) (builtUtf8_step lib) (fun _ hcrashed h ↦ ?_)
    (fun send hsend ↦ ?_) rfl hrun).symm
  · rw [step_of_crashed lib (Bool.not_eq_false _ ▸ hcrashed)] at h
    exact absurd h (by simp)
  · exact absurd hsend (by simp [init])

/-! ### A run with two events -/

open retryableEventPayload (plainText plainPayload)

def aSession : Str := str "a-session"

/-- What a task meets on a good day. -/
def online : World := { response := { status := 200 }, stableId := str "a-stable-id" }

/-- An event is logged and flushed, its batch is sent, and the server accepts it. -/
def logAndSend (event : StatsigEventInternal) : List DeliveryLabel :=
  [.enqueue event 123, .flush 123, .send 0 online, .send 0 online, .send 0 online]

/-- The next one is refused, and saved. -/
def logAndSave : List DeliveryLabel :=
  plainPayload.events.map (.enqueue · 124) ++ [.flush 124, .send 0 online, .send 0 online,
    .send 0 { response := { status := 400 } }, .send 0 online, .send 0 online,
    .file (.task (.openFile 0)), .file (.task (.finish 0))]

theorem crashed_eq_false_iff_logAndSend :
    ∃ s, Machine.run (step plainText) (init (str "key") {} aSession none)
        (logAndSend { eventName := str "my_event" } ++ logAndSave) = some s ∧
      (s.crashed = false ↔ Machine.AllSteps (step plainText) Harmless
        (init (str "key") {} aSession none)
        (logAndSend { eventName := str "my_event" } ++ logAndSave)) := by
  have hrun : (Machine.run (step plainText) (init (str "key") {} aSession none)
      (logAndSend { eventName := str "my_event" } ++ logAndSave)).isSome = true := by
    decide +kernel
  obtain ⟨s, hs⟩ := Option.isSome_iff_exists.mp hrun
  exact ⟨s, hs, crashed_eq_false_iff plainText (str "key") {} aSession none .empty hs⟩

/-- An event whose name ends with half of a character. -/
def brokenEvent : StatsigEventInternal := { eventName := str "my_event" ++ [0xC3] }

/-- One broken string ends the process. -/
theorem not_forall_crashed_eq_false :
    ¬ ∀ (lib : JsonText) (sdkKey : Str) (options : StatsigOptions) (sessionId : Str)
      (content : Option Str) (labels : List DeliveryLabel) (s : EventDelivery),
      Machine.run (step lib) (init sdkKey options sessionId content) labels = some s →
      s.crashed = false := by
  intro h
  have hrun : (Machine.run (step plainText) (init (str "key") {} aSession none)
      ((logAndSend brokenEvent).take 4)).map EventDelivery.crashed = some true := by
    decide +kernel
  obtain ⟨s, hs, hcrashed⟩ := Option.map_eq_some_iff.mp hrun
  rw [h _ _ _ _ _ _ s hs] at hcrashed
  exact absurd hcrashed (by simp)

end EventDelivery

end Statsig
