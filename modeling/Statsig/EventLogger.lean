import Statsig.Lib.SharedPtr
import Statsig.NetworkService
import Statsig.RoundTrip

/-!
# The event logger

The buffer of events with its flushes, the diagnostics that a flush adds to it, the failed-events
file, and the callbacks that the constructor registers.

The callbacks hold weak pointers to the logger, taken with `weak_from_this` in the constructor.
`callbacks_act_iff` says what comes of that.
-/

set_option autoImplicit false

namespace Statsig

/-! ## Diagnostics -/

/-- `Diagnostics` -/
structure Diagnostics where
  markers : List Json := []
  user : StatsigUser := {}
  deriving DecidableEq, Repr

namespace Diagnostics

/-- `SetUser` -/
def setUser (d : Diagnostics) (user : StatsigUser) : Diagnostics := { d with user }

/-- `Mark` -/
def mark (d : Diagnostics) (marker : Json) : Diagnostics :=
  if constants.kMaxDiagnosticsMarkers < d.markers.length then d
  else { d with markers := d.markers ++ [marker] }

/-- The event that `AppendEvent` adds, if it adds one. -/
def pendingEvent (d : Diagnostics) (now : Int64) : Option StatsigEventInternal :=
  if d.markers = [] then none
  else some
    { eventName := str "statsig::diagnostics"
      time := now
      user := d.user
      metadata := some (UnorderedMap.ofList
        [(str "markers", .arr d.markers), (str "context", .str (str "initialize"))]) }

/-- `AppendEvent` -/
def appendEvent (d : Diagnostics) (now : Int64) (events : List StatsigEventInternal) :
    Diagnostics × List StatsigEventInternal :=
  ({ d with markers := [] }, events ++ (d.pendingEvent now).toList)

end Diagnostics

/-! ## The buffer -/

/-- `EventLogger` -/
structure EventLogger where
  sdkKey : Str
  maxBufferSize : Int32
  events : List StatsigEventInternal := []
  deriving DecidableEq, Repr

/-- A logger and its diagnostics after a flush, with the batch that was handed to a worker and a
record of what the diagnostics added to it. -/
structure Flushed where
  logger : EventLogger
  diagnostics : Diagnostics
  batch : Option (List StatsigEventInternal) := none
  added : Option StatsigEventInternal := none
  deriving DecidableEq, Repr

namespace EventLogger

/-- `size > max_buffer_size_`, where the limit is converted to an unsigned 64-bit number. -/
def exceeds (size : ℕ) (maxBufferSize : Int32) : Bool :=
  decide ((maxBufferSize.toInt % 2 ^ 64).toNat < size)

/-- `FlushImpl` -/
def flushImpl (logger : EventLogger) (d : Diagnostics) (now : Int64) : Flushed :=
  let added := d.pendingEvent now
  let (d, events) := d.appendEvent now logger.events
  if events = [] then { logger := { logger with events }, diagnostics := d, added }
  else { logger := { logger with events := [] }, diagnostics := d, batch := some events, added }

/-- `Enqueue` -/
def enqueue (logger : EventLogger) (d : Diagnostics) (event : StatsigEventInternal) (now : Int64) :
    Flushed :=
  let logger := { logger with events := logger.events ++ [event] }
  if exceeds logger.events.length logger.maxBufferSize then logger.flushImpl d now
  else { logger, diagnostics := d }

/-- `Flush`; `Shutdown` does the same after it has stopped the timer and the platform's events. -/
def flush (logger : EventLogger) (d : Diagnostics) (now : Int64) : Flushed := logger.flushImpl d now

@[simp] theorem events_flushImpl (logger : EventLogger) (d : Diagnostics) (now : Int64) :
    (logger.flushImpl d now).logger.events = [] := by
  simp only [flushImpl]
  split
  · assumption
  · rfl

/-- **A flush loses nothing**: what was in the buffer, and what the diagnostics add, is the
batch. -/
theorem batch_flushImpl (logger : EventLogger) (d : Diagnostics) (now : Int64) :
    (logger.flushImpl d now).batch.getD [] =
      logger.events ++ (logger.flushImpl d now).added.toList := by
  simp only [flushImpl]
  split
  · rename_i h
    exact h.symm
  · rfl

theorem events_enqueue (logger : EventLogger) (d : Diagnostics) (event : StatsigEventInternal)
    (now : Int64) :
    (logger.enqueue d event now).logger.events ++ (logger.enqueue d event now).batch.getD [] =
      logger.events ++ [event] ++ (logger.enqueue d event now).added.toList := by
  simp only [enqueue]
  split
  · rw [events_flushImpl, batch_flushImpl]
    rfl
  · simp

/-! ## The failed-events file -/

/-- What `SaveFailedEvents` finds in the file: nothing, if it cannot be read. -/
def readFailures (lib : JsonText) (content : Option Str) : List RetryableEventPayload :=
  match content with
  | none => []
  | some text => (retryableEventPayload.deserialize lib text).value.getD []

/-- The new failure in front, and the last one dropped if there are too many. -/
def insertFailure (failure : RetryableEventPayload) (failures : List RetryableEventPayload) :
    List RetryableEventPayload :=
  let failures := failure :: failures
  if constants.kMaxCachedFailedEventPayloadsCount < failures.length then failures.dropLast
  else failures

/-- `SaveFailedEvents`: the content that it queues for the file; `none` where serialising throws. -/
def saveFailedEvents (lib : JsonText) (content : Option Str) (events : List StatsigEventInternal)
    (attempt : Int32) : Option Str :=
  (retryableEventPayload.serialize lib
    (insertFailure ⟨attempt, events⟩ (readFailures lib content))).bind StatsigResult.value

/-- What the body of the retry task does, in order. -/
inductive RetryAction where
  | deleteFile
  | sendEvents (events : List StatsigEventInternal) (attempt : Int32)
  deriving DecidableEq, Repr

/-- The body of the task of `RetryFailedEvents`, with the logger and the network alive. -/
def retryFailedEvents (lib : JsonText) (content : Option Str) : List RetryAction :=
  match content with
  | none => []
  | some text =>
    .deleteFile :: ((retryableEventPayload.deserialize lib text).value.getD []).map fun failure ↦
      .sendEvents failure.events (failure.attempts + 1)

/-! ## Callbacks -/

/-- The weak pointers that the constructor's lambdas captured. -/
structure Callbacks where
  retry : WeakPtr
  backgroundFlusher : WeakPtr
  applicationWillDeactivate : WeakPtr
  applicationWillEnterBackground : WeakPtr
  deriving DecidableEq, Repr

/-- The constructor: the new logger, and the callbacks that were registered. -/
def construct (sdkKey : Str) (options : StatsigOptions) (self : Ownership) :
    EventLogger × Callbacks :=
  ({ sdkKey
     maxBufferSize := options.loggingMaxBufferSize.getD constants.kMaxQueuedEvents },
   { retry := self.weakFromThis
     backgroundFlusher := self.weakFromThis
     applicationWillDeactivate := self.weakFromThis
     applicationWillEnterBackground := self.weakFromThis })

/-- `EventLogger::Create`: construct, then hand the object to a shared pointer. -/
def create (sdkKey : Str) (options : StatsigOptions) : EventLogger × Callbacks × Ownership :=
  let self := Ownership.constructing
  let (logger, callbacks) := construct sdkKey options self
  (logger, callbacks, self.adopt)

/-- The retry task: `USE_REF`, and the body. -/
def runRetryTask (lib : JsonText) (weakSelf : WeakPtr) (self : Ownership) (content : Option Str) :
    List RetryAction :=
  match Ownership.lock weakSelf self with
  | none => []
  | some _ => retryFailedEvents lib content

/-- A tick of the background timer: `USE_REF`, and a flush. -/
def tick (weakSelf : WeakPtr) (self : Ownership) (logger : EventLogger) (d : Diagnostics)
    (now : Int64) : Flushed :=
  match Ownership.lock weakSelf self with
  | none => { logger, diagnostics := d }
  | some _ => logger.flush d now

/-! ### What the callbacks are for -/

/-- The batches that were handed to the network. -/
def sentBatches (actions : List RetryAction) : List (List StatsigEventInternal) :=
  actions.filterMap fun
    | .deleteFile => none
    | .sendEvents events _ => some events

/-- The events of every payload are handed over once, and the file is gone before. -/
def RetriesAll (actions : List RetryAction) (failures : List RetryableEventPayload) : Prop :=
  sentBatches actions = failures.map RetryableEventPayload.events ∧
    ∀ first events attempt last, actions = first ++ .sendEvents events attempt :: last →
      .deleteFile ∈ first

/-- The buffer is empty, and all that was in it is in one batch. -/
def FlushesAll (logger : EventLogger) (after : Flushed) : Prop :=
  after.logger.events = [] ∧
    (logger.events ≠ [] → ∃ batch, after.batch = some batch ∧ logger.events <+: batch)

/-- With a pointer that locks, the retry task does what it is for. -/
theorem retriesAll_of_lock {lib : JsonText} {weakSelf : WeakPtr} {self : Ownership} {text : Str}
    {failures : List RetryableEventPayload} (h : (Ownership.lock weakSelf self).isSome = true)
    (htext : retryableEventPayload.deserialize lib text =
      { code := .ok, value := some failures }) :
    RetriesAll (runRetryTask lib weakSelf self (some text)) failures := by
  obtain ⟨owner, howner⟩ := Option.isSome_iff_exists.mp h
  simp only [runRetryTask, howner, retryFailedEvents, htext, Option.getD_some]
  constructor
  · simp [sentBatches, List.filterMap_map]
  · rintro first events attempt last heq
    cases first with
    | nil => exact absurd (List.cons.inj heq).1 (by simp)
    | cons a first =>
      rw [← (List.cons.inj heq).1]
      exact List.mem_cons_self

theorem flushesAll_of_lock {weakSelf : WeakPtr} {self : Ownership} {logger : EventLogger}
    {d : Diagnostics} {now : Int64} (h : (Ownership.lock weakSelf self).isSome = true) :
    FlushesAll logger (tick weakSelf self logger d now) := by
  obtain ⟨owner, howner⟩ := Option.isSome_iff_exists.mp h
  simp only [tick, howner, flush]
  refine ⟨events_flushImpl logger d now, fun hne ↦ ?_⟩
  have hbatch := batch_flushImpl logger d now
  cases hb : (logger.flushImpl d now).batch with
  | none =>
    rw [hb] at hbatch
    exact absurd (List.append_eq_nil_iff.mp hbatch.symm).1 hne
  | some batch =>
    rw [hb] at hbatch
    exact ⟨batch, rfl, (show batch = _ from hbatch) ▸ List.prefix_append _ _⟩

/-- **The callbacks of a logger that lives.**  Whoever owns the logger, they do what they are for
exactly when there is nothing to do: no payload in the file, and no event in the buffer. -/
theorem callbacks_act_iff {lib : JsonText} {sdkKey : Str} {options : StatsigOptions}
    {text : Str} {failures : List RetryableEventPayload} (self : Ownership)
    (events : List StatsigEventInternal) (d : Diagnostics) (now : Int64)
    (htext : retryableEventPayload.deserialize lib text =
      { code := .ok, value := some failures }) :
    (RetriesAll (runRetryTask lib (create sdkKey options).2.1.retry self (some text)) failures ∧
      FlushesAll { (create sdkKey options).1 with events }
        (tick (create sdkKey options).2.1.backgroundFlusher self
          { (create sdkKey options).1 with events } d now)) ↔
      failures = [] ∧ events = [] := by
  -- both callbacks captured their pointers while the constructor ran
  have hdead := Ownership.lock_captured_in_constructor self
  have hretry : runRetryTask lib (create sdkKey options).2.1.retry self (some text) = [] := by
    simp only [runRetryTask, create, construct, hdead]
  have htick : tick (create sdkKey options).2.1.backgroundFlusher self
      { (create sdkKey options).1 with events } d now =
        { logger := { (create sdkKey options).1 with events }, diagnostics := d } := by
    simp only [tick, create, construct, hdead]
  rw [hretry, htick]
  constructor
  · rintro ⟨⟨hsent, -⟩, hempty, -⟩
    exact ⟨List.map_eq_nil_iff.mp hsent.symm, hempty⟩
  · rintro ⟨rfl, rfl⟩
    refine ⟨⟨rfl, fun first _ _ last h ↦ ?_⟩, rfl, fun h ↦ absurd rfl h⟩
    exact absurd h.symm (by simp)

theorem deserialize_plainText : retryableEventPayload.deserialize retryableEventPayload.plainText
    (retryableEventPayload.plainText.text
      (retryableEventPayload.toJsonArray [retryableEventPayload.plainPayload])) =
    { code := .ok, value := some ([retryableEventPayload.plainPayload].map
      RetryableEventPayload.canon) } :=
  retryableEventPayload.deserialize_serialize (by decide +kernel)

theorem callbacks_act_plainText :
    (RetriesAll (runRetryTask retryableEventPayload.plainText
        (create (str "key") {}).2.1.retry Ownership.constructing.adopt
        (some (retryableEventPayload.plainText.text
          (retryableEventPayload.toJsonArray [retryableEventPayload.plainPayload]))))
        ([retryableEventPayload.plainPayload].map RetryableEventPayload.canon) ∧
      FlushesAll { (create (str "key") {}).1 with events := [] }
        (tick (create (str "key") {}).2.1.backgroundFlusher Ownership.constructing.adopt
          { (create (str "key") {}).1 with events := [] } {} 0)) ↔
      [retryableEventPayload.plainPayload].map RetryableEventPayload.canon = [] ∧
        ([] : List StatsigEventInternal) = [] :=
  callbacks_act_iff _ [] {} 0 deserialize_plainText

/-- A payload in the file is not sent again. -/
theorem not_forall_callbacks_act :
    ¬ ∀ (lib : JsonText) (sdkKey : Str) (options : StatsigOptions) (labels : List Ownership.Label)
      (self : Ownership) (text : Str) (failures : List RetryableEventPayload)
      (events : List StatsigEventInternal) (d : Diagnostics) (now : Int64),
      Machine.run Ownership.step (create sdkKey options).2.2 labels = some self → self.Alive →
      retryableEventPayload.deserialize lib text = { code := .ok, value := some failures } →
      RetriesAll (runRetryTask lib (create sdkKey options).2.1.retry self (some text)) failures ∧
        FlushesAll { (create sdkKey options).1 with events }
          (tick (create sdkKey options).2.1.backgroundFlusher self
            { (create sdkKey options).1 with events } d now) := by
  intro h
  obtain ⟨⟨hsent, -⟩, -⟩ := h retryableEventPayload.plainText (str "key") {} []
    Ownership.constructing.adopt _ _ [] {} 0 rfl (by decide) deserialize_plainText
  exact absurd hsent (by simp [create, construct, runRetryTask, sentBatches])

end EventLogger

end Statsig
