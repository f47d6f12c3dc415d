import Statsig.HandOff
import Statsig.Lib.Linearizable

/-!
# Calls of the event logger from many threads

The calls of `EventLogger` and of `Diagnostics`, each broken up into what it does to the shared
data: the logger's `rw_lock_`, the mutex of the diagnostics that `AppendEvent` takes while the
logger's lock is held, and the mutex of the pool that takes the batch.  Any number of threads are in
the middle of a call at a time.

`HandOff` takes each call as one step.  `loggerCalls_linearizable` says that this is what the calls
come to, and `loggerCalls_return` that none of them is ever stuck.
-/

set_option autoImplicit false

namespace Statsig

open Concurrent

/-! ## The code -/

/-- What the calls share. -/
structure LoggerShared where
  logger : EventLogger
  diagnostics : Diagnostics
  /-- The batches that were added to the pool. -/
  queue : List (List StatsigEventInternal) := []
  /-- The condition that stops the timer of the background flusher. -/
  timerStopped : Bool := false
  rwLock : Option ℕ := none
  diagnosticsMutex : Option ℕ := none
  poolMutex : Option ℕ := none
  deriving DecidableEq, Repr

/-- The calls that may flush the buffer. -/
inductive BufferCall where
  | enqueue (event : StatsigEventInternal)
  | flush
  | shutdown
  deriving DecidableEq, Repr

inductive LoggerCall where
  | buffer (call : BufferCall)
  /-- `Diagnostics::Mark` -/
  | mark (marker : Json)
  /-- `Diagnostics::SetUser` -/
  | setUser (user : StatsigUser)
  deriving DecidableEq, Repr

/-- What a call does next. -/
inductive LoggerPc where
  /-- `Shutdown`: it resets the timer's handle, which no lock protects; this is one step, as it is
  with one `Shutdown` at a time.  The other two handles' `Reset` does nothing. -/
  | resetHandles
  /-- It takes `rw_lock_`. -/
  | lock (call : BufferCall)
  /-- `Enqueue`: it adds the event. -/
  | push (event : StatsigEventInternal)
  /-- `Enqueue`: it looks at the size. -/
  | testSize (event : StatsigEventInternal)
  /-- `AppendEvent`: it takes the mutex. -/
  | lockAppend (call : BufferCall)
  | testMarkers (call : BufferCall)
  | moveMarkers (call : BufferCall)
  /-- `AppendEvent`: it adds its event. -/
  | append (call : BufferCall) (localMarkers : List Json)
  | unlockAppend
  /-- `FlushImpl`: it looks whether there is anything. -/
  | testEvents
  | moveEvents
  /-- `ThreadPool::Add`: it takes the mutex. -/
  | lockPool (localEvents : List StatsigEventInternal)
  | addTask (localEvents : List StatsigEventInternal)
  | unlockPool
  | unlock
  | lockMark (marker : Json)
  | testMark (marker : Json)
  | pushMark (marker : Json)
  | lockSetUser (user : StatsigUser)
  | writeUser (user : StatsigUser)
  /-- It releases the mutex of the diagnostics. -/
  | unlockDiagnostics
  deriving DecidableEq, Repr

/-- The event that `AppendEvent` makes of the markers. -/
def diagnosticsEvent (localMarkers : List Json) (user : StatsigUser) (now : Int64) :
    StatsigEventInternal :=
  { eventName := str "statsig::diagnostics"
    time := now
    user
    metadata := some (UnorderedMap.ofList
      [(str "markers", .arr localMarkers), (str "context", .str (str "initialize"))]) }

namespace LoggerPc

def start : LoggerCall → LoggerPc
  | .buffer .shutdown => resetHandles
  | .buffer call => lock call
  | .mark marker => lockMark marker
  | .setUser user => lockSetUser user

/-- One step of the `i`-th call; the clock is read where an event of the diagnostics is made. -/
def step (pc : LoggerPc) (i : ℕ) (now : Int64) (s : LoggerShared) :
    Option (LoggerShared × Status LoggerPc Unit) :=
  match pc with
  | resetHandles => some ({ s with timerStopped := true }, .running (lock .shutdown))
  | lock call =>
    if s.rwLock ≠ none then none
    else
      some ({ s with rwLock := some i }, .running <|
        match call with
        | .enqueue event => push event
        | .flush | .shutdown => lockAppend call)
  | push event =>
    some ({ s with logger.events := s.logger.events ++ [event] }, .running (testSize event))
  | testSize event =>
    if EventLogger.exceeds s.logger.events.length s.logger.maxBufferSize then
      some (s, .running (lockAppend (.enqueue event)))
    else some (s, .running unlock)
  | lockAppend call =>
    if s.diagnosticsMutex ≠ none then none
    else some ({ s with diagnosticsMutex := some i }, .running (testMarkers call))
  | testMarkers call =>
    if s.diagnostics.markers = [] then some (s, .running unlockAppend)
    else some (s, .running (moveMarkers call))
  | moveMarkers call =>
    some ({ s with diagnostics.markers := [] }, .running (append call s.diagnostics.markers))
  | append _ localMarkers =>
    some
      ({ s with logger.events :=
          s.logger.events ++ [diagnosticsEvent localMarkers s.diagnostics.user now] },
        .running unlockAppend)
  | unlockAppend => some ({ s with diagnosticsMutex := none }, .running testEvents)
  | testEvents =>
    if s.logger.events = [] then some (s, .running unlock) else some (s, .running moveEvents)
  | moveEvents =>
    some ({ s with logger.events := [] }, .running (lockPool s.logger.events))
  | lockPool localEvents =>
    if s.poolMutex ≠ none then none
    else some ({ s with poolMutex := some i }, .running (addTask localEvents))
  | addTask localEvents =>
    some ({ s with queue := s.queue ++ [localEvents] }, .running unlockPool)
  | unlockPool => some ({ s with poolMutex := none }, .running unlock)
  | unlock => some ({ s with rwLock := none }, .returned ())
  | lockMark marker =>
    if s.diagnosticsMutex ≠ none then none
    else some ({ s with diagnosticsMutex := some i }, .running (testMark marker))
  | testMark marker =>
    if constants.kMaxDiagnosticsMarkers < s.diagnostics.markers.length then
      some (s, .running unlockDiagnostics)
    else some (s, .running (pushMark marker))
  | pushMark marker =>
    some ({ s with diagnostics.markers := s.diagnostics.markers ++ [marker] },
      .running unlockDiagnostics)
  | lockSetUser user =>
    if s.diagnosticsMutex ≠ none then none
    else some ({ s with diagnosticsMutex := some i }, .running (writeUser user))
  | writeUser user => some ({ s with diagnostics.user := user }, .running unlockDiagnostics)
  | unlockDiagnostics => some ({ s with diagnosticsMutex := none }, .returned ())

/-- It is between taking and releasing `rw_lock_`. -/
def holdsRwLock : LoggerPc → Bool
  | push _ | testSize _ | lockAppend _ | testMarkers _ | moveMarkers _ | append _ _ | unlockAppend
  | testEvents | moveEvents | lockPool _ | addTask _ | unlockPool | unlock => true
  | _ => false

/-- It is between taking and releasing the mutex of the diagnostics. -/
def holdsDiagnostics : LoggerPc → Bool
  | testMarkers _ | moveMarkers _ | append _ _ | unlockAppend | testMark _ | pushMark _
  | writeUser _ | unlockDiagnostics => true
  | _ => false

/-- It is between taking and releasing the mutex of the pool. -/
def holdsPool : LoggerPc → Bool
  | addTask _ | unlockPool => true
  | _ => false

end LoggerPc

def loggerCode : Code LoggerShared LoggerCall LoggerPc Unit Int64 :=
  ⟨LoggerPc.start, fun i pc ↦ pc.step i⟩

/-! ## What the calls come to -/

namespace BufferCall

/-- The call as one step. -/
def label (now : Int64) : BufferCall → HandOff.Label
  | enqueue event => .enqueue event now
  | flush => .flush now
  | shutdown => .shutdown now

/-- What it adds to the buffer. -/
def pushed : BufferCall → List StatsigEventInternal
  | enqueue event => [event]
  | flush | shutdown => []

/-- It goes on to flush. -/
def MustFlush (logger : EventLogger) : BufferCall → Prop
  | enqueue _ => EventLogger.exceeds logger.events.length logger.maxBufferSize = true
  | flush | shutdown => True

end BufferCall

/-- The call that a step of `HandOff` is. -/
def HandOff.Label.call : HandOff.Label → LoggerCall
  | .enqueue event _ => .buffer (.enqueue event)
  | .flush _ => .buffer .flush
  | .shutdown _ => .buffer .shutdown
  | .mark marker => .mark marker
  | .setUser user => .setUser user

@[simp] theorem BufferCall.call_label (call : BufferCall) (now : Int64) :
    (call.label now).call = .buffer call := by
  cases call <;> rfl

/-- The step at which a call takes effect.  `Enqueue` does when it has found that it does not have
to flush, and a flush when `AppendEvent` has looked at the markers, or has made an event of them. -/
def LoggerPc.point (pc : LoggerPc) (now : Int64) (s : LoggerShared) : Option HandOff.Label :=
  match pc with
  | testSize event =>
    if EventLogger.exceeds s.logger.events.length s.logger.maxBufferSize then none
    else some (.enqueue event now)
  | testMarkers call => if s.diagnostics.markers = [] then some (call.label now) else none
  | append call _ => some (call.label now)
  | testMark marker =>
    if constants.kMaxDiagnosticsMarkers < s.diagnostics.markers.length then some (.mark marker)
    else none
  | pushMark marker => some (.mark marker)
  | writeUser user => some (.setUser user)
  | _ => none

/-- Whether it has. -/
def LoggerPc.outcome : LoggerPc → Option Unit
  | unlockAppend | testEvents | moveEvents | lockPool _ | addTask _ | unlockPool | unlock
  | unlockDiagnostics => some ()
  | _ => none

/-- The call, where it has not. -/
def LoggerPc.callOf : LoggerPc → Option LoggerCall
  | resetHandles => some (.buffer .shutdown)
  | lock call | lockAppend call | testMarkers call | moveMarkers call | append call _ =>
    some (.buffer call)
  | push event | testSize event => some (.buffer (.enqueue event))
  | lockMark marker | testMark marker | pushMark marker => some (.mark marker)
  | lockSetUser user | writeUser user => some (.setUser user)
  | _ => none

/-- The steps of `HandOff` as a sequential specification. -/
def HandOff.spec (a : HandOff) (label : HandOff.Label) : HandOff × Unit := (a.step label, ())

namespace HandOff

/-- What has become of it after a step of a call. -/
def after (a : HandOff) : Option Label → HandOff
  | none => a
  | some label => a.step label

@[simp] theorem after_none (a : HandOff) : a.after none = a := rfl

@[simp] theorem after_some (a : HandOff) (label : Label) : a.after (some label) = a.step label :=
  rfl

end HandOff

/-! ### What the locks protect -/

namespace LoggerShared

/-- The buffer and the batches, as they are while nobody has the logger's lock. -/
def BufferFree (s : LoggerShared) (a : HandOff) : Prop :=
  s.logger = a.logger ∧ s.queue = a.batches.map Batch.events

/-- The call has added what it adds, and has not taken effect. -/
def BufferPushed (call : BufferCall) (s : LoggerShared) (a : HandOff) : Prop :=
  s.logger = { a.logger with events := a.logger.events ++ call.pushed } ∧
    s.queue = a.batches.map Batch.events

/-- The call has taken effect, and there is a batch on the way to the pool. -/
def BufferCarried (events localEvents : List StatsigEventInternal) (s : LoggerShared)
    (a : HandOff) : Prop :=
  s.logger = { a.logger with events } ∧ a.logger.events = [] ∧
    s.queue ++ [localEvents] = a.batches.map Batch.events

/-- The call has taken effect, and what is in the buffer is the batch. -/
def BufferTaken (s : LoggerShared) (a : HandOff) : Prop :=
  BufferCarried s.logger.events s.logger.events s a

/-- The call has taken effect, and it has not looked yet whether there is a batch. -/
def BufferFlushed (s : LoggerShared) (a : HandOff) : Prop :=
  if s.logger.events = [] then BufferFree s a else BufferTaken s a

/-- The call has added what it adds, and goes on to flush. -/
def BufferFlushing (call : BufferCall) (s : LoggerShared) (a : HandOff) : Prop :=
  BufferPushed call s a ∧ call.MustFlush s.logger

/-- The buffer and the batches while the call with the logger's lock is at this place. -/
def BufferHeld : LoggerPc → LoggerShared → HandOff → Prop
  | .testSize event => BufferPushed (.enqueue event)
  | .lockAppend call | .testMarkers call | .moveMarkers call | .append call _ =>
    BufferFlushing call
  | .unlockAppend | .testEvents => BufferFlushed
  | .moveEvents => BufferTaken
  | .lockPool localEvents | .addTask localEvents => BufferCarried [] localEvents
  | _ => BufferFree

/-- The markers and the user, as they are while nobody has their mutex. -/
def MarkersFree (s : LoggerShared) (a : HandOff) : Prop := s.diagnostics = a.diagnostics

/-- The markers are with the call. -/
def MarkersMoved (localMarkers : List Json) (s : LoggerShared) (a : HandOff) : Prop :=
  localMarkers ≠ [] ∧ a.diagnostics = { s.diagnostics with markers := localMarkers } ∧
    s.diagnostics.markers = []

/-- There are markers. -/
def MarkersFound (s : LoggerShared) (a : HandOff) : Prop :=
  MarkersFree s a ∧ s.diagnostics.markers ≠ []

/-- There is room for a marker. -/
def MarkersRoom (s : LoggerShared) (a : HandOff) : Prop :=
  MarkersFree s a ∧ ¬ constants.kMaxDiagnosticsMarkers < s.diagnostics.markers.length

/-- The markers while the call with their mutex is at this place. -/
def MarkersHeld : LoggerPc → LoggerShared → HandOff → Prop
  | .append _ localMarkers => MarkersMoved localMarkers
  | .moveMarkers _ => MarkersFound
  | .pushMark _ => MarkersRoom
  | _ => MarkersFree

variable {s s' : LoggerShared} {a a' : HandOff}

theorem bufferFree_congr (hlogger : s'.logger = s.logger) (hqueue : s'.queue = s.queue)
    (ha : a'.logger = a.logger) (hbatches : a'.batches = a.batches) (h : BufferFree s a) :
    BufferFree s' a' := by
  rwa [BufferFree, hlogger, hqueue, ha, hbatches]

theorem bufferHeld_congr {pc : LoggerPc} (hlogger : s'.logger = s.logger)
    (hqueue : s'.queue = s.queue) (ha : a'.logger = a.logger) (hbatches : a'.batches = a.batches)
    (h : BufferHeld pc s a) : BufferHeld pc s' a' := by
  cases pc <;> simp only [BufferHeld, BufferFree, BufferPushed, BufferCarried, BufferTaken,
    BufferFlushed, BufferFlushing, hlogger, hqueue, ha, hbatches] at h ⊢ <;> exact h

theorem markersFree_congr (hs : s'.diagnostics = s.diagnostics)
    (ha : a'.diagnostics = a.diagnostics) (h : MarkersFree s a) : MarkersFree s' a' := by
  rwa [MarkersFree, hs, ha]

theorem markersHeld_congr {pc : LoggerPc} (hs : s'.diagnostics = s.diagnostics)
    (ha : a'.diagnostics = a.diagnostics) (h : MarkersHeld pc s a) : MarkersHeld pc s' a' := by
  cases pc <;> simp only [MarkersHeld, MarkersFree, MarkersMoved, MarkersFound, MarkersRoom, hs,
    ha] at h ⊢ <;> exact h

end LoggerShared

/-! ### A flush, in two halves -/

theorem flushImpl_of_no_markers {d : Diagnostics} (h : d.markers = []) (logger : EventLogger)
    (now : Int64) : logger.flushImpl d now =
      if logger.events = [] then { logger, diagnostics := d }
      else
        { logger := { logger with events := [] }
          diagnostics := d
          batch := some logger.events } := by
  obtain ⟨markers, user⟩ := d
  obtain rfl : markers = [] := h
  simp only [EventLogger.flushImpl, Diagnostics.appendEvent, Diagnostics.pendingEvent, if_true,
    Option.toList_none, List.append_nil]

theorem flushImpl_of_markers {d : Diagnostics} (h : d.markers ≠ []) (logger : EventLogger)
    (now : Int64) : logger.flushImpl d now =
      { logger := { logger with events := [] }
        diagnostics := { d with markers := [] }
        batch := some (logger.events ++ [diagnosticsEvent d.markers d.user now])
        added := some (diagnosticsEvent d.markers d.user now) } := by
  simp [EventLogger.flushImpl, Diagnostics.appendEvent, Diagnostics.pendingEvent, h,
    diagnosticsEvent]

/-- A call that goes on to flush, as one step. -/
theorem step_label {logger : EventLogger} {a : HandOff} {call : BufferCall} (now : Int64)
    (hlogger : logger = { a.logger with events := a.logger.events ++ call.pushed })
    (hflush : call.MustFlush logger) :
    a.step (call.label now) =
      { a.afterFlush (logger.flushImpl a.diagnostics now) with
        enqueued := a.enqueued ++ call.pushed } := by
  subst hlogger
  cases call with
  | enqueue event =>
    have hfull : EventLogger.exceeds (a.logger.events ++ [event]).length a.logger.maxBufferSize =
      true := hflush
    simp only [BufferCall.label, HandOff.step, EventLogger.enqueue, if_pos hfull]
    rfl
  | flush | shutdown =>
    simp [BufferCall.label, HandOff.step, EventLogger.flush, BufferCall.pushed, HandOff.afterFlush]

/-- A call of `Enqueue` that does not, as one step. -/
theorem step_enqueue_of_not_full {logger : EventLogger} {a : HandOff} {event : StatsigEventInternal}
    (now : Int64) (hlogger : logger = { a.logger with events := a.logger.events ++ [event] })
    (hfull : ¬ (BufferCall.enqueue event).MustFlush logger) :
    a.step (.enqueue event now) = { a with logger, enqueued := a.enqueued ++ [event] } := by
  subst hlogger
  have hroom : ¬ EventLogger.exceeds (a.logger.events ++ [event]).length a.logger.maxBufferSize =
    true := hfull
  simp only [HandOff.step, EventLogger.enqueue, if_neg hroom]
  simp [HandOff.afterFlush]

/-! ### One step of a call -/

/-- What the steps do, each with the call that takes effect at it. -/
inductive LoggerPc.Step (i : ℕ) (now : Int64) (s : LoggerShared) :
    LoggerPc → LoggerShared × Status LoggerPc Unit → Option HandOff.Label → Prop where
  | resetHandles :
      Step i now s resetHandles ({ s with timerStopped := true }, .running (lock .shutdown)) none
  | lockEnqueue {event : StatsigEventInternal} (hlock : s.rwLock = none) :
      Step i now s (lock (.enqueue event)) ({ s with rwLock := some i }, .running (push event)) none
  | lockFlush {call : BufferCall} (hlock : s.rwLock = none) (hcall : call.pushed = [])
      (hflush : ∀ logger, call.MustFlush logger) :
      Step i now s (lock call) ({ s with rwLock := some i }, .running (lockAppend call)) none
  | push {event : StatsigEventInternal} :
      Step i now s (push event)
        ({ s with logger.events := s.logger.events ++ [event] }, .running (testSize event)) none
  | full {event : StatsigEventInternal} (hfull : (BufferCall.enqueue event).MustFlush s.logger) :
      Step i now s (testSize event) (s, .running (lockAppend (.enqueue event))) none
  | notFull {event : StatsigEventInternal}
      (hfull : ¬ (BufferCall.enqueue event).MustFlush s.logger) :
      Step i now s (testSize event) (s, .running unlock) (some (.enqueue event now))
  | lockAppend {call : BufferCall} (hlock : s.diagnosticsMutex = none) :
      Step i now s (lockAppend call)
        ({ s with diagnosticsMutex := some i }, .running (testMarkers call)) none
  | noMarkers {call : BufferCall} (hmarkers : s.diagnostics.markers = []) :
      Step i now s (testMarkers call) (s, .running unlockAppend) (some (call.label now))
  | markers {call : BufferCall} (hmarkers : s.diagnostics.markers ≠ []) :
      Step i now s (testMarkers call) (s, .running (moveMarkers call)) none
  | moveMarkers {call : BufferCall} :
      Step i now s (moveMarkers call)
        ({ s with diagnostics.markers := [] }, .running (append call s.diagnostics.markers)) none
  | append {call : BufferCall} {localMarkers : List Json} :
      Step i now s (append call localMarkers)
        ({ s with logger.events :=
            s.logger.events ++ [diagnosticsEvent localMarkers s.diagnostics.user now] },
          .running unlockAppend) (some (call.label now))
  | unlockAppend :
      Step i now s unlockAppend ({ s with diagnosticsMutex := none }, .running testEvents) none
  | noEvents (hevents : s.logger.events = []) :
      Step i now s testEvents (s, .running unlock) none
  | events (hevents : s.logger.events ≠ []) :
      Step i now s testEvents (s, .running moveEvents) none
  | moveEvents :
      Step i now s moveEvents
        ({ s with logger.events := [] }, .running (lockPool s.logger.events)) none
  | lockPool {localEvents : List StatsigEventInternal} (hlock : s.poolMutex = none) :
      Step i now s (lockPool localEvents)
        ({ s with poolMutex := some i }, .running (addTask localEvents)) none
  | addTask {localEvents : List StatsigEventInternal} :
      Step i now s (addTask localEvents)
        ({ s with queue := s.queue ++ [localEvents] }, .running unlockPool) none
  | unlockPool : Step i now s unlockPool ({ s with poolMutex := none }, .running unlock) none
  | unlock : Step i now s unlock ({ s with rwLock := none }, .returned ()) none
  | lockMark {marker : Json} (hlock : s.diagnosticsMutex = none) :
      Step i now s (lockMark marker)
        ({ s with diagnosticsMutex := some i }, .running (testMark marker)) none
  | refuse {marker : Json}
      (hfull : constants.kMaxDiagnosticsMarkers < s.diagnostics.markers.length) :
      Step i now s (testMark marker) (s, .running unlockDiagnostics) (some (.mark marker))
  | accept {marker : Json}
      (hfull : ¬ constants.kMaxDiagnosticsMarkers < s.diagnostics.markers.length) :
      Step i now s (testMark marker) (s, .running (pushMark marker)) none
  | pushMark {marker : Json} :
      Step i now s (pushMark marker)
        ({ s with diagnostics.markers := s.diagnostics.markers ++ [marker] },
          .running unlockDiagnostics) (some (.mark marker))
  | lockSetUser {user : StatsigUser} (hlock : s.diagnosticsMutex = none) :
      Step i now s (lockSetUser user)
        ({ s with diagnosticsMutex := some i }, .running (writeUser user)) none
  | writeUser {user : StatsigUser} :
      Step i now s (writeUser user)
        ({ s with diagnostics.user := user }, .running unlockDiagnostics) (some (.setUser user))
  | unlockDiagnostics :
      Step i now s unlockDiagnostics ({ s with diagnosticsMutex := none }, .returned ()) none

section

variable {i : ℕ} {pc : LoggerPc} {now : Int64} {s : LoggerShared} {a : HandOff}
  {next : LoggerShared × Status LoggerPc Unit} {label : Option HandOff.Label}

open LoggerShared

namespace LoggerPc

/-- **Nothing else happens.** -/
theorem Step.of_step (h : pc.step i now s = some next) : Step i now s pc next (pc.point now s) := by
  cases pc with
  | resetHandles =>
    obtain rfl := Option.some_inj.mp h
    exact .resetHandles
  | lock call =>
    simp only [step] at h
    split at h
    · exact absurd h (by simp)
    · rename_i hlock
      obtain rfl := Option.some_inj.mp h
      cases call with
      | enqueue event => exact .lockEnqueue (not_not.mp hlock)
      | flush | shutdown => exact .lockFlush (not_not.mp hlock) rfl fun _ ↦ trivial
  | testSize event =>
    rw [step] at h
    split at h <;> rename_i hfull <;> obtain rfl := Option.some_inj.mp h
    · rw [point, if_pos hfull]
      exact .full hfull
    · rw [point, if_neg hfull]
      exact .notFull hfull
  | lockAppend call =>
    rw [step] at h
    split at h
    · exact absurd h (by simp)
    · rename_i hlock
      obtain rfl := Option.some_inj.mp h
      exact .lockAppend (not_not.mp hlock)
  | testMarkers call =>
    rw [step] at h
    split at h <;> rename_i hmarkers <;> obtain rfl := Option.some_inj.mp h
    · rw [point, if_pos hmarkers]
      exact .noMarkers hmarkers
    · rw [point, if_neg hmarkers]
      exact .markers hmarkers
  | testEvents =>
    rw [step] at h
    split at h <;> rename_i hevents <;> obtain rfl := Option.some_inj.mp h
    · exact .noEvents hevents
    · exact .events hevents
  | lockPool localEvents =>
    rw [step] at h
    split at h
    · exact absurd h (by simp)
    · rename_i hlock
      obtain rfl := Option.some_inj.mp h
      exact .lockPool (not_not.mp hlock)
  | lockMark marker =>
    rw [step] at h
    split at h
    · exact absurd h (by simp)
    · rename_i hlock
      obtain rfl := Option.some_inj.mp h
      exact .lockMark (not_not.mp hlock)
  | testMark marker =>
    rw [step] at h
    split at h <;> rename_i hfull <;> obtain rfl := Option.some_inj.mp h
    · rw [point, if_pos hfull]
      exact .refuse hfull
    · rw [point, if_neg hfull]
      exact .accept hfull
  | lockSetUser user =>
    rw [step] at h
    split at h
    · exact absurd h (by simp)
    · rename_i hlock
      obtain rfl := Option.some_inj.mp h
      exact .lockSetUser (not_not.mp hlock)
  | _ =>
    obtain rfl := Option.some_inj.mp h
    constructor

/-! ### The locks -/

theorem Step.rwLock (h : Step i now s pc next label) :
    LockMove i s.rwLock (holdsRwLock pc) next.1.rwLock (holdsIn holdsRwLock next.2) := by
  cases h with
  | lockEnqueue hlock | lockFlush hlock => exact hlock ▸ .acquire
  | unlock => exact .release _
  | _ => exact .keep ..

theorem Step.diagnosticsMutex (h : Step i now s pc next label) :
    LockMove i s.diagnosticsMutex (holdsDiagnostics pc) next.1.diagnosticsMutex
      (holdsIn holdsDiagnostics next.2) := by
  cases h with
  | lockAppend hlock | lockMark hlock | lockSetUser hlock => exact hlock ▸ .acquire
  | unlockAppend | unlockDiagnostics => exact .release _
  | _ => exact .keep ..

theorem Step.poolMutex (h : Step i now s pc next label) :
    LockMove i s.poolMutex (holdsPool pc) next.1.poolMutex (holdsIn holdsPool next.2) := by
  cases h with
  | lockPool hlock => exact hlock ▸ .acquire
  | unlockPool => exact .release _
  | _ => exact .keep ..

/-! ### The data -/

/-- A step of the call that has the logger's lock, or takes it. -/
theorem Step.buffer (h : Step i now s pc next label)
    (hmine : holdsRwLock pc = true ∨ holdsIn holdsRwLock next.2 = true)
    (hfree : s.rwLock = none → BufferFree s a) (hheld : holdsRwLock pc = true → BufferHeld pc s a)
    (hmarkers : holdsDiagnostics pc = true → MarkersHeld pc s a) :
    guardIn holdsRwLock BufferFree BufferHeld next.2 next.1 (a.after label) := by
  cases h with
  | lockEnqueue hlock => exact hfree hlock
  | @lockFlush call hlock hcall hflush =>
    obtain ⟨hlogger, hqueue⟩ := hfree hlock
    refine ⟨⟨?_, hqueue⟩, hflush _⟩
    rw [hcall, List.append_nil]
    exact hlogger
  | @push event =>
    obtain ⟨hlogger, hqueue⟩ := hheld rfl
    refine ⟨?_, hqueue⟩
    show { s.logger with events := s.logger.events ++ [event] } = _
    rw [hlogger]
    rfl
  | full hfull => exact ⟨hheld rfl, hfull⟩
  | @notFull event hfull =>
    obtain ⟨hlogger, hqueue⟩ := hheld rfl
    rw [HandOff.after_some, step_enqueue_of_not_full now hlogger hfull]
    exact ⟨rfl, hqueue⟩
  | @noMarkers call hmarkers' =>
    obtain ⟨⟨hlogger, hqueue⟩, hflush⟩ := hheld rfl
    have hd : a.diagnostics.markers = [] := (hmarkers rfl : MarkersFree s a) ▸ hmarkers'
    show BufferFlushed s (a.step (call.label now))
    rw [step_label now hlogger hflush, flushImpl_of_no_markers hd, BufferFlushed]
    split
    · simp [BufferFree, HandOff.afterFlush, hqueue]
    · simp [BufferTaken, BufferCarried, HandOff.afterFlush, hqueue]
  | @append call localMarkers =>
    obtain ⟨⟨hlogger, hqueue⟩, hflush⟩ := hheld rfl
    obtain ⟨hne, hd, -⟩ := hmarkers rfl
    have hd' : a.diagnostics.markers = localMarkers := by rw [hd]
    have huser : a.diagnostics.user = s.diagnostics.user := by rw [hd]
    show BufferFlushed _ (a.step (call.label now))
    rw [step_label now hlogger hflush, flushImpl_of_markers (hd' ▸ hne), BufferFlushed,
      if_neg (by simp)]
    simp [BufferTaken, BufferCarried, HandOff.afterFlush, hqueue, hd', huser]
  | noEvents hevents =>
    have hflushed : BufferFlushed s a := hheld rfl
    rw [BufferFlushed, if_pos hevents] at hflushed
    exact hflushed
  | events hevents =>
    have hflushed : BufferFlushed s a := hheld rfl
    rw [BufferFlushed, if_neg hevents] at hflushed
    exact hflushed
  | moveEvents =>
    obtain ⟨hlogger, hempty, hqueue⟩ := hheld rfl
    exact ⟨by rw [hlogger]; rfl, hempty, hqueue⟩
  | @addTask localEvents =>
    obtain ⟨hlogger, hempty, hqueue⟩ := hheld rfl
    refine ⟨?_, hqueue⟩
    rw [HandOff.after_none]
    rw [← hempty] at hlogger
    exact hlogger
  | lockAppend _ | markers _ | moveMarkers | unlockAppend | lockPool _ | unlockPool | unlock =>
    exact hheld rfl
  | _ => exact absurd hmine (by simp [holdsRwLock, holdsIn])

theorem Step.buffer_other (h : Step i now s pc next label) (hpc : holdsRwLock pc = false)
    (hnext : holdsIn holdsRwLock next.2 = false) :
    next.1.logger = s.logger ∧ next.1.queue = s.queue ∧ next.1.rwLock = s.rwLock ∧
      (a.after label).logger = a.logger ∧ (a.after label).batches = a.batches := by
  cases h with
  | resetHandles | lockMark _ | refuse _ | accept _ | pushMark | lockSetUser _ | writeUser
  | unlockDiagnostics => exact ⟨rfl, rfl, rfl, rfl, rfl⟩
  | lockEnqueue _ | lockFlush _ => exact absurd hnext (by simp [holdsRwLock, holdsIn])
  | _ => exact absurd hpc (by simp [holdsRwLock])

/-- A step of the call that has the mutex of the diagnostics, or takes it. -/
theorem Step.markersHeld (h : Step i now s pc next label)
    (hmine : holdsDiagnostics pc = true ∨ holdsIn holdsDiagnostics next.2 = true)
    (hfree : s.diagnosticsMutex = none → MarkersFree s a)
    (hheld : holdsDiagnostics pc = true → MarkersHeld pc s a)
    (hbuffer : holdsRwLock pc = true → BufferHeld pc s a) :
    guardIn holdsDiagnostics MarkersFree MarkersHeld next.2 next.1 (a.after label) := by
  cases h with
  | lockAppend hlock | lockMark hlock | lockSetUser hlock => exact hfree hlock
  | @noMarkers call hmarkers =>
    obtain ⟨⟨hlogger, -⟩, hflush⟩ := hbuffer rfl
    have hd : s.diagnostics = a.diagnostics := hheld rfl
    show s.diagnostics = (a.step (call.label now)).diagnostics
    rw [step_label now hlogger hflush, flushImpl_of_no_markers (hd ▸ hmarkers)]
    simp only [HandOff.afterFlush]
    split <;> exact hd
  | markers hmarkers => exact ⟨hheld rfl, hmarkers⟩
  | moveMarkers =>
    obtain ⟨hd, hne⟩ := hheld rfl
    exact ⟨hne, by rw [HandOff.after_none, ← (hd : s.diagnostics = a.diagnostics)], rfl⟩
  | @append call localMarkers =>
    obtain ⟨⟨hlogger, -⟩, hflush⟩ := hbuffer rfl
    obtain ⟨hne, hd, hempty⟩ := hheld rfl
    have hne' : a.diagnostics.markers ≠ [] := by rwa [hd]
    show s.diagnostics = (a.step (call.label now)).diagnostics
    rw [step_label now hlogger hflush, flushImpl_of_markers hne']
    simp only [HandOff.afterFlush]
    rw [hd, ← hempty]
  | @refuse marker hfull =>
    have hd : s.diagnostics = a.diagnostics := hheld rfl
    show s.diagnostics = a.diagnostics.mark marker
    rw [Diagnostics.mark, if_pos (hd ▸ hfull), hd]
  | accept hfull => exact ⟨hheld rfl, hfull⟩
  | @pushMark marker =>
    obtain ⟨hd, hfull⟩ := hheld rfl
    show { s.diagnostics with markers := s.diagnostics.markers ++ [marker] } =
      a.diagnostics.mark marker
    rw [(hd : s.diagnostics = a.diagnostics)] at hfull ⊢
    rw [Diagnostics.mark, if_neg hfull]
  | @writeUser user =>
    have hd : s.diagnostics = a.diagnostics := hheld rfl
    show { s.diagnostics with user } = a.diagnostics.setUser user
    rw [hd, Diagnostics.setUser]
  | unlockAppend | unlockDiagnostics => exact hheld rfl
  | _ => exact absurd hmine (by simp [holdsDiagnostics, holdsIn])

theorem Step.markers_other (h : Step i now s pc next label) (hpc : holdsDiagnostics pc = false)
    (hnext : holdsIn holdsDiagnostics next.2 = false)
    (hbuffer : holdsRwLock pc = true → BufferHeld pc s a) :
    next.1.diagnostics = s.diagnostics ∧ next.1.diagnosticsMutex = s.diagnosticsMutex ∧
      (a.after label).diagnostics = a.diagnostics := by
  cases h with
  | notFull hfull =>
    obtain ⟨hlogger, -⟩ := hbuffer rfl
    rw [HandOff.after_some, step_enqueue_of_not_full now hlogger hfull]
    exact ⟨rfl, rfl, rfl⟩
  | resetHandles | lockEnqueue _ | lockFlush _ | push | full _ | noEvents _ | events _ | moveEvents
  | lockPool _ | addTask | unlockPool | unlock => exact ⟨rfl, rfl, rfl⟩
  | lockAppend _ | lockMark _ | lockSetUser _ =>
    exact absurd hnext (by simp [holdsDiagnostics, holdsIn])
  | _ => exact absurd hpc (by simp [holdsDiagnostics])

/-! ### The calls themselves -/

theorem Step.outcome_quiet (h : Step i now s pc next none) :
    outcomeIn outcome next.2 = pc.outcome := by
  cases h <;> rfl

/-- Before the step at which a call takes effect it can be told from what it is about to do, and
afterwards it has its result. -/
theorem Step.outcome_effect {label : HandOff.Label} (h : Step i now s pc next (some label)) :
    pc.outcome = none ∧ pc.callOf = some label.call ∧ outcomeIn outcome next.2 = some () := by
  cases h with
  | noMarkers _ | append => exact ⟨rfl, by simp [callOf], rfl⟩
  | _ => exact ⟨rfl, rfl, rfl⟩

theorem Step.callOf (h : Step i now s pc next label) (pc' : LoggerPc) (op : LoggerCall)
    (hnext : next.2 = .running pc') (hop : pc'.callOf = some op) : pc.callOf = some op := by
  cases h with
  | unlock | unlockDiagnostics => exact absurd hnext (by simp)
  | notFull _ | noMarkers _ | append | unlockAppend | noEvents _ | events _ | moveEvents
  | lockPool _ | addTask | unlockPool | refuse _ | pushMark | writeUser =>
    obtain rfl := Status.running.inj hnext
    exact absurd hop (by simp [LoggerPc.callOf])
  | _ =>
    obtain rfl := Status.running.inj hnext
    exact hop

end LoggerPc

end

/-! ## All calls -/

/-- The calls that are in progress, beside `HandOff`. -/
structure LoggerRel (s : System LoggerShared LoggerCall LoggerPc Unit) (a : HandOff) : Prop where
  buffer : Guarded LoggerShared.rwLock LoggerPc.holdsRwLock LoggerShared.BufferFree
    LoggerShared.BufferHeld s a
  markers : Guarded LoggerShared.diagnosticsMutex LoggerPc.holdsDiagnostics
    LoggerShared.MarkersFree LoggerShared.MarkersHeld s a
  pool : HeldBy LoggerShared.poolMutex LoggerPc.holdsPool s
  called : Called LoggerPc.callOf s

/-- A logger that has just been constructed, with the diagnostics of its sdk key. -/
def LoggerShared.init (sdkKey : Str) (options : StatsigOptions) (diagnostics : Diagnostics) :
    LoggerShared where
  logger := (EventLogger.create sdkKey options).1
  diagnostics

namespace LoggerRel

theorem init (sdkKey : Str) (options : StatsigOptions) (diagnostics : Diagnostics) :
    LoggerRel { shared := .init sdkKey options diagnostics }
      (HandOff.init sdkKey options diagnostics) :=
  ⟨.init rfl ⟨rfl, rfl⟩, .init rfl rfl, .init rfl, .init _⟩

variable {s : System LoggerShared LoggerCall LoggerPc Unit} {a : HandOff} {i : ℕ}
  {call : Call LoggerCall LoggerPc Unit} {pc : LoggerPc} {now : Int64}
  {next : LoggerShared × Status LoggerPc Unit}

theorem invoke (h : LoggerRel s a) (op : LoggerCall) : LoggerRel (s.invoke loggerCode op) a := by
  have hstart : (LoggerPc.start op).holdsRwLock = false ∧
      (LoggerPc.start op).holdsDiagnostics = false ∧ (LoggerPc.start op).holdsPool = false ∧
      (LoggerPc.start op).callOf = some op := by
    rcases op with (_ | _ | _) | _ | _ <;> exact ⟨rfl, rfl, rfl, rfl⟩
  obtain ⟨hrw, hdiagnostics, hpool, hcallOf⟩ := hstart
  exact ⟨h.buffer.invoke hrw, h.markers.invoke hdiagnostics, h.pool.invoke hpool,
    h.called.invoke hcallOf⟩

/-- **One step of a call**, and the step of `HandOff` that goes with it. -/
theorem set (h : LoggerRel s a) (hcall : s.calls[i]? = some call)
    (hpc : call.status = .running pc) (hnext : pc.step i now s.shared = some next) :
    LoggerRel (s.set i call next) (a.after (pc.point now s.shared)) := by
  have hstep := LoggerPc.Step.of_step hnext
  have hat : s.At i pc := ⟨call, hcall, hpc⟩
  refine ⟨?_, ?_, h.pool.set hcall hpc hstep.poolMutex, h.called.set hcall hpc hstep.callOf⟩
  · by_cases hmine : pc.holdsRwLock = true ∨ holdsIn LoggerPc.holdsRwLock next.2 = true
    · exact h.buffer.mine hcall hpc hstep.rwLock hmine
        (hstep.buffer hmine h.buffer.whenFree (h.buffer.whenHeld hat) (h.markers.whenHeld hat))
    · obtain ⟨hbefore, hafter⟩ : pc.holdsRwLock = false ∧
          holdsIn LoggerPc.holdsRwLock next.2 = false := by simpa using hmine
      obtain ⟨hlogger, hqueue, hlock, ha, hbatches⟩ := hstep.buffer_other (a := a) hbefore hafter
      exact h.buffer.other hcall hpc hbefore hafter hlock
        (LoggerShared.bufferFree_congr hlogger hqueue ha hbatches)
        fun _ _ ↦ LoggerShared.bufferHeld_congr hlogger hqueue ha hbatches
  · by_cases hmine : pc.holdsDiagnostics = true ∨
        holdsIn LoggerPc.holdsDiagnostics next.2 = true
    · exact h.markers.mine hcall hpc hstep.diagnosticsMutex hmine
        (hstep.markersHeld hmine h.markers.whenFree (h.markers.whenHeld hat)
          (h.buffer.whenHeld hat))
    · obtain ⟨hbefore, hafter⟩ : pc.holdsDiagnostics = false ∧
          holdsIn LoggerPc.holdsDiagnostics next.2 = false := by simpa using hmine
      obtain ⟨hdiagnostics, hlock, ha⟩ :=
        hstep.markers_other hbefore hafter (h.buffer.whenHeld hat)
      exact h.markers.other hcall hpc hbefore hafter hlock
        (LoggerShared.markersFree_congr hdiagnostics ha)
        fun _ _ ↦ LoggerShared.markersHeld_congr hdiagnostics ha

end LoggerRel

theorem loggerSimulation : Simulation loggerCode HandOff.spec HandOff.Label.call LoggerPc.point
    LoggerPc.outcome LoggerRel where
  start op := by rcases op with (_ | _ | _) | _ | _ <;> rfl
  invoke h := h.invoke _
  quiet h hcall hpc hnext hpoint := by
    have hset := h.set hcall hpc hnext
    rw [hpoint] at hset
    exact ⟨(hpoint ▸ LoggerPc.Step.of_step hnext).outcome_quiet, hset⟩
  effect h hcall hpc hnext hpoint := by
    have hset := h.set hcall hpc hnext
    rw [hpoint] at hset
    obtain ⟨hnone, hcallOf, hsome⟩ := (hpoint ▸ LoggerPc.Step.of_step hnext).outcome_effect
    exact ⟨hnone, (h.called _ _ _ _ hcall hpc hcallOf).symm, hsome, hset⟩

/-- **The calls are atomic**: whatever the threads do, there is an order of the calls, in which a
call that has returned before another was made comes first, such that the calls taken one after the
other in this order lead to the buffer, the diagnostics and the batches that there are as soon as no
call is in progress; and they lose no event. -/
theorem loggerCalls_linearizable (sdkKey : Str) (options : StatsigOptions)
    (diagnostics : Diagnostics) (labels : List (Label LoggerCall Int64))
    {s : System LoggerShared LoggerCall LoggerPc Unit}
    (hrun : Machine.run (step loggerCode) { shared := .init sdkKey options diagnostics } labels =
      some s) :
    ∃ order a, Linearization HandOff.spec HandOff.Label.call
        (HandOff.init sdkKey options diagnostics) order s a ∧
      a.InOrder ∧
      (s.Quiet → s.shared.logger = a.logger ∧ s.shared.diagnostics = a.diagnostics ∧
        s.shared.queue = a.batches.map Batch.events) := by
  obtain ⟨order, a, hrel, hlinear⟩ :=
    loggerSimulation.linearization (.init sdkKey options diagnostics) hrun
  refine ⟨order, a, hlinear, ?_, fun hquiet ↦ ?_⟩
  · rw [← hlinear.legal.foldl]
    refine List.foldlRecOn _ _ ⟨rfl, by simp [HandOff.init]⟩ fun a h label _ ↦ ?_
    exact HandOff.inOrder_step h label
  · obtain ⟨hlogger, hqueue⟩ := hrel.buffer.of_quiet hquiet
    exact ⟨hlogger, hrel.markers.of_quiet hquiet, hqueue⟩

/-- While one thread marks, another begins to flush, and has to wait for the mutex. -/
def markAndFlush : List (Label LoggerCall Int64) :=
  [.invoke (.mark (.bool true)), .invoke (.buffer .flush), .step 0 1, .step 1 2, .step 0 3,
    .step 0 4]

/-- The mark comes first, and the flush takes it with it. -/
theorem loggerCalls_linearizable_markAndFlush :
    ∃ s, Machine.run (step loggerCode) { shared := .init [] {} {} }
        (markAndFlush ++ [.step 0 5, .step 1 6, .step 1 7, .step 1 8, .step 1 9]) = some s ∧
      ∃ order a, Linearization HandOff.spec HandOff.Label.call (HandOff.init [] {} {}) order s a ∧
        a.InOrder := by
  obtain ⟨s, hs⟩ := Option.isSome_iff_exists.mp (show (Machine.run (step loggerCode)
    { shared := .init [] {} {} } (markAndFlush ++
      [.step 0 5, .step 1 6, .step 1 7, .step 1 8, .step 1 9])).isSome = true by decide +kernel)
  obtain ⟨order, a, hlinear, hinOrder, -⟩ := loggerCalls_linearizable [] {} {} _ hs
  exact ⟨s, hs, order, a, hlinear, hinOrder⟩

/-! ## Every call returns -/

namespace LoggerPc

/-- What is left to do at most. -/
def fuel : LoggerPc → ℕ
  | resetHandles => 14
  | lock _ => 13
  | push _ => 12
  | testSize _ => 11
  | lockAppend _ => 10
  | testMarkers _ => 9
  | moveMarkers _ => 8
  | append _ _ => 7
  | unlockAppend => 6
  | testEvents => 5
  | moveEvents => 4
  | lockPool _ | lockMark _ => 3
  | addTask _ | testMark _ | lockSetUser _ => 2
  | unlockPool | pushMark _ | writeUser _ => 1
  | unlock | unlockDiagnostics => 0

/-- The locks that are held, of which those of the diagnostics and of the pool are only ever taken
after the logger's. -/
def level (pc : LoggerPc) : ℕ :=
  if pc.holdsPool then 3 else if pc.holdsDiagnostics then 2 else if pc.holdsRwLock then 1 else 0

theorem level_le (pc : LoggerPc) : pc.level ≤ 3 := by
  rw [level]
  split
  · exact le_rfl
  · split
    · omega
    · split <;> omega

theorem Step.fuel_le {i : ℕ} {pc : LoggerPc} {now : Int64} {s : LoggerShared}
    {next : LoggerShared × Status LoggerPc Unit} {label : Option HandOff.Label}
    (h : Step i now s pc next label) : fuelIn fuel next.2 ≤ pc.fuel := by
  cases h <;> simp [fuelIn, fuel]

/-- **What a call can wait for**: a lock that comes after those that it has. -/
theorem enabled_or_waits (pc : LoggerPc) (i : ℕ) (now : Int64) (s : LoggerShared) :
    pc.step i now s ≠ none ∨ (s.rwLock ≠ none ∧ pc.level = 0) ∨
      (s.diagnosticsMutex ≠ none ∧ pc.level < 2) ∨ (s.poolMutex ≠ none ∧ pc.level < 3) := by
  cases pc with
  | lock call =>
    by_cases hlock : s.rwLock = none
    · exact .inl (by simp [step, hlock])
    · exact .inr (.inl ⟨hlock, rfl⟩)
  | lockAppend _ | lockMark _ | lockSetUser _ =>
    by_cases hlock : s.diagnosticsMutex = none
    · exact .inl (by simp [step, hlock])
    · exact .inr (.inr (.inl ⟨hlock, by simp [level, holdsPool, holdsDiagnostics, holdsRwLock]⟩))
  | lockPool _ =>
    by_cases hlock : s.poolMutex = none
    · exact .inl (by simp [step, hlock])
    · exact .inr (.inr (.inr ⟨hlock, by simp [level, holdsPool, holdsDiagnostics, holdsRwLock]⟩))
  | testSize _ | testMarkers _ | testEvents | testMark _ =>
    refine .inl ?_
    rw [step]
    split <;> simp
  | _ => exact .inl (by simp [step])

end LoggerPc

theorem loggerReturns : AlwaysReturns loggerCode LoggerPc.fuel (fun s ↦ ∃ a, LoggerRel s a) where
  decreases h := (LoggerPc.Step.of_step h).fuel_le
  keeps := by
    rintro s t label ⟨a, h⟩ hstep
    cases label with
    | invoke op =>
      obtain rfl := Option.some_inj.mp hstep
      exact ⟨a, h.invoke op⟩
    | step i now =>
      obtain ⟨call, pc, next, hcall, hpc, hnext, rfl⟩ := step_eq_some_iff.mp hstep
      exact ⟨_, h.set hcall hpc hnext⟩
  moves := by
    rintro s i pc ⟨a, h⟩ hat
    refine exists_enabled LoggerPc.level_le (fun i pc hat ↦ ?_) hat
    obtain hstep | ⟨hlock, hlevel⟩ | ⟨hlock, hlevel⟩ | ⟨hlock, hlevel⟩ :=
      pc.enabled_or_waits i 0 s.shared
    · exact .inl (hat.enabled hstep)
    · obtain ⟨j, hj⟩ := Option.ne_none_iff_exists'.mp hlock
      obtain ⟨pc', hat', hpc'⟩ := (h.buffer.heldBy j).mp hj
      refine .inr ⟨j, pc', hat', ?_⟩
      rw [hlevel, LoggerPc.level]
      split
      · omega
      · split <;> omega
    · obtain ⟨j, hj⟩ := Option.ne_none_iff_exists'.mp hlock
      obtain ⟨pc', hat', hpc'⟩ := (h.markers.heldBy j).mp hj
      refine .inr ⟨j, pc', hat', lt_of_lt_of_le hlevel ?_⟩
      rw [LoggerPc.level]
      split <;> omega
    · obtain ⟨j, hj⟩ := Option.ne_none_iff_exists'.mp hlock
      obtain ⟨pc', hat', hpc'⟩ := (h.pool j).mp hj
      refine .inr ⟨j, pc', hat', lt_of_lt_of_le hlevel ?_⟩
      rw [LoggerPc.level, if_pos hpc']

/-- **No call is ever stuck**: from any state that the threads can reach, the calls in progress take
no more than fifteen steps each, in whatever order they are scheduled, and a schedule only ends when
all of them have returned. -/
theorem loggerCalls_return (sdkKey : Str) (options : StatsigOptions) (diagnostics : Diagnostics)
    (labels : List (Label LoggerCall Int64)) {s t : System LoggerShared LoggerCall LoggerPc Unit}
    (hrun : Machine.run (step loggerCode) { shared := .init sdkKey options diagnostics } labels =
      some s) (steps : List (ℕ × Int64))
    (hsteps : Machine.run (step loggerCode) s (AlwaysReturns.schedule steps) = some t) :
    steps.length ≤ 15 * s.inProgress.length ∧ ((∀ i, ¬ t.Enabled loggerCode i) → t.Quiet) := by
  have hs : ∃ a, LoggerRel s a :=
    Machine.invariant_of_run loggerReturns.keeps ⟨_, .init sdkKey options diagnostics⟩ hrun
  obtain ⟨hlength, hquiet⟩ := loggerReturns.returns hs hsteps
  refine ⟨hlength.trans (remaining_le (fun pc ↦ ?_) s), hquiet⟩
  cases pc <;> simp [LoggerPc.fuel]

/-- The flush goes on as soon as the mark has released the mutex. -/
theorem loggerCalls_return_markAndFlush :
    ∃ s t, Machine.run (step loggerCode) { shared := .init [] {} {} } markAndFlush = some s ∧
      Machine.run (step loggerCode) s (AlwaysReturns.schedule [(0, 5), (1, 6)]) = some t ∧
      ((∀ i, ¬ t.Enabled loggerCode i) → t.Quiet) := by
  obtain ⟨t, ht⟩ := Option.isSome_iff_exists.mp (show (Machine.run (step loggerCode)
    { shared := .init [] {} {} } (markAndFlush ++ AlwaysReturns.schedule [(0, 5), (1, 6)])).isSome =
      true by decide +kernel)
  obtain ⟨s, hs, hst⟩ := Machine.run_append_eq_some.mp ht
  exact ⟨s, t, hs, hst, (loggerCalls_return [] {} {} markAndFlush hs [(0, 5), (1, 6)] hst).2⟩

end Statsig
