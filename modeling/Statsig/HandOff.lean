import Statsig.EventLogger
import Statsig.Lib.Slots

/-!
# What leaves the buffer

One event logger on its own, with the batches that it has handed to the workers.  Calls of
`Enqueue`, `Flush` and `Shutdown` interleave with the markers of the diagnostics in any order, and
no call has to be the last.

`handedOff_of_run` says that the batches and the buffer, one after the other, are what was enqueued,
once the events of the diagnostics are taken out again.
-/

set_option autoImplicit false

namespace Statsig

/-! ## The machine -/

/-- What `FlushImpl` has handed to a worker, with a record of what the diagnostics added. -/
structure Batch where
  events : List StatsigEventInternal
  added : Option StatsigEventInternal
  deriving DecidableEq, Repr

namespace Batch

/-- The batch without what was added, if that is at its end. -/
def own (batch : Batch) : List StatsigEventInternal :=
  match batch.added with
  | none => batch.events
  | some _ => batch.events.dropLast

/-- There is something in the batch, and what was added is at its end. -/
structure WellFormed (batch : Batch) : Prop where
  nonempty : batch.events ≠ []
  added : batch.events = batch.own ++ batch.added.toList

end Batch

/-- A logger, with what it was given and what it has handed on. -/
structure HandOff where
  logger : EventLogger
  diagnostics : Diagnostics
  batches : List Batch := []
  enqueued : List StatsigEventInternal := []
  deriving DecidableEq, Repr

namespace HandOff

open EventLogger

inductive Label where
  | enqueue (event : StatsigEventInternal) (now : Int64)
  | flush (now : Int64)
  | shutdown (now : Int64)
  | mark (marker : Json)
  | setUser (user : StatsigUser)
  deriving DecidableEq, Repr

/-- The state after a call that may have flushed the buffer. -/
def afterFlush (s : HandOff) (flushed : Flushed) : HandOff :=
  { s with
    logger := flushed.logger
    diagnostics := flushed.diagnostics
    batches := s.batches ++
      (flushed.batch.map fun events ↦ { events, added := flushed.added : Batch }).toList }

/-- One step. -/
def step (s : HandOff) : Label → HandOff
  | .enqueue event now =>
    { s.afterFlush (s.logger.enqueue s.diagnostics event now) with
      enqueued := s.enqueued ++ [event] }
  | .flush now => s.afterFlush (s.logger.flush s.diagnostics now)
  | .shutdown now => s.afterFlush (s.logger.flush s.diagnostics now)
  | .mark marker => { s with diagnostics := s.diagnostics.mark marker }
  | .setUser user => { s with diagnostics := s.diagnostics.setUser user }

/-- A logger that has just been constructed. -/
def init (sdkKey : Str) (options : StatsigOptions) (diagnostics : Diagnostics) : HandOff where
  logger := (EventLogger.create sdkKey options).1
  diagnostics

/-! ## One flush -/

theorem nonempty_of_batch {logger : EventLogger} {d : Diagnostics} {now : Int64}
    {events : List StatsigEventInternal} (h : (logger.flushImpl d now).batch = some events) :
    events ≠ [] := by
  simp only [flushImpl] at h
  split at h
  · exact absurd h (by simp)
  · rename_i hne
    rw [Option.some_inj] at h
    exact h ▸ hne

/-- **A flush**: there is no batch only if there is nothing in the buffer, and otherwise the batch
is the buffer, with what the diagnostics add at its end. -/
theorem flushImpl_cases (logger : EventLogger) (d : Diagnostics) (now : Int64) :
    ((logger.flushImpl d now).batch = none ∧ logger.events = []) ∨
      ∃ batch : Batch, (logger.flushImpl d now).batch = some batch.events ∧
        (logger.flushImpl d now).added = batch.added ∧ batch.own = logger.events ∧
        batch.WellFormed := by
  have hbatch := batch_flushImpl logger d now
  cases hsome : (logger.flushImpl d now).batch with
  | none =>
    rw [hsome] at hbatch
    exact .inl ⟨rfl, (List.append_eq_nil_iff.mp hbatch.symm).1⟩
  | some events =>
    rw [hsome, Option.getD_some] at hbatch
    have hown : Batch.own ⟨events, (logger.flushImpl d now).added⟩ = logger.events := by
      rw [hbatch]
      cases (logger.flushImpl d now).added with
      | none => simp [Batch.own]
      | some event => simp [Batch.own]
    refine .inr ⟨⟨events, _⟩, rfl, rfl, hown, nonempty_of_batch hsome, ?_⟩
    rw [hown]
    exact hbatch

/-! ## Whole runs -/

/-- Nothing is lost, duplicated or reordered on the way from the buffer to the batches. -/
structure InOrder (s : HandOff) : Prop where
  conserved : s.batches.flatMap Batch.own ++ s.logger.events = s.enqueued
  batches : ∀ batch ∈ s.batches, batch.WellFormed

theorem inOrder_flushImpl {s : HandOff} {logger : EventLogger}
    {enqueued : List StatsigEventInternal} (now : Int64)
    (hconserved : s.batches.flatMap Batch.own ++ logger.events = enqueued)
    (hbatches : ∀ batch ∈ s.batches, batch.WellFormed) :
    InOrder { s.afterFlush (logger.flushImpl s.diagnostics now) with enqueued } := by
  rcases flushImpl_cases logger s.diagnostics now with ⟨hnone, hnil⟩ |
    ⟨batch, hsome, hadded, hown, hwell⟩
  · refine ⟨?_, ?_⟩
    · simpa [afterFlush, hnone, hnil] using hconserved
    · simpa [afterFlush, hnone] using hbatches
  · refine ⟨?_, ?_⟩
    · simpa [afterFlush, hsome, hadded, hown] using hconserved
    · simp only [afterFlush, hsome, hadded]
      exact Slots.forall_mem_append_singleton hbatches hwell

/-- **One step.** -/
theorem inOrder_step {s : HandOff} (h : InOrder s) (a : Label) : InOrder (s.step a) := by
  obtain ⟨hconserved, hbatches⟩ := h
  cases a with
  | enqueue event now =>
    have hconserved' : s.batches.flatMap Batch.own ++ (s.logger.events ++ [event]) =
        s.enqueued ++ [event] := by
      rw [← List.append_assoc, hconserved]
    simp only [step, enqueue]
    split
    · exact inOrder_flushImpl now hconserved' hbatches
    · exact ⟨by simpa [afterFlush] using hconserved', by simpa [afterFlush] using hbatches⟩
  | flush now | shutdown now => exact inOrder_flushImpl now hconserved hbatches
  | mark _ | setUser _ => exact ⟨hconserved, hbatches⟩

/-- The step has flushed the buffer: it was asked to, or the buffer was full. -/
def Flushes (s : HandOff) : Label → Prop
  | .enqueue event now => (s.logger.enqueue s.diagnostics event now).batch.isSome = true
  | .flush _ => True
  | .shutdown _ => True
  | .mark _ => False
  | .setUser _ => False

theorem events_of_flushes {s : HandOff} {a : Label} (h : s.Flushes a) :
    (s.step a).logger.events = [] := by
  cases a with
  | enqueue event now =>
    simp only [Flushes, enqueue] at h
    simp only [step, enqueue, afterFlush]
    split at h
    · rename_i hfull
      rw [if_pos hfull, events_flushImpl]
    · exact absurd h (by simp)
  | flush now | shutdown now => exact events_flushImpl s.logger s.diagnostics now
  | mark _ | setUser _ => exact h.elim

/-- **The buffer loses nothing**, in any order of the calls and with any limit: the batches without
what the diagnostics added, and what is in the buffer, are what was enqueued.  What was added is at
the end of its batch, no batch is empty, and a flush leaves the buffer empty. -/
theorem handedOff_of_run (sdkKey : Str) (options : StatsigOptions) (diagnostics : Diagnostics)
    (labels : List Label) :
    InOrder (labels.foldl step (init sdkKey options diagnostics)) ∧
      ∀ a, Flushes (labels.foldl step (init sdkKey options diagnostics)) a →
        (step (labels.foldl step (init sdkKey options diagnostics)) a).logger.events = [] := by
  refine ⟨?_, fun a ↦ events_of_flushes⟩
  refine List.foldlRecOn labels step ?_ fun s hs a _ ↦ inOrder_step hs a
  exact ⟨rfl, by simp [init]⟩

end HandOff

end Statsig
