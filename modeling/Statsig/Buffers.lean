import Statsig.EventLogger
import Statsig.Lib.Machine

/-!
# The two buffers

The logger's buffer of events and the diagnostics' buffer of markers, over runs of their methods in
any order.  Each has a limit, and each compares its size with the limit before or after it adds
one: `enqueue_bounded_iff` says for which limits the first comparison keeps it,
`eachStep_conserves_iff` in which runs the second does.
-/

set_option autoImplicit false

namespace Statsig

/-! ## Events -/

namespace EventLogger

/-- What is done to a buffer of events, with the diagnostics as the call finds them. -/
inductive BufferLabel where
  | enqueue (event : StatsigEventInternal) (d : Diagnostics) (now : Int64)
  | flush (d : Diagnostics) (now : Int64)

/-- One call. -/
def bufferStep (logger : EventLogger) : BufferLabel → Option EventLogger
  | .enqueue event d now => some (logger.enqueue d event now).logger
  | .flush d now => some (logger.flush d now).logger

/-- The label is an `Enqueue`. -/
def BufferLabel.isEnqueue : BufferLabel → Bool
  | .enqueue _ _ _ => true
  | .flush _ _ => false

/-- After an `Enqueue` the buffer is within its limit. -/
def WithinLimit (_ : EventLogger) (a : BufferLabel) (after : EventLogger) : Prop :=
  a.isEnqueue = true → (after.events.length : ℤ) ≤ max 0 after.maxBufferSize.toInt

@[simp] theorem maxBufferSize_flushImpl (logger : EventLogger) (d : Diagnostics) (now : Int64) :
    (logger.flushImpl d now).logger.maxBufferSize = logger.maxBufferSize := by
  simp only [flushImpl]
  split <;> rfl

@[simp] theorem maxBufferSize_enqueue (logger : EventLogger) (d : Diagnostics)
    (event : StatsigEventInternal) (now : Int64) :
    (logger.enqueue d event now).logger.maxBufferSize = logger.maxBufferSize := by
  simp only [enqueue]
  split
  · exact maxBufferSize_flushImpl _ d now
  · rfl

theorem exceeds_of_nonneg {size : ℕ} {maxBufferSize : Int32} (h : 0 ≤ maxBufferSize.toInt) :
    exceeds size maxBufferSize = decide (maxBufferSize.toInt < size) := by
  have hlt := maxBufferSize.toInt_lt
  rw [exceeds, Int.emod_eq_of_lt h (by omega), decide_eq_decide]
  omega

/-- A negative limit is taken for one that no buffer exceeds. -/
theorem exceeds_of_neg {size : ℕ} {maxBufferSize : Int32} (h : maxBufferSize.toInt < 0)
    (hsize : size ≤ 2 ^ 63) : exceeds size maxBufferSize = false := by
  have hle := maxBufferSize.le_toInt
  have hmod : maxBufferSize.toInt % 2 ^ 64 = maxBufferSize.toInt + 2 ^ 64 := by
    rw [← Int.add_emod_right, Int.emod_eq_of_lt (by omega) (by omega)]
  rw [exceeds, hmod, decide_eq_false_iff_not]
  omega

/-- **One `Enqueue`**, with a limit that is not negative. -/
theorem withinLimit_enqueue {logger : EventLogger} (h : 0 ≤ logger.maxBufferSize.toInt)
    (d : Diagnostics) (event : StatsigEventInternal) (now : Int64) :
    ((logger.enqueue d event now).logger.events.length : ℤ) ≤ logger.maxBufferSize.toInt := by
  simp only [enqueue]
  split
  · rw [events_flushImpl]
    exact h
  · rename_i hfits
    rw [exceeds_of_nonneg h] at hfits
    simpa using hfits

/-- The first `Enqueue` of all, with a negative limit. -/
theorem events_enqueue_of_neg {logger : EventLogger} (h : logger.maxBufferSize.toInt < 0)
    (hempty : logger.events = []) (d : Diagnostics) (event : StatsigEventInternal) (now : Int64) :
    (logger.enqueue d event now).logger.events = [event] := by
  simp only [enqueue, hempty, List.nil_append]
  rw [if_neg (by rw [exceeds_of_neg h (by simp)]; simp)]

/-- With a limit that is not negative, every run keeps to it. -/
theorem eachStep_withinLimit {logger : EventLogger} (h : 0 ≤ logger.maxBufferSize.toInt)
    (labels : List BufferLabel) : Machine.EachStep bufferStep WithinLimit logger labels := by
  induction labels generalizing logger with
  | nil => trivial
  | cons a labels ih =>
    refine ⟨fun after hstep ↦ ?_, fun after hstep ↦ ?_⟩
    · cases a with
      | enqueue event d now =>
        obtain rfl := Option.some_inj.mp hstep
        intro _
        rw [maxBufferSize_enqueue]
        exact (withinLimit_enqueue h d event now).trans (le_max_right 0 _)
      | flush d now => exact fun hflush ↦ absurd hflush (by simp [BufferLabel.isEnqueue])
    · apply ih
      cases a with
      | enqueue event d now =>
        obtain rfl := Option.some_inj.mp hstep
        rwa [maxBufferSize_enqueue]
      | flush d now =>
        obtain rfl := Option.some_inj.mp hstep
        rwa [flush, maxBufferSize_flushImpl]

/-- With a negative limit, the first event stays in the buffer. -/
theorem eachStep_withinLimit_of_neg {logger : EventLogger} (h : logger.maxBufferSize.toInt < 0)
    (hempty : logger.events = []) (labels : List BufferLabel) :
    Machine.EachStep bufferStep WithinLimit logger labels ↔
      ∀ a ∈ labels, a.isEnqueue = false := by
  induction labels generalizing logger with
  | nil => exact iff_of_true trivial (by simp)
  | cons a labels ih =>
    rw [Machine.EachStep, Machine.allSteps_cons, List.forall_mem_cons]
    cases a with
    | enqueue event d now =>
      refine iff_of_false (fun hall ↦ ?_) (by simp [BufferLabel.isEnqueue])
      have hwithin := hall.1 _ rfl rfl
      rw [events_enqueue_of_neg h hempty, maxBufferSize_enqueue, max_eq_left h.le] at hwithin
      exact absurd hwithin (by simp)
    | flush d now =>
      simp only [bufferStep, Option.some_inj, forall_eq', BufferLabel.isEnqueue, WithinLimit,
        Bool.false_eq_true, false_implies, true_and]
      refine ih ?_ ?_
      · rwa [flush, maxBufferSize_flushImpl]
      · exact events_flushImpl logger d now

/-- **When the buffer of events is bounded**: unless the limit is negative and there are events. -/
theorem enqueue_bounded_iff (sdkKey : Str) (options : StatsigOptions)
    (labels : List BufferLabel) :
    Machine.EachStep bufferStep WithinLimit (create sdkKey options).1 labels ↔
      0 ≤ (options.loggingMaxBufferSize.getD constants.kMaxQueuedEvents).toInt ∨
        ∀ a ∈ labels, a.isEnqueue = false := by
  rcases lt_or_ge (options.loggingMaxBufferSize.getD constants.kMaxQueuedEvents).toInt 0 with
    hneg | hnonneg
  · have hlimit : (create sdkKey options).1.maxBufferSize.toInt < 0 := hneg
    rw [eachStep_withinLimit_of_neg hlimit rfl labels]
    exact (or_iff_right (not_le.mpr hneg)).symm
  · exact iff_of_true (eachStep_withinLimit hnonneg labels) (.inl hnonneg)

/-- One event, and a limit of -1. -/
theorem not_forall_enqueue_bounded :
    ¬ ∀ (sdkKey : Str) (options : StatsigOptions) (labels : List BufferLabel),
      Machine.EachStep bufferStep WithinLimit (create sdkKey options).1 labels := by
  intro h
  have hstep := (h [] { loggingMaxBufferSize := some (-1) }
    [.enqueue { eventName := str "event" } {} 0]).1 _ rfl rfl
  exact absurd hstep (by decide)

end EventLogger

/-! ## Markers -/

namespace Diagnostics

open constants

theorem mark_cases (d : Diagnostics) (marker : Json) :
    (kMaxDiagnosticsMarkers < d.markers.length ∧ d.mark marker = d) ∨
      (d.markers.length ≤ kMaxDiagnosticsMarkers ∧
        (d.mark marker).markers = d.markers ++ [marker]) := by
  rw [mark]
  split
  · rename_i h
    exact .inl ⟨h, rfl⟩
  · rename_i h
    exact .inr ⟨not_lt.mp h, rfl⟩

/-- One `Mark` after the other. -/
def markAll (d : Diagnostics) (markers : List Json) : Diagnostics := markers.foldl mark d

/-- Markers that there is room for are all taken, in their order. -/
theorem markers_markAll {d : Diagnostics} {markers : List Json}
    (h : d.markers.length + markers.length ≤ kMaxDiagnosticsMarkers + 1) :
    (d.markAll markers).markers = d.markers ++ markers := by
  induction markers generalizing d with
  | nil => exact (List.append_nil _).symm
  | cons marker markers ih =>
    rw [List.length_cons] at h
    have hmark : (d.mark marker).markers = d.markers ++ [marker] := by
      rcases mark_cases d marker with ⟨hfull, -⟩ | ⟨-, hmark⟩
      · omega
      · exact hmark
    rw [markAll, List.foldl_cons, ← markAll, ih (by rw [hmark]; simp; omega), hmark,
      List.append_assoc, List.singleton_append]

end Diagnostics

/-- A `Diagnostics` object, with a record of the events it added to its callers' lists and of the
markers that it took. -/
structure MarkerRun where
  diagnostics : Diagnostics := {}
  emitted : List StatsigEventInternal := []
  accepted : List Json := []
  deriving DecidableEq, Repr

inductive MarkerLabel where
  | setUser (user : StatsigUser)
  | mark (marker : Json)
  | appendEvent (now : Int64) (events : List StatsigEventInternal)

/-- The markers in a diagnostics event. -/
def StatsigEventInternal.markersOf (event : StatsigEventInternal) : List Json :=
  ((event.metadata.bind (·.find? (str "markers"))).bind Json.getArr).getD []

namespace MarkerRun

open constants StatsigEventInternal

/-- One call.  A marker is taken if the buffer is not what it was. -/
def step (s : MarkerRun) : MarkerLabel → Option MarkerRun
  | .setUser user => some { s with diagnostics := s.diagnostics.setUser user }
  | .mark marker =>
    let diagnostics := s.diagnostics.mark marker
    some { s with
      diagnostics
      accepted := s.accepted ++
        if diagnostics.markers = s.diagnostics.markers then [] else [marker] }
  | .appendEvent now events =>
    let (diagnostics, after) := s.diagnostics.appendEvent now events
    some { s with diagnostics, emitted := s.emitted ++ after.drop events.length }

/-- Nothing is lost and nothing doubled: what was emitted and what waits is what was taken. -/
def Conserved (s : MarkerRun) : Prop :=
  s.emitted.flatMap markersOf ++ s.diagnostics.markers = s.accepted

/-- No list of markers is longer than that. -/
def AtMost (n : ℕ) (s : MarkerRun) : Prop :=
  s.diagnostics.markers.length ≤ n ∧ ∀ event ∈ s.emitted, event.markersOf.length ≤ n

/-- What a call is to do. -/
structure Conserves (s : MarkerRun) (a : MarkerLabel) (t : MarkerRun) : Prop where
  bounded : t.AtMost kMaxDiagnosticsMarkers
  conserved : t.Conserved
  /-- A marker is taken, unless the buffer is full. -/
  taken : ∀ marker, a = .mark marker → t.accepted = s.accepted ++ [marker] ∨
    (t.accepted = s.accepted ∧ s.diagnostics.markers.length = kMaxDiagnosticsMarkers)
  /-- `AppendEvent` adds an event exactly if there are markers, and then there are none. -/
  drained : ∀ now events, a = .appendEvent now events →
    t.diagnostics.markers = [] ∧
      ((∃ event, t.emitted = s.emitted ++ [event]) ↔ s.diagnostics.markers ≠ [])

/-- No marker comes when the buffer holds the maximum already. -/
def RoomLeft (s : MarkerRun) : MarkerLabel → Prop
  | .mark _ => s.diagnostics.markers.length ≠ kMaxDiagnosticsMarkers
  | .setUser _ => True
  | .appendEvent _ _ => True

/-! ### One call -/

theorem markersOf_pendingEvent {d : Diagnostics} {now : Int64} {event : StatsigEventInternal}
    (h : d.pendingEvent now = some event) : event.markersOf = d.markers ∧ d.markers ≠ [] := by
  simp only [Diagnostics.pendingEvent] at h
  split at h
  · exact absurd h (by simp)
  · rename_i hne
    obtain rfl := Option.some_inj.mp h
    refine ⟨?_, hne⟩
    have hfind : (UnorderedMap.ofList [(str "markers", Json.arr d.markers),
        (str "context", .str (str "initialize"))]).find? (str "markers") =
          some (.arr d.markers) := by
      rw [UnorderedMap.find?_eq_some_iff, UnorderedMap.entries_ofList (by simp; decide)]
      exact List.mem_cons_self
    simp [markersOf, hfind, Json.getArr]

theorem pendingEvent_eq_none_iff (d : Diagnostics) (now : Int64) :
    d.pendingEvent now = none ↔ d.markers = [] := by
  simp [Diagnostics.pendingEvent]

/-- **What a call does to the record.** -/
theorem step_cases {s t : MarkerRun} {a : MarkerLabel} (h : step s a = some t) :
    (∃ user, a = .setUser user ∧ t = { s with diagnostics := s.diagnostics.setUser user }) ∨
    (∃ marker, a = .mark marker ∧ t = s ∧
      kMaxDiagnosticsMarkers < s.diagnostics.markers.length) ∨
    (∃ marker, a = .mark marker ∧ s.diagnostics.markers.length ≤ kMaxDiagnosticsMarkers ∧
      t.diagnostics.markers = s.diagnostics.markers ++ [marker] ∧ t.emitted = s.emitted ∧
        t.accepted = s.accepted ++ [marker]) ∨
    (∃ now events, a = .appendEvent now events ∧ t.diagnostics.markers = [] ∧
      t.emitted = s.emitted ++ (s.diagnostics.pendingEvent now).toList ∧
        t.accepted = s.accepted) := by
  cases a with
  | setUser user => exact .inl ⟨user, rfl, (Option.some_inj.mp h).symm⟩
  | mark marker =>
    obtain rfl := Option.some_inj.mp h
    rcases s.diagnostics.mark_cases marker with ⟨hfull, heq⟩ | ⟨hroom, heq⟩
    · exact .inr (.inl ⟨marker, rfl, by simp [heq], hfull⟩)
    · exact .inr (.inr (.inl ⟨marker, rfl, hroom, heq, rfl, by simp [heq]⟩))
  | appendEvent now events =>
    obtain rfl := Option.some_inj.mp h
    refine .inr (.inr (.inr ⟨now, events, rfl, rfl, ?_, rfl⟩))
    exact congrArg (s.emitted ++ ·) List.drop_left

theorem exists_step (s : MarkerRun) (a : MarkerLabel) : ∃ t, step s a = some t := by
  cases a <;> exact ⟨_, rfl⟩

/-- **Every call conserves the markers**, whatever the buffer holds. -/
theorem Conserved.step {s t : MarkerRun} {a : MarkerLabel} (hs : s.Conserved)
    (h : step s a = some t) : t.Conserved := by
  rw [Conserved] at hs ⊢
  rcases step_cases h with ⟨user, -, rfl⟩ | ⟨marker, -, rfl, -⟩ |
    ⟨marker, -, -, hmarkers, hemitted, haccepted⟩ | ⟨now, events, -, hmarkers, hemitted, haccepted⟩
  · exact hs
  · exact hs
  · rw [hmarkers, hemitted, haccepted, ← hs, List.append_assoc]
  · rw [hmarkers, hemitted, haccepted, ← hs, List.flatMap_append, List.append_nil]
    congr 1
    cases hpending : s.diagnostics.pendingEvent now with
    | none => rw [(pendingEvent_eq_none_iff _ _).mp hpending]; rfl
    | some event => simp [(markersOf_pendingEvent hpending).1]

theorem AtMost.step {s t : MarkerRun} {a : MarkerLabel} {n : ℕ} (hs : s.AtMost n)
    (h : step s a = some t)
    (hmark : ∀ marker, a = .mark marker →
      s.diagnostics.markers.length ≤ kMaxDiagnosticsMarkers → s.diagnostics.markers.length < n) :
    t.AtMost n := by
  obtain ⟨hbuffer, hevents⟩ := hs
  rcases step_cases h with ⟨user, -, rfl⟩ | ⟨marker, -, rfl, -⟩ |
    ⟨marker, ha, hroom, hmarkers, hemitted, -⟩ | ⟨now, events, -, hmarkers, hemitted, -⟩
  · exact ⟨hbuffer, hevents⟩
  · exact ⟨hbuffer, hevents⟩
  · refine ⟨?_, hemitted ▸ hevents⟩
    rw [hmarkers, List.length_append, List.length_singleton]
    exact hmark marker ha hroom
  · refine ⟨by rw [hmarkers]; exact Nat.zero_le n, ?_⟩
    intro event hevent
    rw [hemitted, List.mem_append] at hevent
    rcases hevent with hevent | hevent
    · exact hevents event hevent
    · rw [(markersOf_pendingEvent (Option.mem_toList.mp hevent)).1]
      exact hbuffer

/-- **Runs conserve the markers and go one above the maximum**, whatever their calls. -/
theorem conserved_of_run {labels : List MarkerLabel} {t : MarkerRun}
    (hrun : Machine.run step {} labels = some t) :
    t.Conserved ∧ t.AtMost (kMaxDiagnosticsMarkers + 1) := by
  refine Machine.invariant_of_run
    (I := fun s ↦ s.Conserved ∧ s.AtMost (kMaxDiagnosticsMarkers + 1)) ?_ ?_ hrun
  · intro s t a hs hstep
    exact ⟨hs.1.step hstep, hs.2.step hstep fun _ _ hle ↦ Nat.lt_succ_of_le hle⟩
  · exact ⟨rfl, Nat.zero_le _, by simp⟩

theorem conserves_iff {s t : MarkerRun} {a : MarkerLabel}
    (hs : s.Conserved ∧ s.AtMost kMaxDiagnosticsMarkers) (h : step s a = some t) :
    Conserves s a t ↔ RoomLeft s a := by
  constructor
  · intro hconserves
    rcases step_cases h with ⟨user, rfl, -⟩ | ⟨marker, rfl, -, hfull⟩ |
      ⟨marker, rfl, -, hmarkers, -, -⟩ | ⟨now, events, rfl, -⟩
    · trivial
    · exact absurd hs.2.1 (not_le.mpr hfull)
    · intro hmax
      have hbound := hconserves.bounded.1
      rw [hmarkers, List.length_append, hmax] at hbound
      exact absurd hbound (by simp)
    · trivial
  · intro hroom
    refine ⟨?_, hs.1.step h, ?_, ?_⟩
    · refine hs.2.step h fun marker ha hle ↦ ?_
      subst ha
      exact lt_of_le_of_ne hle hroom
    · rintro marker rfl
      rcases step_cases h with ⟨user, ha, -⟩ | ⟨marker', -, -, hfull⟩ |
        ⟨marker', ha, -, -, -, haccepted⟩ | ⟨now, events, ha, -⟩
      · exact absurd ha (by simp)
      · exact absurd hs.2.1 (not_le.mpr hfull)
      · obtain rfl := MarkerLabel.mark.inj ha
        exact .inl haccepted
      · exact absurd ha (by simp)
    · rintro now events rfl
      rcases step_cases h with ⟨user, ha, -⟩ | ⟨marker, ha, -⟩ | ⟨marker, ha, -⟩ |
        ⟨now', events', ha, hmarkers, hemitted, -⟩
      · exact absurd ha (by simp)
      · exact absurd ha (by simp)
      · exact absurd ha (by simp)
      · refine ⟨hmarkers, ?_⟩
        rw [hemitted, Ne, ← pendingEvent_eq_none_iff _ now']
        cases s.diagnostics.pendingEvent now' <;> simp

/-- **When the buffer of markers is bounded**: in exactly the runs in which no marker comes to a
buffer that holds the maximum. -/
theorem eachStep_conserves_iff (labels : List MarkerLabel) :
    Machine.EachStep step Conserves {} labels ↔ Machine.AllSteps step RoomLeft {} labels := by
  obtain ⟨t, hrun⟩ := Machine.exists_run_of_total exists_step {} labels
  exact Machine.eachStep_iff_allSteps
    (I := fun s ↦ s.Conserved ∧ s.AtMost kMaxDiagnosticsMarkers) conserves_iff
    (fun _ _ h ↦ ⟨h.conserved, h.bounded⟩) ⟨rfl, Nat.zero_le _, by simp⟩ hrun

/-- Thirty-one markers, and no flush. -/
theorem not_forall_eachStep_conserves :
    ¬ ∀ labels : List MarkerLabel, Machine.EachStep step Conserves {} labels := by
  intro h
  have hrun : (Machine.run step {} (List.replicate 31 (.mark .null))).map
      (fun t ↦ t.diagnostics.markers.length) = some 31 := by
    decide +kernel
  obtain ⟨t, ht, hlength⟩ := Option.map_eq_some_iff.mp hrun
  have hbounded : t.AtMost kMaxDiagnosticsMarkers :=
    Machine.run_induct (fun _ hok hstep ↦ (hok _ hstep).bounded)
      (show AtMost kMaxDiagnosticsMarkers {} from ⟨Nat.zero_le _, by simp⟩) (h _) ht
  exact absurd hbounded.1 (by rw [hlength]; decide)

end MarkerRun

end Statsig
