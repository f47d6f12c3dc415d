import Statsig.Acceptance
import Statsig.Lib.CappedList
import Statsig.Lib.Resending

/-!
# Batches that are sent again

A batch over several sessions: a flush hands it to `NetworkService::SendEvents`, a failure puts it
into the failed-events file, and the retry task of a later session takes it out and hands it over
again.  Batches of flushes, the retry task and the writes of the file interleave in any order, the
logger lives, and no step reads the file while a write of it is outstanding.

`SaveFailedEvents` reads the file, and queues its write later.  `Redelivery.step` takes the two
together, for histories in which whatever reads the file finds every save before it done: there
nothing can tell when in between the write was queued.  `SplitRedelivery` takes them apart.
-/

set_option autoImplicit false

namespace Statsig

open EventLogger FailedEvents NetworkService

/-! ## The machine -/

/-- What the retry task does next.  A payload that it has read has the number of its batch, and of
the attempt that comes next. -/
inductive RetryTask where
  | idle
  | deleting (failures : List (ℕ × RetryableEventPayload))
  | sending (failures : List (ℕ × RetryableEventPayload))
  /-- It waits for the response to the first. -/
  | posted (failure : ℕ × RetryableEventPayload) (failures : List (ℕ × RetryableEventPayload))
  deriving DecidableEq, Repr

/-- The payloads that it has read and not done with. -/
def RetryTask.failures : RetryTask → List (ℕ × RetryableEventPayload)
  | .idle => []
  | .deleting failures => failures
  | .sending failures => failures
  | .posted failure failures => failure :: failures

/-- It deletes the file next. -/
def RetryTask.deletes : RetryTask → Bool
  | .deleting _ => true
  | .idle | .sending _ | .posted _ _ => false

/-- A save that has read the file: what it is going to write, and the numbers of the payloads in
that. -/
structure PendingSave where
  text : Str
  kept : List ℕ
  deriving DecidableEq, Repr

/-- The failed-events file, and what is under way. -/
structure Redelivery where
  file : AsyncFile UInt8 := {}
  retry : RetryTask := .idle
  /-- The batches of flushes that wait for a response. -/
  flights : List (ℕ × List StatsigEventInternal) := []
  /-- A record of the batches that were flushed; their places are their numbers. -/
  batches : List (List StatsigEventInternal) := []
  /-- A record of what was handed to `SendEvents`, by number. -/
  handed : List ℕ := []
  /-- A record of what has failed. -/
  failed : List ℕ := []
  /-- The numbers of the payloads in the content that the file is going to have. -/
  kept : List ℕ := []
  deriving DecidableEq, Repr

inductive RedeliveryLabel where
  | flush (events : List StatsigEventInternal)
  /-- The response to the `i`-th batch that waits for one. -/
  | answer (i : ℕ) (response : HttpResponse)
  /-- `RetryFailedEvents`, as far as its read of the file. -/
  | startRetry
  /-- The next step of its task; the response matters if it waits for one. -/
  | retry (response : HttpResponse)
  /-- The network is gone when the task wants to send. -/
  | stopRetry
  | fileTask (task : AsyncFile.Task)
  /-- The process ends, and another one begins. -/
  | restart
  deriving DecidableEq, Repr

/-- The payloads that a save is going to put into the file, with their numbers. -/
def PendingSave.filed (lib : JsonText) (pending : PendingSave) :
    List (ℕ × RetryableEventPayload) :=
  pending.kept.zip (readFailures lib (some pending.text))

/-- The numbers are those of the payloads. -/
def PendingSave.Recorded (lib : JsonText) (pending : PendingSave) : Prop :=
  pending.kept.length = (readFailures lib (some pending.text)).length

namespace Redelivery

variable (lib : JsonText)

/-- What the retry task hands over. -/
def resent (content : Option Str) : List RetryableEventPayload :=
  (retryFailedEvents lib content).filterMap fun
    | .deleteFile => none
    | .sendEvents events attempt => some ⟨attempt, events⟩

/-- `SaveFailedEvents`, as far as the text that it is going to write.  It waits until no write of
the file is outstanding. -/
def readSave (s : Redelivery) (batch : ℕ) (failure : RetryableEventPayload) : Option PendingSave :=
  if s.file.Idle then
    (saveFailedEvents lib s.file.content failure.events failure.attempts).map fun text ↦
      ⟨text, CappedList.push constants.kMaxCachedFailedEventPayloadsCount batch s.kept⟩
  else none

/-- The rest of it. -/
def queueSave (s : Redelivery) (pending : PendingSave) : Redelivery :=
  { s with file := s.file.queue pending.text, kept := pending.kept }

/-- `SaveFailedEvents` -/
def save (s : Redelivery) (batch : ℕ) (failure : RetryableEventPayload) : Option Redelivery :=
  (readSave lib s batch failure).map s.queueSave

/-- The final response to a batch goes through its callback. -/
def answered (s : Redelivery) (batch : ℕ) (origin : Origin) (events : List StatsigEventInternal)
    (response : HttpResponse) : Option Redelivery :=
  let s := if hasSuccessCode response then s else { s with failed := s.failed ++ [batch] }
  match onResult origin (onLogEventResponse response) with
  | none => some s
  | some attempt => save lib s batch ⟨attempt, events⟩

/-- The retry task reads the file. -/
def startRetry (s : Redelivery) : Option Redelivery :=
  if s.retry = .idle ∧ s.file.Idle then
    match s.file.content with
    | none => some s
    | some text => some { s with retry := .deleting (s.kept.zip (resent lib (some text))) }
  else none

/-- The next step of the retry task. -/
def stepRetry (s : Redelivery) (response : HttpResponse) : Option Redelivery :=
  match s.retry with
  | .idle => none
  | .deleting failures => some { s with
      file := s.file.delete
      kept := if s.file.queued = [] then [] else s.kept
      retry := .sending failures }
  | .sending [] => some { s with retry := .idle }
  | .sending (failure :: failures) => some { s with
      handed := s.handed ++ [failure.1]
      retry := .posted failure failures }
  | .posted failure failures =>
    answered lib { s with retry := .sending failures } failure.1 (.file failure.2.attempts)
      failure.2.events response

def step (s : Redelivery) : RedeliveryLabel → Option Redelivery
  | .flush events => some { s with
      batches := s.batches ++ [events]
      handed := s.handed ++ [s.batches.length]
      flights := s.flights ++ [(s.batches.length, events)] }
  | .answer i response => (s.flights[i]?).bind fun flight ↦
      answered lib { s with flights := s.flights.eraseIdx i } flight.1 .flush flight.2 response
  | .startRetry => startRetry lib s
  | .retry response => stepRetry lib s response
  | .stopRetry =>
    match s.retry with
    | .sending _ => some { s with retry := .idle }
    | _ => none
  | .fileTask task => (s.file.runTask task).map fun file ↦ { s with file }
  | .restart => if s.file.Idle then some { s with retry := .idle, flights := [] } else none

/-- The batch that a step saves. -/
def saved (s : Redelivery) : RedeliveryLabel → Option ℕ
  | .answer i response => (s.flights[i]?).bind fun flight ↦
      (onResult .flush (onLogEventResponse response)).map fun _ ↦ flight.1
  | .retry response =>
    match s.retry with
    | .posted failure _ =>
      (onResult (.file failure.2.attempts) (onLogEventResponse response)).map fun _ ↦ failure.1
    | .idle | .deleting _ | .sending _ => none
  | _ => none

/-! ## What a step can do -/

/-- The payloads that the file is going to have, with their numbers. -/
def filed (s : Redelivery) : List (ℕ × RetryableEventPayload) :=
  s.kept.zip (readFailures lib s.file.final)

/-- The record of the file agrees with it. -/
structure Recorded (s : Redelivery) : Prop where
  exclusive : s.file.Exclusive
  length : s.kept.length = (readFailures lib s.file.final).length

variable {lib}

/-- The retry task counts an attempt more than the file. -/
theorem resent_eq (content : Option Str) :
    resent lib content = (readFailures lib content).map fun failure ↦
      { failure with attempts := failure.attempts + 1 } := by
  cases content with
  | none => rfl
  | some text => simp [resent, retryFailedEvents, readFailures, List.filterMap_map]

theorem resent_zip (s : Redelivery) (hidle : s.file.Idle) :
    s.kept.zip (resent lib s.file.content) = (s.filed lib).map fun x ↦
      (x.1, { x.2 with attempts := x.2.attempts + 1 }) := by
  rw [resent_eq, List.zip_map_right, filed, hidle.final_eq]
  rfl

theorem insertFailure_eq_push (failure : RetryableEventPayload)
    (failures : List RetryableEventPayload) :
    insertFailure failure failures =
      CappedList.push constants.kMaxCachedFailedEventPayloadsCount failure failures := rfl

theorem readSave_cases {s : Redelivery} {batch : ℕ} {failure : RetryableEventPayload}
    {pending : PendingSave} (h : readSave lib s batch failure = some pending) :
    s.file.Idle ∧
      saveFailedEvents lib s.file.content failure.events failure.attempts = some pending.text ∧
      pending.kept = CappedList.push constants.kMaxCachedFailedEventPayloadsCount batch s.kept := by
  rw [readSave] at h
  split at h
  · obtain ⟨text, htext, rfl⟩ := Option.map_eq_some_iff.mp h
    exact ⟨‹_›, htext, rfl⟩
  · exact absurd h (by simp)

theorem save_cases {s t : Redelivery} {batch : ℕ} {failure : RetryableEventPayload}
    (h : save lib s batch failure = some t) :
    s.file.Idle ∧ ∃ text,
      saveFailedEvents lib s.file.content failure.events failure.attempts = some text ∧
      t = { s with
        file := s.file.queue text
        kept := CappedList.push constants.kMaxCachedFailedEventPayloadsCount batch s.kept } := by
  obtain ⟨pending, hpending, rfl⟩ := Option.map_eq_some_iff.mp h
  obtain ⟨hidle, htext, hkept⟩ := readSave_cases hpending
  exact ⟨hidle, pending.text, htext, by rw [queueSave, hkept]⟩

/-- **A save reads** what the file has, and is going to write it with one payload more. -/
theorem filed_readSave {s : Redelivery} {batch : ℕ} {failure : RetryableEventPayload}
    {pending : PendingSave} (hs : s.Recorded lib)
    (h : readSave lib s batch failure = some pending) :
    pending.Recorded lib ∧ pending.filed lib =
      (CappedList.push constants.kMaxCachedFailedEventPayloadsCount (batch, failure)
        (s.filed lib)).map (Prod.map id RetryableEventPayload.canon) := by
  obtain ⟨hidle, htext, hkept⟩ := readSave_cases h
  have hread : readFailures lib (some pending.text) =
      (CappedList.push constants.kMaxCachedFailedEventPayloadsCount failure
        (readFailures lib s.file.final)).map RetryableEventPayload.canon := by
    rw [readFailures_saveFailedEvents htext, hidle.final_eq, insertFailure_eq_push]
  refine ⟨?_, ?_⟩
  · rw [PendingSave.Recorded, hread, hkept, List.length_map, CappedList.length_push,
      CappedList.length_push, hs.length]
  · rw [PendingSave.filed, hread, hkept, List.zip_map_right, CappedList.zip_push hs.length]
    rfl

/-- **A save queues its write.** -/
theorem filed_queueSave {s : Redelivery} {pending : PendingSave} (hidle : s.file.Idle)
    (hpending : pending.Recorded lib) :
    (s.queueSave pending).Recorded lib ∧
      (s.queueSave pending).filed lib = pending.filed lib := by
  obtain ⟨hexcl, hfinal⟩ := hidle.queue pending.text
  have hfinal : (s.queueSave pending).file.final = some pending.text := hfinal
  refine ⟨⟨hexcl, by rw [hfinal]; exact hpending⟩, ?_⟩
  rw [filed, hfinal]
  rfl

/-- **A response**: the batch has arrived, has failed for good, or is saved. -/
theorem answered_cases {s t : Redelivery} {batch : ℕ} {origin : Origin}
    {events : List StatsigEventInternal} {response : HttpResponse}
    (h : answered lib s batch origin events response = some t) :
    (onResult origin (onLogEventResponse response) = none ∧
      (t = s ∨ origin.saves = false ∧ t = { s with failed := s.failed ++ [batch] })) ∨
    (onResult origin (onLogEventResponse response) = some origin.attempt ∧ origin.saves = true ∧
      save lib { s with failed := s.failed ++ [batch] } batch ⟨origin.attempt, events⟩ =
        some t) := by
  rw [answered] at h
  simp only [onResult_eq, onLogEventResponse_eq, isSome_sendEventsResult] at h ⊢
  cases hsuccess : hasSuccessCode response with
  | true =>
    simp only [hsuccess, if_true, Bool.not_true, Bool.false_and, Bool.false_eq_true, if_false] at h
    exact .inl ⟨rfl, .inl (Option.some_inj.mp h).symm⟩
  | false =>
    simp only [hsuccess, Bool.false_eq_true, if_false, Bool.not_false, Bool.true_and] at h
    cases hsaves : origin.saves with
    | true =>
      simp only [hsaves, if_true] at h
      exact .inr ⟨rfl, rfl, h⟩
    | false =>
      simp only [hsaves, Bool.false_eq_true, if_false] at h
      exact .inl ⟨rfl, .inr ⟨rfl, (Option.some_inj.mp h).symm⟩⟩

theorem startRetry_cases {s t : Redelivery} (h : startRetry lib s = some t) :
    s.retry = .idle ∧ s.file.Idle ∧
      (t = s ∨ t = { s with retry := .deleting ((s.filed lib).map fun x ↦
        (x.1, { x.2 with attempts := x.2.attempts + 1 })) }) := by
  rw [startRetry] at h
  split at h
  · rename_i hstart
    refine ⟨hstart.1, hstart.2, ?_⟩
    cases hcontent : s.file.content with
    | none =>
      rw [hcontent] at h
      exact .inl (Option.some_inj.mp h).symm
    | some text =>
      simp only [hcontent] at h
      rw [← resent_zip s hstart.2, hcontent]
      exact .inr (Option.some_inj.mp h).symm
  · exact absurd h (by simp)

/-- **The steps of the retry task**: it deletes the file, ends, hands the next payload over, or gets
its response. -/
theorem stepRetry_cases {s t : Redelivery} {response : HttpResponse}
    (h : stepRetry lib s response = some t) :
    (∃ failures, s.retry = .deleting failures ∧ t = { s with
      file := s.file.delete
      kept := if s.file.queued = [] then [] else s.kept
      retry := .sending failures }) ∨
    (s.retry = .sending [] ∧ t = { s with retry := .idle }) ∨
    (∃ failure failures, s.retry = .sending (failure :: failures) ∧ t = { s with
      handed := s.handed ++ [failure.1]
      retry := .posted failure failures }) ∨
    (∃ failure failures, s.retry = .posted failure failures ∧
      answered lib { s with retry := .sending failures } failure.1 (.file failure.2.attempts)
        failure.2.events response = some t) := by
  cases hretry : s.retry with
  | idle =>
    simp only [stepRetry, hretry] at h
    exact absurd h (by simp)
  | deleting failures =>
    simp only [stepRetry, hretry] at h
    exact .inl ⟨failures, rfl, (Option.some_inj.mp h).symm⟩
  | sending failures =>
    cases failures with
    | nil =>
      simp only [stepRetry, hretry] at h
      exact .inr (.inl ⟨rfl, (Option.some_inj.mp h).symm⟩)
    | cons failure failures =>
      simp only [stepRetry, hretry] at h
      exact .inr (.inr (.inl ⟨failure, failures, rfl, (Option.some_inj.mp h).symm⟩))
  | posted failure failures =>
    simp only [stepRetry, hretry] at h
    exact .inr (.inr (.inr ⟨failure, failures, rfl, h⟩))

theorem stopRetry_cases {s t : Redelivery} (h : step lib s .stopRetry = some t) :
    ∃ failures, s.retry = .sending failures ∧ t = { s with retry := .idle } := by
  cases hretry : s.retry with
  | sending failures =>
    simp only [step, hretry] at h
    exact ⟨failures, rfl, (Option.some_inj.mp h).symm⟩
  | idle | deleting failures | posted failure failures =>
    simp only [step, hretry] at h
    exact absurd h (by simp)

theorem restart_cases {s t : Redelivery} (h : step lib s .restart = some t) :
    s.file.Idle ∧ t = { s with retry := .idle, flights := [] } := by
  simp only [step] at h
  split at h
  · exact ⟨‹_›, (Option.some_inj.mp h).symm⟩
  · exact absurd h (by simp)

/-- A step of a write does not change what the file is going to have. -/
theorem filed_runTask {s t : Redelivery} {task : AsyncFile.Task} (hs : s.Recorded lib)
    (h : step lib s (.fileTask task) = some t) :
    t.Recorded lib ∧ t.filed lib = s.filed lib ∧ ∃ file, t = { s with file } := by
  obtain ⟨file, hfile, rfl⟩ := Option.map_eq_some_iff.mp h
  obtain ⟨hexcl, hfinal⟩ := hs.exclusive.runTask hfile
  refine ⟨⟨hexcl, hfinal ▸ hs.length⟩, ?_, file, rfl⟩
  simp only [filed, hfinal]

/-- **The retry task deletes the file**, unless a write waits that makes it anew. -/
theorem filed_delete {s : Redelivery} (hs : s.Recorded lib) (retry : RetryTask) :
    let t := { s with
      file := s.file.delete, kept := if s.file.queued = [] then [] else s.kept, retry }
    t.Recorded lib ∧ t.filed lib = if s.file.queued = [] then [] else s.filed lib := by
  obtain ⟨hexcl, hfinal⟩ := hs.exclusive.delete
  by_cases hqueued : s.file.queued = []
  · rw [if_pos hqueued] at hfinal
    simp only [if_pos hqueued]
    exact ⟨⟨hexcl, by rw [hfinal]; rfl⟩, rfl⟩
  · rw [if_neg hqueued] at hfinal
    simp only [if_neg hqueued, filed, hfinal]
    exact ⟨⟨hexcl, hfinal ▸ hs.length⟩, trivial⟩

/-! ## Where the payloads come from -/

/-- The payload has the events of its batch, as the file gives them back, and has been sent, or is
to be sent, as often as it may be. -/
structure Carries (batches : List (List StatsigEventInternal)) (first last : ℤ)
    (x : ℕ × RetryableEventPayload) : Prop where
  first_le : first ≤ x.2.attempts.toInt
  le_last : x.2.attempts.toInt ≤ last
  events : ∃ events, batches[x.1]? = some events ∧
    x.2.events = events.map StatsigEventInternal.canon

/-- Where the payloads and the batches come from. -/
structure Sound (lib : JsonText) (s : Redelivery) : Prop extends Recorded lib s where
  filed : ∀ x ∈ s.filed lib, Carries s.batches 1 3 x
  retry : ∀ x ∈ s.retry.failures, Carries s.batches 2 4 x
  flights : ∀ flight ∈ s.flights, s.batches[flight.1]? = some flight.2
  known : ∀ batch, batch ∈ s.handed ∨ batch ∈ s.failed → batch < s.batches.length

theorem Carries.mono {batches : List (List StatsigEventInternal)} {first last : ℤ}
    {x : ℕ × RetryableEventPayload} (h : Carries batches first last x)
    (events : List StatsigEventInternal) : Carries (batches ++ [events]) first last x := by
  obtain ⟨found, hfound, heq⟩ := h.events
  refine ⟨h.first_le, h.le_last, found, ?_, heq⟩
  rw [List.getElem?_append_left (List.getElem?_eq_some_iff.mp hfound).1, hfound]

theorem Carries.lt {batches : List (List StatsigEventInternal)} {first last : ℤ}
    {x : ℕ × RetryableEventPayload} (h : Carries batches first last x) : x.1 < batches.length := by
  obtain ⟨found, hfound, -⟩ := h.events
  exact (List.getElem?_eq_some_iff.mp hfound).1

theorem map_events_canon_canon (events : List StatsigEventInternal) :
    (events.map StatsigEventInternal.canon).map StatsigEventInternal.canon =
      events.map StatsigEventInternal.canon := by
  rw [List.map_map]
  exact List.map_congr_left fun event _ ↦ event.canon_canon

theorem Carries.canon {batches : List (List StatsigEventInternal)} {first last : ℤ}
    {x : ℕ × RetryableEventPayload} (h : Carries batches first last x) :
    Carries batches first last (Prod.map id RetryableEventPayload.canon x) := by
  obtain ⟨found, hfound, heq⟩ := h.events
  refine ⟨h.first_le, h.le_last, found, hfound, ?_⟩
  show x.2.events.map StatsigEventInternal.canon = _
  rw [heq, map_events_canon_canon]

theorem toInt_add_one {attempts : Int32} (hpos : 1 ≤ attempts.toInt) (hle : attempts.toInt ≤ 3) :
    (attempts + 1).toInt = attempts.toInt + 1 := by
  rw [Int32.toInt_add, show (1 : Int32).toInt = 1 from rfl]
  exact Int.bmod_eq_of_le (by omega) (by omega)

/-- The retry task hands a payload over once more. -/
theorem Carries.next {batches : List (List StatsigEventInternal)}
    {x : ℕ × RetryableEventPayload} (h : Carries batches 1 3 x) :
    Carries batches 2 4 (x.1, { x.2 with attempts := x.2.attempts + 1 }) := by
  have hnext := toInt_add_one h.first_le h.le_last
  have hpos := h.first_le
  have hle := h.le_last
  refine ⟨?_, ?_, h.events⟩
  · simp only [hnext]
    omega
  · simp only [hnext]
    omega

theorem Sound.flush {s : Redelivery} (hs : Sound lib s) (events : List StatsigEventInternal) :
    Sound lib { s with
      batches := s.batches ++ [events]
      handed := s.handed ++ [s.batches.length]
      flights := s.flights ++ [(s.batches.length, events)] } := by
  refine { hs.toRecorded with
    filed := fun x hx ↦ (hs.filed x hx).mono events
    retry := fun x hx ↦ (hs.retry x hx).mono events
    flights := fun flight hflight ↦ ?_
    known := fun batch hbatch ↦ ?_ }
  · rcases List.mem_append.mp hflight with hflight | hflight
    · have hfound := hs.flights flight hflight
      rw [List.getElem?_append_left (List.getElem?_eq_some_iff.mp hfound).1, hfound]
    · obtain rfl := List.mem_singleton.mp hflight
      exact List.getElem?_concat_length
  · rw [List.length_append, List.length_singleton]
    rcases hbatch with hbatch | hbatch
    · rcases List.mem_append.mp hbatch with hbatch | hbatch
      · exact Nat.lt_succ_of_lt (hs.known batch (.inl hbatch))
      · rw [List.mem_singleton.mp hbatch]
        exact Nat.lt_succ_self _
    · exact Nat.lt_succ_of_lt (hs.known batch (.inr hbatch))

theorem Sound.fail {s : Redelivery} (hs : Sound lib s) {batch : ℕ}
    (hbatch : batch < s.batches.length) :
    Sound lib { s with failed := s.failed ++ [batch] } := by
  refine { hs with known := fun other hother ↦ ?_ }
  rcases hother with hother | hother
  · exact hs.known other (.inl hother)
  · rcases List.mem_append.mp hother with hother | hother
    · exact hs.known other (.inr hother)
    · exact List.mem_singleton.mp hother ▸ hbatch

/-- **A save reads.** -/
theorem Sound.readSave {s : Redelivery} {batch : ℕ} {failure : RetryableEventPayload}
    {pending : PendingSave} (hs : Sound lib s)
    (hcarries : Carries s.batches 1 3 (Prod.map id RetryableEventPayload.canon (batch, failure)))
    (h : Redelivery.readSave lib s batch failure = some pending) :
    ∀ x ∈ pending.filed lib, Carries s.batches 1 3 x := by
  intro x hx
  rw [(filed_readSave hs.toRecorded h).2] at hx
  obtain ⟨y, hy, rfl⟩ := List.mem_map.mp hx
  rcases List.mem_cons.mp (CappedList.subset_push _ _ _ hy) with rfl | hy
  · exact hcarries
  · exact (hs.filed y hy).canon

/-- **A save writes.** -/
theorem Sound.queueSave {s : Redelivery} {pending : PendingSave} (hs : Sound lib s)
    (hidle : s.file.Idle) (hrecorded : pending.Recorded lib)
    (hfiled : ∀ x ∈ pending.filed lib, Carries s.batches 1 3 x) :
    Sound lib (s.queueSave pending) := by
  obtain ⟨hrecorded, hsame⟩ := filed_queueSave hidle hrecorded
  exact { hrecorded with
    filed := hsame ▸ hfiled, retry := hs.retry, flights := hs.flights, known := hs.known }

/-- **One save.** -/
theorem Sound.save {s t : Redelivery} {batch : ℕ} {failure : RetryableEventPayload}
    (hs : Sound lib s)
    (hcarries : Carries s.batches 1 3 (Prod.map id RetryableEventPayload.canon (batch, failure)))
    (h : Redelivery.save lib s batch failure = some t) : Sound lib t := by
  obtain ⟨pending, hpending, rfl⟩ := Option.map_eq_some_iff.mp h
  exact hs.queueSave (readSave_cases hpending).1 (filed_readSave hs.toRecorded hpending).1
    (hs.readSave hcarries hpending)

/-- **One response.** -/
theorem Sound.answered {s t : Redelivery} {batch : ℕ} {origin : Origin}
    {events flushed : List StatsigEventInternal} {response : HttpResponse} (hs : Sound lib s)
    (hpos : 1 ≤ origin.attempt.toInt) (hflushed : s.batches[batch]? = some flushed)
    (hevents : events.map StatsigEventInternal.canon = flushed.map StatsigEventInternal.canon)
    (h : Redelivery.answered lib s batch origin events response = some t) : Sound lib t := by
  have hfail := hs.fail (List.getElem?_eq_some_iff.mp hflushed).1
  rcases answered_cases h with ⟨-, rfl | ⟨-, rfl⟩⟩ | ⟨-, hsaves, hsave⟩
  · exact hs
  · exact hfail
  · have hle : origin.attempt.toInt ≤ 3 := by
      cases origin with
      | flush => decide
      | file attempt => exact Int32.le_iff_toInt_le.mp (of_decide_eq_true hsaves)
    have hcarries : Carries s.batches 1 3
        (batch, ⟨origin.attempt, events.map StatsigEventInternal.canon⟩) :=
      ⟨hpos, hle, flushed, hflushed, hevents⟩
    refine hfail.save ?_ hsave
    exact hcarries

theorem Sound.eraseFlight {s : Redelivery} (hs : Sound lib s) (i : ℕ) :
    Sound lib { s with flights := s.flights.eraseIdx i } :=
  { hs with flights := Slots.forall_mem_eraseIdx hs.flights }

theorem Sound.unpost {s : Redelivery} {failure : ℕ × RetryableEventPayload}
    {failures : List (ℕ × RetryableEventPayload)} (hs : Sound lib s)
    (hretry : s.retry = .posted failure failures) :
    Sound lib { s with retry := .sending failures } :=
  { hs with retry := fun x hx ↦ hs.retry x (by rw [hretry]; exact List.mem_cons_of_mem _ hx) }

theorem Sound.startRetry {s t : Redelivery} (hs : Sound lib s)
    (h : Redelivery.startRetry lib s = some t) : Sound lib t := by
  obtain ⟨-, hidle, rfl | rfl⟩ := startRetry_cases h
  · exact hs
  · refine { hs with retry := fun x hx ↦ ?_ }
    obtain ⟨y, hy, rfl⟩ := List.mem_map.mp hx
    exact (hs.filed y hy).next

/-- **One step of the retry task.** -/
theorem Sound.stepRetry {s t : Redelivery} {response : HttpResponse} (hs : Sound lib s)
    (h : Redelivery.stepRetry lib s response = some t) : Sound lib t := by
  rcases stepRetry_cases h with ⟨failures, hretry, rfl⟩ | ⟨-, rfl⟩ |
    ⟨failure, failures, hretry, rfl⟩ | ⟨failure, failures, hretry, h⟩
  · obtain ⟨hrecorded, hfiled⟩ := filed_delete hs.toRecorded (.sending failures)
    refine { hrecorded with
      filed := fun x hx ↦ ?_
      retry := fun x hx ↦ hs.retry x (by rw [hretry]; exact hx)
      flights := hs.flights
      known := hs.known }
    rw [hfiled] at hx
    split at hx
    · exact absurd hx (by simp)
    · exact hs.filed x hx
  · exact { hs with retry := fun x hx ↦ absurd hx (by simp [RetryTask.failures]) }
  · have hcarries := hs.retry failure (by rw [hretry]; exact List.mem_cons_self)
    refine { hs with
      retry := fun x hx ↦ hs.retry x (by rw [hretry]; exact hx)
      known := fun batch hbatch ↦ ?_ }
    rcases hbatch with hbatch | hbatch
    · rcases List.mem_append.mp hbatch with hbatch | hbatch
      · exact hs.known batch (.inl hbatch)
      · rw [List.mem_singleton.mp hbatch]
        exact hcarries.lt
    · exact hs.known batch (.inr hbatch)
  · have hcarries := hs.retry failure (by rw [hretry]; exact List.mem_cons_self)
    obtain ⟨flushed, hflushed, hevents⟩ := hcarries.events
    refine (hs.unpost hretry).answered (le_trans (by decide) hcarries.first_le) hflushed ?_ h
    rw [hevents, map_events_canon_canon]

theorem sound_step {s t : Redelivery} {a : RedeliveryLabel} (hs : Sound lib s)
    (h : step lib s a = some t) : Sound lib t := by
  cases a with
  | flush events =>
    obtain rfl := Option.some_inj.mp h
    exact hs.flush events
  | answer i response =>
    obtain ⟨flight, hflight, h⟩ := Option.bind_eq_some_iff.mp h
    have hflushed := hs.flights flight (List.mem_of_getElem? hflight)
    exact (hs.eraseFlight i).answered (by decide) hflushed rfl h
  | startRetry => exact hs.startRetry h
  | retry response => exact hs.stepRetry h
  | stopRetry =>
    obtain ⟨failures, -, rfl⟩ := stopRetry_cases h
    exact { hs with retry := fun x hx ↦ absurd hx (by simp [RetryTask.failures]) }
  | fileTask task =>
    obtain ⟨hrecorded, hfiled, file, rfl⟩ := filed_runTask hs.toRecorded h
    exact { hrecorded with
      filed := fun x hx ↦ hs.filed x (hfiled ▸ hx)
      retry := hs.retry, flights := hs.flights, known := hs.known }
  | restart =>
    obtain ⟨-, rfl⟩ := restart_cases h
    exact { hs with
      retry := fun x hx ↦ absurd hx (by simp [RetryTask.failures])
      flights := fun flight hflight ↦ absurd hflight (by simp) }

theorem sound_init : Sound lib {} where
  exclusive := .idle none
  length := rfl
  filed := fun x hx ↦ absurd hx (by simp [filed])
  retry := fun x hx ↦ absurd hx (by simp [RetryTask.failures])
  flights := fun flight hflight ↦ absurd hflight (by simp)
  known := fun batch hbatch ↦ absurd hbatch (by simp)

/-! ### Files with one batch -/

open retryableEventPayload (plainPayload toJsonArray)

/-- A file in which all payloads have the same events, and its text. -/
def failuresOf (attempts : List ℕ) : List RetryableEventPayload :=
  attempts.map fun n ↦ ⟨.ofNat n, plainPayload.events⟩

def textOf (attempts : List ℕ) : Str :=
  str "[" ++ List.intercalate (str ",") (attempts.map fun n ↦
    str "\x7b\"attempts\":" ++ [48 + .ofNat n] ++
      str (",\"events\":[\x7b\"eventName\":\"my_event\",\"time\":123," ++
        "\"user\":\x7b\"userID\":\"a-user\"\x7d,\"value\":\"a_string\"\x7d]\x7d")) ++ str "]"

/-- A library that writes these files so. -/
noncomputable def failureTexts : JsonText :=
  .ofTable ([[1], [1, 1], [2, 1, 1], [2], [2, 2]].map fun attempts ↦
    (toJsonArray (failuresOf attempts), textOf attempts)) (by decide +kernel)

/-- A server that is down, and one that is not. -/
def unavailable : HttpResponse := { status := 503 }

def accepted : HttpResponse := { status := 202 }

/-- The outstanding write of the file. -/
def written : List RedeliveryLabel := [.fileTask (.openFile 0), .fileTask (.finish 0)]

/-- A batch fails, and fails again in the next session. -/
def failsTwice : List RedeliveryLabel :=
  [.flush plainPayload.events, .answer 0 unavailable] ++ written ++
    [.restart, .startRetry, .retry {}, .retry {}, .retry unavailable]

end Redelivery

end Statsig
