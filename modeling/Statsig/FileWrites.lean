import Statsig.Identity
import Statsig.Lib.FileStream

/-!
# Writing a file that others read

`WriteStringToFile` opens an output stream on the path, puts the content and closes the stream; then
it calls back with `true`.  `ReadStringToFile` looks whether there is a file, opens an input stream
and collects what it finds.  Nothing keeps the two apart, and neither asks its stream whether it has
failed.

`atomic_of_run` says when a read returns the old content or the new one all the same, and that the
callback tells the truth exactly when nothing fails.
-/

set_option autoImplicit false

namespace Statsig

open FileStream

/-! ## Who writes files, and who reads them -/

/-- What a callback that got `success` reports. -/
def reportUnless (failure : StatsigResultCode) (success : Bool) : Option StatsigResultCode :=
  if success then none else some failure

/-- The callback of `StableID::Get`: the code for `HandleBadResult`. -/
def StableID.onWritten : Bool → Option StatsigResultCode := reportUnless .fileFailureStableID

/-- The callback of `SaveFailedEvents`: the code for `HandleBadResult`. -/
def EventLogger.onWritten : Bool → Option StatsigResultCode :=
  reportUnless .fileFailureRetryableEventPayload

/-- The callback of `WriteToCacheFile`, which hands on a code in any case. -/
def DataAdapter.onWritten (success : Bool) : StatsigResultCode :=
  if success then .ok else .fileFailureDataAdapterResult

/-- `StableID::Get` without an id in the member: the id that it takes, given what it has read and
what `UUID::v4` draws, and the content that it has written. -/
def StableID.get (cached : Option Str) (uuid : Str) : Str × Option Str :=
  match cached with
  | some stored => (stored, none)
  | none => (uuid, some uuid)

/-- The service without an id asks like this. -/
theorem getStableId_eq (uuid : ℕ → Str) (s : IdentityRun) (owner : ServiceOwner)
    (h : (s.ids owner).stableId = none) :
    (s.getStableId uuid owner).1 = (StableID.get s.file.content (uuid s.drawn)).1 := by
  rw [IdentityRun.getStableId, h]
  cases hcontent : s.file.content with
  | none => rfl
  | some id => rfl

/-! ## The machine -/

/-- How far the task of `WriteStringToFile` is. -/
inductive WritePhase where
  | queued
  | streaming
  | closed
  | calledBack
  deriving DecidableEq, Repr

/-- A file, the write of a new content, and the reads. -/
structure FileWrite where
  content : Str
  file : Option Str
  phase : WritePhase := .queued
  stream : OutStream := {}
  /-- The argument of the callback. -/
  success : Option Bool := none
  /-- What the reads in progress have collected. -/
  reads : List Str := []
  /-- What `ReadStringToFile` has returned. -/
  returned : List (Option Str) := []
  deriving DecidableEq, Repr

/-- One step of the task, or of a read. -/
inductive FileWriteLabel where
  /-- `std::ofstream file(path)` -/
  | openFile (ok : Bool)
  /-- `file << content`, or the flush in `file.close()`, gets some bytes into the file. -/
  | put (n : ℕ)
  /-- It does not. -/
  | putFails
  /-- `file.close()` -/
  | close (ok : Bool)
  /-- `callback(true)` -/
  | callback
  /-- `fs::exists(path)`, and `std::ifstream file(path)` if it does. -/
  | look
  /-- There is a file, but the stream does not open. -/
  | lookFails
  | fetch (i : ℕ) (n : ℕ)
  | finish (i : ℕ)
  deriving DecidableEq, Repr

namespace FileWrite

/-- A write is queued for a file with this content. -/
def init (old : Option Str) (content : Str) : FileWrite := { content, file := old }

/-- One step. -/
def step (s : FileWrite) : FileWriteLabel → Option FileWrite
  | .openFile ok =>
    if s.phase = .queued then
      let (file, stream) := OutStream.openFile s.file ok
      some { s with file, stream, phase := .streaming }
    else none
  | .put n =>
    if s.phase = .streaming then
      let (file, stream) := s.stream.put s.content s.file n
      some { s with file, stream }
    else none
  | .putFails =>
    if s.phase = .streaming then some { s with stream := s.stream.fail } else none
  | .close ok =>
    if s.phase = .streaming then
      let (file, stream) := s.stream.close s.content s.file ok
      some { s with file, stream, phase := .closed }
    else none
  | .callback =>
    if s.phase = .closed then some { s with phase := .calledBack, success := some true } else none
  | .look =>
    match s.file with
    | none => some { s with returned := s.returned ++ [none] }
    | some _ => some { s with reads := s.reads ++ [[]] }
  | .lookFails => s.file.map fun _ ↦ { s with returned := s.returned ++ [some []] }
  | .fetch i n => (s.reads[i]?).map fun got ↦ { s with reads := s.reads.set i (fetch got s.file n) }
  | .finish i => (s.reads[i]?).bind fun got ↦
    if AtEnd got s.file then
      some { s with reads := s.reads.eraseIdx i, returned := s.returned ++ [some got] }
    else none

/-- What a step does where it is enabled. -/
inductive Stepped (s : FileWrite) : FileWriteLabel → FileWrite → Prop
  | openFile (ok : Bool) (hphase : s.phase = .queued) : Stepped s (.openFile ok)
      { s with
        file := (OutStream.openFile s.file ok).1
        stream := (OutStream.openFile s.file ok).2
        phase := .streaming }
  | put (n : ℕ) (hphase : s.phase = .streaming) : Stepped s (.put n)
      { s with
        file := (s.stream.put s.content s.file n).1
        stream := (s.stream.put s.content s.file n).2 }
  | putFails (hphase : s.phase = .streaming) :
      Stepped s .putFails { s with stream := s.stream.fail }
  | close (ok : Bool) (hphase : s.phase = .streaming) : Stepped s (.close ok)
      { s with
        file := (s.stream.close s.content s.file ok).1
        stream := (s.stream.close s.content s.file ok).2
        phase := .closed }
  | callback (hphase : s.phase = .closed) :
      Stepped s .callback { s with phase := .calledBack, success := some true }
  | absent (hfile : s.file = none) : Stepped s .look { s with returned := s.returned ++ [none] }
  | look {bytes : Str} (hfile : s.file = some bytes) :
      Stepped s .look { s with reads := s.reads ++ [[]] }
  | lookFails : Stepped s .lookFails { s with returned := s.returned ++ [some []] }
  | fetch (i n : ℕ) {got : Str} (hgot : s.reads[i]? = some got) :
      Stepped s (.fetch i n) { s with reads := s.reads.set i (fetch got s.file n) }
  | finish (i : ℕ) {got : Str} (hgot : s.reads[i]? = some got) (hend : AtEnd got s.file) :
      Stepped s (.finish i)
        { s with reads := s.reads.eraseIdx i, returned := s.returned ++ [some got] }

theorem stepped_of_step {s t : FileWrite} {a : FileWriteLabel} (h : step s a = some t) :
    Stepped s a t := by
  cases a with
  | openFile ok =>
    obtain ⟨hphase, ht⟩ := Option.ite_none_right_eq_some.mp h
    exact Option.some_inj.mp ht ▸ .openFile ok hphase
  | put n =>
    obtain ⟨hphase, ht⟩ := Option.ite_none_right_eq_some.mp h
    exact Option.some_inj.mp ht ▸ .put n hphase
  | putFails =>
    obtain ⟨hphase, ht⟩ := Option.ite_none_right_eq_some.mp h
    exact Option.some_inj.mp ht ▸ .putFails hphase
  | close ok =>
    obtain ⟨hphase, ht⟩ := Option.ite_none_right_eq_some.mp h
    exact Option.some_inj.mp ht ▸ .close ok hphase
  | callback =>
    obtain ⟨hphase, ht⟩ := Option.ite_none_right_eq_some.mp h
    exact Option.some_inj.mp ht ▸ .callback hphase
  | look =>
    simp only [step] at h
    split at h
    · rename_i hfile
      exact Option.some_inj.mp h ▸ .absent hfile
    · rename_i hfile
      exact Option.some_inj.mp h ▸ .look hfile
  | lookFails =>
    obtain ⟨_, -, rfl⟩ := Option.map_eq_some_iff.mp h
    exact .lookFails
  | fetch i n =>
    obtain ⟨got, hgot, rfl⟩ := Option.map_eq_some_iff.mp h
    exact .fetch i n hgot
  | finish i =>
    obtain ⟨got, hgot, h⟩ := Option.bind_eq_some_iff.mp h
    obtain ⟨hend, ht⟩ := Option.ite_none_right_eq_some.mp h
    exact Option.some_inj.mp ht ▸ .finish i hgot hend

/-! ## The property and what it takes -/

/-- What has been read is the old content or the new one, and so is an id that was adopted.  No id
is empty unless a whole content was: the code adopts whatever a file has. -/
structure ReadsWhole (old : Option Str) (s : FileWrite) : Prop where
  read : ∀ read ∈ s.returned, read = old ∨ read = some s.content
  adopted : ∀ read ∈ s.returned, ∀ uuid, (StableID.get read uuid).1 = uuid ∨
    some (StableID.get read uuid).1 = old ∨ (StableID.get read uuid).1 = s.content
  nonempty : old ≠ some [] → s.content ≠ [] → ∀ read ∈ s.returned, ∀ uuid, uuid ≠ [] →
    (StableID.get read uuid).1 ≠ []

/-- The callback gets `true` only if the file has the new content, and if something has failed the
writers report it. -/
structure ReportsTruly (s : FileWrite) : Prop where
  success : s.success = some true → s.file = some s.content
  failure : ∀ success, s.success = some success → s.stream.failed = true →
    StableID.onWritten success = some .fileFailureStableID ∧
      EventLogger.onWritten success = some .fileFailureRetryableEventPayload ∧
      DataAdapter.onWritten success = .fileFailureDataAdapterResult

/-- No step of the write fails. -/
def Succeeds : FileWriteLabel → Prop
  | .openFile ok | .close ok => ok = true
  | .putFails => False
  | .put _ | .callback | .look | .lookFails | .fetch _ _ | .finish _ => True

/-- The file has been truncated, and not everything is in it yet. -/
def Incomplete (s : FileWrite) : Prop :=
  s.phase = .streaming ∧ s.stream.position < s.content.length

/-- Nothing fails, no read is in progress when the file is truncated, and none begins while it is
incomplete. -/
def Undisturbed (s : FileWrite) : FileWriteLabel → Prop
  | .openFile ok => ok = true ∧ s.reads = []
  | .look => ¬ Incomplete s
  | .close ok => ok = true
  | .putFails | .lookFails => False
  | .put _ | .callback | .fetch _ _ | .finish _ => True

/-! ## The write -/

/-- What the write has done so far, whether or not something has failed. -/
structure Stage (old : Option Str) (s : FileWrite) : Prop where
  queued : s.phase = .queued → s.file = old ∧ s.stream.failed = false
  streaming : s.phase = .streaming → s.stream.Follows s.content s.file
  closed : s.phase = .closed ∨ s.phase = .calledBack → s.stream.failed = false →
    s.file = some s.content
  success : s.success = if s.phase = .calledBack then some true else none

section Write

variable {old : Option Str} {content : Str} {s t : FileWrite} {a : FileWriteLabel}

theorem stage_init (old : Option Str) (content : Str) : Stage old (init old content) :=
  ⟨fun _ ↦ ⟨rfl, rfl⟩, fun h ↦ absurd h (by simp [init]), fun h ↦ absurd h (by simp [init]), rfl⟩

/-- The file is the old one or the new one, unless it is incomplete. -/
theorem Stage.whole (hs : Stage old s) (hfailed : s.stream.failed = false) (h : ¬ Incomplete s) :
    s.file = old ∨ s.file = some s.content := by
  cases hphase : s.phase with
  | queued => exact .inl (hs.queued hphase).1
  | streaming =>
    have hle : s.content.length ≤ s.stream.position := not_lt.mp fun hlt ↦ h ⟨hphase, hlt⟩
    right
    rw [hs.streaming hphase hfailed, List.take_of_length_le hle]
  | closed => exact .inr (hs.closed (.inl hphase) hfailed)
  | calledBack => exact .inr (hs.closed (.inr hphase) hfailed)

theorem stage_step (hs : Stage old s) (h : step s a = some t) : Stage old t := by
  cases stepped_of_step h with
  | openFile ok hphase =>
    exact ⟨nofun, fun _ ↦ OutStream.follows_openFile _ _ ok, nofun, by
      simpa [hphase] using hs.success⟩
  | put n hphase =>
    exact ⟨fun h ↦ absurd (hphase.symm.trans h) (by simp), fun _ ↦ (hs.streaming hphase).put n,
      fun h ↦ absurd h (by simp [hphase]), hs.success⟩
  | putFails hphase =>
    exact ⟨fun h ↦ absurd (hphase.symm.trans h) (by simp), fun _ ↦ OutStream.follows_fail _ _ _,
      fun h ↦ absurd h (by simp [hphase]), hs.success⟩
  | close ok hphase =>
    exact ⟨nofun, nofun, fun _ hfailed ↦ (hs.streaming hphase).close hfailed, by
      simpa [hphase] using hs.success⟩
  | callback hphase => exact ⟨nofun, nofun, fun _ ↦ hs.closed (.inl hphase), rfl⟩
  -- a read leaves the write alone
  | absent _ | look _ | lookFails | fetch _ _ _ | finish _ _ _ =>
    exact ⟨hs.queued, hs.streaming, hs.closed, hs.success⟩

/-- **One step, while nothing has failed**: it stays so exactly if the step succeeds. -/
theorem succeeds_iff (hfailed : s.stream.failed = false) (h : step s a = some t) :
    Succeeds a ↔ t.stream.failed = false := by
  cases stepped_of_step h with
  | openFile ok _ => simp [Succeeds]
  | put n _ => simp [Succeeds, hfailed]
  | putFails _ => simp [Succeeds]
  | close ok _ => simp [Succeeds, OutStream.failed_close, hfailed]
  | callback _ | absent _ | look _ | lookFails | fetch _ _ _ | finish _ _ _ =>
    exact iff_of_true trivial hfailed

/-- **Failures are not forgotten.** -/
theorem failed_of_step (hs : Stage old s) (h : step s a = some t)
    (ht : t.stream.failed = false) : s.stream.failed = false := by
  cases stepped_of_step h with
  | openFile ok hphase => exact (hs.queued hphase).2
  | put n _ => simpa using ht
  | putFails _ => exact absurd ht (by simp)
  | close ok _ =>
    rw [OutStream.failed_close, Bool.or_eq_false_iff] at ht
    exact ht.1
  | callback _ | absent _ | look _ | lookFails | fetch _ _ _ | finish _ _ _ => exact ht

/-- The failures of a whole run. -/
theorem allSteps_succeeds_iff {labels : List FileWriteLabel}
    (hrun : Machine.run step (init old content) labels = some t) :
    Machine.AllSteps step (fun _ a ↦ Succeeds a) (init old content) labels ↔
      t.stream.failed = false :=
  Machine.allSteps_iff_good (I := Stage old) (G := fun s ↦ s.stream.failed = false)
    (fun hs hfailed h ↦ ⟨stage_step hs h, succeeds_iff hfailed h⟩)
    (fun hs hfailed h ↦ ⟨stage_step hs h, fun ht ↦ hfailed (failed_of_step hs h ht)⟩)
    (stage_init old content) rfl hrun

/-- **The callback** is given `true` in any case, which is the truth if nothing has failed. -/
theorem Stage.reportsTruly_iff (hs : Stage old s) :
    ReportsTruly s ↔ s.success = none ∨ s.stream.failed = false := by
  have hsuccess := hs.success
  split at hsuccess
  · rename_i hphase
    rw [or_iff_right (by simp [hsuccess])]
    constructor
    · intro h
      by_contra hfailed
      have hreported := (h.failure true hsuccess (by simpa using hfailed)).1
      exact absurd hreported (by decide)
    · exact fun hfailed ↦ ⟨fun _ ↦ hs.closed (.inr hphase) hfailed,
        fun _ _ h ↦ absurd (hfailed.symm.trans h) (by simp)⟩
  · refine iff_of_true ⟨?_, ?_⟩ (.inl hsuccess)
    · exact fun h ↦ absurd (hsuccess.symm.trans h) (by simp)
    · exact fun _ h ↦ absurd (hsuccess.symm.trans h) (by simp)

end Write

/-! ## The reads -/

/-- What holds while nothing disturbs the reads. -/
structure Inv (old : Option Str) (s : FileWrite) : Prop extends Stage old s where
  failed : s.stream.failed = false
  reads : ∀ got ∈ s.reads, ∃ bytes, s.file = some bytes ∧ got <+: bytes
  complete : s.reads ≠ [] → ¬ Incomplete s
  returned : ∀ read ∈ s.returned, read = old ∨ read = some s.content

section Reads

variable {old : Option Str} {content : Str} {s t : FileWrite} {a : FileWriteLabel}

theorem inv_init (old : Option Str) (content : Str) : Inv old (init old content) :=
  { stage_init old content with
    failed := rfl
    reads := by simp [init]
    complete := fun h ↦ absurd rfl h
    returned := by simp [init] }

/-- While there are reads, the write does not change the file any more. -/
theorem Inv.put_eq (hs : Inv old s) (hphase : s.phase = .streaming) (hreads : s.reads ≠ [])
    (n : ℕ) : (s.stream.put s.content s.file n).1 = s.file :=
  OutStream.put_of_length_le (not_lt.mp fun hlt ↦ hs.complete hreads ⟨hphase, hlt⟩) n

theorem inv_step (hs : Inv old s) (hok : Undisturbed s a) (h : step s a = some t) : Inv old t := by
  have hstage := stage_step hs.toStage h
  cases stepped_of_step h with
  | openFile ok hphase =>
    obtain ⟨rfl, hnil⟩ := hok
    refine ⟨hstage, rfl, ?_, ?_, hs.returned⟩
    · simp [hnil]
    · exact fun h ↦ absurd hnil h
  | put n hphase =>
    refine ⟨hstage, ?_, ?_, ?_, hs.returned⟩
    · rw [OutStream.failed_put]
      exact hs.failed
    · intro got hgot
      rw [hs.put_eq hphase (List.ne_nil_of_mem hgot)]
      exact hs.reads got hgot
    · rintro hreads ⟨-, hlt⟩
      refine hs.complete hreads ⟨hphase, lt_of_le_of_lt ?_ hlt⟩
      simp [OutStream.put, hs.failed]
  | putFails _ => exact hok.elim
  | close ok hphase =>
    obtain rfl : ok = true := hok
    refine ⟨hstage, ?_, ?_, fun _ h ↦ absurd h.1 (by simp), hs.returned⟩
    · rw [OutStream.failed_close, hs.failed]
      rfl
    · intro got hgot
      rw [OutStream.close, if_pos rfl, hs.put_eq hphase (List.ne_nil_of_mem hgot)]
      exact hs.reads got hgot
  | callback hphase =>
    exact ⟨hstage, hs.failed, hs.reads, fun _ h ↦ absurd h.1 (by simp), hs.returned⟩
  | absent hfile =>
    refine ⟨hstage, hs.failed, hs.reads, hs.complete,
      Slots.forall_mem_append_singleton hs.returned ?_⟩
    rw [← hfile]
    exact hs.whole hs.failed hok
  | look hfile =>
    refine ⟨hstage, hs.failed, ?_, fun _ ↦ hok, hs.returned⟩
    exact Slots.forall_mem_append_singleton hs.reads ⟨_, hfile, List.nil_prefix⟩
  | lookFails => exact hok.elim
  | fetch i n hgot =>
    refine ⟨hstage, hs.failed, Slots.forall_mem_set hs.reads ?_, ?_, hs.returned⟩
    · obtain ⟨bytes, hfile, hpre⟩ := hs.reads _ (List.mem_of_getElem? hgot)
      exact ⟨bytes, hfile, hfile ▸ fetch_prefix hpre n⟩
    · exact fun _ ↦ hs.complete (List.ne_nil_of_mem (List.mem_of_getElem? hgot))
  | finish i hgot hend =>
    have hmem := List.mem_of_getElem? hgot
    have hcomplete := hs.complete (List.ne_nil_of_mem hmem)
    refine ⟨hstage, hs.failed, Slots.forall_mem_eraseIdx hs.reads, fun _ ↦ hcomplete,
      Slots.forall_mem_append_singleton hs.returned ?_⟩
    obtain ⟨bytes, hfile, hpre⟩ := hs.reads _ hmem
    rw [eq_of_atEnd hpre (hfile ▸ hend), ← hfile]
    exact hs.whole hs.failed hcomplete

/-- An id that is adopted is one that was read. -/
theorem Inv.adopted (hs : Inv old s) {read : Option Str} (hread : read ∈ s.returned) (uuid : Str) :
    (StableID.get read uuid).1 = uuid ∨ some (StableID.get read uuid).1 = old ∨
      (StableID.get read uuid).1 = s.content := by
  cases read with
  | none => exact .inl rfl
  | some stored =>
    right
    exact (hs.returned _ hread).imp id Option.some_inj.mp

theorem Inv.readsWhole (hs : Inv old s) : ReadsWhole old s where
  read := hs.returned
  adopted _ hread uuid := hs.adopted hread uuid
  nonempty := by
    intro hold hcontent read hread uuid huuid hempty
    rcases hempty ▸ hs.adopted hread uuid with h | h | h
    · exact huuid h.symm
    · exact hold h.symm
    · exact hcontent h.symm

end Reads

/-! ## Whole runs -/

/-- **When a file is written as a whole**, for those who read it and for those who had it written:
in a run in which nothing fails, no read is in progress when the file is truncated, and none begins
before everything is in it.  The callback tells the truth exactly if no step of the write has
failed. -/
theorem atomic_of_run {old : Option Str} {content : Str} {labels : List FileWriteLabel}
    {t : FileWrite} (hrun : Machine.run step (init old content) labels = some t) :
    (Machine.AllSteps step Undisturbed (init old content) labels →
        ReadsWhole old t ∧ ReportsTruly t) ∧
      (ReportsTruly t ↔ t.success = none ∨
        Machine.AllSteps step (fun _ a ↦ Succeeds a) (init old content) labels) := by
  have hstage : Stage old t := Machine.invariant_of_run stage_step (stage_init old content) hrun
  rw [hstage.reportsTruly_iff, allSteps_succeeds_iff hrun]
  refine ⟨fun hok ↦ ?_, Iff.rfl⟩
  have ht : Inv old t := Machine.run_induct inv_step (inv_init old content) hok hrun
  exact ⟨ht.readsWhole, .inr ht.failed⟩

instance (s : FileWrite) : Decidable (Incomplete s) := inferInstanceAs (Decidable (_ ∧ _))

instance (s : FileWrite) : DecidablePred (Undisturbed s)
  | .openFile ok => inferInstanceAs (Decidable (ok = true ∧ s.reads = []))
  | .look => inferInstanceAs (Decidable (¬ Incomplete s))
  | .close ok => inferInstanceAs (Decidable (ok = true))
  | .putFails | .lookFails => .isFalse id
  | .put _ | .callback | .fetch _ _ | .finish _ => .isTrue trivial

/-- A read before the write, and another one that begins when everything is in the file but the
stream is not closed. -/
def readsAround : List FileWriteLabel :=
  [.look, .fetch 0 8, .finish 0, .openFile true, .put 2, .put 1, .look, .fetch 0 1, .close true,
   .fetch 0 8, .callback, .finish 0]

theorem atomic_readsAround :
    ∃ t, Machine.run step (init (some (str "old")) (str "new")) readsAround = some t ∧
      t.returned = [some (str "old"), some (str "new")] ∧
      (ReadsWhole (some (str "old")) t ∧ ReportsTruly t) ∧
      (ReportsTruly t ↔ t.success = none ∨ Machine.AllSteps step (fun _ a ↦ Succeeds a)
        (init (some (str "old")) (str "new")) readsAround) := by
  have hok : Machine.AllSteps step Undisturbed (init (some (str "old")) (str "new"))
      readsAround := by
    decide
  exact ⟨_, rfl, by decide, (atomic_of_run rfl).1 hok, (atomic_of_run rfl).2⟩

/-- A service asks for the stable id while another one writes it, and adopts half of it; and a file
that could not be opened is reported as written. -/
theorem not_forall_atomic :
    ¬ (∀ (old : Option Str) (content : Str) (labels : List FileWriteLabel) (t : FileWrite),
      Machine.run step (init old content) labels = some t → ReadsWhole old t) ∧
    ¬ ∀ (old : Option Str) (content : Str) (labels : List FileWriteLabel) (t : FileWrite),
      Machine.run step (init old content) labels = some t → ReportsTruly t := by
  constructor
  · intro h
    have hwhole := h none (str "a-stable-id")
      [.openFile true, .put 5, .look, .fetch 0 8, .finish 0] _ rfl
    exact absurd (hwhole.read (some (str "a-sta")) (by decide)) (by decide)
  · intro h
    have hreports := h none (str "a-stable-id") [.openFile false, .close true, .callback] _ rfl
    exact absurd (hreports.success rfl) (by decide)

end FileWrite

end Statsig
