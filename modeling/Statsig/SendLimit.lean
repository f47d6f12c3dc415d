import Statsig.Lib.Resending
import Statsig.Redelivery

/-!
# How often a batch is sent

The retry task reads the failed-events file and then deletes it, and a save reads the file and then
queues its write.  `bounded_of_run` says that no batch is handed over too often, and that the file
counts its failures, in the runs in which neither gets into the other: when the file is deleted, no
save has read it that is yet to write, as such a save brings back what the task is about to send.
-/

set_option autoImplicit false

namespace Statsig

open EventLogger NetworkService

/-! ## Saves in two steps -/

/-- The failed-events file and what is under way, with the saves that have read the file and not yet
queued their write. -/
structure SplitRedelivery extends Redelivery where
  saving : List PendingSave := []
  deriving DecidableEq, Repr

inductive SplitLabel where
  /-- Anything but the end of a save, which a response begins. -/
  | act (a : RedeliveryLabel)
  /-- The `i`-th save that is under way queues its write. -/
  | queueSave (i : ℕ)
  deriving DecidableEq, Repr

namespace SplitRedelivery

variable (lib : JsonText)

/-- The final response to a batch goes through its callback, which begins a save. -/
def answered (s : SplitRedelivery) (batch : ℕ) (origin : Origin)
    (events : List StatsigEventInternal) (response : HttpResponse) : Option SplitRedelivery :=
  let s := if hasSuccessCode response then s else { s with failed := s.failed ++ [batch] }
  match onResult origin (onLogEventResponse response) with
  | none => some s
  | some attempt => (Redelivery.readSave lib s.toRedelivery batch ⟨attempt, events⟩).map
      fun pending ↦ { s with saving := s.saving ++ [pending] }

/-- One step.  A save whose process ends does not write. -/
def step (s : SplitRedelivery) : SplitLabel → Option SplitRedelivery
  | .act (.answer i response) => (s.flights[i]?).bind fun flight ↦
      answered lib { s with flights := s.flights.eraseIdx i } flight.1 .flush flight.2 response
  | .act (.retry response) =>
    match s.retry with
    | .posted failure failures =>
      answered lib { s with retry := .sending failures } failure.1 (.file failure.2.attempts)
        failure.2.events response
    | _ => (Redelivery.stepRetry lib s.toRedelivery response).map fun r ↦
        { s with toRedelivery := r }
  | .act .restart => (Redelivery.step lib s.toRedelivery .restart).map fun r ↦ ⟨r, []⟩
  | .act a => (Redelivery.step lib s.toRedelivery a).map fun r ↦ { s with toRedelivery := r }
  | .queueSave i => (s.saving[i]?).map fun pending ↦
      ⟨s.toRedelivery.queueSave pending, s.saving.eraseIdx i⟩

variable {lib}

/-- **A response**: no save begins, or one does. -/
theorem answered_cases {s t : SplitRedelivery} {batch : ℕ} {origin : Origin}
    {events : List StatsigEventInternal} {response : HttpResponse}
    (h : answered lib s batch origin events response = some t) :
    (t = s ∨ t = { s with failed := s.failed ++ [batch] }) ∨
    (onResult origin (onLogEventResponse response) = some origin.attempt ∧ origin.saves = true ∧
      ∃ pending, Redelivery.readSave lib { s.toRedelivery with failed := s.failed ++ [batch] } batch
        ⟨origin.attempt, events⟩ = some pending ∧
        t = { s with failed := s.failed ++ [batch], saving := s.saving ++ [pending] }) := by
  rw [answered] at h
  simp only [onResult_eq, onLogEventResponse_eq, isSome_sendEventsResult] at h ⊢
  cases hsuccess : hasSuccessCode response with
  | true =>
    simp only [hsuccess, if_true, Bool.not_true, Bool.false_and, Bool.false_eq_true, if_false] at h
    exact .inl (.inl (Option.some_inj.mp h).symm)
  | false =>
    simp only [hsuccess, Bool.false_eq_true, if_false, Bool.not_false, Bool.true_and] at h
    cases hsaves : origin.saves with
    | true =>
      simp only [hsaves, if_true] at h
      obtain ⟨pending, hpending, rfl⟩ := Option.map_eq_some_iff.mp h
      exact .inr ⟨rfl, rfl, pending, hpending, rfl⟩
    | false =>
      simp only [hsaves, Bool.false_eq_true, if_false] at h
      exact .inl (.inr (Option.some_inj.mp h).symm)

/-- A save that is taken in one step, taken in two. -/
theorem exists_run_of_answered {s t : Redelivery} {batch : ℕ} {origin : Origin}
    {events : List StatsigEventInternal} {response : HttpResponse}
    (h : Redelivery.answered lib s batch origin events response = some t) :
    ∃ labels, ((answered lib ⟨s, []⟩ batch origin events response).bind fun u ↦
      Machine.run (step lib) u labels) = some ⟨t, []⟩ := by
  rw [Redelivery.answered] at h
  cases hresult : onResult origin (onLogEventResponse response) with
  | none =>
    simp only [hresult] at h
    refine ⟨[], ?_⟩
    rw [answered, hresult, ← Option.some_inj.mp h]
    cases hasSuccessCode response <;> rfl
  | some attempt =>
    simp only [hresult] at h
    obtain ⟨pending, hpending, rfl⟩ := Option.map_eq_some_iff.mp h
    refine ⟨[.queueSave 0], ?_⟩
    rw [answered, hresult]
    cases hsuccess : hasSuccessCode response <;>
      simp only [hsuccess, if_true, Bool.false_eq_true, if_false] at hpending ⊢ <;>
      rw [hpending] <;> rfl

/-- **Saves in one step are saves in two**, with nothing in between. -/
theorem exists_run_of_step {s t : Redelivery} {a : RedeliveryLabel}
    (h : Redelivery.step lib s a = some t) :
    ∃ labels, Machine.run (step lib) ⟨s, []⟩ labels = some ⟨t, []⟩ := by
  have hone : ∀ {b}, step lib ⟨s, []⟩ (.act b) = some ⟨t, []⟩ →
      ∃ labels, Machine.run (step lib) ⟨s, []⟩ labels = some ⟨t, []⟩ :=
    fun {b} hb ↦ ⟨[.act b], by rw [Machine.run_cons, hb]; rfl⟩
  cases a with
  | answer i response =>
    obtain ⟨flight, hflight, h⟩ := Option.bind_eq_some_iff.mp h
    obtain ⟨labels, hlabels⟩ := exists_run_of_answered h
    refine ⟨.act (.answer i response) :: labels, ?_⟩
    rw [Machine.run_cons, step, hflight]
    exact hlabels
  | retry response =>
    rcases Redelivery.stepRetry_cases h with ⟨failures, hretry, -⟩ | ⟨hretry, -⟩ |
      ⟨failure, failures, hretry, -⟩ | ⟨failure, failures, hretry, h⟩
    · refine hone (b := .retry response) ?_
      simp only [step, hretry]
      exact congrArg (Option.map _) h
    · refine hone (b := .retry response) ?_
      simp only [step, hretry]
      exact congrArg (Option.map _) h
    · refine hone (b := .retry response) ?_
      simp only [step, hretry]
      exact congrArg (Option.map _) h
    · obtain ⟨labels, hlabels⟩ := exists_run_of_answered h
      refine ⟨.act (.retry response) :: labels, ?_⟩
      rw [Machine.run_cons]
      simp only [step, hretry]
      exact hlabels
  | flush events => exact hone (b := .flush events) (by simp only [step, h, Option.map_some])
  | startRetry => exact hone (b := .startRetry) (by simp only [step, h, Option.map_some])
  | stopRetry => exact hone (b := .stopRetry) (by simp only [step, h, Option.map_some])
  | fileTask task => exact hone (b := .fileTask task) (by simp only [step, h, Option.map_some])
  | restart => exact hone (b := .restart) (by simp only [step, h, Option.map_some])

theorem exists_run_of_run {s : Redelivery} {labels : List RedeliveryLabel}
    (h : Machine.run (Redelivery.step lib) {} labels = some s) :
    ∃ labels', Machine.run (step lib) {} labels' = some ⟨s, []⟩ := by
  refine Machine.invariant_of_run
    (I := fun s ↦ ∃ labels', Machine.run (step lib) {} labels' = some ⟨s, []⟩) ?_ ⟨[], rfl⟩ h
  rintro s t a ⟨before, hbefore⟩ hstep
  obtain ⟨after, hafter⟩ := exists_run_of_step hstep
  exact ⟨before ++ after, Machine.run_append_eq_some.mpr ⟨_, hbefore, hafter⟩⟩

end SplitRedelivery

namespace Redelivery

variable {lib : JsonText}

/-! ## What is under way -/

open Resending (Item Agrees)

/-- A payload in the file has failed as often as it was sent. -/
def filedItem (x : ℕ × RetryableEventPayload) : Item ℕ :=
  ⟨x.1, x.2.attempts.toInt.toNat, x.2.attempts.toInt.toNat⟩

/-- A payload that the retry task has read has the number of the next attempt. -/
def pendingItem (x : ℕ × RetryableEventPayload) : Item ℕ :=
  ⟨x.1, x.2.attempts.toInt.toNat - 1, x.2.attempts.toInt.toNat - 1⟩

def postedItem (x : ℕ × RetryableEventPayload) : Item ℕ :=
  ⟨x.1, x.2.attempts.toInt.toNat, x.2.attempts.toInt.toNat - 1⟩

/-- A batch of a flush. -/
def flightItem (flight : ℕ × List StatsigEventInternal) : Item ℕ := ⟨flight.1, 1, 0⟩

/-- What the file and the retry task hold.  What the task has read before it deletes the file is in
both. -/
def around (file : List (Item ℕ)) : RetryTask → List (List (Item ℕ))
  | .idle => [file]
  | .deleting failures => [file, failures.map pendingItem]
  | .sending failures => [failures.map pendingItem ++ file]
  | .posted failure failures => [postedItem failure :: (failures.map pendingItem ++ file)]

/-- A payload that is added to the file is added to what is under way. -/
theorem subperm_of_mem_around {file file' : List (Item ℕ)} {item : Item ℕ}
    (h : file'.Subperm (item :: file)) {retry : RetryTask} :
    ∀ items ∈ around file' retry, ∃ before ∈ around file retry, items.Subperm (item :: before) := by
  intro items hitems
  cases retry with
  | idle =>
    obtain rfl := List.mem_singleton.mp hitems
    exact ⟨file, List.mem_cons_self, h⟩
  | deleting failures =>
    rcases List.mem_cons.mp hitems with rfl | hitems
    · exact ⟨file, List.mem_cons_self, h⟩
    · exact ⟨items, List.mem_cons_of_mem _ hitems, (List.sublist_cons_self _ _).subperm⟩
  | sending failures =>
    obtain rfl := List.mem_singleton.mp hitems
    refine ⟨_, List.mem_cons_self, ?_⟩
    exact ((List.subperm_append_left _).mpr h).trans List.perm_middle.subperm
  | posted failure failures =>
    obtain rfl := List.mem_singleton.mp hitems
    refine ⟨_, List.mem_cons_self, ?_⟩
    exact ((List.subperm_append_left (postedItem failure :: failures.map pendingItem)).mpr h).trans
      List.perm_middle.subperm

theorem exists_mem_around (file : List (Item ℕ)) (retry : RetryTask) :
    ∃ items ∈ around file retry, file.Subperm items := by
  cases retry with
  | idle | deleting failures => exact ⟨file, List.mem_cons_self, .refl file⟩
  | sending failures => exact ⟨_, List.mem_cons_self, (List.sublist_append_right _ _).subperm⟩
  | posted failure failures =>
    exact ⟨_, List.mem_cons_self, ((List.sublist_append_right _ _).cons _).subperm⟩

/-- All that is in the lists comes from the file or from the task. -/
theorem of_mem_around {file : List (Item ℕ)} {retry : RetryTask} {items : List (Item ℕ)}
    (hitems : items ∈ around file retry) {item : Item ℕ} (hitem : item ∈ items) :
    item ∈ file ∨ ∃ x ∈ retry.failures, item.name = x.1 := by
  have hpending : ∀ failures : List (ℕ × RetryableEventPayload),
      item ∈ failures.map pendingItem → ∃ x ∈ failures, item.name = x.1 := by
    intro failures h
    obtain ⟨x, hx, rfl⟩ := List.mem_map.mp h
    exact ⟨x, hx, rfl⟩
  cases retry with
  | idle =>
    obtain rfl := List.mem_singleton.mp hitems
    exact .inl hitem
  | deleting failures =>
    rcases List.mem_cons.mp hitems with rfl | hitems
    · exact .inl hitem
    · obtain rfl := List.mem_singleton.mp hitems
      exact .inr (hpending failures hitem)
  | sending failures =>
    obtain rfl := List.mem_singleton.mp hitems
    exact (List.mem_append.mp hitem).symm.imp_right (hpending failures)
  | posted failure failures =>
    obtain rfl := List.mem_singleton.mp hitems
    rcases List.mem_cons.mp hitem with rfl | hitem
    · exact .inr ⟨failure, List.mem_cons_self, rfl⟩
    · refine (List.mem_append.mp hitem).symm.imp_right fun h ↦ ?_
      obtain ⟨x, hx, hname⟩ := hpending failures h
      exact ⟨x, List.mem_cons_of_mem _ hx, hname⟩

/-! ## The invariant -/

theorem pendingItem_next {batches : List (List StatsigEventInternal)}
    {x : ℕ × RetryableEventPayload} (h : Carries batches 1 3 x) :
    pendingItem (x.1, { x.2 with attempts := x.2.attempts + 1 }) = filedItem x := by
  have hpos := h.first_le
  simp only [pendingItem, filedItem, toInt_add_one hpos h.le_last, Item.mk.injEq, true_and]
  omega

/-- A payload that has been posted has one failure less than attempts. -/
theorem postedItem_eq {batches : List (List StatsigEventInternal)}
    {x : ℕ × RetryableEventPayload} (h : Carries batches 2 4 x) :
    postedItem x =
      ⟨x.1, x.2.attempts.toInt.toNat - 1 + 1, x.2.attempts.toInt.toNat - 1⟩ := by
  have hpos := h.first_le
  simp only [postedItem, Item.mk.injEq, and_true, true_and]
  omega

/-- If the file comes to have these payloads, what is under way agrees with the records. -/
def AgreesWith (s : Redelivery) (file : List (ℕ × RetryableEventPayload)) : Prop :=
  ∀ items ∈ around (file.map filedItem) s.retry,
    Agrees 4 s.handed s.failed (items ++ s.flights.map flightItem)

/-- It does with an item that is not in one of the places any more. -/
def AgreesBeside (s : Redelivery) (item : Item ℕ) (file : List (ℕ × RetryableEventPayload)) :
    Prop :=
  ∀ items ∈ around (file.map filedItem) s.retry,
    Agrees 4 s.handed s.failed (item :: (items ++ s.flights.map flightItem))

variable {s : Redelivery} {file : List (ℕ × RetryableEventPayload)}

/-- Every number that is in use is that of a batch. -/
theorem Sound.lt_of_mem_around (hs : Sound lib s) (hfile : ∀ x ∈ file, Carries s.batches 1 3 x)
    {items : List (Item ℕ)} (hitems : items ∈ around (file.map filedItem) s.retry) :
    ∀ item ∈ items ++ s.flights.map flightItem, item.name < s.batches.length := by
  intro item hitem
  rcases List.mem_append.mp hitem with hitem | hitem
  · rcases of_mem_around hitems hitem with hitem | ⟨x, hx, hname⟩
    · obtain ⟨x, hx, rfl⟩ := List.mem_map.mp hitem
      exact (hfile x hx).lt
    · exact hname ▸ (hs.retry x hx).lt
  · obtain ⟨flight, hflight, rfl⟩ := List.mem_map.mp hitem
    exact (List.getElem?_eq_some_iff.mp (hs.flights flight hflight)).1

theorem AgreesWith.flush (hs : Sound lib s) (hfile : ∀ x ∈ file, Carries s.batches 1 3 x)
    (h : s.AgreesWith file) (events : List StatsigEventInternal) :
    AgreesWith { s with
      batches := s.batches ++ [events]
      handed := s.handed ++ [s.batches.length]
      flights := s.flights ++ [(s.batches.length, events)] } file := by
  have hnew : ∀ batch, batch ∈ s.handed ∨ batch ∈ s.failed → batch ≠ s.batches.length :=
    fun batch hbatch ↦ (hs.known batch hbatch).ne
  intro items hitems
  have hsend := (h items hitems).sendNew (a := s.batches.length) (by omega)
    (fun h ↦ hnew _ (.inl h) rfl) (fun h ↦ hnew _ (.inr h) rfl) fun h ↦ by
      obtain ⟨item, hitem, hname⟩ := List.mem_map.mp h
      exact (hs.lt_of_mem_around hfile hitems item hitem).ne hname
  refine hsend.perm ?_
  rw [List.map_append, ← List.append_assoc]
  exact List.perm_append_singleton _ _

theorem AgreesWith.takeFlight {i : ℕ} {flight : ℕ × List StatsigEventInternal}
    (h : s.AgreesWith file) (hflight : s.flights[i]? = some flight) :
    AgreesBeside { s with flights := s.flights.eraseIdx i } (flightItem flight) file := by
  intro items hitems
  have hperm := (Slots.perm_cons_eraseIdx hflight).map flightItem
  exact (h items hitems).perm (List.perm_middle.symm.trans (hperm.symm.append_left items))

theorem AgreesWith.takePosted {failure : ℕ × RetryableEventPayload}
    {failures : List (ℕ × RetryableEventPayload)} (h : s.AgreesWith file)
    (hretry : s.retry = .posted failure failures) :
    AgreesBeside { s with retry := .sending failures } (postedItem failure) file := by
  intro items hitems
  obtain rfl := List.mem_singleton.mp hitems
  exact h _ (by rw [hretry]; exact List.mem_cons_self)

theorem AgreesBeside.drop {item : Item ℕ} (h : s.AgreesBeside item file) : s.AgreesWith file :=
  fun items hitems ↦ (h items hitems).subperm (List.sublist_cons_self _ _).subperm

theorem AgreesBeside.fail {item : Item ℕ} (h : s.AgreesBeside item file) :
    AgreesBeside { s with failed := s.failed ++ [item.name] }
      { item with failures := item.failures + 1 } file :=
  fun items hitems ↦ (h items hitems).fail

theorem AgreesBeside.keep {item : Item ℕ} {file' : List (ℕ × RetryableEventPayload)}
    (h : s.AgreesBeside item file)
    (hsub : (file'.map filedItem).Subperm (item :: file.map filedItem)) : s.AgreesWith file' := by
  intro items hitems
  obtain ⟨before, hbefore, hitems⟩ := subperm_of_mem_around hsub items hitems
  exact (h before hbefore).subperm ((List.subperm_append_right _).mpr hitems)

theorem AgreesWith.startRetry (hfiled : ∀ x ∈ s.filed lib, Carries s.batches 1 3 x)
    (hidle : s.retry = .idle) (hread : s.AgreesWith (s.filed lib)) (h : s.AgreesWith file) :
    AgreesWith { s with retry := .deleting ((s.filed lib).map fun x ↦
      (x.1, { x.2 with attempts := x.2.attempts + 1 })) } file := by
  have hpending : ((s.filed lib).map fun x ↦
      (x.1, { x.2 with attempts := x.2.attempts + 1 })).map pendingItem =
        (s.filed lib).map filedItem := by
    rw [List.map_map]
    exact List.map_congr_left fun x hx ↦ pendingItem_next (hfiled x hx)
  intro items hitems
  simp only [around, hpending] at hitems
  rcases List.mem_cons.mp hitems with rfl | hitems
  · exact h _ (by rw [hidle]; exact List.mem_cons_self)
  · obtain rfl := List.mem_singleton.mp hitems
    exact hread _ (by rw [hidle]; exact List.mem_cons_self)

/-- The retry task has deleted the file, and nobody is going to write what was in it. -/
theorem AgreesWith.delete {failures : List (ℕ × RetryableEventPayload)} (h : s.AgreesWith file)
    (hretry : s.retry = .deleting failures) :
    ∀ items ∈ around ([].map filedItem) (.sending failures),
      Agrees 4 s.handed s.failed (items ++ s.flights.map flightItem) := by
  intro items hitems
  obtain rfl := List.mem_singleton.mp hitems
  rw [List.map_nil, List.append_nil]
  exact h _ (by rw [hretry]; exact List.mem_cons_of_mem _ List.mem_cons_self)

theorem AgreesWith.post {failure : ℕ × RetryableEventPayload}
    {failures : List (ℕ × RetryableEventPayload)} (h : s.AgreesWith file)
    (hretry : s.retry = .sending (failure :: failures)) (hcarries : Carries s.batches 2 4 failure) :
    AgreesWith { s with
      handed := s.handed ++ [failure.1]
      retry := .posted failure failures } file := by
  have hlast := hcarries.le_last
  have hview := h _ (by rw [hretry]; exact List.mem_cons_self)
  have hsend := Agrees.send hview (by simp only [pendingItem]; omega)
  intro items hitems
  obtain rfl := List.mem_singleton.mp hitems
  rw [postedItem_eq hcarries]
  exact hsend

theorem AgreesWith.stop {failures : List (ℕ × RetryableEventPayload)} (h : s.AgreesWith file)
    (hretry : s.retry = .sending failures) : AgreesWith { s with retry := .idle } file := by
  intro items hitems
  obtain rfl := List.mem_singleton.mp hitems
  have hview := h _ (by rw [hretry]; exact List.mem_cons_self)
  exact hview.subperm ((List.sublist_append_right _ _).append_right _).subperm

theorem AgreesWith.restart (h : s.AgreesWith file) :
    AgreesWith { s with retry := .idle, flights := [] } file := by
  intro items hitems
  obtain rfl := List.mem_singleton.mp hitems
  obtain ⟨items, hitems, hsub⟩ := exists_mem_around (file.map filedItem) s.retry
  refine (h items hitems).subperm ?_
  rw [List.map_nil, List.append_nil]
  exact hsub.trans (List.sublist_append_left _ _).subperm

/-- What a save is going to write holds what is saved, and what the file held before. -/
theorem subperm_filed_readSave {batch : ℕ} {failure : RetryableEventPayload}
    {pending : PendingSave} (hs : s.Recorded lib)
    (h : readSave lib s batch failure = some pending) :
    ((pending.filed lib).map filedItem).Subperm
      (filedItem (batch, failure) :: (s.filed lib).map filedItem) := by
  rw [(filed_readSave hs h).2, List.map_map, ← List.map_cons]
  exact ((CappedList.isPrefix_push _ _ _).sublist.map filedItem).subperm

end Redelivery

namespace SplitRedelivery

open Resending (Item Agrees)
open Redelivery (Carries Sound AgreesBeside AgreesWith filedItem flightItem postedItem)

variable {lib : JsonText}

/-- What the file may come to have. -/
def files (lib : JsonText) (s : SplitRedelivery) : List (List (ℕ × RetryableEventPayload)) :=
  s.filed lib :: s.saving.map (PendingSave.filed lib)

/-- What is under way agrees with the records, whichever save writes next. -/
structure Fits (lib : JsonText) (s : SplitRedelivery) : Prop where
  sound : Sound lib s.toRedelivery
  recorded : ∀ pending ∈ s.saving, pending.Recorded lib
  carries : ∀ file ∈ s.files lib, ∀ x ∈ file, Carries s.batches 1 3 x
  /-- There is at most one save, and then no write of the file is outstanding. -/
  alone : s.saving = [] ∨ s.saving.length = 1 ∧ s.file.Idle
  agrees : ∀ file ∈ s.files lib, s.AgreesWith file

theorem fits_init : Fits lib {} where
  sound := Redelivery.sound_init
  recorded := by simp
  carries := fun file hfile ↦ by
    obtain rfl := List.mem_singleton.mp hfile
    exact Redelivery.sound_init.filed
  alone := .inl rfl
  agrees := fun file hfile items hitems ↦ by
    obtain rfl := List.mem_singleton.mp hfile
    obtain rfl := List.mem_singleton.mp hitems
    exact Agrees.nil 4

/-- The retry task deletes the file. -/
def Deletes (s : SplitRedelivery) : RedeliveryLabel → Prop
  | .retry _ => s.retry.deletes = true
  | _ => False

instance (s : SplitRedelivery) : DecidablePred s.Deletes
  | .retry _ => inferInstanceAs (Decidable (_ = _))
  | .flush _ | .answer _ _ | .startRetry | .stopRetry | .fileTask _ | .restart => .isFalse id

/-- Neither the retry task nor another save gets into a save: when one begins, no other has read the
file that is yet to write; and when the task deletes the file, none has, and none waits for a
worker. -/
def Undisturbed (s : SplitRedelivery) : SplitLabel → Prop
  | .act a => ((s.toRedelivery.saved a).isSome = true → s.saving = []) ∧
      (s.Deletes a → s.file.queued = [] ∧ s.saving = [])
  | .queueSave _ => True

instance (s : SplitRedelivery) : DecidablePred s.Undisturbed
  | .act _ => inferInstanceAs (Decidable ((_ → _) ∧ (_ → _)))
  | .queueSave _ => .isTrue trivial

variable {s t : SplitRedelivery}

/-- What is under way agrees with the records, beside an item that is being answered. -/
structure FitsBeside (lib : JsonText) (s : SplitRedelivery) (item : Item ℕ) : Prop where
  sound : Sound lib s.toRedelivery
  recorded : ∀ pending ∈ s.saving, pending.Recorded lib
  carries : ∀ file ∈ s.files lib, ∀ x ∈ file, Carries s.batches 1 3 x
  alone : s.saving = [] ∨ s.saving.length = 1 ∧ s.file.Idle
  beside : ∀ file ∈ s.files lib, s.AgreesBeside item file

/-- **One response.** -/
theorem FitsBeside.answered {batch n : ℕ} {origin : Origin}
    {events flushed : List StatsigEventInternal} {response : HttpResponse}
    (hs : FitsBeside lib s ⟨batch, n + 1, n⟩) (hattempt : origin.attempt.toInt = n + 1)
    (hflushed : s.batches[batch]? = some flushed)
    (hevents : events.map StatsigEventInternal.canon = flushed.map StatsigEventInternal.canon)
    (hfree : (onResult origin (onLogEventResponse response)).isSome = true → s.saving = [])
    (h : SplitRedelivery.answered lib s batch origin events response = some t) : Fits lib t := by
  have hsound := hs.sound.fail (List.getElem?_eq_some_iff.mp hflushed).1
  rcases answered_cases h with (rfl | rfl) | ⟨hresult, hsaves, pending, hpending, rfl⟩
  · exact ⟨hs.sound, hs.recorded, hs.carries, hs.alone,
      fun file hfile ↦ (hs.beside file hfile).drop⟩
  · exact ⟨hsound, hs.recorded, hs.carries, hs.alone,
      fun file hfile ↦ (hs.beside file hfile).fail.drop⟩
  · have hnone : s.saving = [] := hfree (by rw [hresult]; rfl)
    have hle : origin.attempt.toInt ≤ 3 := by
      cases origin with
      | flush => decide
      | file attempt => exact Int32.le_iff_toInt_le.mp (of_decide_eq_true hsaves)
    have hcarries : Carries s.batches 1 3
        (Prod.map id RetryableEventPayload.canon (batch, ⟨origin.attempt, events⟩)) :=
      ⟨by show 1 ≤ origin.attempt.toInt; omega, hle, flushed, hflushed, hevents⟩
    have hread := hsound.readSave hcarries hpending
    have hfile : s.filed lib ∈ s.files lib := List.mem_cons_self
    have hbeside := (hs.beside _ hfile).fail
    have hitem : filedItem (batch, ⟨origin.attempt, events⟩) = ⟨batch, n + 1, n + 1⟩ := by
      simp only [filedItem, hattempt]
      rfl
    have hsub := Redelivery.subperm_filed_readSave hsound.toRecorded hpending
    rw [hitem] at hsub
    have hfiles : ∀ file ∈ [s.filed lib, pending.filed lib],
        (∀ x ∈ file, Carries s.batches 1 3 x) ∧
          AgreesWith { s.toRedelivery with failed := s.failed ++ [batch] } file := by
      intro file hmem
      rcases List.mem_cons.mp hmem with rfl | hmem
      · exact ⟨hs.carries _ hfile, hbeside.drop⟩
      · obtain rfl := List.mem_singleton.mp hmem
        exact ⟨hread, hbeside.keep hsub⟩
    simp only [hnone, List.nil_append]
    exact
      { sound := hsound
        recorded := fun other hother ↦ by
          obtain rfl := List.mem_singleton.mp hother
          exact (Redelivery.filed_readSave hsound.toRecorded hpending).1
        carries := fun file hmem ↦ (hfiles file hmem).1
        alone := .inr ⟨rfl, (Redelivery.readSave_cases hpending).1⟩
        agrees := fun file hmem ↦ (hfiles file hmem).2 }

theorem Fits.answer {i : ℕ} {response : HttpResponse} (hs : Fits lib s)
    (hok : Undisturbed s (.act (.answer i response)))
    (h : step lib s (.act (.answer i response)) = some t) : Fits lib t := by
  obtain ⟨flight, hflight, h⟩ := Option.bind_eq_some_iff.mp h
  have hflushed := hs.sound.flights flight (List.mem_of_getElem? hflight)
  have hbeside : FitsBeside lib { s with flights := s.flights.eraseIdx i } (flightItem flight) :=
    ⟨hs.sound.eraseFlight i, hs.recorded, hs.carries, hs.alone,
      fun file hfile ↦ (hs.agrees file hfile).takeFlight hflight⟩
  refine hbeside.answered (n := 0) rfl hflushed rfl (fun hsome ↦ hok.1 ?_) h
  simpa [Redelivery.saved, hflight] using hsome

theorem Fits.posted {response : HttpResponse} {failure : ℕ × RetryableEventPayload}
    {failures : List (ℕ × RetryableEventPayload)} (hs : Fits lib s)
    (hok : Undisturbed s (.act (.retry response))) (hretry : s.retry = .posted failure failures)
    (h : SplitRedelivery.answered lib { s with retry := .sending failures } failure.1
      (.file failure.2.attempts) failure.2.events response = some t) : Fits lib t := by
  have hcarries := hs.sound.retry failure (by rw [hretry]; exact List.mem_cons_self)
  obtain ⟨flushed, hflushed, hevents⟩ := hcarries.events
  have hfirst := hcarries.first_le
  have hbeside : FitsBeside lib { s with retry := .sending failures } (postedItem failure) :=
    ⟨hs.sound.unpost hretry, hs.recorded, hs.carries, hs.alone,
      fun file hfile ↦ (hs.agrees file hfile).takePosted hretry⟩
  rw [Redelivery.postedItem_eq hcarries] at hbeside
  refine hbeside.answered (by show failure.2.attempts.toInt = _; omega) hflushed
    (by rw [hevents, Redelivery.map_events_canon_canon]) (fun hsome ↦ hok.1 ?_) h
  simpa [Redelivery.saved, hretry] using hsome

theorem Fits.of_files {r : Redelivery} (hs : Fits lib s) (hsound : Sound lib r)
    (hfiled : r.filed lib = s.filed lib)
    (hcarries : ∀ file ∈ s.files lib, ∀ x ∈ file, Carries r.batches 1 3 x)
    (hidle : s.file.Idle → r.file.Idle) (hagrees : ∀ file ∈ s.files lib, r.AgreesWith file) :
    Fits lib { s with toRedelivery := r } := by
  have hfiles : files lib { s with toRedelivery := r } = s.files lib := by
    rw [files, files, hfiled]
  exact ⟨hsound, hs.recorded, hfiles ▸ hcarries, hs.alone.imp_right fun h ↦ ⟨h.1, hidle h.2⟩,
    hfiles ▸ hagrees⟩

/-- **One step of the retry task**, except that a response comes. -/
theorem Fits.stepRetry {r : Redelivery} {response : HttpResponse} (hs : Fits lib s)
    (hok : Undisturbed s (.act (.retry response)))
    (hposted : ∀ failure failures, s.retry ≠ .posted failure failures)
    (h : Redelivery.stepRetry lib s.toRedelivery response = some r) :
    Fits lib { s with toRedelivery := r } := by
  have hsound := hs.sound.stepRetry h
  rcases Redelivery.stepRetry_cases h with ⟨failures, hretry, hr⟩ | ⟨hretry, rfl⟩ |
    ⟨failure, failures, hretry, rfl⟩ | ⟨failure, failures, hretry, -⟩
  · obtain ⟨hqueued, hnone⟩ := hok.2 (show s.retry.deletes = true by rw [hretry]; rfl)
    have hfiled : r.filed lib = [] := by
      rw [hr, (Redelivery.filed_delete hs.sound.toRecorded (.sending failures)).2, if_pos hqueued]
    have hagrees : r.AgreesWith [] := by
      rw [hr]
      exact (hs.agrees (s.filed lib) List.mem_cons_self).delete hretry
    have hfiles : files lib { s with toRedelivery := r } = [[]] := by
      rw [files, hfiled, hnone]
      rfl
    refine ⟨hsound, hs.recorded, ?_, .inl hnone, ?_⟩
    · simp [hfiles]
    · rw [hfiles]
      simpa using hagrees
  · exact hs.of_files hsound rfl hs.carries id fun file hfile ↦ (hs.agrees file hfile).stop hretry
  · have hcarries := hs.sound.retry failure (by rw [hretry]; exact List.mem_cons_self)
    exact hs.of_files hsound rfl hs.carries id fun file hfile ↦
      (hs.agrees file hfile).post hretry hcarries
  · exact absurd hretry (hposted failure failures)

theorem Fits.queueSave {i : ℕ} (hs : Fits lib s) (h : step lib s (.queueSave i) = some t) :
    Fits lib t := by
  obtain ⟨pending, hpending, rfl⟩ := Option.map_eq_some_iff.mp h
  have hmem := List.mem_of_getElem? hpending
  obtain ⟨hlength, hidle⟩ := hs.alone.resolve_left (List.ne_nil_of_mem hmem)
  have hrest : s.saving.eraseIdx i = [] := by
    have hi := (List.getElem?_eq_some_iff.mp hpending).1
    rw [← List.length_eq_zero_iff, List.length_eraseIdx, if_pos hi]
    omega
  have hfile : pending.filed lib ∈ s.files lib :=
    List.mem_cons_of_mem _ (List.mem_map_of_mem hmem)
  have hrecorded := hs.recorded pending hmem
  have hsame := (Redelivery.filed_queueSave (s := s.toRedelivery) hidle hrecorded).2
  have hfiles : files lib ⟨s.toRedelivery.queueSave pending, s.saving.eraseIdx i⟩ =
      [pending.filed lib] := by
    rw [files, hrest, hsame]
    rfl
  refine ⟨hs.sound.queueSave hidle hrecorded (hs.carries _ hfile), ?_, ?_, .inl hrest, ?_⟩
  · simp [hrest]
  · rw [hfiles]
    intro file hmem
    obtain rfl := List.mem_singleton.mp hmem
    exact hs.carries _ hfile
  · rw [hfiles]
    intro file hmem
    obtain rfl := List.mem_singleton.mp hmem
    exact hs.agrees _ hfile

/-- **One step.** -/
theorem fits_step {a : SplitLabel} (hs : Fits lib s) (hok : s.Undisturbed a)
    (h : step lib s a = some t) : Fits lib t := by
  cases a with
  | queueSave i => exact hs.queueSave h
  | act a =>
    cases a with
    | answer i response => exact hs.answer hok h
    | retry response =>
      cases hretry : s.retry with
      | posted failure failures =>
        simp only [step, hretry] at h
        exact hs.posted hok hretry h
      | idle | deleting failures | sending failures =>
        simp only [step, hretry] at h
        obtain ⟨r, hr, rfl⟩ := Option.map_eq_some_iff.mp h
        exact hs.stepRetry hok (by simp [hretry]) hr
    | flush events =>
      obtain rfl := Option.some_inj.mp h
      exact hs.of_files (hs.sound.flush events) rfl
        (fun file hfile x hx ↦ (hs.carries file hfile x hx).mono events) id fun file hfile ↦
          (hs.agrees file hfile).flush hs.sound (hs.carries file hfile) events
    | startRetry =>
      obtain ⟨r, hr, rfl⟩ := Option.map_eq_some_iff.mp h
      have hsound := Redelivery.sound_step hs.sound hr
      obtain ⟨hidle, -, rfl | rfl⟩ := Redelivery.startRetry_cases hr
      · exact hs
      · have hread := hs.agrees (s.filed lib) List.mem_cons_self
        exact hs.of_files hsound rfl hs.carries id fun file hfile ↦
          AgreesWith.startRetry hs.sound.filed hidle hread (hs.agrees file hfile)
    | stopRetry =>
      obtain ⟨r, hr, rfl⟩ := Option.map_eq_some_iff.mp h
      have hsound := Redelivery.sound_step hs.sound hr
      obtain ⟨failures, hretry, rfl⟩ := Redelivery.stopRetry_cases hr
      exact hs.of_files hsound rfl hs.carries id fun file hfile ↦
        (hs.agrees file hfile).stop hretry
    | fileTask task =>
      obtain ⟨r, hr, rfl⟩ := Option.map_eq_some_iff.mp h
      have hsound := Redelivery.sound_step hs.sound hr
      obtain ⟨-, hfiled, file, rfl⟩ := Redelivery.filed_runTask hs.sound.toRecorded hr
      refine hs.of_files hsound hfiled hs.carries (fun hidle ↦ ?_) hs.agrees
      -- no write is there to take a step
      obtain ⟨file', hfile', -⟩ := Option.map_eq_some_iff.mp hr
      exact absurd (hidle.step_eq_none (a := .task task) rfl |>.symm.trans hfile') (by simp)
    | restart =>
      obtain ⟨r, hr, rfl⟩ := Option.map_eq_some_iff.mp h
      have hsound := Redelivery.sound_step hs.sound hr
      obtain ⟨-, rfl⟩ := Redelivery.restart_cases hr
      have hfile : s.filed lib ∈ s.files lib := List.mem_cons_self
      refine ⟨hsound, by simp, fun file hmem ↦ ?_, .inl rfl, fun file hmem ↦ ?_⟩
      · obtain rfl := List.mem_singleton.mp hmem
        exact hs.carries _ hfile
      · obtain rfl := List.mem_singleton.mp hmem
        exact (hs.agrees _ hfile).restart

/-! ## Runs -/

/-- **The limits**: no batch is handed over more often than once and as often as it may be tried
again; and a payload of the file is its batch, with the number of its failures. -/
structure Bounded (lib : JsonText) (s : SplitRedelivery) : Prop where
  handed : ∀ batch,
    (s.handed.count batch : ℤ) ≤ 1 + constants.kFailedEventPayloadRetryCount.toInt
  /-- Every payload has its number. -/
  recorded : s.kept.length = (readFailures lib s.file.final).length
  attempts : ∀ x ∈ s.filed lib,
    1 ≤ x.2.attempts ∧ x.2.attempts ≤ constants.kFailedEventPayloadRetryCount ∧
      x.2.attempts.toInt = s.failed.count x.1
  events : ∀ x ∈ s.filed lib, ∃ events, s.batches[x.1]? = some events ∧
    x.2.events = events.map StatsigEventInternal.canon

theorem Fits.bounded (hs : Fits lib s) : s.Bounded lib := by
  obtain ⟨items, hitems, hsub⟩ :=
    Redelivery.exists_mem_around ((s.filed lib).map filedItem) s.retry
  have hagrees := hs.agrees (s.filed lib) List.mem_cons_self items hitems
  refine ⟨fun batch ↦ ?_, hs.sound.length, fun x hx ↦ ?_, fun x hx ↦ (hs.sound.filed x hx).events⟩
  · have hbounded := hagrees.bounded batch
    have hthree : constants.kFailedEventPayloadRetryCount.toInt = 3 := rfl
    omega
  · have hcarries := hs.sound.filed x hx
    refine ⟨Int32.le_iff_toInt_le.mpr hcarries.first_le,
      Int32.le_iff_toInt_le.mpr hcarries.le_last, ?_⟩
    have hmem := List.mem_append_left (s.flights.map flightItem)
      (hsub.subset (List.mem_map_of_mem (f := filedItem) hx))
    have hfailures := hagrees.failures _ hmem
    have hfirst := hcarries.first_le
    simp only [filedItem] at hfailures
    omega

/-- **Redelivery is bounded**, in every run, over any number of sessions, in which no save begins
while another is between its read and its write, and the retry task deletes the file only when none
is and none waits for a worker. -/
theorem bounded_of_run {labels : List SplitLabel} {s : SplitRedelivery}
    (hrun : Machine.run (step lib) {} labels = some s)
    (hok : Machine.AllSteps (step lib) Undisturbed {} labels) : s.Bounded lib :=
  Fits.bounded (Machine.run_induct (fun hs hok h ↦ fits_step hs hok h) fits_init hok hrun)

/-! ### Runs with two batches -/

open retryableEventPayload (plainPayload)
open Redelivery (failureTexts unavailable accepted)

/-- A batch fails, and the write of its save is done. -/
def failsAndIsSaved : List SplitLabel :=
  [.act (.flush plainPayload.events), .act (.answer 0 unavailable), .queueSave 0] ++
    Redelivery.written.map .act

/-- A batch fails, and fails again in the next session, where the retry task has read the file when
its save begins. -/
def failsTwice : List SplitLabel :=
  failsAndIsSaved ++
    [.act .restart, .act .startRetry, .act (.retry {}), .act (.retry {}),
      .act (.retry unavailable), .queueSave 0]

theorem bounded_of_run_failsTwice :
    ∃ s, Machine.run (step failureTexts) {} failsTwice = some s ∧ s.handed = [0, 0] ∧
      s.Bounded failureTexts := by
  obtain ⟨s, hs, hhanded⟩ := Option.map_eq_some_iff.mp
    (show (Machine.run (step failureTexts) {} failsTwice).map (·.handed) = some [0, 0] by
      decide +kernel)
  exact ⟨s, hs, hhanded, bounded_of_run hs (by decide +kernel)⟩

/-- In the second session another batch fails, and its save reads the file; the retry task reads it
too and deletes it, and then the save writes.  It brings the first batch back, and so both copies
are sent. -/
def disturbed : List SplitLabel :=
  failsAndIsSaved ++
    [.act .restart, .act (.flush plainPayload.events), .act (.answer 0 unavailable),
      .act .startRetry, .act (.retry {}), .queueSave 0] ++ Redelivery.written.map .act ++
    [.act (.retry {}), .act (.retry unavailable), .queueSave 0] ++ Redelivery.written.map .act ++
    [.act .restart, .act .startRetry, .act (.retry {}), .act (.retry {}), .act (.retry accepted),
      .act (.retry {}), .act (.retry accepted), .act (.retry {}), .act (.retry unavailable),
      .queueSave 0] ++ Redelivery.written.map .act ++
    [.act .restart, .act .startRetry, .act (.retry {}), .act (.retry {})]

/-- The first batch is handed over five times. -/
theorem not_forall_bounded :
    ¬ ∀ (lib : JsonText) (labels : List SplitLabel) (s : SplitRedelivery),
      Machine.run (step lib) {} labels = some s → s.Bounded lib := by
  intro h
  have hrun : (Machine.run (step failureTexts) {} disturbed).map (·.handed) =
      some [0, 1, 0, 0, 1, 0, 0] := by
    decide +kernel
  obtain ⟨s, hs, hhanded⟩ := Option.map_eq_some_iff.mp hrun
  have hbound := (h failureTexts disturbed s hs).handed 0
  rw [hhanded] at hbound
  exact absurd hbound (by decide)

end SplitRedelivery

end Statsig
