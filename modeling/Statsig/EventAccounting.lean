import Mathlib.Data.List.Count
import Statsig.EventDelivery

/-!
# No event is lost

Where the events are.  `accounted_of_run` balances, for every event, the copies that have gone in
against the copies that the server has accepted, the failed-events file holds, or its limits have
excluded.  It holds of every run in which nothing happens too late or too early: each batch finds
the logger and the network, and is saved when no other save is under way; nothing fails; and when
the logger goes, it has no events left.
-/

set_option autoImplicit false

namespace Statsig

namespace EventDelivery

open EventLogger FailedEvents

variable (lib : JsonText)

/-! ## Counting -/

/-- The number of copies of an event, as the failed-events file would give them back. -/
def tally (e : StatsigEventInternal) (events : List StatsigEventInternal) : ℕ :=
  (events.map StatsigEventInternal.canon).count e

/-- The events in the failed-events file. -/
def inFile (content : Option Str) : List StatsigEventInternal :=
  (readFailures lib content).flatMap RetryableEventPayload.events

@[simp] theorem tally_nil (e : StatsigEventInternal) : tally e [] = 0 := rfl

@[simp] theorem tally_append (e : StatsigEventInternal) (events more : List StatsigEventInternal) :
    tally e (events ++ more) = tally e events + tally e more := by
  rw [tally, List.map_append, List.count_append]
  rfl

/-- Writing and reading an event does not change which event it counts as. -/
theorem tally_map_canon (e : StatsigEventInternal) (events : List StatsigEventInternal) :
    tally e (events.map StatsigEventInternal.canon) = tally e events := by
  rw [tally, List.map_map]
  exact congrArg _ (List.map_congr_left fun event _ ↦ event.canon_canon)

theorem tally_events_canon (e : StatsigEventInternal) (failures : List RetryableEventPayload) :
    tally e ((failures.map RetryableEventPayload.canon).flatMap RetryableEventPayload.events) =
      tally e (failures.flatMap RetryableEventPayload.events) := by
  induction failures with
  | nil => rfl
  | cons failure failures ih =>
    rw [List.map_cons, List.flatMap_cons, List.flatMap_cons, tally_append, tally_append, ih]
    exact congrArg (· + _) (tally_map_canon e failure.events)

/-- **What a save does to the balance**: the file gains what is saved, and loses what is pushed
out. -/
theorem tally_inFile_save {content : Option Str} {text : Str} {events : List StatsigEventInternal}
    {attempt : Int32} (h : saveFailedEvents lib content events attempt = some text)
    (e : StatsigEventInternal) :
    tally e (inFile lib (some text)) + tally e (pushedOut lib content events attempt) =
      tally e events + tally e (inFile lib content) := by
  have hsplit : insertFailure ⟨attempt, events⟩ (readFailures lib content) ++
      (⟨attempt, events⟩ :: readFailures lib content).drop
        (insertFailure ⟨attempt, events⟩ (readFailures lib content)).length =
          ⟨attempt, events⟩ :: readFailures lib content := by
    rw [← List.prefix_iff_eq_append, insertFailure_eq_take]
    exact List.take_prefix _ _
  rw [inFile, readFailures_saveFailedEvents h, tally_events_canon, pushedOut, ← tally_append,
    ← List.flatMap_append, hsplit, List.flatMap_cons, tally_append, inFile]

/-- The events of the batches on their way. -/
def onTheirWay (sends : List Send) : List StatsigEventInternal := sends.flatMap Send.events

theorem onTheirWay_set {sends : List Send} {i : ℕ} {send send' : Send}
    (hsend : sends[i]? = some send) (h : send'.events = send.events) :
    onTheirWay (sends.set i send') = onTheirWay sends := Slots.flatMap_set_of_eq hsend h

theorem tally_eraseIdx {sends : List Send} {i : ℕ} {send : Send} (hsend : sends[i]? = some send)
    (e : StatsigEventInternal) :
    tally e (onTheirWay sends) =
      tally e send.events + tally e (onTheirWay (sends.eraseIdx i)) := by
  rw [← tally_append, tally, tally]
  exact (((Slots.perm_cons_eraseIdx hsend).flatMap_right Send.events).map _).count_eq e

/-! ## The property and what it takes -/

/-- Of every event, as many copies as have been enqueued, added by the diagnostics, or were in the
file at the start, have been delivered, are in the file, or were excluded by its limits. -/
def Accounted (before : List StatsigEventInternal) (s : EventDelivery) : Prop :=
  ∀ e, tally e before + tally e s.ledger.enqueued + tally e s.ledger.appended =
    tally e s.ledger.delivered + tally e (inFile lib s.file.content) + tally e s.ledger.dropped

/-- The step lets go of the logger's last owner. -/
def frees (s : EventDelivery) (a : DeliveryLabel) : Bool :=
  decide (s.loggerOwners.owners = 1) &&
    match a with
    | .releaseContext => decide (s.context.owners = 1)
    | .releaseLogger => true
    | .send i world => (s.sends[i]?).any fun send ↦ decide (send.origin = .flush) &&
        match send.stage with
        | .posted attempt =>
          !shouldRetry constants.kLogEventRetryCount attempt world.response &&
            (NetworkService.sendEventsResult world.response).value.isSome
        | .storing _ _ => true
        | _ => false
    | _ => false

/-- A batch finds the logger and the network, and it is saved when no write to the file is
outstanding or about to be queued. -/
def InTime (s : EventDelivery) (send : Send) : SendStage → Prop
  | .queued => (Ownership.lock send.weakSelf s.loggerOwners).isSome = true
  | .locked => s.networkOwners.Alive
  | .posted _ => True
  | .saving => s.file.Idle ∧ ∀ other ∈ s.sends, other.stage.stores = false
  | .storing _ _ => True

instance (s : EventDelivery) (send : Send) (stage : SendStage) :
    Decidable (InTime s send stage) :=
  match stage with
  | .queued => inferInstanceAs (Decidable (_ = true))
  | .locked => inferInstanceAs (Decidable s.networkOwners.Alive)
  | .posted _ => .isTrue trivial
  | .saving => inferInstanceAs (Decidable (_ ∧ _))
  | .storing _ _ => .isTrue trivial

/-- A write takes place. -/
def writes : AsyncFile.Label UInt8 → Bool
  | .lose _ => false
  | .loseOpened _ => false
  | _ => true

/-- Every batch is in time, and every write takes place. -/
def OnTime (s : EventDelivery) : DeliveryLabel → Prop
  | .send i _ => ∀ send ∈ s.sends[i]?, InTime s send send.stage
  | .file a => writes a = true
  | _ => True

instance (s : EventDelivery) (a : DeliveryLabel) : Decidable (OnTime s a) :=
  match a with
  | .send i _ => inferInstanceAs (Decidable (∀ send ∈ s.sends[i]?, InTime s send send.stage))
  | .file a => inferInstanceAs (Decidable (writes a = true))
  | .enqueue _ _ | .flush _ | .mark _ | .setUser _ | .shutdown _ | .lockContext
  | .releaseContext | .lockLogger | .releaseLogger | .retry _ => .isTrue trivial

/-- What each step of a run must meet for no event to be lost. -/
structure Orderly (s : EventDelivery) (a : DeliveryLabel) : Prop where
  harmless : Harmless s a
  onTime : OnTime s a
  /-- When the logger goes, its buffer is empty. -/
  emptied : s.frees a = true → s.logger.events = []

instance (s : EventDelivery) (a : DeliveryLabel) : Decidable (Orderly s a) :=
  decidable_of_iff (Harmless s a ∧ OnTime s a ∧ (s.frees a = true → s.logger.events = []))
    ⟨fun h ↦ ⟨h.1, h.2.1, h.2.2⟩, fun h ↦ ⟨h.harmless, h.onTime, h.emptied⟩⟩

/-! ## Who owns the logger -/

/-- The task of the batch has locked the logger. -/
def holds (send : Send) : Bool := decide (send.stage ≠ .queued)

/-- What an object that lives counts for as an owner of another. -/
def owns (o : Ownership) : ℕ := if o.Alive then 1 else 0

theorem owns_eq_one {o : Ownership} (h : o.Alive) : owns o = 1 := if_pos h

/-- The owners of the logger are the context, those that have locked it, and the batches whose
tasks run; when there is none, no event is left in the buffer. -/
structure Owned (s : EventDelivery) : Prop where
  flushes : ∀ send ∈ s.sends, send.origin = .flush
  count : s.loggerOwners.owners =
    owns s.context + s.holders + s.sends.countP holds
  emptied : s.loggerOwners.owners = 0 → s.logger.events = []

theorem Owned.setStage {s : EventDelivery} {i : ℕ} {send : Send} (hs : Owned s)
    (hsend : s.sends[i]? = some send) (stage : SendStage) (hbefore : send.stage ≠ .queued)
    (hafter : stage ≠ .queued) : Owned (s.setStage i send stage) := by
  have hcount := Slots.countP_set (b := { send with stage }) (p := holds) hsend
  simp only [holds, hbefore, hafter, ne_eq, not_false_eq_true, decide_true, if_true] at hcount
  refine { hs with flushes := Slots.forall_mem_set hs.flushes ?_, count := ?_ }
  · exact hs.flushes send (List.mem_of_getElem? hsend)
  · have hbefore := hs.count
    simp only [EventDelivery.setStage]
    omega

theorem Owned.lock {s : EventDelivery} {i : ℕ} {send : Send} (hs : Owned s)
    (hsend : s.sends[i]? = some send) (hstage : send.stage = .queued) :
    Owned { s.setStage i send .locked with loggerOwners := s.loggerOwners.acquire } := by
  have hcount := Slots.countP_set (b := { send with stage := .locked }) (p := holds) hsend
  simp only [holds, hstage, ne_eq, not_true_eq_false, decide_false, reduceCtorEq,
    not_false_eq_true, decide_true, if_true, Bool.false_eq_true, if_false] at hcount
  refine ⟨Slots.forall_mem_set hs.flushes ?_, ?_, fun h ↦ absurd h (by simp)⟩
  · exact hs.flushes send (List.mem_of_getElem? hsend)
  · have hbefore := hs.count
    simp only [EventDelivery.setStage, Ownership.owners_acquire]
    omega

theorem Owned.endSend {s : EventDelivery} {i : ℕ} {send : Send} (hs : Owned s)
    (hsend : s.sends[i]? = some send) (hstage : send.stage ≠ .queued)
    (hlast : s.loggerOwners.owners = 1 → s.logger.events = []) : Owned (s.endSend i send) := by
  have hcount := (Slots.perm_cons_eraseIdx hsend).countP_eq holds
  rw [List.countP_cons_of_pos (by simp [holds, hstage])] at hcount
  have hbefore := hs.count
  have hflush := hs.flushes send (List.mem_of_getElem? hsend)
  refine ⟨Slots.forall_mem_eraseIdx hs.flushes, ?_, fun h ↦ ?_⟩
  · simp only [EventDelivery.endSend, hflush, Ownership.owners_release]
    omega
  · simp only [EventDelivery.endSend, hflush, Ownership.owners_release] at h
    exact hlast (by omega)

/-- A flush leaves the owners alone, and its batch has not locked anything. -/
theorem Owned.afterFlush {s : EventDelivery} (hs : Owned s) (flushed : Flushed)
    (hemptied : s.loggerOwners.owners = 0 → flushed.logger.events = []) :
    Owned (s.afterFlush flushed) := by
  refine ⟨fun send hsend ↦ ?_, ?_, hemptied⟩
  · rcases List.mem_append.mp hsend with hsend | hsend
    · exact hs.flushes send hsend
    · obtain ⟨events, -, rfl⟩ := by simpa using hsend
      rfl
  · have hbatch : (flushed.batch.map fun events ↦
        { events, weakSelf := s.loggerOwners.weakFromThis : Send }).toList.countP holds = 0 := by
      cases flushed.batch <;> simp [holds]
    simp only [EventDelivery.afterFlush, List.countP_append, hbatch]
    exact hs.count

theorem Owned.lockContext {s : EventDelivery} (hs : Owned s) (halive : s.context.Alive) :
    Owned { s with context := s.context.acquire } := by
  have hcount := hs.count
  rw [owns_eq_one halive, ← owns_eq_one (o := s.context.acquire) (Nat.succ_pos _)] at hcount
  exact { hs with count := hcount }

theorem Owned.lockLogger {s : EventDelivery} (hs : Owned s) :
    Owned { s with loggerOwners := s.loggerOwners.acquire, holders := s.holders + 1 } := by
  refine ⟨hs.flushes, ?_, fun h ↦ absurd h (by simp)⟩
  have hcount := hs.count
  simp only [Ownership.owners_acquire]
  omega

theorem Owned.releaseLogger {s : EventDelivery} (hs : Owned s) (hholders : 0 < s.holders)
    (hlast : s.loggerOwners.owners = 1 → s.logger.events = []) :
    Owned { s with loggerOwners := s.loggerOwners.release, holders := s.holders - 1 } := by
  have hcount := hs.count
  refine ⟨hs.flushes, ?_, fun h ↦ hlast ?_⟩
  · simp only [Ownership.owners_release]
    omega
  · simp only [Ownership.owners_release] at h
    omega

theorem Owned.dropContext {s : EventDelivery} (hs : Owned s) (halive : s.context.Alive)
    (hlast : s.loggerOwners.owners = 1 → s.context.owners = 1 → s.logger.events = []) :
    Owned s.dropContext := by
  have hbefore := hs.count
  rw [owns_eq_one halive] at hbefore
  rw [EventDelivery.dropContext]
  split
  · rename_i hone
    have hdead : owns s.context.release = 0 := by simp [owns, Ownership.Alive, hone]
    refine ⟨hs.flushes, ?_, fun h ↦ hlast ?_ hone⟩
    · simp only [Ownership.owners_release, hdead]
      omega
    · simp only [Ownership.owners_release] at h
      omega
  · rename_i hmore
    have hpos : 0 < s.context.owners := halive
    have hheld : s.context.release.Alive := show 0 < s.context.owners - 1 by omega
    refine ⟨hs.flushes, ?_, hs.emptied⟩
    rw [owns_eq_one hheld]
    exact hbefore

/-! ## What the file is going to hold -/

/-- A write that is about to be queued will find the file as it was read. -/
def Fits (file : AsyncFile UInt8) (send : Send) : Prop :=
  match send.stage with
  | .storing text excluded => file.Idle ∧ ∀ e,
      tally e (inFile lib (some text)) + tally e excluded =
        tally e send.events + tally e (inFile lib file.content)
  | _ => True

/-- One write at a time is outstanding or about to be queued. -/
structure Stored (s : EventDelivery) : Prop where
  exclusive : s.file.Exclusive
  alone : s.sends.countP (fun send ↦ send.stage.stores) ≤ 1
  fits : ∀ send ∈ s.sends, Fits lib s.file send

variable {lib}

theorem Fits.of_stores {file : AsyncFile UInt8} {send : Send} (h : send.stage.stores = false) :
    Fits lib file send := by
  cases hstage : send.stage with
  | storing text excluded => exact absurd h (by simp [hstage, SendStage.stores])
  | queued | locked | posted _ | saving => simp [Fits, hstage]

theorem Stored.setStage {s : EventDelivery} {i : ℕ} {send : Send} (hs : Stored lib s)
    (hsend : s.sends[i]? = some send) (stage : SendStage) (hstage : stage.stores = false) :
    Stored lib (s.setStage i send stage) := by
  have hcount := Slots.countP_set (b := { send with stage }) (p := fun send ↦ send.stage.stores)
    hsend
  simp only [hstage, Bool.false_eq_true, if_false] at hcount
  refine ⟨hs.exclusive, ?_, Slots.forall_mem_set hs.fits (.of_stores hstage)⟩
  have halone := hs.alone
  simp only [EventDelivery.setStage]
  omega

theorem Stored.eraseIdx {s : EventDelivery} {i : ℕ} (hs : Stored lib s) :
    Stored lib { s with sends := s.sends.eraseIdx i } :=
  ⟨hs.exclusive, ((List.eraseIdx_sublist _ _).countP_le).trans hs.alone,
    Slots.forall_mem_eraseIdx hs.fits⟩

theorem Stored.store {s : EventDelivery} {i : ℕ} {send : Send} {stage : SendStage}
    (hs : Stored lib s) (hsend : s.sends[i]? = some send)
    (hother : ∀ other ∈ s.sends, other.stage.stores = false)
    (hfits : Fits lib s.file { send with stage }) : Stored lib (s.setStage i send stage) := by
  have hcount := Slots.countP_set (b := { send with stage }) (p := fun send ↦ send.stage.stores)
    hsend
  have hnone : s.sends.countP (fun send ↦ send.stage.stores) = 0 :=
    List.countP_eq_zero.mpr fun other h ↦ by simp [hother other h]
  rw [hnone] at hcount
  refine ⟨hs.exclusive, ?_, Slots.forall_mem_set hs.fits hfits⟩
  show (s.sends.set i { send with stage }).countP _ ≤ 1
  split at hcount <;> split at hcount <;> omega

theorem Stored.queue {s : EventDelivery} {i : ℕ} {send : Send} {text : Str}
    (hs : Stored lib s) (hsend : s.sends[i]? = some send) (hstage : send.stage.stores = true)
    (hidle : s.file.Idle) :
    Stored lib { s with sends := s.sends.eraseIdx i, file := s.file.queue text } := by
  have hcount := (Slots.perm_cons_eraseIdx hsend).countP_eq fun send ↦ send.stage.stores
  simp only [List.countP_cons, hstage, if_true] at hcount
  have hnone : (s.sends.eraseIdx i).countP (fun send ↦ send.stage.stores) = 0 := by
    have halone := hs.alone
    omega
  refine ⟨(hidle.queue text).1, hnone.le.trans zero_le_one, fun other hother ↦ .of_stores ?_⟩
  simpa using List.countP_eq_zero.mp hnone other hother

/-- The batch of a flush is not there yet. -/
theorem Stored.afterFlush {s : EventDelivery} (hs : Stored lib s) (flushed : Flushed) :
    Stored lib (s.afterFlush flushed) := by
  have hbatch : ∀ send ∈ (flushed.batch.map fun events ↦
      { events, weakSelf := s.loggerOwners.weakFromThis : Send }).toList,
      send.stage.stores = false := by
    intro send hsend
    obtain ⟨events, -, rfl⟩ := by simpa using hsend
    rfl
  refine ⟨hs.exclusive, ?_, fun send hsend ↦ ?_⟩
  · simp only [EventDelivery.afterFlush, List.countP_append,
      List.countP_eq_zero.mpr fun send h ↦ Bool.not_eq_true _ ▸ hbatch send h]
    exact hs.alone
  · rcases List.mem_append.mp hsend with hsend | hsend
    · exact hs.fits send hsend
    · exact .of_stores (hbatch send hsend)

/-- A write goes on, while none is about to be queued. -/
theorem Stored.runTask {s : EventDelivery} {task : AsyncFile.Task} {file : AsyncFile UInt8}
    (hs : Stored lib s) (h : s.file.runTask task = some file) :
    Stored lib { s with file } ∧ file.final = s.file.final := by
  obtain ⟨hexcl, hfinal⟩ := hs.exclusive.runTask h
  refine ⟨⟨hexcl, hs.alone, fun send hsend ↦ .of_stores ?_⟩, hfinal⟩
  have hfits := hs.fits send hsend
  cases hstage : send.stage with
  | storing text excluded =>
    simp only [Fits, hstage] at hfits
    have hnone := hfits.1.step_eq_none (a := .task task) rfl
    rw [AsyncFile.step, h] at hnone
    exact absurd hnone (by simp)
  | queued | locked | posted _ | saving => rfl

/-! ## The invariant -/

variable (lib) in
structure Balanced (before : List StatsigEventInternal) (s : EventDelivery) : Prop where
  retryRef : s.retryRef = .empty
  retry : s.retry = .queued ∨ s.retry = .finished
  owned : Owned s
  stored : Stored lib s
  balance : ∀ e, tally e before + tally e s.ledger.enqueued + tally e s.ledger.appended =
    tally e s.logger.events + tally e (onTheirWay s.sends) + tally e (inFile lib s.file.final) +
      tally e s.ledger.delivered + tally e s.ledger.dropped

variable {before : List StatsigEventInternal} {s t : EventDelivery}

theorem Balanced.setStage {i : ℕ} {send : Send} {stage : SendStage} (hs : Balanced lib before s)
    (hsend : s.sends[i]? = some send) (howned : Owned (s.setStage i send stage))
    (hstored : Stored lib (s.setStage i send stage)) :
    Balanced lib before (s.setStage i send stage) := by
  refine { hs with owned := howned, stored := hstored, balance := fun e ↦ ?_ }
  have hsends : onTheirWay (s.setStage i send stage).sends = onTheirWay s.sends :=
    onTheirWay_set hsend rfl
  rw [hsends]
  exact hs.balance e

theorem Balanced.endSend {i : ℕ} {send : Send} {file : AsyncFile UInt8} {ledger : Ledger}
    (hs : Balanced lib before s) (hsend : s.sends[i]? = some send)
    (howned : Owned (s.endSend i send))
    (hstored : Stored lib { s with sends := s.sends.eraseIdx i, file })
    (henqueued : ledger.enqueued = s.ledger.enqueued)
    (happended : ledger.appended = s.ledger.appended)
    (hkept : ∀ e, tally e (inFile lib file.final) + tally e ledger.delivered +
        tally e ledger.dropped =
      tally e send.events + tally e (inFile lib s.file.final) + tally e s.ledger.delivered +
        tally e s.ledger.dropped) :
    Balanced lib before { s.endSend i send with file, ledger } := by
  refine { hs with
    owned := { howned with }, stored := { hstored with }, balance := fun e ↦ ?_ }
  have hbalance := hs.balance e
  have hkept := hkept e
  rw [tally_eraseIdx hsend e] at hbalance
  simp only [EventDelivery.endSend, henqueued, happended]
  omega

/-- **One step of a batch that is in time**, and in which nothing throws. -/
theorem balanced_stepSend {i : ℕ} {world : World} {send : Send} (hs : Balanced lib before s)
    (hbuilt : BuiltUtf8 s.sends) (hsend : s.sends[i]? = some send)
    (hok : Orderly s (.send i world)) (hnot : (stepSend lib s i world send).crashed = false) :
    Balanced lib before (stepSend lib s i world send) := by
  have htime := hok.onTime send hsend
  have hevents := hbuilt send (List.mem_of_getElem? hsend)
  have hflush := hs.owned.flushes send (List.mem_of_getElem? hsend)
  cases hstage : send.stage with
  | queued =>
    rw [hstage] at htime
    obtain ⟨loggerOwners, hlock⟩ := Option.isSome_iff_exists.mp htime
    obtain rfl : loggerOwners = s.loggerOwners.acquire := Ownership.eq_acquire_of_lock hlock
    simp only [stepSend, hstage, hlock]
    have hstored := hs.stored.setStage hsend .locked rfl
    refine { hs with
      owned := hs.owned.lock hsend hstage, stored := { hstored with }, balance := fun e ↦ ?_ }
    have hsends : onTheirWay (s.setStage i send .locked).sends = onTheirWay s.sends :=
      onTheirWay_set hsend rfl
    rw [hsends]
    exact hs.balance e
  | locked =>
    rw [hstage] at htime
    have hlock := Ownership.lock_toObject htime
    simp only [stepSend, hstage, hlock] at hnot ⊢
    cases hbody : sendEvents lib s world send.events with
    | none => exact absurd hnot (by simp [hbody])
    | some u =>
      obtain ⟨⟨id, rfl⟩, -⟩ := of_sendEvents lib hbody
      have hset := hs.setStage hsend
        (hs.owned.setStage hsend (.posted 1) (by simp [hstage]) (by simp))
        (hs.stored.setStage hsend _ rfl)
      exact { hset with owned := { hset.owned with }, stored := { hset.stored with } }
  | posted attempt =>
    simp only [stepSend, hstage]
    split
    · exact hs.setStage hsend (hs.owned.setStage hsend _ (by simp [hstage]) (by simp))
        (hs.stored.setStage hsend _ rfl)
    · rename_i hfinal
      split
      · rename_i hvalue
        have hended : Owned (s.endSend i send) := by
          refine hs.owned.endSend hsend (by simp [hstage]) fun hone ↦ hok.emptied ?_
          simp [frees, hone, hsend, hflush, hstage, hfinal, hvalue]
        refine hs.endSend hsend hended hs.stored.eraseIdx rfl rfl fun e ↦ ?_
        simp only [EventDelivery.endSend, tally_append]
        omega
      · rw [if_pos (by rw [hflush]; rfl)]
        exact hs.setStage hsend (hs.owned.setStage hsend _ (by simp [hstage]) (by simp))
          (hs.stored.setStage hsend _ rfl)
  | saving =>
    rw [hstage] at htime
    obtain ⟨hidle, hother⟩ := htime
    obtain ⟨text, htext⟩ := exists_saveFailedEvents lib s.file.content send.origin.attempt
      (hevents (by rw [hstage]; rfl))
    cases hfails : world.fails with
    | true => exact absurd hnot (by simp [stepSend, hstage, hfails])
    | false =>
      simp only [stepSend, hstage, hfails, File.attempt_false, htext]
      refine hs.setStage hsend (hs.owned.setStage hsend _ (by simp [hstage]) (by simp))
        (hs.stored.store hsend hother ⟨hidle, fun e ↦ ?_⟩)
      exact tally_inFile_save lib htext e
  | storing text excluded =>
    have hfits := hs.stored.fits send (List.mem_of_getElem? hsend)
    simp only [Fits, hstage] at hfits
    obtain ⟨hidle, htally⟩ := hfits
    cases hfails : world.fails with
    | true => exact absurd hnot (by simp [stepSend, hstage, hfails])
    | false =>
      simp only [stepSend, hstage, hfails, File.attempt_false]
      have hended : Owned (s.endSend i send) := by
        refine hs.owned.endSend hsend (by simp [hstage]) fun hone ↦ hok.emptied ?_
        simp [frees, hone, hsend, hflush, hstage]
      refine hs.endSend hsend hended
        (hs.stored.queue hsend (by rw [hstage]; rfl) hidle) rfl rfl fun e ↦ ?_
      have hkept := htally e
      simp only [tally_append, (hidle.queue text).2, hidle.final_eq]
      omega

/-- What a flush takes out of the buffer, and what the diagnostics add, is on its way. -/
theorem tally_afterFlush {flushed : Flushed} {events : List StatsigEventInternal}
    (h : flushed.logger.events ++ flushed.batch.getD [] = events ++ flushed.added.toList)
    (e : StatsigEventInternal) :
    tally e (s.afterFlush flushed).logger.events +
        tally e (onTheirWay (s.afterFlush flushed).sends) + tally e s.ledger.appended =
      tally e events + tally e (onTheirWay s.sends) +
        tally e (s.afterFlush flushed).ledger.appended := by
  have hbatch : onTheirWay (s.afterFlush flushed).sends =
      onTheirWay s.sends ++ flushed.batch.getD [] := by
    cases hb : flushed.batch with
    | none => simp [EventDelivery.afterFlush, onTheirWay, hb]
    | some batch => simp [EventDelivery.afterFlush, onTheirWay, hb]
  have happended : (s.afterFlush flushed).ledger.appended =
      s.ledger.appended ++ flushed.added.toList := rfl
  have hevents : (s.afterFlush flushed).logger = flushed.logger := rfl
  have htally := congrArg (tally e) h
  rw [hbatch, happended, hevents]
  simp only [tally_append] at htally ⊢
  omega

theorem Balanced.flush (hs : Balanced lib before s) (now : Int64) :
    Balanced lib before (s.afterFlush (s.logger.flush s.diagnostics now)) := by
  have hempty : (s.logger.flush s.diagnostics now).logger.events = [] :=
    events_flushImpl s.logger s.diagnostics now
  refine { hs with
    owned := hs.owned.afterFlush _ fun _ ↦ hempty
    stored := hs.stored.afterFlush _
    balance := fun e ↦ ?_ }
  have hbatch : (s.logger.flush s.diagnostics now).logger.events ++
      (s.logger.flush s.diagnostics now).batch.getD [] =
        s.logger.events ++ (s.logger.flush s.diagnostics now).added.toList := by
    rw [EventLogger.flush, events_flushImpl, batch_flushImpl]
    rfl
  have hbalance := hs.balance e
  have hflush := tally_afterFlush (s := s) hbatch e
  simp only [EventDelivery.afterFlush] at hflush ⊢
  omega

theorem Balanced.enqueue (hs : Balanced lib before s) (halive : s.loggerOwners.Alive)
    (event : StatsigEventInternal) (now : Int64) :
    let t := s.afterFlush (s.logger.enqueue s.diagnostics event now)
    Balanced lib before
      { t with ledger := { t.ledger with enqueued := t.ledger.enqueued ++ [event] } } := by
  have hpos : 0 < s.loggerOwners.owners := halive
  have howned := hs.owned.afterFlush (s.logger.enqueue s.diagnostics event now) fun h ↦ by omega
  have hstored := hs.stored.afterFlush (s.logger.enqueue s.diagnostics event now)
  refine { hs with owned := { howned with }, stored := { hstored with }, balance := fun e ↦ ?_ }
  have hbalance := hs.balance e
  have hflush := tally_afterFlush (s := s) (events_enqueue s.logger s.diagnostics event now) e
  simp only [EventDelivery.afterFlush, tally_append] at hflush ⊢
  omega

/-- **One step.**  The retry task does nothing, as its pointer to the logger is empty. -/
theorem balanced_step {a : DeliveryLabel} (hs : Balanced lib before s) (hbuilt : BuiltUtf8 s.sends)
    (hnot : s.crashed = false) (hok : Orderly s a) (h : step lib s a = some t) :
    Balanced lib before t := by
  have hcrashed := (builtUtf8_step lib hbuilt hnot h).2.mp hok.harmless
  rw [step, if_neg (by simp [hnot])] at h
  cases a with
  | enqueue event now =>
    rw [act] at h
    split at h
    · rename_i halive
      obtain rfl := Option.some_inj.mp h
      exact hs.enqueue halive event now
    · exact absurd h (by simp)
  | flush now =>
    rw [act] at h
    split at h
    · obtain rfl := Option.some_inj.mp h
      exact hs.flush now
    · exact absurd h (by simp)
  | mark _ | setUser _ =>
    obtain rfl := Option.some_inj.mp h
    exact { hs with owned := { hs.owned with }, stored := { hs.stored with } }
  | shutdown now =>
    rw [act] at h
    split at h
    · obtain rfl := Option.some_inj.mp h
      have hflush := hs.flush now
      exact { hflush with owned := { hflush.owned with }, stored := { hflush.stored with } }
    · exact absurd h (by simp)
  | lockContext =>
    obtain ⟨context, hlock, rfl⟩ := Option.map_eq_some_iff.mp h
    have halive := Ownership.alive_of_lock hlock
    obtain rfl := Ownership.eq_acquire_of_lock hlock
    exact { hs with owned := hs.owned.lockContext halive, stored := { hs.stored with } }
  | releaseContext =>
    rw [act] at h
    split at h
    · rename_i halive
      obtain rfl := Option.some_inj.mp h
      have howned := hs.owned.dropContext halive.1 fun hone hlast ↦ hok.emptied (by
        simp [frees, hone, hlast])
      obtain ⟨context, loggerOwners, networkOwners, hdrop⟩ := s.dropContext_eq
      rw [hdrop] at howned ⊢
      exact { hs with owned := howned, stored := { hs.stored with } }
    · exact absurd h (by simp)
  | lockLogger =>
    obtain ⟨loggerOwners, hlock, rfl⟩ := Option.map_eq_some_iff.mp h
    obtain rfl := Ownership.eq_acquire_of_lock hlock
    exact { hs with owned := hs.owned.lockLogger, stored := { hs.stored with } }
  | releaseLogger =>
    rw [act] at h
    split at h
    · rename_i hholders
      obtain rfl := Option.some_inj.mp h
      have howned := hs.owned.releaseLogger hholders fun hone ↦ hok.emptied (by simp [frees, hone])
      exact { hs with owned := howned, stored := { hs.stored with } }
    · exact absurd h (by simp)
  | send i world =>
    obtain ⟨send, hsend, rfl⟩ := Option.map_eq_some_iff.mp h
    exact balanced_stepSend hs hbuilt hsend hok hcrashed
  | retry world =>
    rw [act, stepRetry] at h
    rcases hs.retry with hretry | hretry
    · simp only [hretry, hs.retryRef, Ownership.lock_empty] at h
      obtain rfl := Option.some_inj.mp h
      exact { hs with
        retryRef := rfl, retry := .inr rfl
        owned := { hs.owned with }, stored := { hs.stored with } }
    · simp only [hretry] at h
      exact absurd h (by simp)
  | file a =>
    rw [act] at h
    split at h
    · exact absurd h (by simp)
    · rename_i hrequest
      obtain ⟨file, hfile, rfl⟩ := Option.map_eq_some_iff.mp h
      cases a with
      | request q => exact absurd rfl hrequest
      | lose _ | loseOpened _ => exact absurd hok.onTime (by simp [OnTime, writes])
      | task task =>
        obtain ⟨hstored, hfinal⟩ := hs.stored.runTask hfile
        refine { hs with
          owned := { hs.owned with }, stored := hstored, balance := fun e ↦ ?_ }
        simpa only [hfinal] using hs.balance e

theorem balanced_init (sdkKey : Str) (options : StatsigOptions) (sessionId : Str)
    (content : Option Str) :
    Balanced lib (inFile lib content) (init sdkKey options sessionId content) where
  retryRef := rfl
  retry := .inl rfl
  owned := ⟨fun send hsend ↦ absurd hsend (by simp [init]), rfl,
    fun h ↦ absurd (show 1 = 0 from h) one_ne_zero⟩
  stored := ⟨.idle content, Nat.zero_le _, fun send hsend ↦ absurd hsend (by simp [init])⟩
  balance := fun e ↦ by
    simp [init, EventLogger.create, EventLogger.construct, onTheirWay, AsyncFile.final]

open retryableEventPayload (plainText)

/-- One event is accepted and one is refused and saved; a third is logged through a layer while the
client is being shut down, and flushed. -/
def inTime : List DeliveryLabel :=
  logAndSend { eventName := str "my_event" } ++ logAndSave ++
    [.shutdown 125, .lockLogger, .enqueue { eventName := str "my_exposure" } 126, .flush 126,
      .releaseLogger, .send 0 online, .send 0 online, .send 0 online, .releaseContext]

/-- The time of `Shutdown` is up before a worker gets to the batch. -/
def tooLate : List DeliveryLabel :=
  [.enqueue { eventName := str "my_event" } 123, .shutdown 124, .releaseContext, .send 0 online]

end EventDelivery

end Statsig
