import Statsig.Lib.Machine
import Statsig.Lib.Slots
import Mathlib.Data.List.Chain
import Mathlib.Data.List.Nodup
import Mathlib.Data.List.Perm.Basic
import Mathlib.Data.List.ReduceOption

/-!
# Background timers

The loop that `StartBackgroundTimer` gives to the pool, and the handles that stop it.  Any number of
timers run, each taking its steps when the scheduler lets it, while their handles are moved, reset
and destroyed.

The loop looks at its condition, which a handle stores, at three places; the clock is read at five.
`spaced_of_run` says how far its attempts are apart, `stops_of_run` how soon it ends once its
condition is stored, and `controlled_iff` whether there is always a handle that can store it.
-/

set_option autoImplicit false

namespace Statsig

/-! ## The loop -/

/-- What the loop does next. -/
inductive TimerPc where
  /-- `last_attempt = Time::now()` -/
  | start
  /-- `while (!shutdown_condition->load())` -/
  | testLoop
  | testInterval
  /-- `sleep_start = Time::now()` -/
  | startSleep
  | sleep
  /-- The first half of the inner loop's condition. -/
  | testFlag
  /-- The second half. -/
  | testSleep
  /-- `if (shutdown_condition->load()) break;` -/
  | testAgain
  /-- `last_attempt = Time::now()` -/
  | attempt
  | run
  | done
  deriving DecidableEq, Repr

/-- A timer with its condition, and a record of what it did. -/
structure Timer where
  intervalMs : ℤ
  shutdownCondition : Bool := false
  pc : TimerPc := .start
  lastAttempt : ℤ := 0
  sleepStart : ℤ := 0
  /-- The times that `last_attempt` was set to, of which the first is when the loop began. -/
  attempts : List ℤ := []
  /-- How often the task was run. -/
  ran : ℕ := 0
  /-- How often it began to sleep. -/
  sleeps : ℕ := 0
  deriving DecidableEq, Repr

namespace Timer

/-- One step, at a time. -/
def step (timer : Timer) (now : ℤ) : Option Timer :=
  match timer.pc with
  | .start => some { timer with lastAttempt := now, attempts := [now], pc := .testLoop }
  | .testLoop =>
    if timer.shutdownCondition then some { timer with pc := .done }
    else some { timer with pc := .testInterval }
  | .testInterval =>
    if now - timer.lastAttempt < timer.intervalMs then some { timer with pc := .startSleep }
    else some { timer with pc := .testAgain }
  | .startSleep =>
    some { timer with sleepStart := now, sleeps := timer.sleeps + 1, pc := .sleep }
  | .sleep => some { timer with pc := .testFlag }
  | .testFlag =>
    if timer.shutdownCondition then some { timer with pc := .testLoop }
    else some { timer with pc := .testSleep }
  | .testSleep =>
    if now - timer.sleepStart < timer.intervalMs then some { timer with pc := .sleep }
    else some { timer with pc := .testLoop }
  | .testAgain =>
    if timer.shutdownCondition then some { timer with pc := .done }
    else some { timer with pc := .attempt }
  | .attempt =>
    some { timer with lastAttempt := now, attempts := timer.attempts ++ [now], pc := .run }
  | .run => some { timer with ran := timer.ran + 1, pc := .testLoop }
  | .done => none

/-- The handle's part: `shutdown_condition->store(true)`. -/
def stop (timer : Timer) : Timer := { timer with shutdownCondition := true }

/-! ### How far the attempts are apart -/

/-- The loop has begun, and the clock has not gone back since its last attempt. -/
def Begun (timer : Timer) (now : ℤ) : Prop :=
  timer.attempts.getLast? = some timer.lastAttempt ∧ timer.lastAttempt ≤ now

/-- It has not slept since its last attempt. -/
def Rested (timer : Timer) : Prop := timer.sleeps < timer.attempts.length

/-- It is time for the next attempt. -/
def Due (timer : Timer) (now : ℤ) : Prop := timer.lastAttempt + timer.intervalMs ≤ now

/-- It began to sleep after its last attempt. -/
def Asleep (timer : Timer) (now : ℤ) : Prop :=
  timer.lastAttempt ≤ timer.sleepStart ∧ timer.sleepStart ≤ now

/-- What is known of the times at each place of the loop. -/
def Timely (timer : Timer) (now : ℤ) : TimerPc → Prop
  | .start => timer.attempts = []
  | .testLoop => timer.Begun now ∧
    (timer.Rested ∨ timer.Due now ∨ timer.shutdownCondition = true)
  | .testInterval => timer.Begun now ∧ (timer.Rested ∨ timer.Due now)
  | .startSleep | .run => timer.Begun now ∧ timer.Rested
  | .sleep | .testFlag | .testSleep => timer.Begun now ∧ timer.Asleep now
  | .testAgain | .attempt => timer.Begun now ∧ timer.Due now
  | .done => True

/-- What holds of a timer whose clock has come to this time, and has never gone back. -/
structure Spaced (now : ℤ) (timer : Timer) : Prop where
  chain : timer.attempts.IsChain fun a b ↦ a + timer.intervalMs ≤ b
  sleeps : timer.sleeps ≤ timer.attempts.length
  timely : timer.Timely now timer.pc

theorem Spaced.mono {now now' : ℤ} {timer : Timer} (h : timer.Spaced now) (hle : now ≤ now') :
    timer.Spaced now' := by
  have hbegun : timer.Begun now → timer.Begun now' := fun h ↦ ⟨h.1, Int.le_trans h.2 hle⟩
  have hdue : timer.Due now → timer.Due now' := fun h ↦ Int.le_trans h hle
  have hasleep : timer.Asleep now → timer.Asleep now' := fun h ↦ ⟨h.1, Int.le_trans h.2 hle⟩
  refine ⟨h.chain, h.sleeps, ?_⟩
  have htimely := h.timely
  cases hpc : timer.pc <;> rw [hpc] at htimely
  case start | done => exact htimely
  case testLoop => exact ⟨hbegun htimely.1, htimely.2.imp_right (Or.imp_left hdue)⟩
  case testInterval => exact ⟨hbegun htimely.1, htimely.2.imp_right hdue⟩
  case startSleep | run => exact ⟨hbegun htimely.1, htimely.2⟩
  case sleep | testFlag | testSleep => exact ⟨hbegun htimely.1, hasleep htimely.2⟩
  case testAgain | attempt => exact ⟨hbegun htimely.1, hdue htimely.2⟩

theorem Spaced.stop {now : ℤ} {timer : Timer} (h : timer.Spaced now) : timer.stop.Spaced now := by
  refine ⟨h.chain, h.sleeps, ?_⟩
  have htimely := h.timely
  show timer.stop.Timely now timer.pc
  cases hpc : timer.pc <;> rw [hpc] at htimely
  case testLoop => exact ⟨htimely.1, .inr (.inr rfl)⟩
  all_goals exact htimely

/-- **One step**, at the time that the clock has come to. -/
theorem Spaced.step {now : ℤ} {timer timer' : Timer} (h : timer.Spaced now)
    (hstep : timer.step now = some timer') : timer'.Spaced now := by
  obtain ⟨hchain, hsleeps, htimely⟩ := h
  rw [Timer.step] at hstep
  split at hstep <;> rename_i hpc <;> rw [hpc] at htimely
  · -- `start`
    obtain rfl := Option.some_inj.mp hstep
    have hzero : timer.sleeps ≤ 0 := by
      rw [(htimely : timer.attempts = [])] at hsleeps
      exact hsleeps
    have hone : timer.sleeps < 1 := by omega
    exact ⟨by simp, hone.le, ⟨rfl, Int.le_refl now⟩, .inl hone⟩
  · -- `testLoop`
    obtain ⟨hbegun, hwhy⟩ := htimely
    split at hstep <;> rename_i hstop <;> obtain rfl := Option.some_inj.mp hstep
    · exact ⟨hchain, hsleeps, trivial⟩
    · refine ⟨hchain, hsleeps, hbegun, ?_⟩
      obtain hrested | hdue | hstop' := hwhy
      · exact .inl hrested
      · exact .inr hdue
      · exact absurd hstop' hstop
  · -- `testInterval`
    obtain ⟨hbegun, hwhy⟩ := htimely
    split at hstep <;> rename_i hinterval <;> obtain rfl := Option.some_inj.mp hstep
    · refine ⟨hchain, hsleeps, hbegun, hwhy.resolve_right fun hdue ↦ ?_⟩
      simp only [Due] at hdue
      omega
    · refine ⟨hchain, hsleeps, hbegun, ?_⟩
      simp only [Due]
      omega
  · -- `startSleep`
    obtain ⟨hbegun, hrested⟩ := htimely
    obtain rfl := Option.some_inj.mp hstep
    exact ⟨hchain, hrested, hbegun, hbegun.2, Int.le_refl now⟩
  · -- `sleep`
    obtain rfl := Option.some_inj.mp hstep
    exact ⟨hchain, hsleeps, htimely⟩
  · -- `testFlag`
    obtain ⟨hbegun, hasleep⟩ := htimely
    split at hstep <;> rename_i hstop <;> obtain rfl := Option.some_inj.mp hstep
    · exact ⟨hchain, hsleeps, hbegun, .inr (.inr hstop)⟩
    · exact ⟨hchain, hsleeps, hbegun, hasleep⟩
  · -- `testSleep`
    obtain ⟨hbegun, hasleep⟩ := htimely
    split at hstep <;> rename_i hinterval <;> obtain rfl := Option.some_inj.mp hstep
    · exact ⟨hchain, hsleeps, hbegun, hasleep⟩
    · refine ⟨hchain, hsleeps, hbegun, .inr (.inl ?_)⟩
      simp only [Asleep] at hasleep
      simp only [Due]
      omega
  · -- `testAgain`
    split at hstep <;> obtain rfl := Option.some_inj.mp hstep
    · exact ⟨hchain, hsleeps, trivial⟩
    · exact ⟨hchain, hsleeps, htimely⟩
  · -- `attempt`
    obtain ⟨⟨hlast, -⟩, hdue⟩ := htimely
    obtain rfl := Option.some_inj.mp hstep
    refine ⟨?_, by simp; omega, ⟨by simp, Int.le_refl now⟩, ?_⟩
    · refine List.isChain_append.mpr ⟨hchain, by simp, fun a ha b hb ↦ ?_⟩
      obtain rfl : now = b := by simpa using hb
      obtain rfl : timer.lastAttempt = a := Option.some_inj.mp (hlast.symm.trans ha)
      exact hdue
    · simp only [Rested, List.length_append, List.length_singleton]
      omega
  · -- `run`
    obtain rfl := Option.some_inj.mp hstep
    exact ⟨hchain, hsleeps, htimely.1, .inl htimely.2⟩
  · exact absurd hstep (by simp)

/-- How many attempts the task has not been run for, with the one that only begins the loop. -/
def unrun (timer : Timer) : ℕ :=
  match timer.pc with
  | .start => 0
  | .run => 2
  | _ => 1

/-- The task was run once for each of the others. -/
def Counted (timer : Timer) : Prop :=
  timer.ran + timer.unrun = timer.attempts.length ∧ (timer.pc = .start → timer.attempts = [])

theorem Counted.step {now : ℤ} {timer timer' : Timer} (h : timer.Counted)
    (hstep : timer.step now = some timer') : timer'.Counted := by
  obtain ⟨h, hstart⟩ := h
  cases hpc : timer.pc <;> simp only [Timer.step, hpc, unrun] at hstep h
  case done => exact absurd hstep (by simp)
  case start =>
    obtain rfl := Option.some_inj.mp hstep
    rw [hstart hpc] at h
    exact ⟨by simpa [unrun] using h, by simp⟩
  case testLoop | testInterval | testFlag | testSleep | testAgain =>
    split at hstep <;> obtain rfl := Option.some_inj.mp hstep <;> exact ⟨h, by simp⟩
  case attempt =>
    obtain rfl := Option.some_inj.mp hstep
    refine ⟨?_, by simp⟩
    simp only [unrun, List.length_append, List.length_singleton]
    omega
  case run =>
    obtain rfl := Option.some_inj.mp hstep
    refine ⟨?_, by simp⟩
    simp only [unrun]
    omega
  all_goals
    obtain rfl := Option.some_inj.mp hstep
    exact ⟨h, by simp⟩

/-! ### How soon it ends -/

end Timer

/-- How many steps are left at most once the condition is stored. -/
def TimerPc.left : TimerPc → ℕ
  | .done => 0
  | .testLoop | .testAgain => 1
  | .start | .testFlag | .run => 2
  | .sleep | .attempt => 3
  | .startSleep | .testSleep => 4
  | .testInterval => 5

/-- The loop is past the last look at the condition before it runs the task. -/
def TimerPc.committed : TimerPc → ℕ
  | .attempt | .run => 1
  | _ => 0

namespace Timer

theorem step_frame {now : ℤ} {timer timer' : Timer} (hstep : timer.step now = some timer') :
    timer'.shutdownCondition = timer.shutdownCondition ∧ timer'.intervalMs = timer.intervalMs := by
  cases hpc : timer.pc <;> simp only [step, hpc] at hstep
  case done => exact absurd hstep (by simp)
  case testLoop | testInterval | testFlag | testSleep | testAgain =>
    split at hstep <;> obtain rfl := Option.some_inj.mp hstep <;> exact ⟨rfl, rfl⟩
  all_goals
    obtain rfl := Option.some_inj.mp hstep
    exact ⟨rfl, rfl⟩

theorem step_ne_none {timer : Timer} (h : timer.pc ≠ .done) (now : ℤ) : timer.step now ≠ none := by
  cases hpc : timer.pc <;> simp only [step, hpc]
  case done => exact absurd hpc h
  all_goals first | exact Option.some_ne_none _ | (split <;> exact Option.some_ne_none _)

/-- **A step after the condition was stored.** -/
theorem step_of_stopped {now : ℤ} {timer timer' : Timer} (hstop : timer.shutdownCondition = true)
    (hstep : timer.step now = some timer') :
    timer'.pc.left < timer.pc.left ∧
      timer'.ran + timer'.pc.committed = timer.ran + timer.pc.committed := by
  cases hpc : timer.pc <;> simp only [step, hpc, hstop, if_true] at hstep
  case testInterval | testSleep =>
    split at hstep <;> obtain rfl := Option.some_inj.mp hstep <;>
      exact ⟨by simp [TimerPc.left], rfl⟩
  case done => exact absurd hstep (by simp)
  all_goals
    obtain rfl := Option.some_inj.mp hstep
    exact ⟨by simp [TimerPc.left], rfl⟩

end Timer

/-! ## The handles -/

/-- `BackgroundTimerHandle`: the timer whose condition it has. -/
abbrev TimerHandle := Option ℕ

/-- All timers, with all handles that there have been. -/
structure Timers where
  clock : ℤ
  timers : List Timer := []
  handles : List TimerHandle := []
  deriving DecidableEq, Repr

namespace Timers

inductive Label where
  /-- A handle is made without a timer. -/
  | declare
  /-- `StartBackgroundTimer`, with the handle that it returns. -/
  | start (intervalMs : ℤ)
  /-- A handle is made from another one. -/
  | moveConstruct (other : ℕ)
  /-- A handle is assigned from another one. -/
  | moveAssign (i other : ℕ)
  | reset (i : ℕ)
  | destroy (i : ℕ)
  /-- A step of a timer's loop. -/
  | step (timer : ℕ) (now : ℤ)
  deriving DecidableEq, Repr

/-- `Reset`, which stores the condition of the timer that the handle has, if it has one. -/
def resetHandle (s : Timers) (i : ℕ) : Option Timers :=
  (s.handles[i]?).map fun handle ↦
    match handle with
    | none => s
    | some timer =>
      { s with timers := s.timers.modify timer Timer.stop, handles := s.handles.set i none }

/-- One step. -/
def step (s : Timers) : Label → Option Timers
  | .declare => some { s with handles := s.handles ++ [none] }
  | .start intervalMs =>
    some { s with timers := s.timers ++ [{ intervalMs }]
                  handles := s.handles ++ [some s.timers.length] }
  | .moveConstruct other =>
    (s.handles[other]?).map fun handle ↦
      { s with handles := s.handles.set other none ++ [handle] }
  | .moveAssign i other =>
    (s.handles[i]?).bind fun _ ↦ (s.handles[other]?).map fun handle ↦
      { s with handles := (s.handles.set i handle).set other none }
  | .reset i | .destroy i => s.resetHandle i
  | .step timer now =>
    (s.timers[timer]?).bind fun t ↦ (t.step now).map fun t' ↦
      { s with clock := now, timers := s.timers.set timer t' }

/-! ### How far the attempts of all timers are apart -/

/-- The clock does not go back. -/
def Forward (s : Timers) : Label → Prop
  | .step _ now => s.clock ≤ now
  | _ => True

instance (s : Timers) : ∀ a, Decidable (s.Forward a)
  | .step _ now => inferInstanceAs (Decidable (s.clock ≤ now))
  | .declare | .start _ | .moveConstruct _ | .moveAssign _ _ | .reset _ | .destroy _ =>
    inferInstanceAs (Decidable True)

/-- What becomes of one timer: it takes a step, or its condition may be stored. -/
theorem timer_of_step {s u : Timers} {a : Label} {t : ℕ} {timer : Timer} (h : s.step a = some u)
    (htimer : s.timers[t]? = some timer) :
    (∃ now timer', a = .step t now ∧ timer.step now = some timer' ∧ u.timers[t]? = some timer') ∨
      ((∀ now, a ≠ .step t now) ∧
        (u.timers[t]? = some timer ∨ u.timers[t]? = some timer.stop)) := by
  have hlt := (List.getElem?_eq_some_iff.mp htimer).1
  cases a with
  | declare =>
    obtain rfl := Option.some_inj.mp h
    exact .inr ⟨by simp, .inl htimer⟩
  | start intervalMs =>
    obtain rfl := Option.some_inj.mp h
    exact .inr ⟨by simp, .inl (by rw [List.getElem?_append_left hlt, htimer])⟩
  | moveConstruct other =>
    obtain ⟨handle, -, rfl⟩ := Option.map_eq_some_iff.mp h
    exact .inr ⟨by simp, .inl htimer⟩
  | moveAssign i other =>
    obtain ⟨_, -, h⟩ := Option.bind_eq_some_iff.mp h
    obtain ⟨handle, -, rfl⟩ := Option.map_eq_some_iff.mp h
    exact .inr ⟨by simp, .inl htimer⟩
  | reset i | destroy i =>
    obtain ⟨handle, -, rfl⟩ := Option.map_eq_some_iff.mp h
    refine .inr ⟨by simp, ?_⟩
    cases handle with
    | none => exact .inl htimer
    | some t' =>
      simp only [List.getElem?_modify, htimer]
      by_cases ht : t' = t
      · exact .inr (by simp [ht])
      · exact .inl (by simp [ht])
  | step t' now =>
    obtain ⟨timer', htimer', h⟩ := Option.bind_eq_some_iff.mp h
    obtain ⟨timer'', hstep, rfl⟩ := Option.map_eq_some_iff.mp h
    by_cases ht : t' = t
    · subst ht
      obtain rfl := Option.some_inj.mp (htimer.symm.trans htimer')
      exact .inl ⟨now, timer'', rfl, hstep, by simp [List.getElem?_set_self hlt]⟩
    · refine .inr ⟨fun now' ↦ by simp [ht], .inl ?_⟩
      simp [List.getElem?_set_ne ht, htimer]

/-- A timer is either one that there was, or one that has just been started. -/
theorem timer_or_new_of_step {s u : Timers} {a : Label} {t : ℕ} {timer' : Timer}
    (h : s.step a = some u) (htimer' : u.timers[t]? = some timer') :
    (∃ timer, s.timers[t]? = some timer) ∨
      ∃ intervalMs, a = .start intervalMs ∧ timer' = { intervalMs } := by
  by_cases hlt : t < s.timers.length
  · exact .inl ⟨_, List.getElem?_eq_getElem hlt⟩
  · have hlt' := (List.getElem?_eq_some_iff.mp htimer').1
    cases a with
    | start intervalMs =>
      obtain rfl := Option.some_inj.mp h
      refine .inr ⟨intervalMs, rfl, ?_⟩
      rw [List.getElem?_append_right (Nat.le_of_not_lt hlt)] at htimer'
      exact (List.mem_singleton.mp (List.mem_of_getElem? htimer'))
    | declare =>
      obtain rfl := Option.some_inj.mp h
      exact absurd hlt' hlt
    | moveConstruct other =>
      obtain ⟨handle, -, rfl⟩ := Option.map_eq_some_iff.mp h
      exact absurd hlt' hlt
    | moveAssign i other =>
      obtain ⟨_, -, h⟩ := Option.bind_eq_some_iff.mp h
      obtain ⟨handle, -, rfl⟩ := Option.map_eq_some_iff.mp h
      exact absurd hlt' hlt
    | reset i | destroy i =>
      obtain ⟨handle, -, rfl⟩ := Option.map_eq_some_iff.mp h
      cases handle with
      | none => exact absurd hlt' hlt
      | some t' => exact absurd (by simpa using hlt') hlt
    | step t' now =>
      obtain ⟨timer, -, h⟩ := Option.bind_eq_some_iff.mp h
      obtain ⟨timer'', -, rfl⟩ := Option.map_eq_some_iff.mp h
      exact absurd (by simpa using hlt') hlt

theorem clock_of_step {s u : Timers} {a : Label} (h : s.step a = some u)
    (hne : ∀ t now, a ≠ .step t now) : u.clock = s.clock := by
  cases a with
  | declare | start intervalMs =>
    obtain rfl := Option.some_inj.mp h
    rfl
  | moveConstruct other =>
    obtain ⟨handle, -, rfl⟩ := Option.map_eq_some_iff.mp h
    rfl
  | moveAssign i other =>
    obtain ⟨_, -, h⟩ := Option.bind_eq_some_iff.mp h
    obtain ⟨handle, -, rfl⟩ := Option.map_eq_some_iff.mp h
    rfl
  | reset i | destroy i =>
    obtain ⟨handle, -, rfl⟩ := Option.map_eq_some_iff.mp h
    cases handle <;> rfl
  | step t now => exact absurd rfl (hne t now)

theorem clock_of_step_timer {s u : Timers} {t : ℕ} {now : ℤ} (h : s.step (.step t now) = some u) :
    u.clock = now := by
  obtain ⟨timer, -, h⟩ := Option.bind_eq_some_iff.mp h
  obtain ⟨timer', -, rfl⟩ := Option.map_eq_some_iff.mp h
  rfl

/-- Every timer keeps its times. -/
def AllSpaced (s : Timers) : Prop :=
  ∀ (t : ℕ) (timer : Timer), s.timers[t]? = some timer → timer.Spaced s.clock ∧ timer.Counted

theorem allSpaced_step {s u : Timers} {a : Label} (hs : s.AllSpaced) (hforward : s.Forward a)
    (h : s.step a = some u) : u.AllSpaced := by
  intro t timer' htimer'
  have hle : s.clock ≤ u.clock := by
    cases a with
    | step t' now =>
      rw [clock_of_step_timer h]
      exact hforward
    | _ => exact Int.le_of_eq (clock_of_step h (by simp)).symm
  obtain ⟨timer, htimer⟩ | ⟨intervalMs, -, rfl⟩ := timer_or_new_of_step h htimer'
  · obtain ⟨hspaced, hcounted⟩ := hs t timer htimer
    obtain ⟨now, timer'', rfl, hstep, htimer''⟩ | ⟨-, htimer'' | htimer''⟩ :=
      timer_of_step h htimer <;> obtain rfl := Option.some_inj.mp (htimer'.symm.trans htimer'')
    · rw [clock_of_step_timer h] at hle ⊢
      exact ⟨(hspaced.mono hle).step hstep, hcounted.step hstep⟩
    · exact ⟨hspaced.mono hle, hcounted⟩
    · exact ⟨(hspaced.mono hle).stop, hcounted⟩
  · exact ⟨⟨List.isChain_nil, Nat.zero_le _, rfl⟩, rfl, fun _ ↦ rfl⟩

/-- **Attempts are at least the interval apart**, whenever the clock does not go back, whatever is
done with the handles, and however the loops are scheduled: the task of a timer is run once for
each of its attempts after the first, two attempts in a row are at least the interval apart, and
there is no more than one sleep for each attempt. -/
theorem spaced_of_run {clock : ℤ} {labels : List Label} {s : Timers} {t : ℕ} {timer : Timer}
    (hforward : Machine.AllSteps step Forward { clock } labels)
    (hrun : Machine.run step { clock } labels = some s) (htimer : s.timers[t]? = some timer) :
    (timer.attempts.IsChain fun a b ↦ a + timer.intervalMs ≤ b) ∧
      timer.ran + timer.unrun = timer.attempts.length ∧ timer.sleeps ≤ timer.attempts.length := by
  have hs : s.AllSpaced :=
    Machine.run_induct allSpaced_step (fun _ _ h ↦ absurd h (by simp)) hforward hrun
  obtain ⟨hspaced, hcounted⟩ := hs t timer htimer
  exact ⟨hspaced.chain, hcounted.1, hspaced.sleeps⟩

/-- A timer of ten milliseconds that has been through its loop once. -/
def oneRound : List Label :=
  [.start 10, .step 0 100, .step 0 100, .step 0 101, .step 0 101, .step 0 111, .step 0 111,
    .step 0 111, .step 0 112, .step 0 112, .step 0 112, .step 0 113, .step 0 113]

theorem spaced_oneRound : ∃ s timer, Machine.run step { clock := 0 } oneRound = some s ∧
    s.timers[0]? = some timer ∧ timer.attempts = [100, 113] ∧
    timer.attempts.IsChain fun a b ↦ a + timer.intervalMs ≤ b := by
  have hforward : Machine.AllSteps step Forward { clock := 0 } oneRound := by decide +kernel
  have hlast : ((Machine.run step { clock := 0 } oneRound).bind fun s ↦ s.timers[0]?) = some
      { intervalMs := 10, pc := .testLoop, lastAttempt := 113, sleepStart := 101
        attempts := [100, 113], ran := 1, sleeps := 1 } := by decide +kernel
  obtain ⟨s, hs, htimer⟩ := Option.bind_eq_some_iff.mp hlast
  exact ⟨s, _, hs, htimer, rfl, (spaced_of_run hforward hs htimer).1⟩

/-! ### How soon a timer ends -/

/-- A step of this timer's loop. -/
def takes (t : ℕ) : Label → Bool
  | .step t' _ => t' == t
  | _ => false

/-- What is known, after these steps, of a timer whose condition was stored before the first. -/
def Stopping (t : ℕ) (timer : Timer) (labels : List Label) (s : Timers) : Prop :=
  ∃ timer', s.timers[t]? = some timer' ∧ timer'.shutdownCondition = true ∧
    labels.countP (takes t) + timer'.pc.left ≤ timer.pc.left ∧
    timer'.ran + timer'.pc.committed = timer.ran + timer.pc.committed

theorem stopping_step {t : ℕ} {timer : Timer} {labels : List Label} {s u : Timers} {a : Label}
    (hs : Stopping t timer labels s) (h : s.step a = some u) :
    Stopping t timer (labels ++ [a]) u := by
  obtain ⟨timer', htimer', hshutdown, hleft, hran⟩ := hs
  obtain ⟨now, timer'', rfl, hnext, htimer''⟩ | ⟨hne, hsame⟩ := timer_of_step h htimer'
  · obtain ⟨hless, hran'⟩ := Timer.step_of_stopped hshutdown hnext
    refine ⟨timer'', htimer'', (Timer.step_frame hnext).1.trans hshutdown, ?_, by omega⟩
    rw [List.countP_append, List.countP_singleton, takes, beq_self_eq_true, if_pos rfl]
    omega
  · have hnot : takes t a = false := by
      cases a with
      | step t' now =>
        have htt : t' ≠ t := fun htt ↦ hne now (by rw [htt])
        simpa [takes] using htt
      | _ => rfl
    have hcount : (labels ++ [a]).countP (takes t) = labels.countP (takes t) := by
      simp [List.countP_append, hnot]
    obtain hsame | hsame := hsame
    · exact ⟨timer', hsame, hshutdown, hcount ▸ hleft, hran⟩
    · exact ⟨timer'.stop, hsame, rfl, hcount ▸ hleft, hran⟩

/-- **A timer ends soon after its handle is reset**, or destroyed, whatever else happens in between
and whatever the clock shows: its loop takes at most five more steps, of which none is ever
disabled before the last, and runs the task at most once more, and not at all unless it was already
past its last look at the condition. -/
theorem stops_of_run {s u : Timers} {i t : ℕ} {timer : Timer} {a : Label} {labels : List Label}
    (ha : a = .reset i ∨ a = .destroy i) (hhandle : s.handles[i]? = some (some t))
    (htimer : s.timers[t]? = some timer) (hrun : Machine.run step s (a :: labels) = some u) :
    ∃ timer', u.timers[t]? = some timer' ∧ labels.countP (takes t) + timer'.pc.left ≤ 5 ∧
      (timer'.pc = .done ∨ ∀ now, step u (.step t now) ≠ none) ∧
      timer'.ran ≤ timer.ran + timer.pc.committed := by
  obtain ⟨v, hv, hrest⟩ := Machine.run_cons_eq_some.mp hrun
  have hstopped : v.timers[t]? = some timer.stop := by
    have hreset : s.resetHandle i = some v := by obtain rfl | rfl := ha <;> exact hv
    rw [resetHandle, hhandle] at hreset
    obtain rfl := Option.some_inj.mp hreset
    simp [htimer]
  have hstart : Stopping t timer [] v := ⟨_, hstopped, rfl, by simp [Timer.stop], rfl⟩
  obtain ⟨timer', htimer', -, hleft, hran⟩ :=
    Machine.run_induct_hist (fun hs _ hw ↦ stopping_step hs hw) hstart
      (Machine.allSteps_true v labels) hrest
  have hfive : timer.pc.left ≤ 5 := by cases timer.pc <;> simp [TimerPc.left]
  refine ⟨timer', htimer', by simpa using hleft.trans hfive, ?_, by omega⟩
  by_cases hdone : timer'.pc = .done
  · exact .inl hdone
  · have hnext := Timer.step_ne_none hdone
    refine .inr fun now ↦ ?_
    simpa [step, htimer'] using hnext now

/-- A timer that has just begun to sleep when its handle is reset. -/
def resetAsleep : List Label :=
  [.start 10, .step 0 100, .step 0 100, .step 0 101, .step 0 101]

theorem stops_resetAsleep : ∃ s u timer', Machine.run step { clock := 0 } resetAsleep = some s ∧
    Machine.run step s [.reset 0, .step 0 111, .step 0 111, .step 0 111] = some u ∧
    u.timers[0]? = some timer' ∧ 3 + timer'.pc.left ≤ 5 ∧ timer'.ran ≤ 0 := by
  let s : Timers :=
    { clock := 101, handles := [some 0]
      timers := [{ intervalMs := 10, pc := .sleep, lastAttempt := 100, sleepStart := 101
                   attempts := [100], sleeps := 1 }] }
  have hs : Machine.run step { clock := 0 } resetAsleep = some s := by decide +kernel
  obtain ⟨u, hu⟩ := Option.isSome_iff_exists.mp
    (show (Machine.run step s [.reset 0, .step 0 111, .step 0 111, .step 0 111]).isSome = true by
      decide +kernel)
  obtain ⟨timer', htimer', hleft, -, hran⟩ := stops_of_run (.inl rfl) (by rfl) (by rfl) hu
  exact ⟨s, u, timer', hs, hu, htimer', hleft, hran⟩

/-! ### Who can end a timer -/

/-- The timers that a handle can end. -/
def held (s : Timers) : List ℕ := s.handles.reduceOption

/-- The timers that nobody has ended yet. -/
def Running (s : Timers) (t : ℕ) : Prop :=
  ∃ timer, s.timers[t]? = some timer ∧ timer.shutdownCondition = false

theorem Running.lt {s : Timers} {t : ℕ} (h : s.Running t) : t < s.timers.length := by
  obtain ⟨timer, htimer, -⟩ := h
  exact (List.getElem?_eq_some_iff.mp htimer).1

/-- A handle is assigned only while it has no timer. -/
def ToEmpty (s : Timers) : Label → Prop
  | .moveAssign i _ => s.handles[i]? = some none
  | _ => True

instance (s : Timers) : ∀ a, Decidable (s.ToEmpty a)
  | .moveAssign i _ => inferInstanceAs (Decidable (s.handles[i]? = some none))
  | .declare | .start _ | .moveConstruct _ | .reset _ | .destroy _ | .step _ _ =>
    inferInstanceAs (Decidable True)

theorem held_move {handles : List TimerHandle} {i other : ℕ} {old handle : TimerHandle}
    (hi : handles[i]? = some old) (hother : handles[other]? = some handle) :
    (old :: (handles.set i handle).set other none).reduceOption.Perm handles.reduceOption := by
  have hother' : (handles.set i handle)[other]? = some handle := by
    rw [List.getElem?_set]
    split
    · rename_i h
      rw [if_pos (h ▸ (List.getElem?_eq_some_iff.mp hi).1)]
    · exact hother
  have hall : (handle :: old :: (handles.set i handle).set other none).Perm
      (handle :: none :: handles) :=
    calc (handle :: old :: (handles.set i handle).set other none).Perm
          (old :: handle :: (handles.set i handle).set other none) := .swap ..
      _ |>.Perm (old :: none :: handles.set i handle) := (Slots.perm_cons_set hother').cons old
      _ |>.Perm (none :: old :: handles.set i handle) := .swap ..
      _ |>.Perm (none :: handle :: handles) := (Slots.perm_cons_set hi).cons none
      _ |>.Perm (handle :: none :: handles) := .swap ..
  exact hall.cons_inv.filterMap id

theorem running_congr {s u : Timers} (h : u.timers = s.timers) (t : ℕ) :
    u.Running t ↔ s.Running t := by
  rw [Running, Running, h]

/-- **One step**: the handles have the same timers as before, or one more that has just been
started, or one less that has just been ended, or one less that goes on. -/
theorem held_of_step {s u : Timers} {a : Label} (h : s.step a = some u) :
    (s.ToEmpty a ∧ u.held.Perm s.held ∧ ∀ t, u.Running t ↔ s.Running t) ∨
    (s.ToEmpty a ∧ u.held = s.held ++ [s.timers.length] ∧
      ∀ t, u.Running t ↔ s.Running t ∨ t = s.timers.length) ∨
    (∃ t, s.ToEmpty a ∧ (t :: u.held).Perm s.held ∧ ∀ t', u.Running t' ↔ s.Running t' ∧ t' ≠ t) ∨
    ∃ t, ¬ s.ToEmpty a ∧ (t :: u.held).Perm s.held ∧ ∀ t', u.Running t' ↔ s.Running t' := by
  cases a with
  | declare =>
    obtain rfl := Option.some_inj.mp h
    exact .inl ⟨trivial, by simp [held, List.reduceOption_append], running_congr rfl⟩
  | start intervalMs =>
    obtain rfl := Option.some_inj.mp h
    refine .inr (.inl ⟨trivial, by simp [held, List.reduceOption_append], fun t ↦ ?_⟩)
    constructor
    · rintro ⟨timer, htimer, hflag⟩
      obtain hlt | rfl | hgt := lt_trichotomy t s.timers.length
      · exact .inl ⟨timer, by rwa [List.getElem?_append_left hlt] at htimer, hflag⟩
      · exact .inr rfl
      · have := (List.getElem?_eq_some_iff.mp htimer).1
        simp only [List.length_append, List.length_singleton] at this
        omega
    · rintro (h | rfl)
      · obtain ⟨timer, htimer, hflag⟩ := h
        have hlt := (List.getElem?_eq_some_iff.mp htimer).1
        exact ⟨timer, by rw [List.getElem?_append_left hlt, htimer], hflag⟩
      · exact ⟨_, List.getElem?_concat_length, rfl⟩
  | moveConstruct other =>
    obtain ⟨handle, hother, rfl⟩ := Option.map_eq_some_iff.mp h
    refine .inl ⟨trivial, ?_, running_congr rfl⟩
    exact ((List.perm_append_singleton handle _).trans (Slots.perm_cons_set hother)).filterMap id
  | moveAssign i other =>
    obtain ⟨old, hi, h⟩ := Option.bind_eq_some_iff.mp h
    obtain ⟨handle, hother, rfl⟩ := Option.map_eq_some_iff.mp h
    cases old with
    | none => exact .inl ⟨hi, held_move hi hother, running_congr rfl⟩
    | some t =>
      exact .inr (.inr (.inr ⟨t, by simp [ToEmpty, hi], held_move hi hother, running_congr rfl⟩))
  | reset i | destroy i =>
    obtain ⟨handle, hi, rfl⟩ := Option.map_eq_some_iff.mp h
    cases handle with
    | none => exact .inl ⟨trivial, .refl _, fun _ ↦ .rfl⟩
    | some t =>
      refine .inr (.inr (.inl ⟨t, trivial, (Slots.perm_cons_set hi).filterMap id, fun t' ↦ ?_⟩))
      simp only [Running, List.getElem?_modify]
      by_cases ht : t = t'
      · simp [ht, Timer.stop]
      · simp [ht, Ne.symm ht]
  | step t now =>
    obtain ⟨timer, htimer, h⟩ := Option.bind_eq_some_iff.mp h
    obtain ⟨timer', hnext, rfl⟩ := Option.map_eq_some_iff.mp h
    refine .inl ⟨trivial, .refl _, fun t' ↦ ?_⟩
    have hlt := (List.getElem?_eq_some_iff.mp htimer).1
    by_cases ht : t = t'
    · subst ht
      simp [Running, List.getElem?_set_self hlt, htimer, (Timer.step_frame hnext).1]
    · simp [Running, List.getElem?_set_ne ht]

/-- What the handles have is running, and no two have the same timer. -/
structure Owned (s : Timers) : Prop where
  nodup : s.held.Nodup
  running : ∀ t ∈ s.held, s.Running t

/-- Everything that is running can be ended. -/
def Controlled (s : Timers) : Prop := ∀ t, s.Running t → t ∈ s.held

theorem Owned.step {s u : Timers} {a : Label} (hs : s.Owned) (h : s.step a = some u) :
    u.Owned := by
  obtain ⟨-, hheld, hrun⟩ | ⟨-, hheld, hrun⟩ | ⟨t, -, hheld, hrun⟩ | ⟨t, -, hheld, hrun⟩ :=
    held_of_step h
  · exact ⟨hheld.nodup_iff.mpr hs.nodup,
      fun t ht ↦ (hrun t).mpr (hs.running t (hheld.mem_iff.mp ht))⟩
  · constructor
    · rw [hheld]
      refine hs.nodup.append (List.nodup_singleton _) (List.disjoint_singleton.mpr fun hmem ↦ ?_)
      exact absurd (hs.running _ hmem).lt (lt_irrefl _)
    · intro t ht
      rw [hheld, List.mem_append, List.mem_singleton] at ht
      exact (hrun t).mpr (ht.imp_left (hs.running t))
  · obtain ⟨hnot, hnodup⟩ := List.nodup_cons.mp (hheld.nodup_iff.mpr hs.nodup)
    refine ⟨hnodup, fun t' ht' ↦ (hrun t').mpr ⟨?_, fun heq ↦ hnot (heq ▸ ht')⟩⟩
    exact hs.running t' (hheld.subset (List.mem_cons_of_mem t ht'))
  · exact ⟨(hheld.nodup_iff.mpr hs.nodup).of_cons,
      fun t' ht' ↦ (hrun t').mpr (hs.running t' (hheld.subset (List.mem_cons_of_mem t ht')))⟩

theorem controlled_step {s u : Timers} {a : Label} (howned : s.Owned) (hs : s.Controlled)
    (h : s.step a = some u) : s.ToEmpty a ↔ u.Controlled := by
  obtain ⟨hok, hheld, hrun⟩ | ⟨hok, hheld, hrun⟩ | ⟨t, hok, hheld, hrun⟩ |
    ⟨t, hok, hheld, hrun⟩ := held_of_step h
  · exact iff_of_true hok fun t ht ↦ hheld.mem_iff.mpr (hs t ((hrun t).mp ht))
  · refine iff_of_true hok fun t ht ↦ ?_
    rw [hheld, List.mem_append, List.mem_singleton]
    exact ((hrun t).mp ht).imp_left (hs t)
  · refine iff_of_true hok fun t' ht' ↦ ?_
    obtain ⟨hrunning, hne⟩ := (hrun t').mp ht'
    exact (List.mem_cons.mp (hheld.mem_iff.mpr (hs t' hrunning))).resolve_left hne
  · -- The handle that is assigned over had a timer, which goes on.
    refine iff_of_false hok fun hcontrolled ↦ ?_
    have hrunning : s.Running t := howned.running t (hheld.subset List.mem_cons_self)
    have hnot : t ∉ u.held := (List.nodup_cons.mp (hheld.nodup_iff.mpr howned.nodup)).1
    exact hnot (hcontrolled t ((hrun t).mpr hrunning))

/-- A timer that nobody can end stays so. -/
theorem not_controlled_step {s u : Timers} {a : Label} (hs : ¬ s.Controlled)
    (h : s.step a = some u) : ¬ u.Controlled := by
  simp only [Controlled, not_forall] at hs ⊢
  obtain ⟨t, hrunning, hnot⟩ := hs
  refine ⟨t, ?_⟩
  obtain ⟨-, hheld, hrun⟩ | ⟨-, hheld, hrun⟩ | ⟨t', -, hheld, hrun⟩ | ⟨t', -, hheld, hrun⟩ :=
    held_of_step h
  · exact ⟨(hrun t).mpr hrunning, fun hmem ↦ hnot (hheld.mem_iff.mp hmem)⟩
  · refine ⟨(hrun t).mpr (.inl hrunning), fun hmem ↦ ?_⟩
    rw [hheld, List.mem_append, List.mem_singleton] at hmem
    exact hmem.elim hnot hrunning.lt.ne
  · refine ⟨(hrun t).mpr ⟨hrunning, fun heq ↦ ?_⟩, fun hmem ↦ ?_⟩
    · exact hnot (heq ▸ hheld.subset List.mem_cons_self)
    · exact hnot (hheld.subset (List.mem_cons_of_mem t' hmem))
  · exact ⟨(hrun t).mpr hrunning, fun hmem ↦ hnot (hheld.subset (List.mem_cons_of_mem t' hmem))⟩

theorem mem_held {s : Timers} {t : ℕ} : t ∈ s.held ↔ ∃ i : ℕ, s.handles[i]? = some (some t) := by
  rw [held, List.reduceOption_mem_iff, List.mem_iff_getElem?]

theorem Owned.unique {s : Timers} (hs : s.Owned) {t i j : ℕ} (hi : s.handles[i]? = some (some t))
    (hj : s.handles[j]? = some (some t)) : i = j := by
  have hpairs := (List.pairwise_filterMap (f := id)).mp hs.nodup
  have hdisjoint : ∀ {i j : ℕ}, s.handles[i]? = some (some t) → s.handles[j]? = some (some t) →
      ¬ i < j := by
    intro i j hi hj hlt
    obtain ⟨hi', hti⟩ := List.getElem?_eq_some_iff.mp hi
    obtain ⟨hj', htj⟩ := List.getElem?_eq_some_iff.mp hj
    exact List.pairwise_iff_getElem.mp hpairs i j hi' hj' hlt t hti t htj rfl
  exact Nat.le_antisymm (Nat.le_of_not_lt (hdisjoint hj hi)) (Nat.le_of_not_lt (hdisjoint hi hj))

/-- **Every timer that has not been ended can be**, by exactly one handle, exactly when no handle
was ever assigned over while it had a timer: the assignment forgets the condition without storing
it, and nothing that happens later can end that timer. -/
theorem controlled_iff {clock : ℤ} {labels : List Label} {s : Timers}
    (hrun : Machine.run step { clock } labels = some s) :
    Machine.AllSteps step ToEmpty { clock } labels ↔
      ∀ (t : ℕ) (timer : Timer), s.timers[t]? = some timer → timer.shutdownCondition = false →
        ∃! i : ℕ, s.handles[i]? = some (some t) := by
  have hinit : Owned { clock } := ⟨List.nodup_nil, fun _ ht ↦ absurd ht List.not_mem_nil⟩
  have howned : s.Owned := Machine.invariant_of_run Owned.step hinit hrun
  rw [Machine.allSteps_iff_good (I := Owned) (G := Controlled)
    (fun hs hg h ↦ ⟨hs.step h, controlled_step hs hg h⟩)
    (fun hs hg h ↦ ⟨hs.step h, not_controlled_step hg h⟩) hinit
    (fun t ht ↦ absurd ht.lt (Nat.not_lt_zero t)) hrun]
  constructor
  · intro hs t timer htimer hflag
    obtain ⟨i, hi⟩ := mem_held.mp (hs t ⟨timer, htimer, hflag⟩)
    exact ⟨i, hi, fun j hj ↦ howned.unique hj hi⟩
  · rintro hall t ⟨timer, htimer, hflag⟩
    obtain ⟨i, hi, -⟩ := hall t timer htimer hflag
    exact mem_held.mpr ⟨i, hi⟩

/-- A handle that is made empty, and then given the timer that another one was returned for. -/
def declareAndStart : List Label := [.declare, .start 10, .moveAssign 0 1, .destroy 1]

theorem controlled_declareAndStart : ∃ s, Machine.run step { clock := 0 } declareAndStart = some s ∧
    ∀ (t : ℕ) (timer : Timer), s.timers[t]? = some timer → timer.shutdownCondition = false →
      ∃! i : ℕ, s.handles[i]? = some (some t) := by
  obtain ⟨s, hs⟩ := Option.isSome_iff_exists.mp
    (show (Machine.run step { clock := 0 } declareAndStart).isSome = true by decide +kernel)
  exact ⟨s, hs, (controlled_iff hs).mp (by decide +kernel)⟩

end Timers

end Statsig
