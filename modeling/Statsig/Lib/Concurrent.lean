import Statsig.Lib.Machine
import Statsig.Lib.Slots

/-!
# Objects that many threads call

The code of an object says what each step of a call reads and writes.  Any number of calls are in
progress at a time, and their steps interleave in any way; a call is identified by its place in
the order in which the calls were made, so a thread is a sequence of calls, each made after the one
before it has returned.

The lock rules say which call holds a lock.  `AlwaysReturns` is the argument that every call
returns: each step uses up some of what is left to do, and some call is never blocked.
-/

set_option autoImplicit false

namespace Concurrent

variable {σ ω κ ρ ε : Type}

/-! ## Calls -/

/-- What a call does next, or what it has returned. -/
inductive Status (κ ρ : Type) where
  | running (pc : κ)
  | returned (result : ρ)
  deriving DecidableEq, Repr

/-- The code of an object: what a call begins with, and one step of the call with a given number;
`none` while it is blocked. -/
structure Code (σ ω κ ρ ε : Type) where
  start : ω → κ
  step : ℕ → κ → ε → σ → Option (σ × Status κ ρ)

structure Call (ω κ ρ : Type) where
  op : ω
  /-- The calls that had returned when it was made. -/
  after : List ℕ
  status : Status κ ρ
  deriving DecidableEq, Repr

/-- What the calls share, with all calls that were made. -/
structure System (σ ω κ ρ : Type) where
  shared : σ
  calls : List (Call ω κ ρ) := []
  deriving DecidableEq, Repr

inductive Label (ω ε : Type) where
  | invoke (op : ω)
  | step (i : ℕ) (e : ε)
  deriving DecidableEq, Repr

namespace System

/-- The call is about to do this. -/
def At (s : System σ ω κ ρ) (i : ℕ) (pc : κ) : Prop :=
  ∃ call, s.calls[i]? = some call ∧ call.status = .running pc

/-- The call has returned this. -/
def Returned (s : System σ ω κ ρ) (i : ℕ) (result : ρ) : Prop :=
  ∃ call, s.calls[i]? = some call ∧ call.status = .returned result

def isReturned (call : Call ω κ ρ) : Bool :=
  match call.status with
  | .running _ => false
  | .returned _ => true

/-- The calls that have returned. -/
def finished (s : System σ ω κ ρ) : List ℕ :=
  (List.range s.calls.length).filter fun i ↦ (s.calls[i]?).any isReturned

/-- The calls that have not. -/
def inProgress (s : System σ ω κ ρ) : List (Call ω κ ρ) :=
  s.calls.filter fun call ↦ !isReturned call

/-- No call is in progress. -/
def Quiet (s : System σ ω κ ρ) : Prop := ∀ i pc, ¬ s.At i pc

/-- A call is made. -/
def invoke (code : Code σ ω κ ρ ε) (s : System σ ω κ ρ) (op : ω) : System σ ω κ ρ :=
  { s with calls := s.calls ++ [⟨op, s.finished, .running (code.start op)⟩] }

/-- A call has taken a step. -/
def set (s : System σ ω κ ρ) (i : ℕ) (call : Call ω κ ρ) (next : σ × Status κ ρ) :
    System σ ω κ ρ :=
  { shared := next.1, calls := s.calls.set i { call with status := next.2 } }

@[simp] theorem shared_set (s : System σ ω κ ρ) (i : ℕ) (call : Call ω κ ρ)
    (next : σ × Status κ ρ) : (s.set i call next).shared = next.1 := rfl

end System

/-- One step. -/
def step (code : Code σ ω κ ρ ε) (s : System σ ω κ ρ) : Label ω ε → Option (System σ ω κ ρ)
  | .invoke op => some (s.invoke code op)
  | .step i e =>
    (s.calls[i]?).bind fun call ↦
      match call.status with
      | .running pc => (code.step i pc e s.shared).map (s.set i call)
      | .returned _ => none

variable {code : Code σ ω κ ρ ε} {s t : System σ ω κ ρ} {i j : ℕ} {e : ε} {pc : κ}
  {call : Call ω κ ρ} {next : σ × Status κ ρ}

/-- **What a step of a call is.** -/
theorem step_eq_some_iff : step code s (.step i e) = some t ↔
    ∃ call pc next, s.calls[i]? = some call ∧ call.status = .running pc ∧
      code.step i pc e s.shared = some next ∧ s.set i call next = t := by
  simp only [step, Option.bind_eq_some_iff]
  constructor
  · rintro ⟨call, hcall, h⟩
    split at h
    · rename_i pc hpc
      obtain ⟨next, hnext, ht⟩ := Option.map_eq_some_iff.mp h
      exact ⟨call, pc, next, hcall, hpc, hnext, ht⟩
    · exact absurd h (by simp)
  · rintro ⟨call, pc, next, hcall, hpc, hnext, ht⟩
    refine ⟨call, hcall, ?_⟩
    rw [hpc]
    exact Option.map_eq_some_iff.mpr ⟨next, hnext, ht⟩

theorem mem_finished_iff : i ∈ s.finished ↔ ∃ result, s.Returned i result := by
  rw [System.finished, List.mem_filter, List.mem_range]
  constructor
  · rintro ⟨hi, hany⟩
    rw [List.getElem?_eq_getElem hi, Option.any_some, System.isReturned] at hany
    split at hany
    · exact absurd hany (by simp)
    · rename_i result hresult
      exact ⟨result, _, List.getElem?_eq_getElem hi, hresult⟩
  · rintro ⟨result, call, hcall, hresult⟩
    exact ⟨(List.getElem?_eq_some_iff.mp hcall).1, by simp [hcall, System.isReturned, hresult]⟩

/-! ### What the calls are about to do -/

/-- A step moves the call that takes it, and no other. -/
theorem at_set_iff (hcall : s.calls[i]? = some call) {pc' : κ} :
    (s.set i call next).At j pc' ↔ (j = i ∧ next.2 = .running pc') ∨ (j ≠ i ∧ s.At j pc') := by
  simp only [System.At, System.set, Slots.getElem?_set_eq_some_iff hcall]
  constructor
  · rintro ⟨call', ⟨rfl, rfl⟩ | ⟨hne, hcall'⟩, hpc⟩
    · exact .inl ⟨rfl, hpc⟩
    · exact .inr ⟨hne, call', hcall', hpc⟩
  · rintro (⟨rfl, hpc⟩ | ⟨hne, call', hcall', hpc⟩)
    · exact ⟨_, .inl ⟨rfl, rfl⟩, hpc⟩
    · exact ⟨call', .inr ⟨hne, hcall'⟩, hpc⟩

theorem getElem?_invoke_eq_some_iff {op : ω} : (s.invoke code op).calls[j]? = some call ↔
    s.calls[j]? = some call ∨
      (j = s.calls.length ∧ call = ⟨op, s.finished, .running (code.start op)⟩) := by
  rw [System.invoke, List.getElem?_append]
  by_cases hj : j < s.calls.length
  · rw [if_pos hj]
    simp [Nat.ne_of_lt hj]
  · have hnone : s.calls[j]? = none := by simpa using hj
    have hzero : j - s.calls.length = 0 ↔ j = s.calls.length := by omega
    rw [if_neg hj, List.getElem?_singleton, hnone]
    simp [hzero, eq_comm]

theorem at_invoke_iff {op : ω} {pc' : κ} : (s.invoke code op).At j pc' ↔
    s.At j pc' ∨ (j = s.calls.length ∧ pc' = code.start op) := by
  simp only [System.At, getElem?_invoke_eq_some_iff]
  constructor
  · rintro ⟨call, hcall | ⟨rfl, rfl⟩, hpc⟩
    · exact .inl ⟨call, hcall, hpc⟩
    · obtain rfl := Status.running.inj hpc
      exact .inr ⟨rfl, rfl⟩
  · rintro (⟨call, hcall, hpc⟩ | ⟨rfl, rfl⟩)
    · exact ⟨call, .inl hcall, hpc⟩
    · exact ⟨_, .inr ⟨rfl, rfl⟩, rfl⟩

theorem System.At.unique {pc' : κ} (h : s.At i pc) (h' : s.At i pc') : pc = pc' := by
  obtain ⟨call, hcall, hpc⟩ := h
  obtain ⟨call', hcall', hpc'⟩ := h'
  rw [hcall] at hcall'
  obtain rfl := Option.some_inj.mp hcall'
  exact Status.running.inj (hpc.symm.trans hpc')

theorem System.At.lt_length (h : s.At i pc) : i < s.calls.length := by
  obtain ⟨call, hcall, -⟩ := h
  exact (List.getElem?_eq_some_iff.mp hcall).1

/-- Where it can be told from what a call is about to do which call it is, it is the one that was
made. -/
def Called (callOf : κ → Option ω) (s : System σ ω κ ρ) : Prop :=
  ∀ (i : ℕ) (call : Call ω κ ρ) (pc : κ) (op : ω), s.calls[i]? = some call →
    call.status = .running pc → callOf pc = some op → call.op = op

namespace Called

variable {callOf : κ → Option ω}

theorem init (shared : σ) : Called (ρ := ρ) callOf { shared } :=
  fun _ _ _ _ hcall ↦ absurd hcall (by simp)

theorem invoke (h : Called callOf s) {op : ω} (hstart : callOf (code.start op) = some op) :
    Called callOf (s.invoke code op) := by
  intro i call pc op' hcall hpc hop
  obtain hcall | ⟨-, rfl⟩ := getElem?_invoke_eq_some_iff.mp hcall
  · exact h i call pc op' hcall hpc hop
  · obtain rfl := Status.running.inj hpc
    exact Option.some_inj.mp (hstart.symm.trans hop)

theorem set (h : Called callOf s) (hcall : s.calls[i]? = some call)
    (hpc : call.status = .running pc)
    (hnext : ∀ pc' op, next.2 = .running pc' → callOf pc' = some op → callOf pc = some op) :
    Called callOf (s.set i call next) := by
  intro j call' pc' op hcall' hpc' hop
  obtain ⟨-, rfl⟩ | ⟨-, hcall'⟩ := (Slots.getElem?_set_eq_some_iff hcall).mp hcall'
  · exact h i call pc op hcall hpc (hnext pc' op hpc' hop)
  · exact h j call' pc' op hcall' hpc' hop

end Called

/-! ## Locks -/

/-- Whether a call is where it holds a lock; one that has returned is not. -/
def holdsIn (holds : κ → Bool) : Status κ ρ → Bool
  | .running pc => holds pc
  | .returned _ => false

/-- The call is where it holds the lock. -/
def System.Holds (s : System σ ω κ ρ) (holds : κ → Bool) (i : ℕ) : Prop :=
  ∃ pc, s.At i pc ∧ holds pc = true

variable {holds : κ → Bool}

theorem System.At.holds_iff (h : s.At i pc) : s.Holds holds i ↔ holds pc = true :=
  ⟨fun ⟨_, hat, hpc⟩ ↦ hat.unique h ▸ hpc, fun hpc ↦ ⟨pc, h, hpc⟩⟩

theorem holds_set_iff (hcall : s.calls[i]? = some call) : (s.set i call next).Holds holds j ↔
    (j = i ∧ holdsIn holds next.2 = true) ∨ (j ≠ i ∧ s.Holds holds j) := by
  simp only [System.Holds, at_set_iff hcall]
  constructor
  · rintro ⟨pc, ⟨rfl, hrun⟩ | ⟨hne, hat⟩, hpc⟩
    · exact .inl ⟨rfl, hrun ▸ hpc⟩
    · exact .inr ⟨hne, pc, hat, hpc⟩
  · rintro (⟨rfl, hpc⟩ | ⟨hne, pc, hat, hpc⟩)
    · cases hrun : next.2 with
      | running pc => exact ⟨pc, .inl ⟨rfl, rfl⟩, by rwa [hrun] at hpc⟩
      | returned _ => exact absurd hpc (by simp [hrun, holdsIn])
    · exact ⟨pc, .inr ⟨hne, hat⟩, hpc⟩

theorem holds_invoke_iff {op : ω} (hstart : holds (code.start op) = false) :
    (s.invoke code op).Holds holds j ↔ s.Holds holds j := by
  simp only [System.Holds, at_invoke_iff]
  constructor
  · rintro ⟨pc, hat | ⟨-, rfl⟩, hpc⟩
    · exact ⟨pc, hat, hpc⟩
    · exact absurd (hstart.symm.trans hpc) (by simp)
  · rintro ⟨pc, hat, hpc⟩
    exact ⟨pc, .inl hat, hpc⟩

/-- What a step of a call does to a lock: before it and after it, who has the lock, and whether
this call is at a place where it does. -/
inductive LockMove (i : ℕ) : Option ℕ → Bool → Option ℕ → Bool → Prop where
  | keep (lock : Option ℕ) (holds : Bool) : LockMove i lock holds lock holds
  | acquire : LockMove i none false (some i) true
  | release (lock : Option ℕ) : LockMove i lock true none false

theorem LockMove.cases {before after : Option ℕ} {held held' : Bool}
    (h : LockMove i before held after held') :
    (after = before ∧ held' = held) ∨
      (before = none ∧ held = false ∧ after = some i ∧ held' = true) ∨
      (held = true ∧ after = none ∧ held' = false) := by
  cases h with
  | keep => exact .inl ⟨rfl, rfl⟩
  | acquire => exact .inr (.inl ⟨rfl, rfl, rfl, rfl⟩)
  | release => exact .inr (.inr ⟨rfl, rfl, rfl⟩)

/-- **Mutual exclusion**: the lock is with the one call that is at a place where it holds it. -/
def HeldBy (lock : σ → Option ℕ) (holds : κ → Bool) (s : System σ ω κ ρ) : Prop :=
  ∀ j, lock s.shared = some j ↔ s.Holds holds j

namespace HeldBy

variable {lock : σ → Option ℕ}

theorem init {shared : σ} (h : lock shared = none) :
    HeldBy (ω := ω) (ρ := ρ) lock holds { shared } :=
  fun _ ↦ ⟨fun hj ↦ absurd (h.symm.trans hj) (by simp),
    fun ⟨_, ⟨_, hcall, _⟩, _⟩ ↦ absurd hcall (by simp)⟩

theorem invoke (h : HeldBy lock holds s) {op : ω} (hstart : holds (code.start op) = false) :
    HeldBy lock holds (s.invoke code op) :=
  fun j ↦ (h j).trans (holds_invoke_iff hstart).symm

theorem unique (h : HeldBy lock holds s) (hi : s.Holds holds i) (hj : s.Holds holds j) : i = j :=
  Option.some_inj.mp (((h i).mpr hi).symm.trans ((h j).mpr hj))

theorem eq_none_of_quiet (h : HeldBy lock holds s) (hquiet : s.Quiet) : lock s.shared = none := by
  by_contra hne
  obtain ⟨i, hi⟩ := Option.ne_none_iff_exists'.mp hne
  obtain ⟨pc, hat, -⟩ := (h i).mp hi
  exact hquiet i pc hat

/-- **One step.** -/
theorem set (h : HeldBy lock holds s) (hcall : s.calls[i]? = some call)
    (hpc : call.status = .running pc)
    (hmove : LockMove i (lock s.shared) (holds pc) (lock next.1) (holdsIn holds next.2)) :
    HeldBy lock holds (s.set i call next) := by
  have hat : s.At i pc := ⟨call, hcall, hpc⟩
  intro j
  rw [holds_set_iff hcall]
  show lock next.1 = some j ↔ _
  obtain ⟨hafter, hheld⟩ | ⟨hbefore, -, hafter, hheld⟩ | ⟨hheld, hafter, hheld'⟩ := hmove.cases
  · rw [hafter, h j, hheld, ← hat.holds_iff]
    by_cases hji : j = i
    · subst hji
      simp
    · simp [hji]
  · have hnone : ¬ s.Holds holds j := fun hj ↦ by simpa [hbefore] using (h j).mpr hj
    simp [hafter, hheld, hnone, eq_comm]
  · have honly : s.Holds holds j → j = i := fun hj ↦ h.unique hj (hat.holds_iff.mpr hheld)
    simpa [hafter, hheld'] using fun hne hj ↦ hne (honly hj)

end HeldBy

/-- What a lock protects, as it stands for somebody who looks on: `free` while nobody has the lock,
and `held` while a call is at this place with it. -/
structure Guarded {α : Type} (lock : σ → Option ℕ) (holds : κ → Bool) (free : σ → α → Prop)
    (held : κ → σ → α → Prop) (s : System σ ω κ ρ) (a : α) : Prop where
  heldBy : HeldBy lock holds s
  whenFree : lock s.shared = none → free s.shared a
  whenHeld : ∀ {i pc}, s.At i pc → holds pc = true → held pc s.shared a

/-- What has to be shown of a call that has, or had, the lock. -/
def guardIn {α : Type} (holds : κ → Bool) (free : σ → α → Prop) (held : κ → σ → α → Prop) :
    Status κ ρ → σ → α → Prop
  | .running pc, shared, a => if holds pc then held pc shared a else free shared a
  | .returned _, shared, a => free shared a

namespace Guarded

variable {α : Type} {lock : σ → Option ℕ} {free : σ → α → Prop} {held : κ → σ → α → Prop} {a b : α}

theorem init {shared : σ} (hlock : lock shared = none) (hfree : free shared a) :
    Guarded (ω := ω) (ρ := ρ) lock holds free held { shared } a :=
  ⟨.init hlock, fun _ ↦ hfree, fun ⟨_, hcall, _⟩ ↦ absurd hcall (by simp)⟩

theorem invoke (h : Guarded lock holds free held s a) {op : ω}
    (hstart : holds (code.start op) = false) :
    Guarded lock holds free held (s.invoke code op) a := by
  refine ⟨h.heldBy.invoke hstart, h.whenFree, fun hat hpc ↦ ?_⟩
  obtain hat | ⟨-, rfl⟩ := at_invoke_iff.mp hat
  · exact h.whenHeld hat hpc
  · exact absurd (hstart.symm.trans hpc) (by simp)

theorem of_quiet (h : Guarded lock holds free held s a) (hquiet : s.Quiet) : free s.shared a :=
  h.whenFree (h.heldBy.eq_none_of_quiet hquiet)

/-- A step of the call that has the lock, or takes it: nobody else's claims matter. -/
theorem mine (h : Guarded lock holds free held s a) (hcall : s.calls[i]? = some call)
    (hpc : call.status = .running pc)
    (hmove : LockMove i (lock s.shared) (holds pc) (lock next.1) (holdsIn holds next.2))
    (hmine : holds pc = true ∨ holdsIn holds next.2 = true)
    (hnext : guardIn holds free held next.2 next.1 b) :
    Guarded lock holds free held (s.set i call next) b := by
  have hheldBy := h.heldBy.set hcall hpc hmove
  have hat : s.At i pc := ⟨call, hcall, hpc⟩
  have hself : (s.set i call next).Holds holds i ↔ holdsIn holds next.2 = true := by
    rw [holds_set_iff hcall]
    simp
  have honly : ∀ {j}, (s.set i call next).Holds holds j → j = i := by
    intro j hj
    by_cases hji : j = i
    · exact hji
    · obtain hpc' | hpc' := hmine
      · obtain ⟨h', -⟩ | ⟨-, hj⟩ := (holds_set_iff hcall).mp hj
        · exact h'
        · exact h.heldBy.unique hj (hat.holds_iff.mpr hpc')
      · exact hheldBy.unique hj (hself.mpr hpc')
  refine ⟨hheldBy, fun hfree ↦ ?_, fun {j pc'} hj hpc' ↦ ?_⟩
  · have hnot : holdsIn holds next.2 ≠ true := fun htrue ↦
      absurd (hfree.symm.trans ((hheldBy i).mpr (hself.mpr htrue))) (by simp)
    obtain ⟨shared, status⟩ := next
    cases status with
    | running pc' =>
      have hfree : holds pc' = false := by simpa [holdsIn] using hnot
      simpa [guardIn, hfree] using hnext
    | returned result => exact hnext
  · obtain rfl := honly ⟨pc', hj, hpc'⟩
    obtain ⟨-, hrun⟩ | ⟨hne, -⟩ := (at_set_iff hcall).mp hj
    · rw [hrun] at hnext
      simpa [guardIn, hpc'] using hnext
    · exact absurd rfl hne

/-- A step of a call that has nothing to do with the lock, and keeps what it protects. -/
theorem other (h : Guarded lock holds free held s a) (hcall : s.calls[i]? = some call)
    (hpc : call.status = .running pc) (hbefore : holds pc = false)
    (hafter : holdsIn holds next.2 = false) (hlock : lock next.1 = lock s.shared)
    (hfree : free s.shared a → free next.1 b)
    (hheld : ∀ {j pc'}, s.At j pc' → holds pc' = true → held pc' s.shared a → held pc' next.1 b) :
    Guarded lock holds free held (s.set i call next) b := by
  have hmove : LockMove i (lock s.shared) (holds pc) (lock next.1) (holdsIn holds next.2) := by
    rw [hlock, hbefore, hafter]
    exact .keep ..
  refine ⟨h.heldBy.set hcall hpc hmove, fun hnone ↦ hfree (h.whenFree (hlock ▸ hnone)),
    fun {j pc'} hj hpc' ↦ ?_⟩
  obtain ⟨-, hrun⟩ | ⟨-, hj⟩ := (at_set_iff hcall).mp hj
  · rw [hrun] at hafter
    exact absurd (hafter.symm.trans hpc') (by simp)
  · exact hheld hj hpc' (h.whenHeld hj hpc')

end Guarded

/-! ### Shared locks -/

/-- What a lock with one writer and any number of readers protects.  `seen` is what a call that
reads has found out so far. -/
structure SharedGuarded {α : Type} (writer : σ → Option ℕ) (readers : σ → List ℕ)
    (writes reads : κ → Bool) (free : σ → α → Prop) (held seen : κ → σ → α → Prop)
    (s : System σ ω κ ρ) (a : α) : Prop where
  writing : Guarded writer writes free held s a
  reading : ∀ j, j ∈ readers s.shared ↔ s.Holds reads j
  /-- Nobody reads while somebody writes. -/
  exclusive : writer s.shared ≠ none → readers s.shared = []
  whenSeen : ∀ {i pc}, s.At i pc → reads pc = true → seen pc s.shared a

namespace SharedGuarded

variable {α : Type} {writer : σ → Option ℕ} {readers : σ → List ℕ} {writes reads : κ → Bool}
  {free : σ → α → Prop} {held seen : κ → σ → α → Prop} {a b : α}

theorem init {shared : σ} (hwriter : writer shared = none) (hreaders : readers shared = [])
    (hfree : free shared a) :
    SharedGuarded (ω := ω) (ρ := ρ) writer readers writes reads free held seen { shared } a where
  writing := .init hwriter hfree
  reading j := ⟨fun hj ↦ absurd (hreaders ▸ hj) List.not_mem_nil,
    fun ⟨_, ⟨_, hcall, _⟩, _⟩ ↦ absurd hcall (by simp)⟩
  exclusive _ := hreaders
  whenSeen := fun ⟨_, hcall, _⟩ ↦ absurd hcall (by simp)

theorem invoke (h : SharedGuarded writer readers writes reads free held seen s a) {op : ω}
    (hwrites : writes (code.start op) = false) (hreads : reads (code.start op) = false) :
    SharedGuarded writer readers writes reads free held seen (s.invoke code op) a where
  writing := h.writing.invoke hwrites
  reading j := (h.reading j).trans (holds_invoke_iff hreads).symm
  exclusive := h.exclusive
  whenSeen hat hpc := by
    obtain hat | ⟨-, rfl⟩ := at_invoke_iff.mp hat
    · exact h.whenSeen hat hpc
    · exact absurd (hreads.symm.trans hpc) (by simp)

/-- A call that reads has found nobody writing, so it sees what is protected. -/
theorem free_of_reads (h : SharedGuarded writer readers writes reads free held seen s a)
    (hat : s.At i pc) (hpc : reads pc = true) : free s.shared a := by
  refine h.writing.whenFree ?_
  by_contra hne
  have hmem := (h.reading i).mpr ⟨pc, hat, hpc⟩
  rw [h.exclusive hne] at hmem
  exact absurd hmem List.not_mem_nil

/-- A step of the call that writes, or begins to. -/
theorem write (h : SharedGuarded writer readers writes reads free held seen s a)
    (hcall : s.calls[i]? = some call) (hpc : call.status = .running pc)
    (hmove : LockMove i (writer s.shared) (writes pc) (writer next.1) (holdsIn writes next.2))
    (hmine : writes pc = true ∨ (readers s.shared = [] ∧ holdsIn writes next.2 = true))
    (hafter : holdsIn reads next.2 = false) (hreaders : readers next.1 = readers s.shared)
    (hnext : guardIn writes free held next.2 next.1 b) :
    SharedGuarded writer readers writes reads free held seen (s.set i call next) b := by
  have hat : s.At i pc := ⟨call, hcall, hpc⟩
  have hnobody : readers s.shared = [] := by
    obtain hpc' | ⟨hnobody, -⟩ := hmine
    · refine h.exclusive ?_
      rw [(h.writing.heldBy i).mpr ⟨pc, hat, hpc'⟩]
      exact Option.some_ne_none i
    · exact hnobody
  have hnone : ∀ j, ¬ (s.set i call next).Holds reads j := by
    intro j hj
    obtain ⟨-, htrue⟩ | ⟨-, hj⟩ := (holds_set_iff hcall).mp hj
    · exact absurd (hafter.symm.trans htrue) (by simp)
    · exact absurd (hnobody ▸ (h.reading j).mpr hj) List.not_mem_nil
  refine ⟨h.writing.mine hcall hpc hmove (hmine.imp id And.right) hnext, fun j ↦ ?_, fun _ ↦ ?_,
    fun hj hpc' ↦ absurd ⟨_, hj, hpc'⟩ (hnone _)⟩
  · show j ∈ readers next.1 ↔ _
    rw [hreaders, hnobody]
    exact iff_of_false List.not_mem_nil (hnone j)
  · exact hreaders.trans hnobody

/-- A step of a call that does not write, and after which nothing that is protected has changed. -/
theorem read (h : SharedGuarded writer readers writes reads free held seen s a)
    (hcall : s.calls[i]? = some call) (hpc : call.status = .running pc)
    (hbefore : writes pc = false) (hafter : holdsIn writes next.2 = false)
    (hwriter : writer next.1 = writer s.shared)
    (hreaders : ∀ j, j ∈ readers next.1 ↔
      (j = i ∧ holdsIn reads next.2 = true) ∨ (j ≠ i ∧ j ∈ readers s.shared))
    (hexclusive : writer s.shared ≠ none → holdsIn reads next.2 = false)
    (hfree : free s.shared a → free next.1 b)
    (hheld : ∀ {pc'}, held pc' s.shared a → held pc' next.1 b)
    (hseen : ∀ {pc'}, seen pc' s.shared a → seen pc' next.1 b)
    (hnext : ∀ {pc'}, next.2 = .running pc' → reads pc' = true → seen pc' next.1 b) :
    SharedGuarded writer readers writes reads free held seen (s.set i call next) b := by
  refine ⟨h.writing.other hcall hpc hbefore hafter hwriter hfree fun _ _ ↦ hheld, fun j ↦ ?_,
    fun hne ↦ ?_, fun {j pc'} hj hpc' ↦ ?_⟩
  · rw [holds_set_iff hcall, ← h.reading j]
    exact hreaders j
  · have hne' : writer s.shared ≠ none := hwriter ▸ hne
    refine List.eq_nil_iff_forall_not_mem.mpr fun j hj ↦ ?_
    obtain ⟨-, htrue⟩ | ⟨-, hj⟩ := (hreaders j).mp hj
    · exact absurd ((hexclusive hne').symm.trans htrue) (by simp)
    · exact absurd (h.exclusive hne' ▸ hj) List.not_mem_nil
  · obtain ⟨-, hrun⟩ | ⟨-, hj⟩ := (at_set_iff hcall).mp hj
    · exact hnext hrun hpc'
    · exact hseen (h.whenSeen hj hpc')

end SharedGuarded

/-! ## Every call returns -/

/-- What a call has left to do at most. -/
def fuelIn (fuel : κ → ℕ) : Status κ ρ → ℕ
  | .running pc => fuel pc + 1
  | .returned _ => 0

/-- What all calls have left to do at most. -/
def System.remaining (fuel : κ → ℕ) (s : System σ ω κ ρ) : ℕ :=
  (s.calls.map fun call ↦ fuelIn fuel call.status).foldr (· + ·) 0

theorem remaining_le {fuel : κ → ℕ} {n : ℕ} (h : ∀ pc, fuel pc < n) (s : System σ ω κ ρ) :
    s.remaining fuel ≤ n * s.inProgress.length := by
  rw [System.remaining, System.inProgress]
  induction s.calls with
  | nil => simp
  | cons call calls ih =>
    rw [List.map_cons, List.foldr_cons, List.filter_cons]
    cases hstatus : call.status with
    | running pc =>
      have hcall : fuelIn fuel (.running pc : Status κ ρ) ≤ n := h pc
      rw [if_pos (by simp [System.isReturned, hstatus]), List.length_cons, Nat.mul_succ]
      omega
    | returned _ => simpa [System.isReturned, hstatus, fuelIn] using ih

/-- The call can take a step. -/
def System.Enabled (code : Code σ ω κ ρ ε) (s : System σ ω κ ρ) (i : ℕ) : Prop :=
  ∃ e t, step code s (.step i e) = some t

theorem System.At.enabled (h : s.At i pc) (hstep : code.step i pc e s.shared ≠ none) :
    s.Enabled code i := by
  obtain ⟨call, hcall, hpc⟩ := h
  obtain ⟨next, hnext⟩ := Option.ne_none_iff_exists'.mp hstep
  exact ⟨e, _, step_eq_some_iff.mpr ⟨call, pc, next, hcall, hpc, hnext, rfl⟩⟩

/-- **No circular wait.**  If whoever is blocked waits for a call that is at a higher level than
its own, and the levels are bounded, somebody is not blocked. -/
theorem exists_enabled {level : κ → ℕ} {top : ℕ} (htop : ∀ pc, level pc ≤ top)
    (hwait : ∀ i pc, s.At i pc → s.Enabled code i ∨ ∃ j pc', s.At j pc' ∧ level pc < level pc')
    (hat : s.At i pc) : ∃ j, s.Enabled code j := by
  induction hn : top - level pc using Nat.strongRecOn generalizing i pc with
  | _ n ih =>
    obtain henabled | ⟨j, pc', hj, hlt⟩ := hwait i pc hat
    · exact ⟨i, henabled⟩
    · have hle := htop pc'
      exact ih (top - level pc') (by omega) hj rfl

/-- The code, in the states with the invariant: a step uses up what is left to do, and somebody
can always take one. -/
structure AlwaysReturns (code : Code σ ω κ ρ ε) (fuel : κ → ℕ) (I : System σ ω κ ρ → Prop) :
    Prop where
  decreases : ∀ {i pc e shared next}, code.step i pc e shared = some next →
    fuelIn fuel next.2 ≤ fuel pc
  keeps : ∀ {s t a}, I s → step code s a = some t → I t
  moves : ∀ {s i pc}, I s → s.At i pc → ∃ j, s.Enabled code j

namespace AlwaysReturns

variable {fuel : κ → ℕ} {I : System σ ω κ ρ → Prop}

theorem remaining_lt (h : AlwaysReturns code fuel I) (hstep : step code s (.step i e) = some t) :
    t.remaining fuel < s.remaining fuel := by
  obtain ⟨call, pc, next, hcall, hpc, hnext, rfl⟩ := step_eq_some_iff.mp hstep
  have hsum := ((Slots.perm_cons_set (b := { call with status := next.2 }) hcall).map
    fun call ↦ fuelIn fuel call.status).sum_nat
  simp only [List.map_cons, List.sum_cons, hpc] at hsum
  have hle := h.decreases hnext
  rw [show fuelIn fuel (.running pc : Status κ ρ) = fuel pc + 1 from rfl] at hsum
  show ((s.calls.set i { call with status := next.2 }).map _).sum < (s.calls.map _).sum
  omega

/-- The steps of calls that have been made, in any order. -/
def schedule (steps : List (ℕ × ε)) : List (Label ω ε) := steps.map fun x ↦ .step x.1 x.2

theorem length_add_remaining_le (h : AlwaysReturns code fuel I) {steps : List (ℕ × ε)}
    (hrun : Machine.run (step code) s (schedule steps) = some t) :
    steps.length + t.remaining fuel ≤ s.remaining fuel := by
  induction steps generalizing s with
  | nil =>
    obtain rfl : s = t := by simpa [schedule] using hrun
    simp
  | cons x steps ih =>
    obtain ⟨u, hu, hrest⟩ := Machine.run_cons_eq_some.mp hrun
    have hlt := h.remaining_lt hu
    have hle := ih hrest
    rw [List.length_cons]
    omega

/-- **Every call returns**, however the steps of the calls are scheduled: no schedule is longer
than what was left to do, and one that cannot be continued has let every call return. -/
theorem returns (h : AlwaysReturns code fuel I) (hs : I s) {steps : List (ℕ × ε)}
    (hrun : Machine.run (step code) s (schedule steps) = some t) :
    steps.length ≤ s.remaining fuel ∧ ((∀ i, ¬ t.Enabled code i) → t.Quiet) := by
  have hle := h.length_add_remaining_le hrun
  refine ⟨by omega, fun hstuck i pc hat ↦ ?_⟩
  obtain ⟨j, hj⟩ := h.moves (Machine.invariant_of_run h.keeps hs hrun) hat
  exact hstuck j hj

end AlwaysReturns

end Concurrent
