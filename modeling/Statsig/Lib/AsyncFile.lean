import Mathlib.Data.List.Basic
import Mathlib.Tactic.Common

/-!
# Files written in the background

A file whose writes are queued and run later, by any worker, in any order.  A write that runs first
truncates the file and then puts its content in at the start, so several writes that run at once
overlay each other, and whoever reads in between sees what happens to be there.

`AsyncFile.Exclusive` says that at most one write is outstanding.  Then `final`, the content the
file is going to have, is well defined, and running the outstanding write does not change it.
-/

set_option autoImplicit false

universe u

/-- A file, with the writes that are outstanding. -/
structure AsyncFile (α : Type u) where
  /-- What a reader finds; `none` if there is no file. -/
  content : Option (List α) := none
  /-- The contents of the writes that wait for a worker. -/
  queued : List (List α) := []
  /-- The contents of the writes that have truncated the file. -/
  opened : List (List α) := []
  deriving DecidableEq, Repr

namespace AsyncFile

variable {α : Type u}

/-- A write that is queued. -/
def queue (f : AsyncFile α) (c : List α) : AsyncFile α := { f with queued := f.queued ++ [c] }

/-- The `i`-th queued write opens the file, which truncates it. -/
def openFile (f : AsyncFile α) (i : ℕ) : Option (AsyncFile α) :=
  (f.queued[i]?).map fun c ↦
    { content := some [], queued := f.queued.eraseIdx i, opened := f.opened ++ [c] }

/-- The `i`-th open write puts its content at the start of the file, and closes it. -/
def finish (f : AsyncFile α) (i : ℕ) : Option (AsyncFile α) :=
  (f.opened[i]?).map fun c ↦
    { content := some (c ++ (f.content.getD []).drop c.length)
      queued := f.queued
      opened := f.opened.eraseIdx i }

/-- The file is removed.  A write that has it open goes on writing to a file without a name. -/
def delete (f : AsyncFile α) : AsyncFile α := { f with content := none, opened := [] }

/-- A worker's step on a file. -/
inductive Task where
  | openFile (i : ℕ)
  | finish (i : ℕ)
  deriving DecidableEq, Repr

/-- Run a step. -/
def runTask (f : AsyncFile α) : Task → Option (AsyncFile α)
  | .openFile i => f.openFile i
  | .finish i => f.finish i

/-- No write is outstanding. -/
def Idle (f : AsyncFile α) : Prop := f.queued = [] ∧ f.opened = []

instance (f : AsyncFile α) : Decidable f.Idle :=
  decidable_of_iff (f.queued.isEmpty = true ∧ f.opened.isEmpty = true) (by simp [Idle])

/-- At most one write is outstanding. -/
inductive Exclusive : AsyncFile α → Prop
  | idle (content : Option (List α)) : Exclusive ⟨content, [], []⟩
  | queued (content : Option (List α)) (c : List α) : Exclusive ⟨content, [c], []⟩
  | opened (c : List α) : Exclusive ⟨some [], [], [c]⟩

/-- The content after the outstanding write, if there is at most one. -/
def final (f : AsyncFile α) : Option (List α) :=
  match f.queued, f.opened with
  | [], [] => f.content
  | c :: _, _ => some c
  | [], c :: _ => some c

theorem Idle.exclusive {f : AsyncFile α} (h : f.Idle) : f.Exclusive := by
  obtain ⟨content, queued, opened⟩ := f
  obtain ⟨hq, ho⟩ := h
  simp only at hq ho
  subst hq ho
  exact .idle content

theorem Idle.final_eq {f : AsyncFile α} (h : f.Idle) : f.final = f.content := by
  rw [final, h.1, h.2]

theorem Idle.queue {f : AsyncFile α} (h : f.Idle) (c : List α) :
    (f.queue c).Exclusive ∧ (f.queue c).final = some c := by
  obtain ⟨content, queued, opened⟩ := f
  obtain ⟨hq, ho⟩ := h
  simp only at hq ho
  subst hq ho
  exact ⟨.queued content c, rfl⟩

/-- **Running the one outstanding write** keeps what the content is going to be. -/
theorem Exclusive.runTask {f g : AsyncFile α} {task : Task} (h : f.Exclusive)
    (hrun : f.runTask task = some g) : g.Exclusive ∧ g.final = f.final := by
  cases task with
  | openFile i =>
    obtain ⟨c, hc, rfl⟩ := Option.map_eq_some_iff.mp hrun
    cases h with
    | idle content => exact absurd hc (by simp)
    | queued content c' =>
      obtain ⟨hi, rfl⟩ : i = 0 ∧ c' = c := by simpa [List.getElem?_singleton] using hc
      subst hi
      exact ⟨.opened c', rfl⟩
    | opened c' => exact absurd hc (by simp)
  | finish i =>
    obtain ⟨c, hc, rfl⟩ := Option.map_eq_some_iff.mp hrun
    cases h with
    | idle content => exact absurd hc (by simp)
    | queued content c' => exact absurd hc (by simp)
    | opened c' =>
      obtain ⟨hi, rfl⟩ : i = 0 ∧ c' = c := by simpa [List.getElem?_singleton] using hc
      subst hi
      refine ⟨Idle.exclusive ⟨rfl, rfl⟩, ?_⟩
      simp [final]

/-- **Removing the file** removes what the outstanding write is going to put in, unless that write
still waits: then it makes the file anew. -/
theorem Exclusive.delete {f : AsyncFile α} (h : f.Exclusive) :
    f.delete.Exclusive ∧ f.delete.final = if f.queued = [] then none else f.final := by
  cases h with
  | idle content => exact ⟨.idle none, rfl⟩
  | queued content c => exact ⟨.queued none c, by simp [AsyncFile.delete, final]⟩
  | opened c => exact ⟨.idle none, rfl⟩

/-! ### As a machine -/

/-- What the owner of a file asks for. -/
inductive Request (α : Type u) where
  | write (c : List α)
  | delete
  deriving DecidableEq, Repr

/-- All that can happen to a file. -/
inductive Label (α : Type u) where
  | request (q : Request α)
  | task (task : Task)
  /-- A queued write does not take place: its process ends first, or the file cannot be opened. -/
  | lose (i : ℕ)
  /-- It goes no further than to open the file. -/
  | loseOpened (i : ℕ)
  deriving DecidableEq, Repr

def Label.request? : Label α → Option (Request α)
  | .request q => some q
  | _ => none

/-- One step. -/
def step (f : AsyncFile α) : Label α → Option (AsyncFile α)
  | .request (.write c) => some (f.queue c)
  | .request .delete => some f.delete
  | .task task => f.runTask task
  | .lose i => (f.queued[i]?).map fun _ ↦ { f with queued := f.queued.eraseIdx i }
  | .loseOpened i => (f.opened[i]?).map fun _ ↦ { f with opened := f.opened.eraseIdx i }

theorem Idle.step_eq_none {f : AsyncFile α} (h : f.Idle) {a : Label α} (ha : a.request? = none) :
    f.step a = none := by
  obtain ⟨hqueued, hopened⟩ := h
  cases a with
  | request q => exact absurd ha (by simp [Label.request?])
  | task task => cases task <;> simp [step, runTask, openFile, finish, hqueued, hopened]
  | lose i => simp [step, hqueued]
  | loseOpened i => simp [step, hopened]

end AsyncFile
