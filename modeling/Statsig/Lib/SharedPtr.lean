import Mathlib.Tactic.Common
import Statsig.Lib.Machine

/-!
# Shared and weak pointers

The life of one object that can hand out weak pointers to itself.  A constructor runs before any
shared pointer owns the object, and until one has taken the object over there is nothing a weak
pointer could refer to: `weakFromThis` then returns an empty pointer, and an empty pointer never
locks, whatever becomes of the object later.
-/

set_option autoImplicit false

/-- Who owns an object. -/
structure Ownership where
  /-- A shared pointer has taken the object over. -/
  adopted : Bool
  /-- The number of shared pointers to it. -/
  owners : ℕ
  /-- Before that there is none. -/
  owners_eq_zero : adopted = false → owners = 0
  deriving DecidableEq, Repr

/-- A weak pointer, as far as this object goes. -/
inductive WeakPtr where
  | empty
  | toObject
  deriving DecidableEq, Repr

namespace Ownership

/-- The object while its constructor runs. -/
def constructing : Ownership := ⟨false, 0, fun _ ↦ rfl⟩

/-- `std::shared_ptr<T>(new T(..))` -/
def adopt (_ : Ownership) : Ownership := ⟨true, 1, fun h ↦ absurd h (by decide)⟩

/-- One more shared pointer to an object that has one. -/
def acquire (o : Ownership) : Ownership := ⟨true, o.owners + 1, fun h ↦ absurd h (by decide)⟩

/-- One shared pointer less. -/
def release (o : Ownership) : Ownership :=
  ⟨o.adopted, o.owners - 1, fun h ↦ by rw [o.owners_eq_zero h]⟩

/-- `weak_from_this()` -/
def weakFromThis (o : Ownership) : WeakPtr := if o.adopted then .toObject else .empty

/-- The object has an owner. -/
def Alive (o : Ownership) : Prop := 0 < o.owners

instance (o : Ownership) : Decidable o.Alive := inferInstanceAs (Decidable (0 < o.owners))

/-- `lock()`: a further owner, if the object has one. -/
def lock (w : WeakPtr) (o : Ownership) : Option Ownership :=
  match w with
  | .empty => none
  | .toObject => if o.Alive then some o.acquire else none

@[simp] theorem owners_acquire (o : Ownership) : o.acquire.owners = o.owners + 1 := rfl

@[simp] theorem owners_release (o : Ownership) : o.release.owners = o.owners - 1 := rfl

@[simp] theorem lock_empty (o : Ownership) : lock .empty o = none := rfl

theorem lock_toObject {o : Ownership} (h : o.Alive) :
    lock .toObject o = some o.acquire := if_pos h

theorem lock_toObject_eq_none_iff {o : Ownership} : lock .toObject o = none ↔ ¬ o.Alive := by
  rw [lock]
  split <;> simp [*]

theorem alive_of_lock {w : WeakPtr} {o o' : Ownership} (h : lock w o = some o') : o.Alive := by
  cases w with
  | empty => exact absurd h (by simp)
  | toObject =>
    by_contra hdead
    rw [lock_toObject_eq_none_iff.mpr hdead] at h
    exact absurd h (by simp)

theorem eq_acquire_of_lock {w : WeakPtr} {o o' : Ownership} (h : lock w o = some o') :
    o' = o.acquire := by
  cases w with
  | empty => exact absurd h (by simp)
  | toObject =>
    rw [lock_toObject (alive_of_lock h)] at h
    exact (Option.some_inj.mp h).symm

/-- What is captured while the constructor runs. -/
@[simp] theorem weakFromThis_constructing : constructing.weakFromThis = .empty := rfl

@[simp] theorem weakFromThis_adopt (o : Ownership) : o.adopt.weakFromThis = .toObject := rfl

/-! ## What can happen to an object -/

/-- A shared pointer is copied or goes away. -/
inductive Label where
  | copy
  | drop
  deriving DecidableEq, Repr

/-- Only the owner of a shared pointer can do either. -/
def step (o : Ownership) : Label → Option Ownership
  | .copy => lock .toObject o
  | .drop => if o.Alive then some o.release else none

/-- **A pointer captured in the constructor is dead for ever.** -/
theorem lock_captured_in_constructor (o : Ownership) : lock constructing.weakFromThis o = none :=
  rfl

end Ownership
