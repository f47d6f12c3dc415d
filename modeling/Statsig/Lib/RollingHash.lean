import Mathlib.Algebra.BigOperators.Fin
import Mathlib.Algebra.BigOperators.Ring.Finset
import Mathlib.Algebra.Ring.Hom.Defs
import Mathlib.Tactic.Ring

/-!
# Rolling hashes

A rolling hash multiplies what it has by a fixed base and adds what the next symbol stands for.
`roll` is that loop over any commutative semiring, and `roll_eq_weightedSum` its closed form: a sum
in which the symbol at each position is weighted with a power of the base.

The loop commutes with homomorphisms (`map_roll`), so a hash that is computed in a wide ring and
reduced at the end is the hash that is computed in the narrow one.
-/

set_option autoImplicit false

open Finset

namespace RollingHash

variable {R S α : Type*} [CommSemiring R] [CommSemiring S]

/-- The hash of a list of symbols, each of which stands for an element of the ring. -/
def roll (base : R) (value : α → R) (l : List α) : R :=
  l.foldl (fun hash a ↦ base * hash + value a) 0

/-- The symbols, each weighted by what its place is worth. -/
def weightedSum (base : R) (value : α → R) (l : List α) : R :=
  ∑ i : Fin l.length, value l[i] * base ^ (l.length - 1 - i)

variable (base : R) (value value' : α → R) (l l' : List α)

@[simp] theorem roll_nil : roll base value [] = 0 := rfl

@[simp] theorem roll_concat (a : α) :
    roll base value (l ++ [a]) = base * roll base value l + value a := by
  simp [roll]

/-- What comes first is worth a power of the base for each symbol that follows. -/
theorem roll_append :
    roll base value (l ++ l') = roll base value l * base ^ l'.length + roll base value l' := by
  induction l' using List.reverseRecOn with
  | nil => simp
  | append_singleton l' a ih =>
    rw [← List.append_assoc, roll_concat, ih, roll_concat, List.length_append,
      List.length_singleton]
    ring

theorem weightedSum_cons (a : α) :
    weightedSum base value (a :: l) = value a * base ^ l.length + weightedSum base value l := by
  have hexp : ∀ i : Fin l.length, (a :: l).length - 1 - i.succ.val = l.length - 1 - i.val := by
    intro i
    simp only [List.length_cons, Fin.val_succ]
    omega
  refine (Fin.sum_univ_succ _).trans (congrArg₂ _ ?_ (sum_congr rfl fun i _ ↦ ?_))
  · simp
  · rw [hexp]
    rfl

/-- **The closed form.** -/
theorem roll_eq_weightedSum : roll base value l = weightedSum base value l := by
  induction l with
  | nil => rfl
  | cons a l ih =>
    have hone : roll base value [a] = value a := by simp [roll]
    rw [← List.singleton_append, roll_append, hone, ih, List.singleton_append, weightedSum_cons]

/-- **Homomorphisms**: reducing at the end is reducing all along. -/
theorem map_roll (f : R →+* S) :
    f (roll base value l) = roll (f base) (fun a ↦ f (value a)) l := by
  induction l using List.reverseRecOn with
  | nil => simp
  | append_singleton l a ih => simp [ih]

/-! ## Symbols that stand for sums -/

theorem roll_add :
    roll base (fun a ↦ value a + value' a) l = roll base value l + roll base value' l := by
  induction l using List.reverseRecOn with
  | nil => simp
  | append_singleton l a ih =>
    rw [roll_concat, roll_concat, roll_concat, ih]
    ring

theorem roll_mul (c : R) :
    roll base (fun a ↦ c * value a) l = c * roll base value l := by
  induction l using List.reverseRecOn with
  | nil => simp
  | append_singleton l a ih =>
    rw [roll_concat, roll_concat, ih]
    ring

end RollingHash
