import Mathlib.Data.List.Basic
import Mathlib.Tactic.Common

/-!
# How a decoder ends

A decoder that works in `Except ε` ends with a value or with an error, and which error it ends with
is decided by the first step that fails.  `bind_eq_error_iff` and `mapM_eq_error_iff` say so for a
sequence of steps and for a loop: a loop ends with an error exactly when it reaches an element on
which the body does, and it only gets past the elements on which the body returns.
-/

set_option autoImplicit false

universe u v w

namespace Decode

variable {ε : Type u} {α β : Type v}

/-- The decoder returns a value. -/
def Returns (x : Except ε α) : Prop := ∃ a, x = .ok a

theorem exists_eq_ok_iff {x : Except ε α} : (∃ a, x = .ok a) ↔ Returns x := Iff.rfl

theorem returns_ok (a : α) : Returns (.ok a : Except ε α) := ⟨a, rfl⟩

@[simp] theorem returns_pure (a : α) : Returns (pure a : Except ε α) := ⟨a, rfl⟩

@[simp] theorem not_returns_error (e : ε) : ¬ Returns (.error e : Except ε α) :=
  fun ⟨_, h⟩ ↦ nomatch h

/-- Two steps return when the first does, and the second does with what the first returned. -/
theorem returns_bind_iff {x : Except ε α} {f : α → Except ε β} :
    Returns (x >>= f) ↔ ∃ a, x = .ok a ∧ Returns (f a) := by
  cases x with
  | error e => simp [Returns, bind, Except.bind]
  | ok a => simp [Returns, bind, Except.bind]

/-- **Two steps** end with an error when the first does, or the second does after the first has
returned. -/
theorem bind_eq_error_iff {x : Except ε α} {f : α → Except ε β} {e : ε} :
    x >>= f = .error e ↔ x = .error e ∨ ∃ a, x = .ok a ∧ f a = .error e := by
  cases x with
  | error e' => simp [bind, Except.bind]
  | ok a => simp [bind, Except.bind]

@[simp] theorem pure_ne_error (a : α) (e : ε) : (pure a : Except ε α) ≠ .error e := nofun

@[simp] theorem returns_map_iff {x : Except ε α} {f : α → β} :
    Returns (x.map f) ↔ Returns x := by
  cases x <;> simp [Returns, Except.map]

@[simp] theorem map_eq_error_iff {x : Except ε α} {f : α → β} {e : ε} :
    x.map f = .error e ↔ x = .error e := by
  cases x <;> simp [Except.map]

/-! ## Loops -/

/-- A loop that gets past the elements that are `good` reaches one that is `bad`. -/
def reaches {γ : Type w} (good bad : γ → Bool) : List γ → Bool
  | [] => false
  | x :: xs => bad x || good x && reaches good bad xs

variable {γ : Type w} {f : γ → Except ε β} {good bad : γ → Bool}

/-- A loop returns when its body returns on every element. -/
theorem returns_mapM_iff (hgood : ∀ x, good x = true ↔ Returns (f x)) {xs : List γ} :
    Returns (xs.mapM f) ↔ xs.all good = true := by
  induction xs with
  | nil => simp
  | cons x xs ih =>
    rw [List.mapM_cons, returns_bind_iff, List.all_cons, Bool.and_eq_true, ← ih, hgood]
    constructor
    · rintro ⟨b, hb, hrest⟩
      obtain ⟨bs, hbs, -⟩ := returns_bind_iff.mp hrest
      exact ⟨⟨b, hb⟩, bs, hbs⟩
    · rintro ⟨⟨b, hb⟩, bs, hbs⟩
      exact ⟨b, hb, returns_bind_iff.mpr ⟨bs, hbs, returns_pure _⟩⟩

/-- **A loop** ends with an error when it reaches an element on which its body does. -/
theorem mapM_eq_error_iff {e : ε} (hgood : ∀ x, good x = true ↔ Returns (f x))
    (hbad : ∀ x, bad x = true ↔ f x = .error e) {xs : List γ} :
    xs.mapM f = .error e ↔ reaches good bad xs = true := by
  induction xs with
  | nil => simp [reaches]
  | cons x xs ih =>
    rw [List.mapM_cons, bind_eq_error_iff, reaches, Bool.or_eq_true, Bool.and_eq_true, ← ih,
      hgood, hbad]
    refine or_congr_right ⟨?_, ?_⟩
    · rintro ⟨b, hb, hrest⟩
      rcases bind_eq_error_iff.mp hrest with hxs | ⟨bs, -, hpure⟩
      · exact ⟨⟨b, hb⟩, hxs⟩
      · exact absurd hpure (pure_ne_error _ _)
    · rintro ⟨⟨b, hb⟩, hxs⟩
      exact ⟨b, hb, bind_eq_error_iff.mpr (.inl hxs)⟩

end Decode
