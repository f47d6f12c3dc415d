import Mathlib.Data.List.Perm.Basic
import Mathlib.Tactic.Common

/-!
# Activities in slots

A machine keeps the activities that are in progress in a list.  A step of the `i`-th of them puts
another element into its place or, when the activity has ended, takes it out.  These are the rules
for what such a step does to properties of all elements, to the existence of an element, and to
quantities that are collected over the list.
-/

set_option autoImplicit false

namespace Slots

universe u v

variable {α : Type u} {β : Type v} {P : α → Prop} {l : List α} {i : ℕ} {a b : α}

theorem forall_mem_set (h : ∀ x ∈ l, P x) (hb : P b) : ∀ x ∈ l.set i b, P x := by
  intro x hx
  rcases List.mem_or_eq_of_mem_set hx with hx | rfl
  · exact h x hx
  · exact hb

theorem forall_mem_eraseIdx (h : ∀ x ∈ l, P x) : ∀ x ∈ l.eraseIdx i, P x :=
  fun x hx ↦ h x (List.mem_of_mem_eraseIdx hx)

theorem forall_mem_append_singleton (h : ∀ x ∈ l, P x) (hb : P b) : ∀ x ∈ l ++ [b], P x := by
  intro x hx
  rcases List.mem_append.mp hx with hx | hx
  · exact h x hx
  · exact List.mem_singleton.mp hx ▸ hb

theorem perm_cons_eraseIdx (ha : l[i]? = some a) : l.Perm (a :: l.eraseIdx i) := by
  obtain ⟨hi, rfl⟩ := List.getElem?_eq_some_iff.mp ha
  exact (List.getElem_cons_eraseIdx_perm hi).symm

/-- What was put into the place, and what was there before. -/
theorem perm_cons_set (ha : l[i]? = some a) : (a :: l.set i b).Perm (b :: l) := by
  have hset : (l.set i b)[i]? = some b := by
    obtain ⟨hi, -⟩ := List.getElem?_eq_some_iff.mp ha
    rw [List.getElem?_set_self hi]
  have hbefore : (b :: l).Perm (b :: a :: l.eraseIdx i) := (perm_cons_eraseIdx ha).cons b
  have hafter : (a :: l.set i b).Perm (a :: b :: l.eraseIdx i) := by
    have hperm := perm_cons_eraseIdx hset
    rw [List.eraseIdx_set_eq] at hperm
    exact hperm.cons a
  exact hafter.trans ((List.Perm.swap ..).trans hbefore.symm)

theorem getElem?_set_eq_some_iff {j : ℕ} {c : α} (ha : l[i]? = some a) :
    (l.set i b)[j]? = some c ↔ (j = i ∧ c = b) ∨ (j ≠ i ∧ l[j]? = some c) := by
  obtain ⟨hi, -⟩ := List.getElem?_eq_some_iff.mp ha
  by_cases hij : j = i
  · subst hij
    simp [List.getElem?_set_self hi, eq_comm]
  · simp [List.getElem?_set_ne (Ne.symm hij), hij]

/-- An element that has the property is still there, unless it was the one that ended. -/
theorem exists_mem_eraseIdx (ha : l[i]? = some a) (hP : ¬ P a) (h : ∃ x ∈ l, P x) :
    ∃ x ∈ l.eraseIdx i, P x := by
  obtain ⟨x, hx, hPx⟩ := h
  refine ⟨x, ?_, hPx⟩
  rcases List.mem_cons.mp ((perm_cons_eraseIdx ha).mem_iff.mp hx) with rfl | hx
  · exact absurd hPx hP
  · exact hx

/-- An element that has the property is still there, unless it was the one that took the step and
lost it. -/
theorem exists_mem_set (ha : l[i]? = some a) (hP : P a → P b) (h : ∃ x ∈ l, P x) :
    ∃ x ∈ l.set i b, P x := by
  obtain ⟨hi, rfl⟩ := List.getElem?_eq_some_iff.mp ha
  obtain ⟨x, hx, hPx⟩ := h
  obtain ⟨j, hj, rfl⟩ := List.getElem_of_mem hx
  by_cases hij : i = j
  · subst hij
    exact ⟨b, List.mem_set hi b, hP hPx⟩
  · refine ⟨l[j], ?_, hPx⟩
    rw [List.mem_iff_getElem?]
    exact ⟨j, by rw [List.getElem?_set_ne hij, List.getElem?_eq_getElem hj]⟩

/-- A step does not change what the element is mapped to, so it does not change the list of all
that. -/
theorem map_set_of_eq {f : α → β} (ha : l[i]? = some a) (h : f b = f a) :
    (l.set i b).map f = l.map f := by
  obtain ⟨hi, rfl⟩ := List.getElem?_eq_some_iff.mp ha
  rw [List.map_set, h, ← List.getElem_map f, List.set_getElem_self]
  rwa [List.length_map]

theorem filterMap_set_of_eq {f : α → Option β} (ha : l[i]? = some a) (h : f b = f a) :
    (l.set i b).filterMap f = l.filterMap f := by
  have hmap : ∀ l : List α, l.filterMap f = (l.map f).filterMap id := fun l ↦ by
    rw [List.filterMap_map]
    rfl
  rw [hmap, hmap, map_set_of_eq ha h]

/-- A step that makes an element count adds what it counts for. -/
theorem filterMap_set_perm {f : α → Option β} {c : β} (ha : l[i]? = some a) (hfa : f a = none)
    (hfb : f b = some c) : ((l.set i b).filterMap f).Perm (c :: l.filterMap f) := by
  have hperm := (perm_cons_set (b := b) ha).filterMap f
  rwa [List.filterMap_cons_none hfa, List.filterMap_cons_some hfb] at hperm

/-- A step after which an element does not count takes away what it counted for. -/
theorem perm_filterMap_set {f : α → Option β} {c : β} (ha : l[i]? = some a) (hfa : f a = some c)
    (hfb : f b = none) : (c :: (l.set i b).filterMap f).Perm (l.filterMap f) := by
  have hperm := (perm_cons_set (b := b) ha).filterMap f
  rwa [List.filterMap_cons_some hfa, List.filterMap_cons_none hfb] at hperm

/-- What is taken out of a list is taken out of what the list is mapped to, at its own place. -/
theorem filterMap_eraseIdx {f : α → Option β} {c : β} (ha : l[i]? = some a) (hf : f a = some c) :
    ∃ j : ℕ, (l.filterMap f)[j]? = some c ∧
      (l.eraseIdx i).filterMap f = (l.filterMap f).eraseIdx j := by
  obtain ⟨hi, rfl⟩ := List.getElem?_eq_some_iff.mp ha
  have hsplit : l.filterMap f =
      (l.take i).filterMap f ++ c :: (l.drop (i + 1)).filterMap f := by
    rw [← List.filterMap_cons_some hf, ← List.filterMap_append, ← List.drop_eq_getElem_cons hi,
      List.take_append_drop]
  refine ⟨((l.take i).filterMap f).length, ?_, ?_⟩
  · rw [hsplit, List.getElem?_append_right (Nat.le_refl _), Nat.sub_self]
    rfl
  · rw [hsplit, List.eraseIdx_append_of_length_le (Nat.le_refl _), Nat.sub_self,
      List.eraseIdx_cons_zero, List.eraseIdx_eq_take_drop_succ, List.filterMap_append]

theorem filterMap_eraseIdx_of_none {f : α → Option β} (ha : l[i]? = some a) (hf : f a = none) :
    (l.eraseIdx i).filterMap f = l.filterMap f := by
  obtain ⟨hi, rfl⟩ := List.getElem?_eq_some_iff.mp ha
  have hsplit : l.filterMap f = (l.take i).filterMap f ++ (l.drop (i + 1)).filterMap f := by
    rw [← List.filterMap_cons_none (l := l.drop (i + 1)) hf, ← List.filterMap_append,
      ← List.drop_eq_getElem_cons hi, List.take_append_drop]
  rw [List.eraseIdx_eq_take_drop_succ, List.filterMap_append, hsplit]

/-- One index begins to count. -/
theorem countP_eq_add_count {p q : ℕ → Bool} {i : ℕ} (hp : p i = false) (hq : q i = true)
    (h : ∀ j, j ≠ i → q j = p j) (l : List ℕ) : l.countP q = l.countP p + l.count i := by
  induction l with
  | nil => rfl
  | cons j l ih =>
    rw [List.countP_cons, List.countP_cons, List.count_cons, ih]
    by_cases hij : j = i
    · subst hij
      simp [hp, hq]
      omega
    · simp [h j hij, hij]
      omega

/-- A step of an element that counts before it, or after it. -/
theorem countP_set {p : α → Bool} (ha : l[i]? = some a) :
    (l.set i b).countP p + (if p a then 1 else 0) = l.countP p + if p b then 1 else 0 := by
  have hperm := (perm_cons_set (b := b) ha).countP_eq p
  rwa [List.countP_cons, List.countP_cons] at hperm

theorem flatMap_set_of_eq {f : α → List β} (ha : l[i]? = some a) (h : f b = f a) :
    (l.set i b).flatMap f = l.flatMap f := by
  rw [List.flatMap_def, List.flatMap_def, map_set_of_eq ha h]

end Slots
