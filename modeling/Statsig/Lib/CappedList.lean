import Mathlib.Data.List.Basic
import Mathlib.Tactic.Common

/-!
# Lists with a limit

A list that takes new elements at the front and, when it has become too long, loses its last one.

`push` is such a list's one operation.  It commutes with zipping, so a record kept beside the list
stays beside it; `pairwise_push_iff` says when it keeps an order, and `rel_of_notMem_push` what is
lost then.
-/

set_option autoImplicit false

namespace CappedList

universe u v

variable {α : Type u} {β : Type v}

/-- The new element in front, and the last one dropped if there are more than `cap`. -/
def push (cap : ℕ) (a : α) (l : List α) : List α :=
  if cap < (a :: l).length then (a :: l).dropLast else a :: l

variable {cap : ℕ} {a : α} {l : List α}

theorem isPrefix_push (cap : ℕ) (a : α) (l : List α) : push cap a l <+: a :: l := by
  rw [push]
  split
  · exact List.dropLast_prefix _
  · exact List.prefix_rfl

theorem subset_push (cap : ℕ) (a : α) (l : List α) : push cap a l ⊆ a :: l :=
  (isPrefix_push cap a l).sublist.subset

theorem eq_of_mem_head?_push {first : α} (h : first ∈ (push cap a l).head?) : first = a := by
  obtain ⟨lost, hsplit⟩ := isPrefix_push cap a l
  cases hpush : push cap a l with
  | nil =>
    rw [hpush] at h
    exact absurd h (by simp)
  | cons b m =>
    rw [hpush] at h hsplit
    exact (Option.some_inj.mp h).symm.trans (List.cons.inj hsplit).1

theorem length_push (cap : ℕ) (a : α) (l : List α) :
    (push cap a l).length = if cap < l.length + 1 then l.length else l.length + 1 := by
  rw [push, List.length_cons]
  split
  · rw [List.length_dropLast, List.length_cons, Nat.add_sub_cancel]
  · rw [List.length_cons]

/-- **The limit is kept.** -/
theorem length_push_le (a : α) (h : l.length ≤ cap) : (push cap a l).length ≤ cap := by
  rw [length_push]
  split <;> omega

theorem zip_push {m : List β} (h : l.length = m.length) (cap : ℕ) (a : α) (b : β) :
    (push cap a l).zip (push cap b m) = push cap (a, b) (l.zip m) := by
  have hzip : (l.zip m).length = l.length := by rw [List.length_zip, ← h, Nat.min_self]
  simp only [push, List.dropLast_eq_take, List.length_cons, Nat.add_sub_cancel, hzip, ← h]
  split
  · rw [List.zip, ← List.take_zipWith]
    rfl
  · rfl

/-- **What is lost is the last**: if the elements are ordered, it comes after all that are kept. -/
theorem rel_of_notMem_push {R : α → α → Prop} (h : (a :: l).Pairwise R) {m k : α}
    (hm : m ∈ a :: l) (hlost : m ∉ push cap a l) (hk : k ∈ push cap a l) : R k m := by
  obtain ⟨lost, hsplit⟩ := isPrefix_push cap a l
  rw [← hsplit] at h hm
  rcases List.mem_append.mp hm with hm | hm
  · exact absurd hm hlost
  · exact (List.pairwise_append.mp h).2.2 k hk m hm

/-- Before the elements of an ordered list comes what comes before the first. -/
theorem pairwise_cons_iff_head {R : α → α → Prop} [IsTrans α R] (h : l.Pairwise R) :
    (a :: l).Pairwise R ↔ ∀ k ∈ l.head?, R a k := by
  cases l with
  | nil => simp
  | cons k l =>
    rw [List.pairwise_cons, List.head?_cons]
    constructor
    · intro hpair k' hk'
      exact hpair.1 k' (Option.some_inj.mp hk' ▸ List.mem_cons_self)
    · intro hhead
      have hak := hhead k rfl
      refine ⟨fun m hm ↦ ?_, h⟩
      rcases List.mem_cons.mp hm with rfl | hm
      · exact hak
      · exact IsTrans.trans _ _ _ hak ((List.pairwise_cons.mp h).1 m hm)

/-- **An ordered list stays ordered** exactly if the new element comes before the first. -/
theorem pairwise_push_iff {R : α → α → Prop} [IsTrans α R] (hcap : 1 < cap) (h : l.Pairwise R) :
    (push cap a l).Pairwise R ↔ ∀ k ∈ l.head?, R a k := by
  rw [← pairwise_cons_iff_head h]
  refine ⟨fun hpush ↦ ?_, fun hall ↦ hall.sublist (isPrefix_push cap a l).sublist⟩
  rw [pairwise_cons_iff_head h]
  cases l with
  | nil => simp
  | cons k l =>
    -- the first two elements are not dropped
    have htwo : [a, k] <+: push cap a (k :: l) := by
      have hall : [a, k] <+: a :: k :: l := ⟨l, rfl⟩
      refine List.prefix_of_prefix_length_le hall (isPrefix_push _ _ _) ?_
      rw [length_push]
      simp only [List.length_cons, List.length_nil]
      split <;> omega
    intro m hm
    obtain rfl := Option.some_inj.mp hm
    exact (List.pairwise_cons.mp (hpush.sublist htwo.sublist)).1 _ List.mem_cons_self

end CappedList
