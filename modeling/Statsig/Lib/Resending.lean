import Mathlib.Data.List.Perm.Subperm
import Mathlib.Data.List.Count
import Mathlib.Tactic.Common

/-!
# Things that are sent again

Things are sent, and some sendings fail.  Whoever sends a thing again carries along how often that
has happened, and it may be written down in several places on the way.

`Agrees` says that what is carried along agrees with what has happened, for a list of things on
their way, and that nothing has been sent too often.  Its rules say what happens to it when a thing
is sent for the first time, sent again, fails, or is given up.
-/

set_option autoImplicit false

namespace Resending

universe u

variable {α : Type u} [DecidableEq α]

/-- A thing on its way, with what is known about it. -/
structure Item (α : Type u) where
  name : α
  sends : ℕ
  failures : ℕ
  deriving DecidableEq, Repr

/-- The names of all that was sent, and of all that failed, agree with the items; and nothing was
sent more than `cap` times. -/
structure Agrees (cap : ℕ) (sent failed : List α) (items : List (Item α)) : Prop where
  nodup : (items.map Item.name).Nodup
  sends : ∀ item ∈ items, sent.count item.name = item.sends
  failures : ∀ item ∈ items, failed.count item.name = item.failures
  bounded : ∀ a, sent.count a ≤ cap

variable {cap : ℕ} {sent failed : List α} {items items' : List (Item α)} {item : Item α}

theorem Agrees.nil (cap : ℕ) : Agrees (α := α) cap [] [] [] where
  nodup := List.nodup_nil
  sends := by simp
  failures := by simp
  bounded := by simp

/-- Items may be reordered, and given up. -/
theorem Agrees.subperm (h : Agrees cap sent failed items) (hsub : items'.Subperm items) :
    Agrees cap sent failed items' where
  nodup := by
    obtain ⟨more, hperm, hsublist⟩ := hsub
    exact ((hperm.map Item.name).nodup_iff.mp (h.nodup.sublist (hsublist.map Item.name)))
  sends item hitem := h.sends item (hsub.subset hitem)
  failures item hitem := h.failures item (hsub.subset hitem)
  bounded := h.bounded

theorem Agrees.perm (h : Agrees cap sent failed items) (hperm : items'.Perm items) :
    Agrees cap sent failed items' := h.subperm hperm.subperm

/-- The others have other names. -/
theorem Agrees.name_ne (h : Agrees cap sent failed (item :: items)) :
    ∀ other ∈ items, item.name ≠ other.name := by
  intro other hother heq
  have hnodup := List.nodup_cons.mp h.nodup
  exact hnodup.1 (heq ▸ List.mem_map_of_mem hother)

theorem count_append_singleton_of_ne {a b : α} (h : a ≠ b) (l : List α) :
    (l ++ [a]).count b = l.count b := by
  rw [List.count_append, List.count_singleton, if_neg (by simpa using h), Nat.add_zero]

theorem count_append_singleton_self (a : α) (l : List α) :
    (l ++ [a]).count a = l.count a + 1 := by
  rw [List.count_append, List.count_singleton_self]

/-- **An item is sent.** -/
theorem Agrees.send (h : Agrees cap sent failed (item :: items)) (hcap : item.sends < cap) :
    Agrees cap (sent ++ [item.name]) failed ({ item with sends := item.sends + 1 } :: items) where
  nodup := h.nodup
  sends := by
    intro other hother
    rcases List.mem_cons.mp hother with rfl | hother
    · rw [count_append_singleton_self, h.sends item List.mem_cons_self]
    · rw [count_append_singleton_of_ne (h.name_ne other hother)]
      exact h.sends other (List.mem_cons_of_mem _ hother)
  failures := by
    intro other hother
    rcases List.mem_cons.mp hother with rfl | hother
    · exact h.failures item List.mem_cons_self
    · exact h.failures other (List.mem_cons_of_mem _ hother)
  bounded := by
    intro a
    by_cases ha : item.name = a
    · rw [← ha, count_append_singleton_self, h.sends item List.mem_cons_self]
      exact hcap
    · rw [count_append_singleton_of_ne ha]
      exact h.bounded a

/-- **An item fails.** -/
theorem Agrees.fail (h : Agrees cap sent failed (item :: items)) :
    Agrees cap sent (failed ++ [item.name])
      ({ item with failures := item.failures + 1 } :: items) where
  nodup := h.nodup
  sends := by
    intro other hother
    rcases List.mem_cons.mp hother with rfl | hother
    · exact h.sends item List.mem_cons_self
    · exact h.sends other (List.mem_cons_of_mem _ hother)
  failures := by
    intro other hother
    rcases List.mem_cons.mp hother with rfl | hother
    · rw [count_append_singleton_self, h.failures item List.mem_cons_self]
    · rw [count_append_singleton_of_ne (h.name_ne other hother)]
      exact h.failures other (List.mem_cons_of_mem _ hother)
  bounded := h.bounded

/-- **Something new is sent.** -/
theorem Agrees.sendNew (h : Agrees cap sent failed items) (hcap : 0 < cap) {a : α}
    (hsent : a ∉ sent) (hfailed : a ∉ failed) (hitems : a ∉ items.map Item.name) :
    Agrees cap (sent ++ [a]) failed (⟨a, 1, 0⟩ :: items) := by
  have hnew : Agrees cap sent failed (⟨a, 0, 0⟩ :: items) := by
    refine ⟨List.nodup_cons.mpr ⟨hitems, h.nodup⟩, ?_, ?_, h.bounded⟩
    · rw [List.forall_mem_cons]
      exact ⟨List.count_eq_zero.mpr hsent, h.sends⟩
    · rw [List.forall_mem_cons]
      exact ⟨List.count_eq_zero.mpr hfailed, h.failures⟩
  exact hnew.send hcap

end Resending
