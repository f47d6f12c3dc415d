import Mathlib.Data.List.Basic
import Mathlib.Order.Nat

/-!
# Versions

A source publishes values for keys, one after the other, and `current` is what it has for a key.  A
read takes some time, so what it gives is what the source had at some moment between its beginning
and its end (`ReadDuring`); the moments are counted in publications.

If every value has a time and a key only gets values with later and later ones (`Increasing`), then
a reader can ask for a value unless it is older than the one it has: `eq_current_of_le` says that a
source that has nothing newer has that very value.
-/

set_option autoImplicit false

namespace Versions

universe u v w

variable {κ : Type u} {ν : Type v} {τ : Type w} [DecidableEq κ] {history more : List (κ × ν)}
  {key : κ} {value value' : ν} {started ended : ℕ}

/-- What the source has for a key. -/
def current (history : List (κ × ν)) (key : κ) : Option ν :=
  (history.filter fun e ↦ e.1 = key).getLast?.map Prod.snd

theorem mem_of_current (h : current history key = some value) : (key, value) ∈ history := by
  obtain ⟨e, he, rfl⟩ := Option.map_eq_some_iff.mp h
  obtain ⟨hmem, hkey⟩ := List.mem_filter.mp (List.mem_of_getLast? he)
  obtain rfl := of_decide_eq_true hkey
  exact hmem

/-- Every value that there was is still current, or older than the current one. -/
theorem eq_or_rel_current {R : κ × ν → κ × ν → Prop} (hR : history.Pairwise R)
    (hmem : (key, value) ∈ history) (hcurrent : current history key = some value') :
    value = value' ∨ R (key, value) (key, value') := by
  obtain ⟨e, he, rfl⟩ := Option.map_eq_some_iff.mp hcurrent
  obtain ⟨-, hkey⟩ := List.mem_filter.mp (List.mem_of_getLast? he)
  obtain ⟨before, hsplit⟩ := List.getLast?_eq_some_iff.mp he
  have hmem' : (key, value) ∈ before ++ [e] := by
    rw [← hsplit]
    exact List.mem_filter.mpr ⟨hmem, by simp⟩
  have hpairs : (before ++ [e]).Pairwise R := hsplit ▸ hR.filter _
  obtain rfl := of_decide_eq_true hkey
  rcases List.mem_append.mp hmem' with hbefore | hlast
  · exact .inr ((List.pairwise_append.mp hpairs).2.2 _ hbefore _ (List.mem_singleton_self _))
  · exact .inl (congrArg Prod.snd (List.mem_singleton.mp hlast))

/-- The values that a key gets have later and later times. -/
def Increasing [LT τ] (time : ν → Option τ) (history : List (κ × ν)) : Prop :=
  history.Pairwise fun e e' ↦
    e.1 = e'.1 → ∀ t t', time e.2 = some t → time e'.2 = some t' → t < t'

/-- **A source that has nothing newer than a value has that value.** -/
theorem eq_current_of_le [Preorder τ] {time : ν → Option τ} {t t' : τ}
    (h : Increasing time history) (hmem : (key, value) ∈ history)
    (hcurrent : current history key = some value') (ht : time value = some t)
    (ht' : time value' = some t') (hle : t' ≤ t) : value = value' := by
  refine (eq_or_rel_current h hmem hcurrent).resolve_right fun hlater ↦ ?_
  exact absurd hle (hlater rfl t t' ht ht').not_ge

/-! ### Reads -/

/-- What a read gives that began when so much had been published, and ended when so much had. -/
def ReadDuring (history : List (κ × ν)) (started ended : ℕ) (key : κ) (value : ν) : Prop :=
  ∃ moment, started ≤ moment ∧ moment ≤ ended ∧
    current (history.take moment) key = some value

/-- It does not matter what is published after its end. -/
theorem ReadDuring.append (h : ReadDuring history started ended key value)
    (hended : ended ≤ history.length) :
    ReadDuring (history ++ more) started ended key value := by
  obtain ⟨moment, hstarted, hmoment, hcurrent⟩ := h
  refine ⟨moment, hstarted, hmoment, ?_⟩
  rw [List.take_append_of_le_length (hmoment.trans hended), hcurrent]

/-- **Reads do not go back**: what a read gives that began after another one had ended is not older
than what the other one gave. -/
theorem ReadDuring.le [Preorder τ] {time : ν → Option τ} {t t' : τ} {started' ended' : ℕ}
    (h : ReadDuring history started ended key value)
    (h' : ReadDuring history started' ended' key value') (hafter : ended ≤ started')
    (hincreasing : Increasing time history) (ht : time value = some t)
    (ht' : time value' = some t') : t ≤ t' := by
  obtain ⟨moment, -, hmoment, hcurrent⟩ := h
  obtain ⟨moment', hstarted', -, hcurrent'⟩ := h'
  have hle : moment ≤ moment' := hmoment.trans (hafter.trans hstarted')
  have hmem : (key, value) ∈ history.take moment' :=
    (List.take_subset_take_left history hle) (mem_of_current hcurrent)
  have hpairs := hincreasing.sublist (List.take_sublist moment' history)
  obtain rfl | hlt := eq_or_rel_current hpairs hmem hcurrent'
  · exact (Option.some_inj.mp (ht.symm.trans ht')).le
  · exact (hlt rfl t t' ht ht').le

end Versions
