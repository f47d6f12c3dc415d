import Mathlib.Data.List.Infix
import Mathlib.Tactic.Common

/-!
# Texts joined with separators

Pieces that are joined with a separator, without escaping, can be told apart in the result as long
as none of them contains the separator that ends it.  A separator is a character that does not
occur again in it (`append_separator_inj`), so the first occurrence is the one that was put there.
-/

set_option autoImplicit false

namespace Delimited

universe u

variable {α : Type u} {c d : α} {sep v v' r r' : List α}

/-- A piece cannot be longer by something that begins with its own separator. -/
theorem eq_nil_of_append_separator {a : List α} (hc : c ∉ sep) (hfree : ¬ c :: sep <:+: v ++ a)
    (h : c :: sep ++ r = a ++ (c :: sep ++ r')) : a = [] := by
  cases a with
  | nil => rfl
  | cons x a =>
    rw [List.cons_append, List.cons_append, List.cons.injEq] at h
    obtain ⟨rfl, h⟩ := h
    rcases List.append_eq_append_iff.mp h with ⟨rest, rfl, -⟩ | ⟨rest, rfl, hrest⟩
    · exact absurd ⟨v, rest, by simp⟩ hfree
    · cases rest with
      | nil => exact absurd ⟨v, [], by simp⟩ hfree
      | cons y rest =>
        obtain ⟨rfl, -⟩ := List.cons.inj hrest
        exact absurd (List.mem_append_right _ List.mem_cons_self) hc

/-- **The first separator ends the piece.** -/
theorem append_separator_inj (hc : c ∉ sep) (hv : ¬ c :: sep <:+: v) (hv' : ¬ c :: sep <:+: v')
    (h : v ++ (c :: sep ++ r) = v' ++ (c :: sep ++ r')) : v = v' ∧ r = r' := by
  have hpiece : v = v' := by
    rcases List.append_eq_append_iff.mp h with ⟨a, rfl, ha⟩ | ⟨a, rfl, ha⟩
    · rw [eq_nil_of_append_separator hc hv' ha, List.append_nil]
    · rw [eq_nil_of_append_separator hc hv ha, List.append_nil]
  subst hpiece
  exact ⟨rfl, List.append_cancel_left (List.append_cancel_left h)⟩

theorem append_cons_inj (hv : c ∉ v) (hv' : c ∉ v') (h : v ++ c :: r = v' ++ c :: r') :
    v = v' ∧ r = r' :=
  append_separator_inj List.not_mem_nil (by rwa [List.singleton_infix_iff])
    (by rwa [List.singleton_infix_iff]) h

/-! ## Pairs -/

/-- Names and values, each name ended by `c` and each value by `d`. -/
def joinPairs (c d : α) (pairs : List (List α × List α)) : List α :=
  pairs.flatMap fun e ↦ e.1 ++ c :: (e.2 ++ [d])

/-- No name and no value contains what ends it. -/
def PairsFree (c d : α) (pairs : List (List α × List α)) : Prop :=
  ∀ e ∈ pairs, c ∉ e.1 ∧ d ∉ e.2

instance [DecidableEq α] (c d : α) (pairs : List (List α × List α)) :
    Decidable (PairsFree c d pairs) :=
  inferInstanceAs (Decidable (∀ e ∈ pairs, c ∉ e.1 ∧ d ∉ e.2))

/-- **Pairs can be told apart.** -/
theorem joinPairs_inj {l l' : List (List α × List α)} (hl : PairsFree c d l)
    (hl' : PairsFree c d l') (h : joinPairs c d l = joinPairs c d l') : l = l' := by
  induction l generalizing l' with
  | nil =>
    cases l' with
    | nil => rfl
    | cons e l' => exact absurd h (by simp [joinPairs])
  | cons e l ih =>
    cases l' with
    | nil => exact absurd h (by simp [joinPairs])
    | cons e' l' =>
      obtain ⟨he, hl⟩ := List.forall_mem_cons.mp hl
      obtain ⟨he', hl'⟩ := List.forall_mem_cons.mp hl'
      simp only [joinPairs, List.flatMap_cons, List.append_assoc, List.cons_append,
        List.nil_append] at h
      obtain ⟨hname, h⟩ := append_cons_inj he.1 he'.1 h
      obtain ⟨hvalue, h⟩ := append_cons_inj he.2 he'.2 h
      rw [Prod.ext hname hvalue, ih hl hl' h]

/-! ## Labelled parts -/

/-- The part of each label, in the order of the labels: the label, `d`, the part and `c`. -/
def joinParts (c d : α) (part : List α → List α) (labels : List (List α)) : List α :=
  labels.flatMap fun label ↦ label ++ d :: (part label ++ [c])

/-- No part contains what ends a part and introduces a label. -/
def PartsFree (c d : α) (part : List α → List α) (labels : List (List α)) : Prop :=
  ∀ label ∈ labels, ∀ next ∈ labels, ¬ c :: (next ++ [d]) <:+: part label

/-- **Labelled parts can be told apart**, though a part may contain what ends it, as long as no
label follows. -/
theorem joinParts_inj {part part' : List α → List α} {labels : List (List α)} (hcd : c ≠ d)
    (hlabels : ∀ label ∈ labels, c ∉ label) (hpart : PartsFree c d part labels)
    (hpart' : PartsFree c d part' labels)
    (h : joinParts c d part labels = joinParts c d part' labels) :
    ∀ label ∈ labels, part label = part' label := by
  induction labels with
  | nil => simp
  | cons label labels ih =>
    have hrest : ∀ {p : List α → List α}, PartsFree c d p (label :: labels) →
        PartsFree c d p labels :=
      fun hp l hl next hnext ↦
        hp l (List.mem_cons_of_mem _ hl) next (List.mem_cons_of_mem _ hnext)
    simp only [joinParts, List.flatMap_cons, List.append_assoc, List.cons_append,
      List.nil_append, List.append_cancel_left_eq, List.cons.injEq, true_and] at h
    cases labels with
    | nil =>
      rw [List.forall_mem_singleton]
      simpa using h
    | cons next labels =>
      have hsep : c ∉ next ++ [d] := by
        simpa [hcd] using hlabels next (by simp)
      have hmem : next ∈ label :: next :: labels := by simp
      have hfree := hpart label List.mem_cons_self next hmem
      have hfree' := hpart' label List.mem_cons_self next hmem
      -- the part ends where the next label is introduced
      have hsplit : ∀ p : List α → List α, p label ++ c :: (next :: labels).flatMap
          (fun l ↦ l ++ d :: (p l ++ [c])) = p label ++ (c :: (next ++ [d]) ++
            (p next ++ c :: labels.flatMap fun l ↦ l ++ d :: (p l ++ [c]))) := by
        simp
      rw [hsplit part, hsplit part'] at h
      obtain ⟨hhead, htail⟩ := append_separator_inj hsep hfree hfree' h
      refine List.forall_mem_cons.mpr ⟨hhead, ih (fun l hl ↦ hlabels l (by simp [hl]))
        (hrest hpart) (hrest hpart') ?_⟩
      simp [joinParts, htail]

end Delimited
