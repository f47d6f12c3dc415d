import Mathlib.Data.Option.Basic
import Mathlib.Data.List.Basic
import Mathlib.Tactic.Common

/-!
# Labelled machines and their runs

A machine is a partial step function `step : σ → ℓ → Option σ`: in the state `s` the label `a` is
either disabled, or leads to one next state.  Whatever a scheduler, a network or a user may decide
is put into the label, so a list of labels is one interleaving and a statement about all lists of
labels is a statement about all interleavings.

`Machine.run` executes a list of labels.  `Machine.AllSteps` says that every step of a run is taken
in a state in which a given condition holds, which is how "in every run that avoids this
situation" is written.  Both come with the induction that is used for every invariant below:
`run_induct`, and `run_induct_hist` for an invariant that also speaks of the labels taken so far.
-/

set_option autoImplicit false

namespace Machine

universe u v

variable {σ : Type u} {ℓ : Type v}

/-- Take the labels in order; `none` if one of them is disabled where it is reached. -/
def run (step : σ → ℓ → Option σ) : σ → List ℓ → Option σ
  | s, [] => some s
  | s, a :: as => (step s a).bind fun t ↦ run step t as

/-- Every step of the run of the labels from `s` satisfies `ok` in the state it is taken in. -/
def AllSteps (step : σ → ℓ → Option σ) (ok : σ → ℓ → Prop) : σ → List ℓ → Prop
  | _, [] => True
  | s, a :: as => ok s a ∧ ∀ t, step s a = some t → AllSteps step ok t as

variable {step : σ → ℓ → Option σ} {ok : σ → ℓ → Prop}

@[simp] theorem run_nil (s : σ) : run step s [] = some s := rfl

theorem run_cons (s : σ) (a : ℓ) (as : List ℓ) :
    run step s (a :: as) = (step s a).bind fun t ↦ run step t as := rfl

theorem run_cons_eq_some {s t : σ} {a : ℓ} {as : List ℓ} :
    run step s (a :: as) = some t ↔ ∃ u, step s a = some u ∧ run step u as = some t := by
  rw [run_cons, Option.bind_eq_some_iff]

theorem run_append_eq_some {s t : σ} {as bs : List ℓ} :
    run step s (as ++ bs) = some t ↔ ∃ u, run step s as = some u ∧ run step u bs = some t := by
  induction as generalizing s with
  | nil => simp
  | cons a as ih =>
    rw [List.cons_append, run_cons_eq_some]
    constructor
    · rintro ⟨v, hv, hrest⟩
      obtain ⟨u, hu, hbs⟩ := ih.mp hrest
      exact ⟨u, run_cons_eq_some.mpr ⟨v, hv, hu⟩, hbs⟩
    · rintro ⟨u, has, hbs⟩
      obtain ⟨v, hv, hu⟩ := run_cons_eq_some.mp has
      exact ⟨v, hv, ih.mpr ⟨u, hu, hbs⟩⟩

@[simp] theorem allSteps_nil (s : σ) : AllSteps step ok s [] := trivial

theorem allSteps_cons {s : σ} {a : ℓ} {as : List ℓ} :
    AllSteps step ok s (a :: as) ↔ ok s a ∧ ∀ t, step s a = some t → AllSteps step ok t as :=
  Iff.rfl

instance AllSteps.decidable [∀ s a, Decidable (ok s a)] :
    ∀ (s : σ) (as : List ℓ), Decidable (AllSteps step ok s as)
  | _, [] => .isTrue trivial
  | s, a :: as =>
    match h : step s a with
    | none => decidable_of_iff (ok s a) ⟨fun ha ↦ ⟨ha, by simp [h]⟩, And.left⟩
    | some t =>
      haveI := AllSteps.decidable t as
      decidable_of_iff (ok s a ∧ AllSteps step ok t as)
        ⟨fun ha ↦ ⟨ha.1, fun u hu ↦ by rw [h, Option.some_inj] at hu; exact hu ▸ ha.2⟩,
         fun ha ↦ ⟨ha.1, ha.2 t h⟩⟩

/-- **Invariants with a history.**  What holds at the start, of no label, and is preserved by every
step that satisfies `ok`, holds of the labels of every run all of whose steps satisfy `ok`. -/
theorem run_induct_hist {I : List ℓ → σ → Prop}
    (hstep : ∀ {h : List ℓ} {s t : σ} {a : ℓ}, I h s → ok s a → step s a = some t → I (h ++ [a]) t)
    {h : List ℓ} {s t : σ} {as : List ℓ} (hs : I h s) (hok : AllSteps step ok s as)
    (hrun : run step s as = some t) : I (h ++ as) t := by
  induction as generalizing s h with
  | nil =>
    rw [run_nil, Option.some_inj] at hrun
    rw [List.append_nil]
    exact hrun ▸ hs
  | cons a as ih =>
    obtain ⟨u, hu, hrest⟩ := run_cons_eq_some.mp hrun
    rw [show h ++ a :: as = (h ++ [a]) ++ as by simp]
    exact ih (hstep hs hok.1 hu) (hok.2 u hu) hrest

/-- **Invariants.**  What is preserved by every step that satisfies `ok` is preserved by every run
all of whose steps satisfy `ok`. -/
theorem run_induct {I : σ → Prop}
    (hstep : ∀ {s t : σ} {a : ℓ}, I s → ok s a → step s a = some t → I t)
    {s t : σ} {as : List ℓ} (hs : I s) (hok : AllSteps step ok s as)
    (hrun : run step s as = some t) : I t :=
  run_induct_hist (I := fun _ s ↦ I s) (h := []) (fun hi ho hst ↦ hstep hi ho hst) hs hok hrun

theorem allSteps_true (s : σ) (as : List ℓ) : AllSteps step (fun _ _ ↦ True) s as := by
  induction as generalizing s with
  | nil => trivial
  | cons a as ih => exact ⟨trivial, fun t _ ↦ ih t⟩

theorem allSteps_of_forall_mem {P : ℓ → Prop} {as : List ℓ} (h : ∀ a ∈ as, P a) (s : σ) :
    AllSteps step (fun _ a ↦ P a) s as := by
  induction as generalizing s with
  | nil => trivial
  | cons a as ih =>
    exact ⟨h a List.mem_cons_self, fun t _ ↦ ih (fun b hb ↦ h b (List.mem_cons_of_mem a hb)) t⟩

/-- `run_induct` without a condition on the steps. -/
theorem invariant_of_run {I : σ → Prop} (hstep : ∀ {s t : σ} {a : ℓ}, I s → step s a = some t → I t)
    {s t : σ} {as : List ℓ} (hs : I s) (hrun : run step s as = some t) : I t :=
  run_induct (fun h _ hst ↦ hstep h hst) hs (allSteps_true s as) hrun

/-- An invariant turns one condition on the steps into another. -/
theorem AllSteps.of_invariant {I : σ → Prop} {ok' : σ → ℓ → Prop}
    (hstep : ∀ {s t : σ} {a : ℓ}, I s → ok s a → step s a = some t → I t)
    (h : ∀ {s : σ} {a : ℓ}, I s → ok s a → ok' s a) {s : σ} {as : List ℓ} (hs : I s)
    (hok : AllSteps step ok s as) : AllSteps step ok' s as := by
  induction as generalizing s with
  | nil => trivial
  | cons a as ih => exact ⟨h hs hok.1, fun t ht ↦ ih (hstep hs hok.1 ht) (hok.2 t ht)⟩

/-- Two conditions that agree wherever an invariant holds are the same condition on runs. -/
theorem allSteps_congr {I : σ → Prop} {ok' : σ → ℓ → Prop}
    (hstep : ∀ {s t : σ} {a : ℓ}, I s → ok s a → step s a = some t → I t)
    (h : ∀ {s : σ} {a : ℓ}, I s → (ok s a ↔ ok' s a)) {s : σ} {as : List ℓ} (hs : I s) :
    AllSteps step ok s as ↔ AllSteps step ok' s as :=
  ⟨fun hok ↦ hok.of_invariant hstep (fun hi ho ↦ (h hi).mp ho) hs,
   fun hok ↦ hok.of_invariant (fun hi ho hst ↦ hstep hi ((h hi).mpr ho) hst)
    (fun hi ho ↦ (h hi).mpr ho) hs⟩

/-- **Conditions whose violation cannot be made good.**  If a step keeps what is good exactly when
it satisfies the condition, and no step repairs what is not good any more, then a run ends well
exactly when all its steps satisfy the condition. -/
theorem allSteps_iff_good {I G : σ → Prop}
    (hstep : ∀ {s t : σ} {a : ℓ}, I s → G s → step s a = some t → I t ∧ (ok s a ↔ G t))
    (hlost : ∀ {s t : σ} {a : ℓ}, I s → ¬ G s → step s a = some t → I t ∧ ¬ G t)
    {s t : σ} {as : List ℓ} (hs : I s) (hgood : G s) (hrun : run step s as = some t) :
    AllSteps step ok s as ↔ G t := by
  induction as generalizing s with
  | nil =>
    rw [run_nil, Option.some_inj] at hrun
    exact iff_of_true trivial (hrun ▸ hgood)
  | cons a as ih =>
    obtain ⟨u, hu, hrest⟩ := run_cons_eq_some.mp hrun
    obtain ⟨hi, hok⟩ := hstep hs hgood hu
    have hall : AllSteps step ok s (a :: as) ↔ ok s a ∧ AllSteps step ok u as := by
      rw [allSteps_cons, hu]
      simp
    rw [hall, hok]
    by_cases hu' : G u
    · rw [ih hi hu' hrest]
      exact and_iff_right hu'
    · have hlast : I t ∧ ¬ G t :=
        invariant_of_run (I := fun s ↦ I s ∧ ¬ G s) (fun h hst ↦ hlost h.1 h.2 hst) ⟨hi, hu'⟩
          hrest
      exact iff_of_false (fun h ↦ hu' h.1) hlast.2

/-- A machine that is never stuck runs to the end of any labels. -/
theorem exists_run_of_total (htotal : ∀ s a, ∃ t, step s a = some t) (s : σ) (as : List ℓ) :
    ∃ t, run step s as = some t := by
  induction as generalizing s with
  | nil => exact ⟨s, rfl⟩
  | cons a as ih =>
    obtain ⟨u, hu⟩ := htotal s a
    obtain ⟨t, ht⟩ := ih u
    exact ⟨t, run_cons_eq_some.mpr ⟨u, hu, ht⟩⟩

/-! ### What the steps of a run do -/

/-- Every step of the run of the labels from `s` is related by `P` to the state it leads to. -/
def EachStep (step : σ → ℓ → Option σ) (P : σ → ℓ → σ → Prop) (s : σ) (as : List ℓ) : Prop :=
  AllSteps step (fun s a ↦ ∀ t, step s a = some t → P s a t) s as

/-- **What every step does, and the condition it does it under.**  If a step from a state with the
invariant does what it should exactly when it satisfies the condition, and then keeps the
invariant, the same holds of whole runs. -/
theorem eachStep_iff_allSteps {I : σ → Prop} {P : σ → ℓ → σ → Prop}
    (hok : ∀ {s t : σ} {a : ℓ}, I s → step s a = some t → (P s a t ↔ ok s a))
    (hstep : ∀ {s t : σ} {a : ℓ}, I s → step s a = some t → P s a t → I t)
    {s t : σ} {as : List ℓ} (hs : I s) (hrun : run step s as = some t) :
    EachStep step P s as ↔ AllSteps step ok s as := by
  induction as generalizing s with
  | nil => exact Iff.rfl
  | cons a as ih =>
    obtain ⟨u, hu, hrest⟩ := run_cons_eq_some.mp hrun
    rw [EachStep, allSteps_cons, allSteps_cons, hu]
    simp only [Option.some_inj, forall_eq']
    rw [hok hs hu]
    exact and_congr_right fun h ↦ ih (hstep hs hu ((hok hs hu).mpr h)) hrest

theorem EachStep.of_append {P : σ → ℓ → σ → Prop} {s t u : σ} {as bs : List ℓ} {a : ℓ}
    (h : EachStep step P s (as ++ a :: bs)) (hrun : run step s as = some t)
    (hstep : step t a = some u) : P t a u := by
  induction as generalizing s with
  | nil =>
    obtain rfl : s = t := by simpa using hrun
    exact h.1 u hstep
  | cons b as ih =>
    obtain ⟨v, hv, hrest⟩ := run_cons_eq_some.mp hrun
    exact ih (h.2 v hv) hrest

end Machine
