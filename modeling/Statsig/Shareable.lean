import Statsig.Lib.Machine
import Statsig.Lib.Slots
import Statsig.Lib.UnorderedMap
import Statsig.Lib.Text

/-!
# One instance for each sdk key

`AsyncHelper`, `Diagnostics` and `ErrorBoundary` keep a registry of their instances by sdk key, and
each has a `Get` that looks the key up and adds a new instance if there is none.  The lookup and the
addition take the registry's mutex one after the other, so calls can come in between.

`sameInstance_iff` says in which runs all calls for a key return the instance that the registry
holds.
-/

set_option autoImplicit false

namespace Statsig

/-! ## The registry -/

/-- `Shareable` -/
structure Shareable (ι : Type) where
  instances : UnorderedMap Str ι := ∅

namespace Shareable

variable {ι : Type} (s : Shareable ι) (sdkKey : Str)

/-- `Get` -/
def get : Option ι := s.instances.find? sdkKey

/-- `Add`, which replaces what is there.  Nothing depends on the order of the instances. -/
def add (instance' : ι) : Shareable ι where
  instances := (s.instances.erase sdkKey).emplace (Rehash.id _ _) sdkKey instance'

/-- `Remove` -/
def remove : Shareable ι where
  instances := s.instances.erase sdkKey

variable {s sdkKey} {other : Str} {i : ι}

@[simp] theorem get_add_self : (s.add sdkKey i).get sdkKey = some i :=
  UnorderedMap.find?_emplace_self _ (UnorderedMap.find?_erase_self ..)

theorem get_add_of_ne (h : other ≠ sdkKey) : (s.add sdkKey i).get other = s.get other := by
  rw [get, add, UnorderedMap.find?_emplace_of_ne _ h, UnorderedMap.find?_erase_of_ne h, get]

@[simp] theorem get_remove_self : (s.remove sdkKey).get sdkKey = none :=
  UnorderedMap.find?_erase_self ..

end Shareable

/-! ## Calls of `Get` -/

/-- A registry with calls of `Get`, the instances being numbered as they are created. -/
structure GetCalls where
  registry : Shareable ℕ := {}
  created : ℕ := 0
  /-- The calls that have found nothing, each with its key and its new instance. -/
  pending : List (Str × ℕ) := []
  /-- The calls that have returned, each with its key and what it returned. -/
  returned : List (Str × ℕ) := []

namespace GetCalls

inductive Label where
  /-- A call looks the key up. -/
  | lookup (sdkKey : Str)
  /-- One of those that found nothing adds its instance. -/
  | add (i : ℕ)
  deriving DecidableEq, Repr

/-- One step of `AsyncHelper::Get`, `Diagnostics::Get` or `ErrorBoundary::Get`, which do the same
with their registries. -/
def step (s : GetCalls) : Label → Option GetCalls
  | .lookup sdkKey =>
    match s.registry.get sdkKey with
    | some i => some { s with returned := s.returned ++ [(sdkKey, i)] }
    | none => some { s with
        created := s.created + 1, pending := s.pending ++ [(sdkKey, s.created)] }
  | .add i =>
    (s.pending[i]?).map fun call ↦ { s with
      registry := s.registry.add call.1 call.2
      pending := s.pending.eraseIdx i
      returned := s.returned ++ [call] }

/-- All calls for a key have returned the instance that the registry holds. -/
def SameInstance (s : GetCalls) : Prop := ∀ call ∈ s.returned, s.registry.get call.1 = some call.2

/-- A key is not looked up while a call has found nothing for it, and not added its instance yet. -/
def LooksUpSettled (s : GetCalls) : Label → Prop
  | .lookup sdkKey => ∀ call ∈ s.pending, call.1 ≠ sdkKey
  | .add _ => True

/-! ## What is in circulation -/

/-- A call has returned the instance, or is going to. -/
def Circulates (s : GetCalls) (call : Str × ℕ) : Prop := call ∈ s.returned ∨ call ∈ s.pending

/-- There are no two instances for a key. -/
def Unique (s : GetCalls) : Prop :=
  ∀ sdkKey i j, s.Circulates (sdkKey, i) → s.Circulates (sdkKey, j) → i = j

/-- What the registry has to do with what is in circulation. -/
structure Inv (s : GetCalls) : Prop where
  /-- The registry holds something for a key that a call has returned for. -/
  held : ∀ call ∈ s.returned, ∃ i, s.registry.get call.1 = some i ∧ (call.1, i) ∈ s.returned
  /-- If it holds something for a key that a call is pending for, it is another call's. -/
  other : ∀ call ∈ s.pending, ∀ i, s.registry.get call.1 = some i →
    (call.1, i) ∈ s.returned ∧ i ≠ call.2
  fresh : ∀ call ∈ s.pending, call.2 < s.created
  nodup : (s.pending.map Prod.snd).Nodup

variable {s t : GetCalls} {a : Label}

/-- A call that returns adds nothing to what was in circulation. -/
theorem circulates_eraseIdx {i : ℕ} {call : Str × ℕ} (hcall : s.pending[i]? = some call)
    (call' : Str × ℕ) :
    (call' ∈ s.returned ++ [call] ∨ call' ∈ s.pending.eraseIdx i) ↔ s.Circulates call' := by
  have hmem := (Slots.perm_cons_eraseIdx hcall).mem_iff (a := call')
  rw [Circulates, hmem, List.mem_append, List.mem_singleton, List.mem_cons, or_assoc]

theorem inv_step (hs : s.Inv) (h : step s a = some t) : t.Inv := by
  obtain ⟨hheld, hother, hfresh, hnodup⟩ := hs
  cases a with
  | lookup sdkKey =>
    rw [step] at h
    split at h <;> rename_i hget <;> obtain rfl := Option.some_inj.mp h
    · rename_i i
      refine ⟨?_, fun call hcall j hj ↦ ?_, hfresh, hnodup⟩
      · refine Slots.forall_mem_append_singleton (fun call hcall ↦ ?_) ⟨i, hget, by simp⟩
        obtain ⟨j, hj, hmem⟩ := hheld call hcall
        exact ⟨j, hj, List.mem_append_left _ hmem⟩
      · exact (hother call hcall j hj).imp_left (List.mem_append_left _)
    · refine ⟨hheld, ?_, ?_, ?_⟩
      · exact Slots.forall_mem_append_singleton hother fun i hi ↦
          absurd (hget.symm.trans hi) (by simp)
      · refine Slots.forall_mem_append_singleton (fun call hcall ↦ ?_) (Nat.lt_succ_self _)
        exact Nat.lt_succ_of_lt (hfresh call hcall)
      · rw [List.map_append, List.nodup_append]
        refine ⟨hnodup, by simp, fun j hj k hk ↦ ?_⟩
        obtain ⟨call, hcall, rfl⟩ := List.mem_map.mp hj
        obtain rfl : k = s.created := by simpa using hk
        exact Nat.ne_of_lt (hfresh call hcall)
  | add i =>
    obtain ⟨call, hcall, rfl⟩ := Option.map_eq_some_iff.mp h
    obtain ⟨sdkKey, new⟩ := call
    have hsplit := Slots.perm_cons_eraseIdx hcall
    have hnew : new ∉ (s.pending.eraseIdx i).map Prod.snd := by
      have hperm := (hsplit.map Prod.snd).nodup_iff.mp hnodup
      exact (List.nodup_cons.mp hperm).1
    refine ⟨fun call hmem ↦ ?_, fun call hmem j hj ↦ ?_,
      Slots.forall_mem_eraseIdx hfresh, hnodup.sublist ((List.eraseIdx_sublist _ _).map _)⟩
    · by_cases hkey : call.1 = sdkKey
      · exact ⟨new, by simp [hkey], by simp [hkey]⟩
      · rcases List.mem_append.mp hmem with hmem | hmem
        · obtain ⟨j, hj, hreturned⟩ := hheld call hmem
          exact ⟨j, by rwa [Shareable.get_add_of_ne hkey], List.mem_append_left _ hreturned⟩
        · obtain rfl := List.mem_singleton.mp hmem
          exact absurd rfl hkey
    · by_cases hkey : call.1 = sdkKey
      · obtain rfl : new = j := by simpa [hkey] using hj
        refine ⟨by simp [hkey], ?_⟩
        rintro rfl
        exact hnew (List.mem_map_of_mem hmem)
      · rw [Shareable.get_add_of_ne hkey] at hj
        exact (hother call (List.mem_of_mem_eraseIdx hmem) j hj).imp_left (List.mem_append_left _)

/-- One more instance in circulation. -/
theorem unique_of_circulates (sdkKey : Str) (new : ℕ) (hunique : s.Unique)
    (ht : ∀ call, t.Circulates call → s.Circulates call ∨ call = (sdkKey, new))
    (hnew : ∀ i, s.Circulates (sdkKey, i) → i = new) : t.Unique := by
  have hkey : ∀ key i, t.Circulates (key, i) → s.Circulates (key, i) ∨ key = sdkKey ∧ i = new :=
    fun key i hi ↦ (ht _ hi).imp_right Prod.mk.inj
  intro key i j hi hj
  rcases hkey key i hi with hi | ⟨rfl, rfl⟩ <;> rcases hkey key j hj with hj | ⟨hsame, rfl⟩
  · exact hunique key i j hi hj
  · subst hsame
    exact hnew i hi
  · exact (hnew j hj).symm
  · rfl

/-- **One step**: there come to be two instances for a key exactly when a call looks it up while
another is pending. -/
theorem unique_step (hs : s.Inv) (hunique : s.Unique) (h : step s a = some t) :
    s.LooksUpSettled a ↔ t.Unique := by
  cases a with
  | lookup sdkKey =>
    rw [step] at h
    split at h <;> rename_i hget <;> obtain rfl := Option.some_inj.mp h
    · rename_i i
      -- no call is pending for a key for which something is found
      have hsettled : s.LooksUpSettled (.lookup sdkKey) := by
        rintro ⟨key, j⟩ hcall rfl
        obtain ⟨hreturned, hne⟩ := hs.other _ hcall i hget
        exact hne (hunique key i j (.inl hreturned) (.inr hcall))
      refine iff_of_true hsettled
        (unique_of_circulates sdkKey i hunique (fun call hcall ↦ ?_) fun j hj ↦ ?_)
      · rcases hcall with hcall | hcall
        · rcases List.mem_append.mp hcall with hcall | hcall
          · exact .inl (.inl hcall)
          · exact .inr (List.mem_singleton.mp hcall)
        · exact .inl (.inr hcall)
      · rcases hj with hj | hj
        · obtain ⟨k, hk, hreturned⟩ := hs.held _ hj
          obtain rfl : i = k := Option.some_inj.mp (hget.symm.trans hk)
          exact hunique sdkKey j i (.inl hj) (.inl hreturned)
        · exact absurd rfl (hsettled _ hj)
    · constructor
      · intro hsettled
        refine unique_of_circulates sdkKey s.created hunique (fun call hcall ↦ ?_) fun j hj ↦ ?_
        · rcases hcall with hcall | hcall
          · exact .inl (.inl hcall)
          · rcases List.mem_append.mp hcall with hcall | hcall
            · exact .inl (.inr hcall)
            · exact .inr (List.mem_singleton.mp hcall)
        · rcases hj with hj | hj
          · obtain ⟨k, hk, -⟩ := hs.held _ hj
            exact absurd (hget.symm.trans hk) (by simp)
          · exact absurd rfl (hsettled _ hj)
      · rintro ht ⟨key, j⟩ hcall rfl
        have hj := ht key j s.created (.inr (List.mem_append_left _ hcall)) (.inr (by simp))
        exact absurd (hs.fresh _ hcall) (by simp [hj])
  | add i =>
    obtain ⟨call, hcall, rfl⟩ := Option.map_eq_some_iff.mp h
    refine iff_of_true trivial fun sdkKey j k hj hk ↦ hunique sdkKey j k ?_ ?_
    · exact (circulates_eraseIdx hcall _).mp hj
    · exact (circulates_eraseIdx hcall _).mp hk

/-- What is in circulation stays there. -/
theorem circulates_step {call : Str × ℕ} (hcall : s.Circulates call) (h : step s a = some t) :
    t.Circulates call := by
  cases a with
  | lookup sdkKey =>
    rw [step] at h
    split at h <;> obtain rfl := Option.some_inj.mp h
    · exact hcall.imp_left (List.mem_append_left _)
    · exact hcall.imp_right (List.mem_append_left _)
  | add i =>
    obtain ⟨added, hadded, rfl⟩ := Option.map_eq_some_iff.mp h
    exact (circulates_eraseIdx hadded _).mpr hcall

/-- When no call is pending, the calls agree with each other exactly when they agree with the
registry. -/
theorem sameInstance_iff_unique (hs : s.Inv) (hdone : s.pending = []) :
    s.SameInstance ↔ s.Unique := by
  have hreturned : ∀ {call}, s.Circulates call → call ∈ s.returned := by
    rintro call (hcall | hcall)
    · exact hcall
    · exact absurd (hdone ▸ hcall) (by simp)
  constructor
  · intro hsame sdkKey i j hi hj
    have hi := hsame _ (hreturned hi)
    have hj := hsame _ (hreturned hj)
    exact Option.some_inj.mp (hi.symm.trans hj)
  · rintro hunique ⟨sdkKey, i⟩ hcall
    obtain ⟨j, hj, hmem⟩ := hs.held _ hcall
    rw [hj, hunique sdkKey i j (.inl hcall) (.inl hmem)]

/-- **One instance**: when all calls have returned, those for one key have returned the same
instance, the one that the registry holds, exactly in the runs in which no key is looked up while
another call has missed it and has not added its instance yet. -/
theorem sameInstance_iff (registry : Shareable ℕ) {labels : List Label}
    (hrun : Machine.run step { registry } labels = some s) (hdone : s.pending = []) :
    s.SameInstance ↔ Machine.AllSteps step LooksUpSettled { registry } labels := by
  have hinit : Inv { registry } := ⟨by simp, by simp, by simp, List.nodup_nil⟩
  rw [sameInstance_iff_unique (Machine.invariant_of_run inv_step hinit hrun) hdone]
  refine (Machine.allSteps_iff_good (fun hs hunique h ↦ ⟨inv_step hs h, unique_step hs hunique h⟩)
    (fun hs hnot h ↦ ⟨inv_step hs h, fun hunique ↦ hnot ?_⟩) hinit ?_ hrun).symm
  · exact fun sdkKey i j hi hj ↦
      hunique sdkKey i j (circulates_step hi h) (circulates_step hj h)
  · rintro sdkKey i j (hi | hi)
    · exact absurd hi (by simp)
    · exact absurd hi (by simp)

/-- Two calls, one after the other. -/
theorem sameInstance_iff_oneByOne :
    ∃ s, Machine.run step {} [.lookup (str "key"), .add 0, .lookup (str "key")] = some s ∧
      (s.SameInstance ↔ Machine.AllSteps step LooksUpSettled {}
        [.lookup (str "key"), .add 0, .lookup (str "key")]) :=
  ⟨_, rfl, sameInstance_iff {} rfl rfl⟩

/-- Two calls at once. -/
theorem not_forall_sameInstance :
    ¬ ∀ (registry : Shareable ℕ) (labels : List Label) (s : GetCalls),
      Machine.run step { registry } labels = some s → s.pending = [] → s.SameInstance := by
  intro h
  have hsame := h {} [.lookup (str "key"), .lookup (str "key"), .add 0, .add 0] _ rfl rfl
  exact absurd (hsame (str "key", 0) (by decide)) (by decide)

end GetCalls

end Statsig
