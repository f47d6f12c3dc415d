import Statsig.Freshness

/-!
# What an insertion costs

`AddToInMemoryCache` makes room before it inserts, and does not ask whether it has to.
`losesOnlyWhatItMust_iff` says for which keys that makes no difference; the size of the map is
bounded in any case.
-/

set_option autoImplicit false

namespace Statsig

open constants

variable {m : UnorderedMap Str DataAdapterResult} {key : Str} {result : DataAdapterResult}

/-! ## The oldest entry -/

/-- The entry of the key is the first among the oldest, in the order of iteration. -/
def IsOldest (m : UnorderedMap Str DataAdapterResult) (key : Str) : Prop :=
  ∃ before value after, m.entries = before ++ (key, value) :: after ∧
    (∀ e ∈ before, value.receivedAt < e.2.receivedAt) ∧
    ∀ e ∈ after, value.receivedAt ≤ e.2.receivedAt

/-- **The search**: the first entry that is older than the bound and as old as any, if there is
one older than the bound. -/
theorem foldl_olderOf (es : List (Str × DataAdapterResult)) (best : Str × Int64) :
    (es.foldl olderOf best = best ∧ ∀ e ∈ es, best.2 ≤ e.2.receivedAt) ∨
      ∃ before e after, es = before ++ e :: after ∧
        es.foldl olderOf best = (e.1, e.2.receivedAt) ∧ e.2.receivedAt < best.2 ∧
        (∀ b ∈ before, e.2.receivedAt < b.2.receivedAt) ∧
        ∀ a ∈ after, e.2.receivedAt ≤ a.2.receivedAt := by
  induction es generalizing best with
  | nil => exact .inl ⟨rfl, by simp⟩
  | cons f es ih =>
    rw [List.foldl_cons, olderOf]
    split
    · rename_i holder
      rcases ih (f.1, f.2.receivedAt) with ⟨hfold, hall⟩ |
        ⟨before, e, after, rfl, hfold, hlt, hbefore, hafter⟩
      · exact .inr ⟨[], f, es, rfl, hfold, holder, by simp, hall⟩
      · refine .inr ⟨f :: before, e, after, rfl, hfold, Int64.lt_trans hlt holder, ?_, hafter⟩
        exact List.forall_mem_cons.mpr ⟨hlt, hbefore⟩
    · rename_i hnot
      rw [Int64.not_lt] at hnot
      rcases ih best with ⟨hfold, hall⟩ | ⟨before, e, after, rfl, hfold, hlt, hbefore, hafter⟩
      · exact .inl ⟨hfold, List.forall_mem_cons.mpr ⟨hnot, hall⟩⟩
      · refine .inr ⟨f :: before, e, after, rfl, hfold, hlt, ?_, hafter⟩
        exact List.forall_mem_cons.mpr ⟨Int64.lt_of_lt_of_le hlt hnot, hbefore⟩

theorem oldestKey_spec (h : m.entries ≠ []) : ∃ oldest, oldestKey m = some oldest ∧
    IsOldest m oldest := by
  rw [oldestKey]
  cases hentries : m.entries with
  | nil => exact absurd hentries h
  | cons e es =>
    refine ⟨_, rfl, ?_⟩
    rcases foldl_olderOf (e :: es) (e.1, Int64.maxValue) with ⟨hfold, hall⟩ |
      ⟨before, f, after, heq, hfold, -, hbefore, hafter⟩
    · -- all entries have the greatest time there is, so the first is the oldest
      rw [hfold]
      refine ⟨[], e.2, es, hentries, by simp, fun a ha ↦ ?_⟩
      have hmax := hall a (List.mem_cons_of_mem _ ha)
      exact Int64.le_trans (Int64.le_maxValue _) hmax
    · rw [hfold]
      exact ⟨before, f.2, after, hentries.trans heq, hbefore, hafter⟩

theorem IsOldest.unique {key' : Str} (h : IsOldest m key) (h' : IsOldest m key') : key = key' := by
  obtain ⟨before, value, after, heq, hbefore, hafter⟩ := h
  obtain ⟨before', value', after', heq', hbefore', hafter'⟩ := h'
  rw [heq, List.append_eq_append_iff] at heq'
  rcases heq' with ⟨mid, rfl, hmid⟩ | ⟨mid, rfl, hmid⟩
  · cases mid with
    | nil => exact (Prod.mk.inj (List.cons.inj hmid).1).1
    | cons f mid =>
      obtain ⟨rfl, rfl⟩ := List.cons.inj hmid
      have hlt := hbefore' (key, value) (by simp)
      have hle := hafter (key', value') (by simp)
      exact absurd (Int64.lt_of_lt_of_le hlt hle) (Int64.lt_irrefl)
  · cases mid with
    | nil => exact (Prod.mk.inj (List.cons.inj hmid).1).1.symm
    | cons f mid =>
      obtain ⟨rfl, rfl⟩ := List.cons.inj hmid
      have hlt := hbefore (key', value') (by simp)
      have hle := hafter' (key, value) (by simp)
      exact absurd (Int64.lt_of_lt_of_le hlt hle) (Int64.lt_irrefl)

theorem IsOldest.exists_find? (h : IsOldest m key) : ∃ value, m.find? key = some value ∧
    ∀ other v, m.find? other = some v → value.receivedAt ≤ v.receivedAt := by
  obtain ⟨before, value, after, heq, hbefore, hafter⟩ := h
  refine ⟨value, UnorderedMap.find?_eq_some_iff.mpr (by simp [heq]), fun other v hv ↦ ?_⟩
  rw [UnorderedMap.find?_eq_some_iff, heq, List.mem_append, List.mem_cons] at hv
  rcases hv with hv | hv | hv
  · exact Int64.le_of_lt (hbefore _ hv)
  · rw [(Prod.mk.inj hv).2]
    exact Int64.le_refl _
  · exact hafter _ hv

/-! ## One insertion -/

/-- What an insertion of `result` under `key` is to make of `m`. -/
structure LosesOnlyWhatItMust (m : UnorderedMap Str DataAdapterResult) (key : Str)
    (result : DataAdapterResult) (after : UnorderedMap Str DataAdapterResult) : Prop where
  bound : after.find? key = some result
  /-- With no need for room, the others stay. -/
  kept : (m.find? key).isSome = true ∨ m.size < kMaxCachedEvaluationsCount →
    ∀ other, other ≠ key → after.find? other = m.find? other
  /-- Otherwise one other goes, and none of those that stay is older. -/
  evicted : m.find? key = none → kMaxCachedEvaluationsCount ≤ m.size →
    ∃ oldest value, oldest ≠ key ∧ m.find? oldest = some value ∧ after.find? oldest = none ∧
      (∀ other, other ≠ key → other ≠ oldest → after.find? other = m.find? other) ∧
      ∀ other v, m.find? other = some v → value.receivedAt ≤ v.receivedAt

/-- **An insertion into a full map**: the oldest entry goes first. -/
theorem addToInMemoryCache_of_full (r : Rehash Str DataAdapterResult)
    (hfull : kMaxCachedEvaluationsCount ≤ m.size) (key : Str) (result : DataAdapterResult) :
    ∃ oldest, IsOldest m oldest ∧
      addToInMemoryCache r m key result = (m.erase oldest).emplace r key result := by
  have hne : m.entries ≠ [] := by
    intro hnil
    rw [UnorderedMap.size, hnil] at hfull
    exact absurd hfull (by decide)
  obtain ⟨oldest, holdest, hspec⟩ := oldestKey_spec hne
  refine ⟨oldest, hspec, ?_⟩
  rw [addToInMemoryCache, if_neg (not_lt.mpr hfull), holdest]

theorem size_addToInMemoryCache_le (r : Rehash Str DataAdapterResult)
    (h : m.size ≤ kMaxCachedEvaluationsCount) (key : Str) (result : DataAdapterResult) :
    (addToInMemoryCache r m key result).size ≤ kMaxCachedEvaluationsCount := by
  rcases lt_or_ge m.size kMaxCachedEvaluationsCount with hroom | hfull
  · rw [addToInMemoryCache, if_pos hroom]
    exact (UnorderedMap.size_emplace_le r m key result).trans hroom
  · obtain ⟨oldest, holdest, heq⟩ := addToInMemoryCache_of_full r hfull key result
    obtain ⟨value, hvalue, -⟩ := holdest.exists_find?
    rw [heq]
    exact (UnorderedMap.size_emplace_le r _ key result).trans
      ((UnorderedMap.size_erase_of_bound hvalue).trans_le h)

/-- A sequence of insertions. -/
def addAll (m : UnorderedMap Str DataAdapterResult)
    (insertions : List (Rehash Str DataAdapterResult × Str × DataAdapterResult)) :
    UnorderedMap Str DataAdapterResult :=
  insertions.foldl (fun m e ↦ addToInMemoryCache e.1 m e.2.1 e.2.2) m

/-- **The map is bounded**, whatever is inserted. -/
theorem size_addAll_le (h : m.size ≤ kMaxCachedEvaluationsCount)
    (insertions : List (Rehash Str DataAdapterResult × Str × DataAdapterResult)) :
    (addAll m insertions).size ≤ kMaxCachedEvaluationsCount := by
  induction insertions generalizing m with
  | nil => exact h
  | cons e insertions ih => exact ih (size_addToInMemoryCache_le e.1 h e.2.1 e.2.2)

theorem losesOnlyWhatItMust_of_room (r : Rehash Str DataAdapterResult)
    (hroom : m.size < kMaxCachedEvaluationsCount) (key : Str) (result : DataAdapterResult) :
    LosesOnlyWhatItMust m key result (addToInMemoryCache r m key result) ↔
      m.find? key = none ∨ m.find? key = some result := by
  rw [addToInMemoryCache, if_pos hroom, ← find?_emplace_self_iff r m]
  refine ⟨LosesOnlyWhatItMust.bound,
    fun hbound ↦ ⟨hbound, fun _ other hother ↦ ?_, fun _ hfull ↦ ?_⟩⟩
  · exact UnorderedMap.find?_emplace_of_ne r hother
  · exact absurd hroom (not_lt.mpr hfull)

/-- In a full map, a key that is there must be the oldest. -/
theorem losesOnlyWhatItMust_of_full (r : Rehash Str DataAdapterResult)
    (hfull : kMaxCachedEvaluationsCount ≤ m.size) (key : Str) (result : DataAdapterResult) :
    LosesOnlyWhatItMust m key result (addToInMemoryCache r m key result) ↔
      m.find? key = none ∨ IsOldest m key := by
  obtain ⟨oldest, holdest, hadd⟩ := addToInMemoryCache_of_full r hfull key result
  obtain ⟨value, hvalue, hleast⟩ := holdest.exists_find?
  rw [hadd]
  by_cases hkey : key = oldest
  · subst hkey
    refine iff_of_true ⟨UnorderedMap.find?_emplace_self r (UnorderedMap.find?_erase_self m key),
      fun _ other hother ↦ ?_, fun hnone ↦ absurd (hnone.symm.trans hvalue) (by simp)⟩
      (.inr holdest)
    rw [UnorderedMap.find?_emplace_of_ne r hother, UnorderedMap.find?_erase_of_ne hother]
  · have hgone : ((m.erase oldest).emplace r key result).find? oldest = none := by
      rw [UnorderedMap.find?_emplace_of_ne r (Ne.symm hkey), UnorderedMap.find?_erase_self]
    have hothers : ∀ other, other ≠ key → other ≠ oldest →
        ((m.erase oldest).emplace r key result).find? other = m.find? other :=
      fun other hother hne ↦ by
        rw [UnorderedMap.find?_emplace_of_ne r hother, UnorderedMap.find?_erase_of_ne hne]
    constructor
    · intro h
      by_contra hnot
      rw [not_or] at hnot
      have hkept := h.kept (.inl (Option.isSome_iff_ne_none.mpr hnot.1)) oldest (Ne.symm hkey)
      rw [hgone, hvalue] at hkept
      exact absurd hkept (by simp)
    · intro h
      have hnone : m.find? key = none := h.resolve_right fun h ↦ hkey (h.unique holdest)
      refine ⟨?_, fun hroom ↦ ?_, fun _ _ ↦
        ⟨oldest, value, Ne.symm hkey, hvalue, hgone, hothers, hleast⟩⟩
      · apply UnorderedMap.find?_emplace_self
        rwa [UnorderedMap.find?_erase_of_ne hkey]
      · rw [hnone] at hroom
        exact absurd (hroom.resolve_left (by simp)) (not_lt.mpr hfull)

/-- **When an insertion loses only what it must**: exactly if the key is new, or nothing changes, or
the key's own entry is the one that makes room. -/
theorem losesOnlyWhatItMust_iff (r : Rehash Str DataAdapterResult)
    (m : UnorderedMap Str DataAdapterResult) (key : Str) (result : DataAdapterResult) :
    (LosesOnlyWhatItMust m key result (addToInMemoryCache r m key result) ∧
      ∀ insertions, (addAll ∅ insertions).size ≤ kMaxCachedEvaluationsCount) ↔
      m.find? key = none ∨
        (m.size < kMaxCachedEvaluationsCount ∧ m.find? key = some result) ∨
        (kMaxCachedEvaluationsCount ≤ m.size ∧ IsOldest m key) := by
  rw [and_iff_left (size_addAll_le (Nat.zero_le _))]
  rcases lt_or_ge m.size kMaxCachedEvaluationsCount with hroom | hfull
  · rw [losesOnlyWhatItMust_of_room r hroom, and_iff_right hroom]
    exact or_congr_right (or_iff_left fun h ↦ absurd hroom (not_lt.mpr h.1)).symm
  · rw [losesOnlyWhatItMust_of_full r hfull, and_iff_right hfull]
    exact or_congr_right (or_iff_right fun h ↦ absurd h.1 (not_lt.mpr hfull)).symm

/-- A user's second result, which does not replace the first. -/
theorem not_forall_losesOnlyWhatItMust :
    ¬ ∀ (r : Rehash Str DataAdapterResult) (m : UnorderedMap Str DataAdapterResult) (key : Str)
      (result : DataAdapterResult),
      LosesOnlyWhatItMust m key result (addToInMemoryCache r m key result) := by
  intro h
  have hbound := (h (Rehash.id _ _)
    (.ofList [(str "user", ⟨.network, str "old", 1, str "hash"⟩)]) (str "user")
    ⟨.network, str "new", 2, str "hash"⟩).bound
  exact absurd hbound (by decide)

end Statsig
