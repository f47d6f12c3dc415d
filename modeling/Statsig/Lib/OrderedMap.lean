import Statsig.Lib.UnorderedMap

/-!
# Putting the entries of a map in order

The entries of a hash map come in an order that is not specified.  What is made of them must not
depend on it, and the usual way is to put them in order first.  As no key occurs twice, there is one
list in order (`eq_sorted_entries`): two algorithms that produce such a list, like sorting a vector
and inserting into an ordered map (`OrderedMap.ofEntries_entries`), produce the same one, and two
maps with the same entries have the same one (`Equiv.sorted_eq`).
-/

set_option autoImplicit false

universe u v

variable {α : Type u} {β : Type v} [LE α]

open UnorderedMap (KeyLE)

/-- Two entries of a map that stand in order both ways are one. -/
theorem UnorderedMap.eq_of_keyLE [Std.Antisymm (fun a b : α ↦ a ≤ b)] {m : UnorderedMap α β}
    {e e' : α × β} (he : e ∈ m.entries) (he' : e' ∈ m.entries) (h : KeyLE e e')
    (h' : KeyLE e' e) : e = e' :=
  List.inj_on_of_nodup_map m.nodup_keys he he' (Std.Antisymm.antisymm _ _ h h')

variable [DecidableLE α]

namespace OrderedMap

/-- Insert the entry where its key belongs, unless the key is there. -/
def emplace (k : α) (v : β) : List (α × β) → List (α × β)
  | [] => [(k, v)]
  | e :: l =>
    if e.1 ≤ k then
      if k ≤ e.1 then e :: l else e :: emplace k v l
    else (k, v) :: e :: l

/-- The map of some entries, inserted in turn. -/
def ofEntries (entries : List (α × β)) : List (α × β) :=
  entries.foldl (fun m e ↦ emplace e.1 e.2 m) []

variable {k : α} {v : β} {l : List (α × β)}

theorem mem_emplace {e : α × β} (h : e ∈ emplace k v l) : e = (k, v) ∨ e ∈ l := by
  induction l with
  | nil => exact .inl (List.mem_singleton.mp h)
  | cons f l ih =>
    rw [emplace] at h
    split_ifs at h with hle hge
    · exact .inr h
    · rcases List.mem_cons.mp h with rfl | h
      · exact .inr List.mem_cons_self
      · exact (ih h).imp_right (List.mem_cons_of_mem f)
    · exact List.mem_cons.mp h

theorem emplace_perm [Std.Antisymm (fun a b : α ↦ a ≤ b)] (h : ∀ e ∈ l, e.1 ≠ k) :
    (emplace k v l).Perm ((k, v) :: l) := by
  induction l with
  | nil => exact .refl _
  | cons e l ih =>
    rw [List.forall_mem_cons] at h
    rw [emplace]
    split_ifs with hle hge
    · exact absurd (Std.Antisymm.antisymm _ _ hle hge) h.1
    · exact ((ih h.2).cons e).trans (.swap _ _ _)
    · exact .refl _

end OrderedMap

variable [Std.Total (fun a b : α ↦ a ≤ b)] [IsTrans α (fun a b ↦ a ≤ b)]

theorem OrderedMap.pairwise_emplace {k : α} {v : β} {l : List (α × β)} (h : l.Pairwise KeyLE) :
    (emplace k v l).Pairwise KeyLE := by
  induction l with
  | nil => exact List.pairwise_singleton _ _
  | cons e l ih =>
    rw [emplace]
    split_ifs with hle hge
    · exact h
    · refine List.pairwise_cons.mpr ⟨fun f hf ↦ ?_, ih h.of_cons⟩
      rcases mem_emplace hf with rfl | hf
      · exact hle
      · exact List.rel_of_pairwise_cons h hf
    · have hlt : KeyLE (k, v) e :=
        (Std.Total.total (r := fun a b : α ↦ a ≤ b) k e.1).resolve_right hle
      refine List.pairwise_cons.mpr ⟨fun f hf ↦ ?_, h⟩
      rcases List.mem_cons.mp hf with rfl | hf
      · exact hlt
      · exact IsTrans.trans (r := KeyLE) _ _ _ hlt (List.rel_of_pairwise_cons h hf)

variable [Std.Antisymm (fun a b : α ↦ a ≤ b)]

namespace UnorderedMap

/-- **There is one way to put the entries of a map in order.** -/
theorem eq_sorted_entries {m : UnorderedMap α β} {l : List (α × β)} (hperm : l.Perm m.entries)
    (hl : l.Pairwise KeyLE) : l = m.sorted.entries := by
  refine List.Perm.eq_of_pairwise (fun e e' he he' ↦ eq_of_keyLE (m := m) (hperm.mem_iff.mp he) ?_)
    hl (List.pairwise_insertionSort KeyLE m.entries) (hperm.trans (sorted_equiv m).symm)
  exact (sorted_equiv m).mem_iff.mp he'

theorem Equiv.sorted_eq {m m' : UnorderedMap α β} (h : m.Equiv m') : m.sorted = m'.sorted :=
  ext_entries (eq_sorted_entries ((sorted_equiv m).trans h)
    (List.pairwise_insertionSort KeyLE m.entries))

end UnorderedMap

namespace OrderedMap

/-- Entries with new keys are all inserted, and the map stays in order. -/
theorem foldl_emplace {l acc : List (α × β)} (hnodup : ((acc ++ l).map Prod.fst).Nodup)
    (hacc : acc.Pairwise KeyLE) :
    (l.foldl (fun m e ↦ emplace e.1 e.2 m) acc).Perm (acc ++ l) ∧
      (l.foldl (fun m e ↦ emplace e.1 e.2 m) acc).Pairwise KeyLE := by
  induction l generalizing acc with
  | nil => exact ⟨by simp, hacc⟩
  | cons e l ih =>
    have hnew : ∀ f ∈ acc, f.1 ≠ e.1 := by
      rw [List.map_append, List.nodup_append] at hnodup
      exact fun f hf ↦ hnodup.2.2 f.1 (List.mem_map_of_mem hf) e.1 (by simp)
    have hperm : (emplace e.1 e.2 acc ++ l).Perm (acc ++ e :: l) :=
      ((emplace_perm hnew).append_right l).trans List.perm_middle.symm
    obtain ⟨hrest, hsorted⟩ :=
      ih ((hperm.map Prod.fst).nodup_iff.mpr hnodup) (pairwise_emplace hacc)
    exact ⟨hrest.trans hperm, hsorted⟩

/-- **An ordered map** has the entries of a hash map in order. -/
theorem ofEntries_entries (m : UnorderedMap α β) : ofEntries m.entries = m.sorted.entries := by
  have hnodup : (([] ++ m.entries).map Prod.fst).Nodup := m.nodup_keys
  obtain ⟨hperm, hsorted⟩ := foldl_emplace hnodup List.Pairwise.nil
  exact UnorderedMap.eq_sorted_entries hperm hsorted

end OrderedMap
