import Mathlib.Data.List.Perm.Basic
import Mathlib.Data.List.Sort
import Mathlib.Tactic.Common

/-!
# Hash maps whose iteration order is not specified

`UnorderedMap α β` is a finite map together with the order in which a loop over it visits the
entries.  The order is data, because code that iterates can observe it, but it is never computed:
an insertion may rearrange everything, and how it does so is handed to `emplace` as a `Rehash`.
A theorem that quantifies over the `Rehash` of every insertion therefore holds for every hash
function, every bucket count and every library.

`UnorderedMap.Equiv` is equality of the maps, which is equality up to the order.
-/

set_option autoImplicit false

universe u v

/-- A finite map with the order in which its entries are visited. -/
structure UnorderedMap (α : Type u) (β : Type v) where
  /-- The entries, in the order of iteration. -/
  entries : List (α × β)
  /-- No key occurs twice. -/
  nodup_keys : (entries.map Prod.fst).Nodup
  deriving DecidableEq, Repr

/-- What an insertion does to the order of iteration: any rearrangement. -/
structure Rehash (α : Type u) (β : Type v) where
  /-- The new order of the entries. -/
  toFun : List (α × β) → List (α × β)
  /-- No entry is lost or invented. -/
  perm : ∀ l, (toFun l).Perm l

/-- The order of insertion. -/
def Rehash.id (α : Type u) (β : Type v) : Rehash α β := ⟨fun l ↦ l, fun l ↦ List.Perm.refl l⟩

/-- The value of the first entry with a given key. -/
def lookupKey {α : Type u} {β : Type v} [DecidableEq α] (k : α) : List (α × β) → Option β
  | [] => none
  | e :: l => if k = e.1 then some e.2 else lookupKey k l

section Lookup

variable {α : Type u} {β : Type v} [DecidableEq α] {k : α} {l l' : List (α × β)}

theorem lookupKey_append : lookupKey k (l ++ l') = (lookupKey k l).or (lookupKey k l') := by
  induction l with
  | nil => rfl
  | cons e l ih =>
    rw [List.cons_append, lookupKey, lookupKey]
    split
    · rfl
    · exact ih

theorem lookupKey_eq_none_iff : lookupKey k l = none ↔ ∀ e ∈ l, k ≠ e.1 := by
  induction l with
  | nil => simp [lookupKey]
  | cons e l ih =>
    rw [lookupKey, List.forall_mem_cons]
    split
    · rename_i h
      simp [h]
    · rename_i h
      simp [h, ih]

theorem mem_of_lookupKey {v : β} (h : lookupKey k l = some v) : (k, v) ∈ l := by
  induction l with
  | nil => exact absurd h (by simp [lookupKey])
  | cons e l ih =>
    rw [lookupKey] at h
    split at h
    · rename_i hk
      rw [Option.some_inj] at h
      subst hk h
      exact List.mem_cons_self
    · exact List.mem_cons_of_mem _ (ih h)

theorem lookupKey_filter_ne (k' : α) :
    lookupKey k (l.filter fun e ↦ decide (e.1 ≠ k')) =
      if k = k' then none else lookupKey k l := by
  induction l with
  | nil => simp [lookupKey]
  | cons e l ih =>
    by_cases he : e.1 = k'
    · rw [List.filter_cons_of_neg (by simp [he]), ih, lookupKey]
      split
      · rfl
      · rename_i hk
        rw [if_neg (by rw [he]; exact hk)]
    · rw [List.filter_cons_of_pos (by simp [he]), lookupKey, lookupKey, ih]
      split
      · rename_i hk
        rw [if_neg (by rw [hk]; exact he)]
      · rfl

end Lookup

namespace UnorderedMap

variable {α : Type u} {β : Type v}

/-- The map with no entry. -/
def empty : UnorderedMap α β := ⟨[], List.nodup_nil⟩

instance : EmptyCollection (UnorderedMap α β) := ⟨empty⟩

/-- The number of entries. -/
def size (m : UnorderedMap α β) : ℕ := m.entries.length

@[simp] theorem entries_empty : (∅ : UnorderedMap α β).entries = [] := rfl

theorem ext_entries {m m' : UnorderedMap α β} (h : m.entries = m'.entries) : m = m' := by
  cases m
  cases m'
  congr

/-- Equality of maps: the same entries, in any order. -/
def Equiv (m m' : UnorderedMap α β) : Prop := m.entries.Perm m'.entries

theorem Equiv.symm {m m' : UnorderedMap α β} (h : m.Equiv m') : m'.Equiv m := List.Perm.symm h

instance [DecidableEq α] [DecidableEq β] (m m' : UnorderedMap α β) : Decidable (m.Equiv m') :=
  inferInstanceAs (Decidable (m.entries.Perm m'.entries))

variable [DecidableEq α]

/-- The value bound to a key, if there is one. -/
def find? (m : UnorderedMap α β) (k : α) : Option β := lookupKey k m.entries

/-- Insert the entry unless the key is bound already, in which case nothing happens. -/
def emplace (r : Rehash α β) (m : UnorderedMap α β) (k : α) (v : β) : UnorderedMap α β :=
  if h : k ∈ m.entries.map Prod.fst then m
  else ⟨r.toFun (m.entries ++ [(k, v)]), by
    refine ((r.perm _).map Prod.fst).nodup_iff.mpr ?_
    rw [List.map_append, List.nodup_append]
    refine ⟨m.nodup_keys, by simp, fun a ha b hb ↦ ?_⟩
    rintro rfl
    simp only [List.map_cons, List.map_nil, List.mem_singleton] at hb
    exact h (hb ▸ ha)⟩

/-- Remove the entry of the key, if there is one. -/
def erase (m : UnorderedMap α β) (k : α) : UnorderedMap α β :=
  ⟨m.entries.filter fun e ↦ decide (e.1 ≠ k),
    m.nodup_keys.sublist (List.filter_sublist.map Prod.fst)⟩

theorem find?_eq_some_iff {m : UnorderedMap α β} {k : α} {v : β} :
    m.find? k = some v ↔ (k, v) ∈ m.entries := by
  obtain ⟨l, hl⟩ := m
  rw [find?]
  induction l with
  | nil => simp [lookupKey]
  | cons e l ih =>
    obtain ⟨k', v'⟩ := e
    rw [List.map_cons, List.nodup_cons] at hl
    rw [lookupKey, List.mem_cons]
    by_cases hk : k = k'
    · subst hk
      have hnot : ∀ w, (k, w) ∉ l := fun w hw ↦ hl.1 (List.mem_map.mpr ⟨(k, w), hw, rfl⟩)
      simp [hnot, eq_comm]
    · simpa [hk] using ih hl.2

theorem find?_eq_none_iff {m : UnorderedMap α β} {k : α} :
    m.find? k = none ↔ k ∉ m.entries.map Prod.fst := by
  constructor
  · intro h hk
    obtain ⟨⟨k', v⟩, hmem, rfl⟩ := List.mem_map.mp hk
    rw [find?_eq_some_iff.mpr hmem] at h
    exact absurd h (by simp)
  · intro h
    cases hv : m.find? k with
    | none => rfl
    | some v => exact absurd (List.mem_map.mpr ⟨_, find?_eq_some_iff.mp hv, rfl⟩) h

theorem emplace_of_bound (r : Rehash α β) {m : UnorderedMap α β} {k : α} {v w : β}
    (h : m.find? k = some w) : m.emplace r k v = m := by
  rw [emplace, dif_pos]
  exact List.mem_map.mpr ⟨_, find?_eq_some_iff.mp h, rfl⟩

theorem find?_emplace_self (r : Rehash α β) {m : UnorderedMap α β} {k : α} {v : β}
    (h : m.find? k = none) : (m.emplace r k v).find? k = some v := by
  rw [emplace, dif_neg (find?_eq_none_iff.mp h), find?_eq_some_iff, (r.perm _).mem_iff]
  simp

theorem find?_emplace_of_ne (r : Rehash α β) {m : UnorderedMap α β} {k k' : α} {v : β}
    (h : k' ≠ k) : (m.emplace r k v).find? k' = m.find? k' := by
  rw [emplace]
  split
  · rfl
  · ext w
    rw [find?_eq_some_iff, find?_eq_some_iff, (r.perm _).mem_iff]
    simp [h]

@[simp] theorem find?_erase_self (m : UnorderedMap α β) (k : α) : (m.erase k).find? k = none := by
  rw [find?_eq_none_iff]
  simp [erase]

theorem find?_erase_of_ne {m : UnorderedMap α β} {k k' : α} (h : k' ≠ k) :
    (m.erase k).find? k' = m.find? k' := by
  ext w
  rw [find?_eq_some_iff, find?_eq_some_iff]
  simp [erase, h]

theorem of_find?_emplace (r : Rehash α β) {m : UnorderedMap α β} {k k' : α} {v w : β}
    (h : (m.emplace r k v).find? k' = some w) : w = v ∨ m.find? k' = some w := by
  by_cases hk : k' = k
  · subst hk
    cases hm : m.find? k' with
    | none =>
      rw [find?_emplace_self r hm] at h
      exact .inl (Option.some_inj.mp h).symm
    | some u =>
      rw [emplace_of_bound r hm, hm] at h
      exact .inr h
  · rw [find?_emplace_of_ne r hk] at h
    exact .inr h

theorem of_find?_erase {m : UnorderedMap α β} {k k' : α} {w : β}
    (h : (m.erase k).find? k' = some w) : m.find? k' = some w := by
  by_cases hk : k' = k
  · rw [hk, find?_erase_self] at h
    exact absurd h (by simp)
  · rwa [find?_erase_of_ne hk] at h

/-! ## Sizes -/

theorem size_emplace_of_unbound (r : Rehash α β) {m : UnorderedMap α β} {k : α} (v : β)
    (h : m.find? k = none) : (m.emplace r k v).size = m.size + 1 := by
  rw [emplace, dif_neg (find?_eq_none_iff.mp h)]
  exact (r.perm _).length_eq.trans List.length_append

theorem size_emplace_le (r : Rehash α β) (m : UnorderedMap α β) (k : α) (v : β) :
    (m.emplace r k v).size ≤ m.size + 1 := by
  cases h : m.find? k with
  | none => exact (size_emplace_of_unbound r v h).le
  | some w =>
    rw [emplace_of_bound r h]
    exact Nat.le_succ _

theorem size_erase_of_bound {m : UnorderedMap α β} {k : α} {v : β} (h : m.find? k = some v) :
    (m.erase k).size + 1 = m.size := by
  have hone : (m.entries.filter fun e ↦ !decide (e.1 ≠ k)).length = 1 := by
    have hmem : k ∈ m.entries.map Prod.fst :=
      List.mem_map.mpr ⟨(k, v), find?_eq_some_iff.mp h, rfl⟩
    rw [← List.count_eq_one_of_mem m.nodup_keys hmem, List.count, List.countP_map,
      List.countP_eq_length_filter]
    congr 2
    funext e
    simp [beq_eq_decide]
  have hsplit := List.length_eq_length_filter_add (l := m.entries) fun e ↦ decide (e.1 ≠ k)
  rw [hone] at hsplit
  exact hsplit.symm

theorem erase_of_unbound {m : UnorderedMap α β} {k : α} (h : m.find? k = none) :
    m.erase k = m := by
  refine ext_entries (List.filter_eq_self.mpr fun e he ↦ ?_)
  rw [find?_eq_none_iff] at h
  exact decide_eq_true fun heq ↦ h (List.mem_map.mpr ⟨e, he, heq⟩)

/-! ### The entries of some keys -/

section FilterKeys

variable (P : α → Prop) [DecidablePred P]

omit [DecidableEq α] in
/-- The entries whose keys are as asked for. -/
def filterKeys (m : UnorderedMap α β) : UnorderedMap α β :=
  ⟨m.entries.filter fun e ↦ decide (P e.1), m.nodup_keys.sublist (List.filter_sublist.map _)⟩

variable {P}

theorem find?_filterKeys {m : UnorderedMap α β} {k : α} (hk : P k) :
    (m.filterKeys P).find? k = m.find? k := by
  ext v
  rw [find?_eq_some_iff, find?_eq_some_iff, filterKeys, List.mem_filter]
  exact and_iff_left (decide_eq_true hk)

theorem filterKeys_erase (m : UnorderedMap α β) (k : α) :
    (m.erase k).filterKeys P = (m.filterKeys P).erase k :=
  ext_entries (List.filter_comm _ _ _)

/-- Erasing a key of another kind makes no difference. -/
theorem filterKeys_erase_of_not (m : UnorderedMap α β) {k : α} (hk : ¬ P k) :
    (m.erase k).filterKeys P = m.filterKeys P := by
  rw [filterKeys_erase]
  refine erase_of_unbound (find?_eq_none_iff.mpr fun hmem ↦ hk ?_)
  obtain ⟨e, he, rfl⟩ := List.mem_map.mp hmem
  exact of_decide_eq_true (List.mem_filter.mp he).2

theorem size_filterKeys_emplace (r : Rehash α β) {m : UnorderedMap α β} {k : α} (v : β)
    (h : m.find? k = none) :
    ((m.emplace r k v).filterKeys P).size = (m.filterKeys P).size + if P k then 1 else 0 := by
  rw [emplace, dif_neg (find?_eq_none_iff.mp h), size, size, filterKeys, filterKeys,
    ((r.perm _).filter _).length_eq, List.filter_append, List.length_append]
  split <;> simp [*]

end FilterKeys

/-! ## Building maps from lists -/

/-- The map of a list of entries, inserted in turn: of several entries with one key the first
counts. -/
def ofList (l : List (α × β)) : UnorderedMap α β :=
  l.foldl (fun m e ↦ m.emplace (Rehash.id α β) e.1 e.2) ∅

theorem entries_emplace_id {m : UnorderedMap α β} {k : α} {v : β}
    (h : k ∉ m.entries.map Prod.fst) :
    (m.emplace (Rehash.id α β) k v).entries = m.entries ++ [(k, v)] := by
  rw [emplace, dif_neg h]
  rfl

theorem entries_ofList {l : List (α × β)} (h : (l.map Prod.fst).Nodup) :
    (ofList l).entries = l := by
  have key : ∀ (l : List (α × β)) (m : UnorderedMap α β),
      ((m.entries ++ l).map Prod.fst).Nodup →
        (l.foldl (fun m e ↦ m.emplace (Rehash.id α β) e.1 e.2) m).entries = m.entries ++ l := by
    intro l
    induction l with
    | nil => intro m _; simp
    | cons e l ih =>
      intro m hnd
      have hmem : e.1 ∉ m.entries.map Prod.fst := by
        rw [List.map_append, List.nodup_append] at hnd
        exact fun hk ↦ hnd.2.2 e.1 hk e.1 (by simp) rfl
      rw [List.foldl_cons, ih _ (by rw [entries_emplace_id hmem]; simpa using hnd),
        entries_emplace_id hmem]
      simp
  simpa [ofList] using key l ∅ (by simpa using h)

theorem mem_of_mem_ofList {l : List (α × β)} {e : α × β} (h : e ∈ (ofList l).entries) : e ∈ l := by
  have key : ∀ (l : List (α × β)) (m : UnorderedMap α β),
      e ∈ (l.foldl (fun m e ↦ m.emplace (Rehash.id α β) e.1 e.2) m).entries →
        e ∈ m.entries ∨ e ∈ l := by
    intro l
    induction l with
    | nil => intro m he; exact .inl he
    | cons f l ih =>
      intro m he
      rcases ih _ he with he | he
      · simp only [emplace] at he
        split at he
        · exact .inl he
        · rw [(Rehash.perm _ _).mem_iff, List.mem_append, List.mem_singleton] at he
          exact he.imp_right fun (he : e = f) ↦ he ▸ List.mem_cons_self
      · exact .inr (List.mem_cons_of_mem _ he)
  simpa using key l ∅ h

theorem ofList_entries (m : UnorderedMap α β) : ofList m.entries = m :=
  ext_entries (entries_ofList m.nodup_keys)

omit [DecidableEq α] in
/-- The same keys with other values. -/
def mapValues {γ : Type*} (f : β → γ) (m : UnorderedMap α β) : UnorderedMap α γ :=
  ⟨m.entries.map fun e ↦ (e.1, f e.2), by
    simpa [List.map_map, Function.comp_def] using m.nodup_keys⟩

/-- Whether the values are mapped before the map is built or after it makes no difference. -/
theorem ofList_map {γ : Type*} (f : β → γ) (l : List (α × β)) :
    ofList (l.map fun e ↦ (e.1, f e.2)) = (ofList l).mapValues f := by
  have hemplace : ∀ (m : UnorderedMap α β) (e : α × β),
      (m.mapValues f).emplace (Rehash.id α γ) e.1 (f e.2) =
        (m.emplace (Rehash.id α β) e.1 e.2).mapValues f := fun m e ↦ by
    have hkeys : (m.mapValues f).entries.map Prod.fst = m.entries.map Prod.fst := by
      simp [mapValues, List.map_map, Function.comp_def]
    by_cases hmem : e.1 ∈ m.entries.map Prod.fst
    · rw [emplace, dif_pos (hkeys ▸ hmem), emplace, dif_pos hmem]
    · refine ext_entries ?_
      rw [entries_emplace_id (hkeys ▸ hmem)]
      show _ = (m.emplace (Rehash.id α β) e.1 e.2).entries.map _
      rw [entries_emplace_id hmem]
      simp [mapValues]
  have key : ∀ (l : List (α × β)) (m : UnorderedMap α β),
      (l.map fun e ↦ (e.1, f e.2)).foldl
          (fun m e ↦ m.emplace (Rehash.id α γ) e.1 e.2) (m.mapValues f) =
        (l.foldl (fun m e ↦ m.emplace (Rehash.id α β) e.1 e.2) m).mapValues f := by
    intro l
    induction l with
    | nil => intro m; rfl
    | cons e l ih =>
      intro m
      rw [List.map_cons, List.foldl_cons, List.foldl_cons, hemplace, ih]
  exact key l ∅

/-! ## Sorting by key -/

section Sorted

variable [LE α] [DecidableLE α]

/-- The order that a `std::map` keeps its entries in. -/
def KeyLE (e e' : α × β) : Prop := e.1 ≤ e'.1

instance : DecidableRel (@KeyLE α β _) := fun e e' ↦
  inferInstanceAs (Decidable (e.1 ≤ e'.1))

/-- The map visited in the order of its keys. -/
def sorted (m : UnorderedMap α β) : UnorderedMap α β :=
  ⟨m.entries.insertionSort KeyLE,
    ((List.perm_insertionSort KeyLE m.entries).map Prod.fst).nodup_iff.mpr m.nodup_keys⟩

omit [DecidableEq α] in
theorem sorted_mapValues {γ : Type*} (f : β → γ) (m : UnorderedMap α β) :
    (m.mapValues f).sorted = m.sorted.mapValues f :=
  ext_entries (List.map_insertionSort KeyLE KeyLE (fun e : α × β ↦ (e.1, f e.2)) m.entries
    fun _ _ _ _ ↦ Iff.rfl).symm

omit [DecidableEq α] in
theorem sorted_equiv (m : UnorderedMap α β) : m.sorted.Equiv m :=
  List.perm_insertionSort KeyLE m.entries

omit [DecidableEq α] in
/-- Maps that are visited in order as one are equal. -/
theorem equiv_of_sorted_entries {m m' : UnorderedMap α β}
    (h : m.sorted.entries = m'.sorted.entries) : m.Equiv m' :=
  (sorted_equiv m).symm.trans (h ▸ sorted_equiv m')

section LinearOrder

variable [Std.Total (fun a b : α ↦ a ≤ b)] [IsTrans α (fun a b ↦ a ≤ b)]

instance : Std.Total (@KeyLE α β _) :=
  ⟨fun e e' ↦ Std.Total.total (r := fun a b : α ↦ a ≤ b) e.1 e'.1⟩

instance : IsTrans (α × β) KeyLE :=
  ⟨fun _ _ _ h h' ↦ IsTrans.trans (r := fun a b : α ↦ a ≤ b) _ _ _ h h'⟩

omit [DecidableEq α] in
@[simp] theorem sorted_sorted (m : UnorderedMap α β) : m.sorted.sorted = m.sorted :=
  ext_entries (List.pairwise_insertionSort KeyLE m.entries).insertionSort_eq

end LinearOrder

end Sorted

end UnorderedMap
