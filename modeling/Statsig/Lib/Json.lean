import Statsig.Lib.Text
import Statsig.Lib.UnorderedMap
import Mathlib.Algebra.Group.Int.Defs
import Mathlib.Algebra.Group.Nat.Defs
import Mathlib.Data.Countable.Basic
import Mathlib.Data.Fintype.Basic
import Mathlib.Logic.Encodable.Basic
import Mathlib.Logic.Equiv.List
import Mathlib.Tactic.DeriveCountable

/-!
# JSON documents and a JSON library

`Json` is a parsed document.  Its members are kept as a list in the order of the keys, which is
the order a `std::map` keeps them in: `Json.set` inserts at the place of the key, `Json.find?`
looks a key up.  The `get…` functions convert a document to a value and fail where the library's
`get<T>()` throws.

`JsonText` is the library's reader and printer.  They are parameters, a structure that carries the
two facts every use of them rests on: a document whose strings are UTF-8 reads back as the
document its text denotes, and nothing but UTF-8 is ever read.  `JsonText.ofTable` shows that the
two are consistent with any finite choice of texts.
-/

set_option autoImplicit false

/-! ## Floating-point numbers -/

/-- A double, as the bits of its IEEE 754 representation. -/
structure Double where
  bits : UInt64
  deriving DecidableEq, Repr

namespace Double

/-- The biased exponent. -/
def exponent (d : Double) : ℕ := d.bits.toNat / 2 ^ 52 % 2 ^ 11

/-- The bits after the binary point. -/
def fraction (d : Double) : ℕ := d.bits.toNat % 2 ^ 52

/-- Neither an infinity nor a NaN. -/
def isFinite (d : Double) : Bool := d.exponent != 2047

/-- The double nearest to an integer, ties to even. -/
def ofInt (n : ℤ) : Double :=
  if n = 0 then ⟨0⟩
  else
    let m := n.natAbs
    let e := Nat.log2 m
    let q := m / 2 ^ (e - 52)
    let r := m % 2 ^ (e - 52)
    let half := 2 ^ (e - 53)
    let sig := if e ≤ 52 then m * 2 ^ (52 - e) else
      if half < r ∨ (r = half ∧ q % 2 = 1) then q + 1 else q
    let sign := if n < 0 then 2 ^ 63 else 0
    ⟨UInt64.ofNat (sign + (e + 1023) * 2 ^ 52 + (sig - 2 ^ 52))⟩

/-- The integer part of a finite double. -/
def trunc (d : Double) : ℤ :=
  let sig := 2 ^ 52 + d.fraction
  let mag : ℕ := if 1075 ≤ d.exponent then sig * 2 ^ (d.exponent - 1075) else
    if d.exponent = 0 then 0 else sig / 2 ^ (1075 - d.exponent)
  if 2 ^ 63 ≤ d.bits.toNat then -(mag : ℤ) else mag

end Double

/-! ## Documents -/

/-- A JSON document.  The members of an object come in the order of their keys, each key once; what
is printed and read is always so (`Json.dumped`). -/
inductive Json where
  | null
  | bool (b : Bool)
  | int (n : ℤ)
  | float (d : Double)
  | str (s : Str)
  | arr (xs : List Json)
  | obj (kvs : List (Str × Json))
  deriving Repr

namespace Json

mutual

/-- Equality of documents. -/
def beq : Json → Json → Bool
  | .null, .null => true
  | .bool b, .bool b' => b == b'
  | .int n, .int n' => n == n'
  | .float d, .float d' => d == d'
  | .str s, .str s' => s == s'
  | .arr xs, .arr xs' => beqList xs xs'
  | .obj kvs, .obj kvs' => beqMembers kvs kvs'
  | _, _ => false
termination_by structural j => j

def beqList : List Json → List Json → Bool
  | [], [] => true
  | x :: xs, x' :: xs' => beq x x' && beqList xs xs'
  | _, _ => false
termination_by structural xs => xs

def beqMembers : List (Str × Json) → List (Str × Json) → Bool
  | [], [] => true
  | kv :: kvs, kv' :: kvs' => beqMember kv kv' && beqMembers kvs kvs'
  | _, _ => false
termination_by structural kvs => kvs

def beqMember : Str × Json → Str × Json → Bool
  | (k, v), (k', v') => k == k' && beq v v'
termination_by structural kv => kv

end

mutual

theorem beq_iff : ∀ (j j' : Json), beq j j' = true ↔ j = j'
  | .null, j' => by cases j' <;> simp [beq]
  | .bool b, j' => by cases j' <;> simp [beq]
  | .int n, j' => by cases j' <;> simp [beq]
  | .float d, j' => by cases j' <;> simp [beq]
  | .str s, j' => by cases j' <;> simp [beq]
  | .arr xs, j' => by cases j' <;> simp [beq, beqList_iff xs]
  | .obj kvs, j' => by cases j' <;> simp [beq, beqMembers_iff kvs]
termination_by structural j => j

theorem beqList_iff : ∀ (xs xs' : List Json), beqList xs xs' = true ↔ xs = xs'
  | [], xs' => by cases xs' <;> simp [beqList]
  | x :: xs, xs' => by cases xs' <;> simp [beqList, beq_iff x, beqList_iff xs]
termination_by structural xs => xs

theorem beqMembers_iff : ∀ (kvs kvs' : List (Str × Json)), beqMembers kvs kvs' = true ↔ kvs = kvs'
  | [], kvs' => by cases kvs' <;> simp [beqMembers]
  | kv :: kvs, kvs' => by cases kvs' <;> simp [beqMembers, beqMember_iff kv, beqMembers_iff kvs]
termination_by structural kvs => kvs

theorem beqMember_iff : ∀ (kv kv' : Str × Json), beqMember kv kv' = true ↔ kv = kv'
  | (k, v), (k', v') => by simp [beqMember, beq_iff v]
termination_by structural kv => kv

end

instance : DecidableEq Json := fun _ _ ↦ decidable_of_iff _ (beq_iff _ _)

/-- **Induction on documents**, with the hypothesis for every element and every member. -/
@[elab_as_elim] theorem induct {P : Json → Prop} (null : P .null) (bool : ∀ b, P (.bool b))
    (int : ∀ n, P (.int n)) (float : ∀ d, P (.float d)) (str : ∀ s, P (.str s))
    (arr : ∀ xs, (∀ x ∈ xs, P x) → P (.arr xs))
    (obj : ∀ kvs, (∀ kv ∈ kvs, P kv.2) → P (.obj kvs)) (j : Json) : P j :=
  @Json.rec P (fun xs ↦ ∀ x ∈ xs, P x) (fun kvs ↦ ∀ kv ∈ kvs, P kv.2) (fun kv ↦ P kv.2)
    null bool int float str arr obj (by simp)
    (fun _ _ hx hxs ↦ List.forall_mem_cons.mpr ⟨hx, hxs⟩) (by simp)
    (fun _ _ hkv hkvs ↦ List.forall_mem_cons.mpr ⟨hkv, hkvs⟩) (fun _ _ hv ↦ hv) j

/-! ## Strings and numbers a printer cannot write -/

mutual

/-- Every string of the document, keys included, is UTF-8. -/
def validUtf8 : Json → Bool
  | .str s => Utf8.valid s
  | .arr xs => validUtf8List xs
  | .obj kvs => validUtf8Members kvs
  | .null | .bool _ | .int _ | .float _ => true

def validUtf8List : List Json → Bool
  | [] => true
  | x :: xs => validUtf8 x && validUtf8List xs

def validUtf8Members : List (Str × Json) → Bool
  | [] => true
  | kv :: kvs => validUtf8Member kv && validUtf8Members kvs

def validUtf8Member : Str × Json → Bool
  | (k, v) => Utf8.valid k && validUtf8 v

end

/-- Members as an object has them: in the order of their keys, and each key once. -/
def inOrder (kvs : List (Str × Json)) : List (Str × Json) :=
  (UnorderedMap.ofList kvs).sorted.entries

mutual

/-- The document that the text of a document denotes: JSON has no infinities and no NaN, and
`null` is written in their place.  An object has its members in order; it is only a list that may
not. -/
def dumped : Json → Json
  | .null => .null
  | .bool b => .bool b
  | .int n => .int n
  | .float d => if d.isFinite then .float d else .null
  | .str s => .str s
  | .arr xs => .arr (dumpedList xs)
  | .obj kvs => .obj (inOrder (dumpedMembers kvs))

def dumpedList : List Json → List Json
  | [] => []
  | x :: xs => dumped x :: dumpedList xs

def dumpedMembers : List (Str × Json) → List (Str × Json)
  | [] => []
  | kv :: kvs => dumpedMember kv :: dumpedMembers kvs

def dumpedMember : Str × Json → Str × Json
  | (k, v) => (k, dumped v)

end

@[simp] theorem validUtf8_arr (xs : List Json) : (arr xs).validUtf8 = xs.all validUtf8 := by
  show validUtf8List xs = _
  induction xs with
  | nil => rfl
  | cons x xs ih => exact congrArg (x.validUtf8 && ·) ih

@[simp] theorem validUtf8_obj (kvs : List (Str × Json)) :
    (obj kvs).validUtf8 = kvs.all fun kv ↦ Utf8.valid kv.1 && kv.2.validUtf8 := by
  show validUtf8Members kvs = _
  induction kvs with
  | nil => rfl
  | cons kv kvs ih =>
    obtain ⟨k, v⟩ := kv
    exact congrArg (validUtf8Member (k, v) && ·) ih

@[simp] theorem validUtf8_str (s : Str) : (str s).validUtf8 = Utf8.valid s := rfl

@[simp] theorem dumped_arr (xs : List Json) : (arr xs).dumped = arr (xs.map dumped) := by
  refine congrArg arr (show dumpedList xs = xs.map dumped from ?_)
  induction xs with
  | nil => rfl
  | cons x xs ih => exact congrArg (x.dumped :: ·) ih

@[simp] theorem dumped_obj (kvs : List (Str × Json)) :
    (obj kvs).dumped = obj (inOrder (kvs.map fun kv ↦ (kv.1, kv.2.dumped))) := by
  refine congrArg (fun kvs ↦ obj (inOrder kvs)) (show dumpedMembers kvs = _ from ?_)
  induction kvs with
  | nil => rfl
  | cons kv kvs ih =>
    obtain ⟨k, v⟩ := kv
    exact congrArg (dumpedMember (k, v) :: ·) ih

@[simp] theorem dumped_str (s : Str) : (str s).dumped = str s := rfl

@[simp] theorem dumped_int (n : ℤ) : (int n).dumped = int n := rfl

@[simp] theorem dumped_null : null.dumped = null := rfl

@[simp] theorem dumped_float (d : Double) :
    (float d).dumped = if d.isFinite then float d else null := rfl

@[simp] theorem inOrder_sorted (m : UnorderedMap Str Json) :
    inOrder m.sorted.entries = m.sorted.entries := by
  rw [inOrder, UnorderedMap.ofList_entries, UnorderedMap.sorted_sorted]

theorem inOrder_inOrder (kvs : List (Str × Json)) : inOrder (inOrder kvs) = inOrder kvs :=
  inOrder_sorted _

theorem inOrder_map (f : Json → Json) (kvs : List (Str × Json)) :
    inOrder (kvs.map fun kv ↦ (kv.1, f kv.2)) =
      (inOrder kvs).map fun kv ↦ (kv.1, f kv.2) := by
  rw [inOrder, UnorderedMap.ofList_map, UnorderedMap.sorted_mapValues]
  rfl

theorem mem_of_mem_inOrder {kvs : List (Str × Json)} {kv : Str × Json} (h : kv ∈ inOrder kvs) :
    kv ∈ kvs :=
  UnorderedMap.mem_of_mem_ofList ((UnorderedMap.sorted_equiv _).mem_iff.mp h)

@[simp] theorem dumped_dumped (j : Json) : j.dumped.dumped = j.dumped := by
  induction j using induct with
  | null | bool | int | str => rfl
  | float d => rw [dumped_float]; split <;> simp [*]
  | arr xs ih => simpa using ih
  | obj kvs ih =>
    rw [dumped_obj, dumped_obj, ← inOrder_map, inOrder_inOrder, List.map_map]
    exact congrArg (fun kvs ↦ obj (inOrder kvs)) (List.map_congr_left fun kv h ↦ by simp [ih kv h])

theorem validUtf8_dumped {j : Json} (h : j.validUtf8 = true) : j.dumped.validUtf8 = true := by
  induction j using induct with
  | null | bool | int | str => exact h
  | float d => rw [dumped_float]; split <;> rfl
  | arr xs ih =>
    simp only [dumped_arr, validUtf8_arr, List.all_map, List.all_eq_true] at h ⊢
    exact fun x hx ↦ ih x hx (h x hx)
  | obj kvs ih =>
    simp only [dumped_obj, validUtf8_obj, List.all_eq_true, Bool.and_eq_true] at h ⊢
    intro kv hkv
    obtain ⟨before, hmem, rfl⟩ := List.mem_map.mp (mem_of_mem_inOrder hkv)
    exact ⟨(h before hmem).1, ih before hmem (h before hmem).2⟩

/-! ## Objects -/

/-- The members of an object; no other document has any. -/
def members : Json → List (Str × Json)
  | .obj kvs => kvs
  | _ => []

/-- The member of a name, if the document is an object that has it. -/
def find? (j : Json) (k : Str) : Option Json := lookupKey k j.members

/-- The object of a map. -/
def ofMap (m : UnorderedMap Str Json) : Json := .obj m.sorted.entries

/-- The object of a map of strings. -/
def ofStrMap (m : UnorderedMap Str Str) : Json := ofMap (m.mapValues .str)

/-- The members among the fields that have a value. -/
def present (fs : List (Str × Option Json)) : List (Str × Json) :=
  fs.filterMap fun f ↦ f.2.map fun v ↦ (f.1, v)

/-- The document that `j[name] = value` builds out of `null`, one assignment for each field that
has a value.  The names of the fields are distinct, so their order does not matter. -/
def ofFields (fs : List (Str × Option Json)) : Json :=
  match present fs with
  | [] => .null
  | kvs => .obj (kvs.insertionSort UnorderedMap.KeyLE)

theorem members_ofFields (fs : List (Str × Option Json)) :
    (ofFields fs).members = (present fs).insertionSort UnorderedMap.KeyLE := by
  rw [ofFields]
  split <;> simp [members, *]

theorem mem_present {fs : List (Str × Option Json)} {k : Str} {v : Json} :
    (k, v) ∈ present fs ↔ (k, some v) ∈ fs := by
  simp only [present, List.mem_filterMap, Option.map_eq_some_iff, Prod.mk.injEq]
  constructor
  · rintro ⟨⟨k', o⟩, hmem, v', ho, rfl, rfl⟩
    exact ho ▸ hmem
  · exact fun h ↦ ⟨(k, some v), h, v, rfl, rfl, rfl⟩

theorem nodup_present {fs : List (Str × Option Json)} (h : (fs.map Prod.fst).Nodup) :
    ((present fs).map Prod.fst).Nodup := by
  refine h.sublist ?_
  clear h
  induction fs with
  | nil => simp [present]
  | cons f fs ih =>
    obtain ⟨k, o⟩ := f
    cases o with
    | none => exact ih.cons k
    | some v => exact ih.cons_cons k

/-- A lookup in a list of entries with distinct keys only depends on what the entries are. -/
theorem lookup_eq_of_mem_iff {β : Type*} {l l' : List (Str × β)} (h : (l.map Prod.fst).Nodup)
    (h' : (l'.map Prod.fst).Nodup) (hl : ∀ e, e ∈ l ↔ e ∈ l') (k : Str) :
    lookupKey k l = lookupKey k l' := by
  have key : ∀ v,
      (UnorderedMap.mk l h).find? k = some v ↔ (UnorderedMap.mk l' h').find? k = some v :=
    fun v ↦ by rw [UnorderedMap.find?_eq_some_iff, UnorderedMap.find?_eq_some_iff]; exact hl (k, v)
  exact Option.ext key

/-- **A field is found under its name**, when it has a value. -/
theorem find?_ofFields {fs : List (Str × Option Json)} (h : (fs.map Prod.fst).Nodup) (k : Str) :
    (ofFields fs).find? k = (lookupKey k fs).join := by
  rw [find?, members_ofFields]
  have hperm := List.perm_insertionSort UnorderedMap.KeyLE (present fs)
  rw [lookup_eq_of_mem_iff ((hperm.map Prod.fst).nodup_iff.mpr (nodup_present h))
    (nodup_present h) (fun e ↦ hperm.mem_iff)]
  clear hperm
  induction fs with
  | nil => rfl
  | cons f fs ih =>
    obtain ⟨k', o⟩ := f
    rw [List.map_cons, List.nodup_cons] at h
    cases o with
    | none =>
      by_cases hk : k = k'
      · subst hk
        have hnone : lookupKey k (present fs) = none := by
          refine (UnorderedMap.find?_eq_none_iff (m := ⟨present fs, nodup_present h.2⟩)).mpr
            fun hmem ↦ h.1 ?_
          obtain ⟨⟨k', v⟩, hv, rfl⟩ := List.mem_map.mp hmem
          exact List.mem_map.mpr ⟨_, mem_present.mp hv, rfl⟩
        simpa [present, lookupKey] using hnone
      · simpa [present, lookupKey, hk] using ih h.2
    | some v =>
      by_cases hk : k = k'
      · subst hk
        simp [present, lookupKey]
      · simpa [present, lookupKey, hk] using ih h.2

@[simp] theorem find?_obj (kvs : List (Str × Json)) (k : Str) :
    (obj kvs).find? k = lookupKey k kvs := rfl

theorem validUtf8_ofFields (fs : List (Str × Option Json)) :
    (ofFields fs).validUtf8 =
      fs.all fun f ↦ f.2.all fun v ↦ Utf8.valid f.1 && v.validUtf8 := by
  have hsort : ∀ kvs : List (Str × Json),
      (obj (kvs.insertionSort UnorderedMap.KeyLE)).validUtf8 =
        kvs.all fun kv ↦ Utf8.valid kv.1 && kv.2.validUtf8 := fun kvs ↦ by
    rw [validUtf8_obj]
    exact (List.perm_insertionSort UnorderedMap.KeyLE kvs).all_eq
  have hpres : (ofFields fs).validUtf8 =
      (present fs).all fun kv ↦ Utf8.valid kv.1 && kv.2.validUtf8 := by
    rw [ofFields]
    split
    · simp [validUtf8, *]
    · exact hsort _
  rw [hpres, present, List.all_filterMap]
  congr 1
  funext f
  obtain ⟨k, o⟩ := f
  cases o <;> rfl

theorem dumped_ofFields {fs : List (Str × Option Json)} (h : (fs.map Prod.fst).Nodup) :
    (ofFields fs).dumped = ofFields (fs.map fun f ↦ (f.1, f.2.map dumped)) := by
  have hpres : present (fs.map fun f ↦ (f.1, f.2.map dumped)) =
      (present fs).map fun kv ↦ (kv.1, kv.2.dumped) := by
    rw [present, present, List.filterMap_map, List.map_filterMap]
    congr 1
    funext f
    obtain ⟨k, o⟩ := f
    cases o <;> rfl
  have horder : inOrder ((present fs).insertionSort UnorderedMap.KeyLE) =
      (present fs).insertionSort UnorderedMap.KeyLE :=
    inOrder_sorted ⟨present fs, nodup_present h⟩
  rw [ofFields, ofFields, hpres]
  cases hp : present fs with
  | nil => simp
  | cons kv kvs =>
    have hsort := List.map_insertionSort UnorderedMap.KeyLE UnorderedMap.KeyLE
      (fun kv : Str × Json ↦ (kv.1, kv.2.dumped)) (kv :: kvs) fun _ _ _ _ ↦ Iff.rfl
    rw [hp] at horder
    rw [dumped_obj, inOrder_map, horder, hsort]
    rfl

/-! ## Conversions

Each fails where `get<T>()`, `at` or `value` throws. -/

/-- `get<std::string>()` -/
def getStr : Json → Option Str
  | .str s => some s
  | _ => none

/-- `get<time_t>()`, which truncates and wraps. -/
def getInt64 : Json → Option Int64
  | .int n => some (Int64.ofInt n)
  | .float d => some (Int64.ofInt d.trunc)
  | _ => none

/-- `get<int>()`, which truncates and wraps, and converts booleans as well. -/
def getInt32 : Json → Option Int32
  | .int n => some (Int32.ofInt n)
  | .float d => some (Int32.ofInt d.trunc)
  | .bool b => some (if b then 1 else 0)
  | _ => none

/-- `get` of an enumeration, which takes numbers only. -/
def getEnum : Json → Option Int32
  | .int n => some (Int32.ofInt n)
  | .float d => some (Int32.ofInt d.trunc)
  | _ => none

/-- `get<std::vector<json>>()` -/
def getArr : Json → Option (List Json)
  | .arr xs => some xs
  | _ => none

/-- `get<std::unordered_map<std::string, json>>()` -/
def getMap : Json → Option (UnorderedMap Str Json)
  | .obj kvs => some (UnorderedMap.ofList kvs)
  | _ => none

/-- A member whose value has to be a string. -/
def strMember (kv : Str × Json) : Option (Str × Str) := kv.2.getStr.map fun s ↦ (kv.1, s)

/-- `get<std::unordered_map<std::string, std::string>>()` -/
def getStrMap : Json → Option (UnorderedMap Str Str)
  | .obj kvs => (kvs.mapM strMember).map UnorderedMap.ofList
  | _ => none

/-- `get<double>()`, which converts integers. -/
def getDouble : Json → Option Double
  | .int n => some (Double.ofInt n)
  | .float d => some d
  | _ => none

/-- `is_object()` -/
def isObject : Json → Bool
  | .obj _ => true
  | _ => false

/-- `is_array()` -/
def isArray : Json → Bool
  | .arr _ => true
  | _ => false

/-- `is_string()` -/
def isString : Json → Bool
  | .str _ => true
  | _ => false

/-- `is_number()` -/
def isNumber : Json → Bool
  | .int _ | .float _ => true
  | _ => false

/-- `value(name, default)`: the default only stands in for an absent member of an object. -/
def value {α : Type*} (j : Json) (k : Str) (get : Json → Option α) (default : α) : Option α :=
  if j.isObject then
    match j.find? k with
    | some v => get v
    | none => some default
  else none

theorem isObject_ofFields {fs : List (Str × Option Json)} {f : Str × Option Json} (hf : f ∈ fs)
    (hv : f.2.isSome) : (ofFields fs).isObject = true := by
  obtain ⟨v, hv⟩ := Option.isSome_iff_exists.mp hv
  have hmem : (f.1, v) ∈ present fs := mem_present.mpr (by rw [← hv]; exact hf)
  rw [ofFields]
  split
  · rename_i h; rw [h] at hmem; exact absurd hmem (by simp)
  · rfl

/-- Without a value there is nothing to assign. -/
theorem ofFields_eq_null {fs : List (Str × Option Json)} (h : ∀ f ∈ fs, f.2 = none) :
    ofFields fs = .null := by
  have hp : present fs = [] := List.filterMap_eq_nil_iff.mpr fun f hf ↦ by simp [h f hf]
  rw [ofFields, hp]

@[simp] theorem getStr_eq_some {j : Json} {s : Str} : j.getStr = some s ↔ j = .str s := by
  cases j <;> simp [getStr]

theorem getArr_eq_some {j : Json} {xs : List Json} : j.getArr = some xs ↔ j = .arr xs := by
  cases j <;> simp [getArr]

/-- The object of a map reads back as the map, with its values as their texts denote them. -/
theorem getMap_dumped_ofMap (m : UnorderedMap Str Json) :
    (ofMap m).dumped.getMap = some (m.sorted.mapValues dumped) := by
  rw [ofMap, dumped_obj, inOrder_map, inOrder_sorted, getMap]
  exact congrArg some (UnorderedMap.ofList_entries (m.sorted.mapValues dumped))

theorem ofStrMap_eq (m : UnorderedMap Str Str) :
    ofStrMap m = .obj (m.sorted.entries.map fun e ↦ (e.1, .str e.2)) := by
  rw [ofStrMap, ofMap]
  exact congrArg obj (List.map_insertionSort UnorderedMap.KeyLE UnorderedMap.KeyLE
    (fun e : Str × Str ↦ (e.1, Json.str e.2)) m.entries fun _ _ _ _ ↦ Iff.rfl).symm

@[simp] theorem dumped_ofStrMap (m : UnorderedMap Str Str) : (ofStrMap m).dumped = ofStrMap m := by
  rw [ofStrMap, ofMap, dumped_obj, inOrder_map, inOrder_sorted, UnorderedMap.sorted_mapValues]
  simp [UnorderedMap.mapValues, Function.comp_def]

theorem getStrMap_ofStrMap (m : UnorderedMap Str Str) : (ofStrMap m).getStrMap = some m.sorted := by
  rw [ofStrMap_eq, getStrMap, List.mapM_map]
  have h : ∀ l : List (Str × Str),
      (l.mapM fun e ↦ strMember (e.1, Json.str e.2)) = some l := fun l ↦ by
    induction l with
    | nil => rfl
    | cons e l ih => rw [List.mapM_cons, ih]; rfl
  rw [Function.comp_def, h]
  exact congrArg some (UnorderedMap.ofList_entries m.sorted)

theorem validUtf8_ofMap (m : UnorderedMap Str Json) :
    (ofMap m).validUtf8 = m.entries.all fun e ↦ Utf8.valid e.1 && e.2.validUtf8 := by
  rw [ofMap, validUtf8_obj]
  exact (List.perm_insertionSort UnorderedMap.KeyLE m.entries).all_eq

theorem validUtf8_ofStrMap (m : UnorderedMap Str Str) :
    (ofStrMap m).validUtf8 = m.entries.all fun e ↦ Utf8.valid e.1 && Utf8.valid e.2 := by
  rw [ofStrMap, validUtf8_ofMap, UnorderedMap.mapValues, List.all_map]
  simp [Function.comp_def]

/-! ### What is read out of a UTF-8 document is UTF-8 -/

theorem validUtf8_find? {j v : Json} {k : Str} (h : j.validUtf8 = true) (hv : j.find? k = some v) :
    v.validUtf8 = true := by
  cases j with
  | obj kvs =>
    rw [validUtf8_obj] at h
    rw [find?_obj] at hv
    induction kvs with
    | nil => simp [lookupKey] at hv
    | cons kv kvs ih =>
      rw [List.all_cons, Bool.and_eq_true, Bool.and_eq_true] at h
      rw [lookupKey] at hv
      split at hv
      · rw [Option.some_inj] at hv; exact hv ▸ h.1.2
      · exact ih h.2 hv
  | _ => simp [find?, members, lookupKey] at hv

theorem validUtf8_getMap {j : Json} {m : UnorderedMap Str Json} (h : j.validUtf8 = true)
    (hm : j.getMap = some m) : (ofMap m).validUtf8 = true := by
  cases j with
  | obj kvs =>
    rw [getMap, Option.some_inj] at hm
    subst hm
    rw [validUtf8_obj, List.all_eq_true] at h
    rw [validUtf8_ofMap, List.all_eq_true]
    exact fun e he ↦ h e (UnorderedMap.mem_of_mem_ofList he)
  | _ => simp [getMap] at hm

theorem mem_of_strMembers {kvs : List (Str × Json)} {l : List (Str × Str)}
    (h : kvs.mapM strMember = some l) {e : Str × Str} (he : e ∈ l) : (e.1, .str e.2) ∈ kvs := by
  induction kvs generalizing l with
  | nil => simp_all
  | cons kv kvs ih =>
    rw [List.mapM_cons] at h
    obtain ⟨e', he', h⟩ := Option.bind_eq_some_iff.mp h
    obtain ⟨l', hl', h⟩ := Option.bind_eq_some_iff.mp h
    obtain rfl : e' :: l' = l := Option.some_inj.mp h
    rcases List.mem_cons.mp he with rfl | he
    · obtain ⟨s, hs, rfl⟩ := Option.map_eq_some_iff.mp he'
      obtain ⟨k, v⟩ := kv
      obtain rfl : v = .str s := getStr_eq_some.mp hs
      exact List.mem_cons_self
    · exact List.mem_cons_of_mem _ (ih hl' he)

theorem validUtf8_getStrMap {j : Json} {m : UnorderedMap Str Str} (h : j.validUtf8 = true)
    (hm : j.getStrMap = some m) : (ofStrMap m).validUtf8 = true := by
  cases j with
  | obj kvs =>
    obtain ⟨l, hl, rfl⟩ := Option.map_eq_some_iff.mp hm
    rw [validUtf8_obj, List.all_eq_true] at h
    rw [validUtf8_ofStrMap, List.all_eq_true]
    intro e he
    simpa using h _ (mem_of_strMembers hl (UnorderedMap.mem_of_mem_ofList he))
  | _ => simp [getStrMap] at hm

end Json

/-! ## The library's reader and printer -/

/-- A JSON library: a reader, which fails on malformed text, and a printer, for the documents it
can print at all. -/
structure JsonText where
  /-- `parse`; `none` where it throws. -/
  parse : Str → Option Json
  /-- The text `dump` returns when it returns. -/
  text : Json → Str
  /-- A printed document reads back as the document its text denotes. -/
  parse_text : ∀ j : Json, j.validUtf8 = true → parse (text j) = some j.dumped
  /-- Text that is not UTF-8 is malformed, and so is an escape that would not give UTF-8. -/
  valid_of_parse : ∀ s j, parse s = some j → Utf8.valid s = true ∧ j.validUtf8 = true

/-- `dump()`; `none` where it throws, which is on a string that is not UTF-8. -/
def JsonText.dump (lib : JsonText) (j : Json) : Option Str :=
  if j.validUtf8 then some (lib.text j) else none

theorem JsonText.parse_of_dump (lib : JsonText) {j : Json} {s : Str} (h : lib.dump j = some s) :
    lib.parse s = some j.dumped := by
  rw [dump] at h
  split at h
  · rename_i hv
    rw [Option.some_inj] at h
    exact h ▸ lib.parse_text j hv
  · exact absurd h (by simp)

/-! ### The two laws are consistent

A finite table of texts can be completed to a library: the documents that are not in the table get
made-up texts, one for each, which start with a byte that no text in the table starts with. -/

namespace JsonText

/-- A binary tree of numbers, as which a document can be coded. -/
inductive Tree where
  | leaf (n : ℕ)
  | node (l r : Tree)
  deriving Countable

mutual

def toTree : Json → Tree
  | .null => .leaf 0
  | .bool b => .leaf (if b then 1 else 2)
  | .int n => .node (.leaf 0) (.leaf (Encodable.encode n))
  | .float d => .node (.leaf 1) (.leaf d.bits.toNat)
  | .str s => .node (.leaf 2) (.leaf (Encodable.encode (s.map UInt8.toNat)))
  | .arr xs => .node (.leaf 3) (toTreeList xs)
  | .obj kvs => .node (.leaf 4) (toTreeMembers kvs)

def toTreeList : List Json → Tree
  | [] => .leaf 0
  | x :: xs => .node (toTree x) (toTreeList xs)

def toTreeMembers : List (Str × Json) → Tree
  | [] => .leaf 0
  | kv :: kvs => .node (toTreeMember kv) (toTreeMembers kvs)

def toTreeMember : Str × Json → Tree
  | (k, v) => .node (.leaf (Encodable.encode (k.map UInt8.toNat))) (toTree v)

end

theorem map_toNat_inj {s t : Str} : s.map UInt8.toNat = t.map UInt8.toNat ↔ s = t :=
  (List.map_injective_iff.mpr fun _ _ h ↦ UInt8.toNat_inj.mp h).eq_iff

mutual

theorem toTree_inj : ∀ (j j' : Json), toTree j = toTree j' → j = j'
  | .null, j' => by
    cases j' with
    | bool b => cases b <;> simp [toTree]
    | _ => simp [toTree]
  | .bool b, j' => by
    cases j' with
    | bool b' => cases b <;> cases b' <;> simp [toTree]
    | _ => cases b <;> simp [toTree]
  | .int n, j' => by cases j' <;> simp [toTree]
  | .float ⟨bits⟩, j' => by
    cases j' with
    | float d => cases d; simp [toTree, UInt64.toNat_inj]
    | _ => simp [toTree]
  | .str s, j' => by cases j' <;> simp [toTree, map_toNat_inj]
  | .arr xs, j' => by cases j' <;> simp [toTree]; exact toTreeList_inj xs _
  | .obj kvs, j' => by cases j' <;> simp [toTree]; exact toTreeMembers_inj kvs _
termination_by structural j => j

theorem toTreeList_inj : ∀ (xs xs' : List Json), toTreeList xs = toTreeList xs' → xs = xs'
  | [], xs' => by cases xs' <;> simp [toTreeList]
  | x :: xs, xs' => by
    cases xs' with
    | nil => simp [toTreeList]
    | cons x' xs' =>
      intro h
      simp only [toTreeList, Tree.node.injEq] at h
      rw [toTree_inj x x' h.1, toTreeList_inj xs xs' h.2]
termination_by structural xs => xs

theorem toTreeMembers_inj : ∀ (kvs kvs' : List (Str × Json)),
    toTreeMembers kvs = toTreeMembers kvs' → kvs = kvs'
  | [], kvs' => by cases kvs' <;> simp [toTreeMembers]
  | kv :: kvs, kvs' => by
    cases kvs' with
    | nil => simp [toTreeMembers]
    | cons kv' kvs' =>
      intro h
      simp only [toTreeMembers, Tree.node.injEq] at h
      rw [toTreeMember_inj kv kv' h.1, toTreeMembers_inj kvs kvs' h.2]
termination_by structural kvs => kvs

theorem toTreeMember_inj : ∀ (kv kv' : Str × Json), toTreeMember kv = toTreeMember kv' → kv = kv'
  | (k, v), (k', v') => fun h ↦ by
    simp only [toTreeMember, Tree.node.injEq, Tree.leaf.injEq, Encodable.encode_inj,
      map_toNat_inj] at h
    rw [h.1, toTree_inj v v' h.2]
termination_by structural kv => kv

end

/-- A number for every document. -/
noncomputable def code (j : Json) : ℕ :=
  (exists_injective_nat Tree).choose (toTree j)

theorem code_inj {j j' : Json} (h : code j = code j') : j = j' :=
  toTree_inj j j' ((exists_injective_nat Tree).choose_spec h)

/-- The made-up text of a document. -/
noncomputable def madeUp (j : Json) : Str := 0 :: List.replicate (code j.dumped) 1

theorem valid_madeUp (j : Json) : Utf8.valid (madeUp j) = true := by
  refine Utf8.valid_of_ascii fun b hb ↦ ?_
  rcases List.mem_cons.mp hb with rfl | hb
  · decide
  · rw [List.eq_of_mem_replicate hb]; decide

theorem madeUp_inj {j j' : Json} (h : madeUp j = madeUp j') : j.dumped = j'.dumped := by
  refine code_inj ?_
  simpa [madeUp] using congrArg List.length h

/-- What a table of texts has to satisfy: documents that can be printed as they are, texts that
are UTF-8, and neither listed twice. -/
def TableOk (t : List (Json × Str)) : Prop :=
  (t.map Prod.snd).Nodup ∧
    ∀ e ∈ t, e.1.validUtf8 = true ∧ e.1.dumped = e.1 ∧ Utf8.valid e.2 = true ∧ e.2.head? ≠ some 0

instance (t : List (Json × Str)) : Decidable (TableOk t) :=
  inferInstanceAs (Decidable (_ ∧ _))

/-- In a table that does not list a text twice, the text determines the entry. -/
theorem find?_text {t : List (Json × Str)} (ht : (t.map Prod.snd).Nodup) {e : Json × Str}
    (he : e ∈ t) : (t.find? fun e' ↦ e'.2 = e.2) = some e := by
  induction t with
  | nil => simp at he
  | cons f t ih =>
    rw [List.map_cons, List.nodup_cons] at ht
    rcases List.mem_cons.mp he with rfl | he
    · simp
    · have hne : f.2 ≠ e.2 := fun h ↦ ht.1 (h ▸ List.mem_map.mpr ⟨e, he, rfl⟩)
      rw [List.find?_cons_of_neg (by simpa using hne)]
      exact ih ht.2 he

/-- The text of a document: from the table, or else made up. -/
noncomputable def tableText (t : List (Json × Str)) (j : Json) : Str :=
  match t.find? fun e ↦ e.1 = j.dumped with
  | some e => e.2
  | none => madeUp j

open Classical in
/-- The reader that goes with `tableText`. -/
noncomputable def tableParse (t : List (Json × Str)) (s : Str) : Option Json :=
  match t.find? fun e ↦ e.2 = s with
  | some e => some e.1
  | none => if h : ∃ j : Json, j.validUtf8 = true ∧ s = madeUp j then some h.choose.dumped else none

theorem tableParse_tableText {t : List (Json × Str)} (ht : TableOk t) {j : Json}
    (hj : j.validUtf8 = true) : tableParse t (tableText t j) = some j.dumped := by
  rw [tableText]
  cases hfind : t.find? fun e ↦ e.1 = j.dumped with
  | some e =>
    have he : e.1 = j.dumped := by simpa using List.find?_some hfind
    simp only [tableParse]
    rw [find?_text ht.1 (List.mem_of_find?_eq_some hfind)]
    exact congrArg some he
  | none =>
    have hnone : (t.find? fun e ↦ e.2 = madeUp j) = none := by
      rw [List.find?_eq_none]
      intro e he h
      refine (ht.2 e he).2.2.2 ?_
      rw [of_decide_eq_true h]
      rfl
    have hex : ∃ j' : Json, j'.validUtf8 = true ∧ madeUp j = madeUp j' := ⟨j, hj, rfl⟩
    simp only [tableParse]
    rw [hnone, dif_pos hex]
    exact congrArg some (madeUp_inj hex.choose_spec.2).symm

theorem valid_of_tableParse {t : List (Json × Str)} (ht : TableOk t) {s : Str} {j : Json}
    (h : tableParse t s = some j) : Utf8.valid s = true ∧ j.validUtf8 = true := by
  rw [tableParse] at h
  split at h
  · rename_i e he
    obtain rfl : e.1 = j := Option.some_inj.mp h
    obtain ⟨hj, -, hs, -⟩ := ht.2 e (List.mem_of_find?_eq_some he)
    have hes : e.2 = s := by simpa using List.find?_some he
    exact ⟨hes ▸ hs, hj⟩
  · split at h
    · rename_i hex
      rw [Option.some_inj] at h
      exact ⟨hex.choose_spec.2 ▸ valid_madeUp _, h ▸ Json.validUtf8_dumped hex.choose_spec.1⟩
    · exact absurd h (by simp)

/-- **The library that prints the documents of a table with the texts of the table.** -/
noncomputable def ofTable (t : List (Json × Str)) (ht : TableOk t) : JsonText where
  parse := tableParse t
  text := tableText t
  parse_text _ hj := tableParse_tableText ht hj
  valid_of_parse _ _ h := valid_of_tableParse ht h

theorem parse_nil_ofTable {t : List (Json × Str)} (ht : TableOk t) (h : ∀ e ∈ t, e.2 ≠ []) :
    (ofTable t ht).parse [] = none := by
  have hnone : (t.find? fun e ↦ e.2 = []) = none := by
    rw [List.find?_eq_none]
    exact fun e he heq ↦ h e he (of_decide_eq_true heq)
  have hnot : ¬ ∃ j : Json, j.validUtf8 = true ∧ [] = madeUp j := by
    rintro ⟨j, -, hj⟩
    exact absurd hj (by simp [madeUp])
  show tableParse t [] = none
  rw [tableParse, hnone]
  exact dif_neg hnot

end JsonText
