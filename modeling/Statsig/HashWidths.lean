import Statsig.EvaluationStore
import Statsig.Lib.RollingHash
import Mathlib.Data.BitVec

/-!
# The hash on different platforms

`DJB2` computes in `unsigned long` and masks what it has at the end.  Its result does not depend on
the width of `unsigned long`: `djb2_eq_decimal_sum` gives it as a sum modulo `2 ^ 32`.

It does depend on the signedness of `char`, because a byte of 128 or more is widened to different
numbers.  `sameLookups_iff` says which names are looked up under the same key all the same.
-/

set_option autoImplicit false

namespace Statsig

open RollingHash

namespace hashing

variable (p : Platform)

/-- The value of a `char`. -/
def charValue (character : UInt8) : ℤ :=
  if p.charSigned then character.toInt8.toInt else character.toNat

/-- The conversion to `unsigned long` keeps the value, modulo what fits. -/
theorem widen_eq (character : UInt8) : widen p character = (charValue p character : ℤ) := by
  rw [widen, charValue]
  split
  · rfl
  · exact (BitVec.ofNat_toNat _ _).symm

/-- Shifting and subtracting is multiplying by 31. -/
theorem djb2Step_eq (hash : BitVec p.longBits) (character : UInt8) :
    djb2Step p hash character = 31 * hash + (charValue p character : ℤ) := by
  have hshift : hash <<< 5 = 32 * hash := by
    apply BitVec.eq_of_toNat_eq
    simp [Nat.shiftLeft_eq, Nat.mul_comm]
  rw [djb2Step, hshift, widen_eq]
  ring

theorem foldl_djb2Step (value : Str) :
    value.foldl (djb2Step p) 0 = ((roll 31 (charValue p) value : ℤ) : BitVec p.longBits) := by
  have hroll := map_roll 31 (charValue p) value (Int.castRingHom (BitVec p.longBits))
  rw [eq_intCast] at hroll
  rw [hroll, roll]
  congr 1
  funext hash character
  rw [djb2Step_eq, map_ofNat, eq_intCast]

/-- The mask at the end leaves 32 bits, however many there were. -/
theorem toNat_mask (n : ℤ) :
    ((n : BitVec p.longBits) &&& 0xffffffff).toNat = (n % 2 ^ 32).toNat := by
  have hdvd : (2 : ℤ) ^ 32 ∣ 2 ^ p.longBits := pow_dvd_pow 2 p.longBits_ge
  have hmask : (0xffffffff : BitVec p.longBits).toNat = 2 ^ 32 - 1 := by
    have hlt : 2 ^ 32 - 1 < 2 ^ p.longBits :=
      lt_of_lt_of_le (by decide) (Nat.pow_le_pow_right (by decide) p.longBits_ge)
    exact (BitVec.toNat_ofNat _ _).trans (Nat.mod_eq_of_lt hlt)
  have hpos : ∀ k : ℕ, 0 ≤ n % 2 ^ k := fun k ↦ Int.emod_nonneg n (pow_ne_zero k (by decide))
  rw [BitVec.toNat_and, hmask, Nat.and_two_pow_sub_one_eq_mod, BitVec.toNat_intCast,
    ← Int.natCast_inj, Int.natCast_emod, Int.toNat_of_nonneg (hpos _), Int.toNat_of_nonneg (hpos _)]
  exact Int.emod_emod_of_dvd n hdvd

/-- **The hash**, whatever the width of `unsigned long`. -/
theorem djb2_eq_decimal_roll (value : Str) :
    djb2 p value = decimal (roll 31 (charValue p) value % 2 ^ 32).toNat := by
  rw [djb2, foldl_djb2Step, toNat_mask]

/-- **The width of `unsigned long` makes no difference**: on platforms that agree on what a `char`
is worth, the hash is the sum of the characters, each weighted by a power of 31, modulo `2 ^ 32`. -/
theorem djb2_eq_decimal_sum (p p' : Platform) (hsigned : p.charSigned = p'.charSigned)
    (value : Str) :
    djb2 p value = djb2 p' value ∧
      djb2 p value = decimal ((∑ i : Fin value.length,
        charValue p value[i] * 31 ^ (value.length - 1 - i)) % 2 ^ 32).toNat := by
  have hvalue : charValue p = charValue p' := by
    funext character
    rw [charValue, charValue, hsigned]
  constructor
  · rw [djb2_eq_decimal_roll, djb2_eq_decimal_roll, hvalue]
  · rw [djb2_eq_decimal_roll, roll_eq_weightedSum, weightedSum]

theorem djb2_eq_decimal_sum_windows :
    djb2 .linux (str "a_gate") = djb2 .windows (str "a_gate") ∧
      djb2 .linux (str "a_gate") = decimal ((∑ i : Fin (str "a_gate").length,
        charValue .linux (str "a_gate")[i] * 31 ^ ((str "a_gate").length - 1 - i)) %
          2 ^ 32).toNat :=
  djb2_eq_decimal_sum .linux .windows rfl (str "a_gate")

/-! ## Signed and unsigned characters -/

/-- What the places of the bytes outside ASCII are worth. -/
def highWeight (value : Str) : ℕ :=
  ∑ i : Fin value.length, if 128 ≤ value[i] then 31 ^ (value.length - 1 - i) else 0

theorem highWeight_eq_roll (value : Str) :
    highWeight value = roll 31 (fun c ↦ if 128 ≤ c then 1 else 0) value := by
  rw [roll_eq_weightedSum, weightedSum, highWeight]
  simp only [ite_mul, one_mul, zero_mul]

/-- An unsigned `char` exceeds a signed one by 256 outside ASCII, and not at all inside. -/
theorem charValue_of_unsigned {p p' : Platform} (hp : p.charSigned = true)
    (hp' : p'.charSigned = false) (character : UInt8) :
    charValue p' character =
      charValue p character + 256 * ((if 128 ≤ character then 1 else 0 : ℕ) : ℤ) := by
  have htoInt : character.toInt8.toInt =
      if 2 * character.toNat < 2 ^ 8 then (character.toNat : ℤ)
      else character.toNat - (2 ^ 8 : ℕ) :=
    BitVec.toInt_eq_toNat_cond character.toBitVec
  have hle : 128 ≤ character ↔ 128 ≤ character.toNat := UInt8.le_iff_toNat_le
  rw [charValue, charValue, hp, hp', if_pos rfl, if_neg (by decide), htoInt]
  by_cases hhigh : 128 ≤ character
  · rw [if_pos hhigh, if_neg (by have := hle.mp hhigh; omega)]
    omega
  · rw [if_neg hhigh, if_pos (by have := mt hle.mpr hhigh; omega)]
    omega

/-- Outside ASCII, each byte adds 256 times what its place is worth. -/
theorem roll_charValue {p p' : Platform} (hp : p.charSigned = true) (hp' : p'.charSigned = false)
    (value : Str) :
    roll 31 (charValue p') value = roll 31 (charValue p) value + 256 * (highWeight value : ℤ) := by
  have hhigh : (highWeight value : ℤ) =
      roll 31 (fun c ↦ ((if 128 ≤ c then 1 else 0 : ℕ) : ℤ)) value := by
    rw [highWeight_eq_roll]
    exact map_roll 31 _ value (Nat.castRingHom ℤ)
  rw [hhigh, ← roll_mul, ← roll_add]
  congr 1
  funext character
  exact charValue_of_unsigned hp hp' character

/-- **What signedness does to a hash.** -/
theorem djb2_eq_iff {p p' : Platform} (hp : p.charSigned = true) (hp' : p'.charSigned = false)
    (value : Str) : djb2 p value = djb2 p' value ↔ 2 ^ 24 ∣ highWeight value := by
  have hmod : ∀ n m : ℤ, (n % 2 ^ 32).toNat = (m % 2 ^ 32).toNat ↔ 2 ^ 32 ∣ m - n := by
    intro n m
    omega
  rw [djb2_eq_decimal_roll, djb2_eq_decimal_roll, decimal_injective.eq_iff, hmod,
    roll_charValue hp hp', add_sub_cancel_left]
  omega

/-- ASCII text weighs nothing. -/
theorem highWeight_of_ascii {value : Str} (h : ∀ c ∈ value, c < 128) : highWeight value = 0 := by
  refine Finset.sum_eq_zero fun i _ ↦ if_neg ?_
  exact UInt8.not_le.mpr (h value[i] (List.getElem_mem _))

/-- **One character is enough**: a name with a single character outside ASCII, which takes two to
four bytes, is hashed differently. -/
theorem not_dvd_highWeight {start character rest : Str} (hstart : ∀ c ∈ start, c < 128)
    (hcharacter : ∀ c ∈ character, 128 ≤ c) (hrest : ∀ c ∈ rest, c < 128)
    (hlength : character.length ∈ [2, 3, 4]) :
    ¬ 2 ^ 24 ∣ highWeight (start ++ character ++ rest) := by
  have hweight : highWeight (start ++ character ++ rest) =
      highWeight character * 31 ^ rest.length := by
    rw [highWeight_eq_roll, roll_append, roll_append, ← highWeight_eq_roll, ← highWeight_eq_roll,
      ← highWeight_eq_roll, highWeight_of_ascii hstart, highWeight_of_ascii hrest]
    ring
  have hcoprime : Nat.Coprime (2 ^ 24) (31 ^ rest.length) := Nat.Coprime.pow _ _ (by decide)
  rw [hweight, hcoprime.dvd_mul_right, highWeight_eq_roll]
  -- what is left are the sums `1 + 31`, `1 + 31 + 31 ^ 2` and `1 + 31 + 31 ^ 2 + 31 ^ 3`
  match character, hlength with
  | [a, b], _ => simp [roll, hcharacter]
  | [a, b, c], _ => simp [roll, hcharacter]
  | [a, b, c, d], _ => simp [roll, hcharacter]

end hashing

/-! ## Lookups -/

/-- The same name is looked up under the same key. -/
structure SameLookups (p p' : Platform) (name : Str) : Prop where
  hash : hashing.djb2 p name = hashing.djb2 p' name
  gate : ∀ store : EvaluationStore, store.getGate p name = store.getGate p' name
  config : ∀ store : EvaluationStore, store.getConfig p name = store.getConfig p' name
  layer : ∀ store : EvaluationStore, store.getLayer p name = store.getLayer p' name

/-- **When the signedness of `char` makes no difference**: the places of the bytes outside ASCII are
worth a multiple of `2 ^ 24`. -/
theorem sameLookups_iff {p p' : Platform} (hp : p.charSigned = true)
    (hp' : p'.charSigned = false) (name : Str) :
    SameLookups p p' name ↔ 2 ^ 24 ∣ hashing.highWeight name := by
  rw [← hashing.djb2_eq_iff hp hp' name]
  refine ⟨SameLookups.hash, fun hhash ↦ ?_⟩
  have hlookup : ∀ {α : Type} (evaluations : InitializeResponse → UnorderedMap Str α)
      (store : EvaluationStore),
      store.lookup p evaluations name = store.lookup p' evaluations name := by
    intro α evaluations store
    rw [EvaluationStore.lookup, EvaluationStore.lookup, hhash]
  exact ⟨hhash, hlookup _, hlookup _, hlookup _⟩

/-- Accents in such places that what they add to the hash cancels out. -/
def cancellingName : Str :=
  [true, true, true, true, false, false, false, false, false, true, false, false, true, false,
    false, true, false, false, true].flatMap fun accent ↦ if accent then [0xC3, 0xA9] else str "a"

theorem sameLookups_cancellingName : SameLookups .linux .arm cancellingName :=
  (sameLookups_iff rfl rfl cancellingName).mpr (by
    rw [hashing.highWeight_eq_roll]
    decide +kernel)

/-- The name of a gate with an accent on it: the bytes are the last two. -/
def accentedName : Str := str "caf" ++ [0xC3, 0xA9]

/-- A gate with such a name has two keys. -/
theorem not_forall_sameLookups :
    ¬ ∀ (p p' : Platform) (name : Str), p.charSigned = true → p'.charSigned = false →
      SameLookups p p' name := by
  intro h
  exact absurd (h .linux .arm accentedName rfl rfl).hash (by decide +kernel)

end Statsig
