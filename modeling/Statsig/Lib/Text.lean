import Mathlib.Data.List.Basic
import Mathlib.Tactic.Common

/-!
# Byte strings and UTF-8

`std::string` is a sequence of bytes with no encoding attached, so `Str` is a list of bytes, and
well-formed UTF-8 is a predicate on it.  `Utf8.step` is the automaton of the Unicode standard's
table of well-formed byte sequences: it rejects overlong forms, surrogates and everything above
U+10FFFF.
-/

set_option autoImplicit false

/-- A byte string. -/
abbrev Str := List UInt8

/-- The bytes of a literal.  Meant for ASCII text, where a character is one byte. -/
def str (s : String) : Str := s.toList.map fun c ↦ UInt8.ofNat c.toNat

/-- The decimal digits of a number. -/
def decimal (n : ℕ) : Str := (Nat.toDigits 10 n).map fun c ↦ UInt8.ofNat c.toNat

namespace Utf8

/-- Where the automaton stands: between characters, or inside one, with the bytes it still owes
and the range the next of them has to lie in. -/
inductive State where
  | start
  | owes (n : ℕ) (lo hi : UInt8)
  deriving DecidableEq, Repr

/-- The first byte of a character. -/
def first (b : UInt8) : Option State :=
  if b < 0x80 then some .start
  else if 0xC2 ≤ b ∧ b ≤ 0xDF then some (.owes 1 0x80 0xBF)
  else if b = 0xE0 then some (.owes 2 0xA0 0xBF)
  else if b = 0xED then some (.owes 2 0x80 0x9F)
  else if 0xE1 ≤ b ∧ b ≤ 0xEF then some (.owes 2 0x80 0xBF)
  else if b = 0xF0 then some (.owes 3 0x90 0xBF)
  else if 0xF1 ≤ b ∧ b ≤ 0xF3 then some (.owes 3 0x80 0xBF)
  else if b = 0xF4 then some (.owes 3 0x80 0x8F)
  else none

/-- One byte; `none` when no well-formed text goes on like this. -/
def step : State → UInt8 → Option State
  | .start, b => first b
  | .owes n lo hi, b =>
    if lo ≤ b ∧ b ≤ hi then
      some (if n ≤ 1 then .start else .owes (n - 1) 0x80 0xBF)
    else none

/-- The bytes are well-formed UTF-8. -/
def valid (s : Str) : Bool := s.foldlM step .start == some .start

theorem valid_iff {s : Str} : valid s = true ↔ s.foldlM step .start = some .start := by
  rw [valid, beq_iff_eq]

@[simp] theorem valid_nil : valid [] = true := rfl

theorem valid_of_ascii {s : Str} (h : ∀ b ∈ s, b < 0x80) : valid s = true := by
  rw [valid_iff]
  induction s with
  | nil => rfl
  | cons b s ih =>
    rw [List.forall_mem_cons] at h
    rw [List.foldlM_cons, step, first, if_pos h.1]
    exact ih h.2

theorem valid_append {s t : Str} (hs : valid s = true) (ht : valid t = true) :
    valid (s ++ t) = true := by
  rw [valid_iff] at hs ht ⊢
  rw [List.foldlM_append, hs]
  exact ht

/-! ### Cutting a text

A cut leaves well-formed text exactly when it falls between characters, and that shows in the byte
after it. -/

/-- The bytes that go on with a character. -/
def IsContinuation (b : UInt8) : Prop := 0x80 ≤ b ∧ b ≤ 0xBF

instance (b : UInt8) : Decidable (IsContinuation b) := inferInstanceAs (Decidable (_ ∧ _))

/-- Whatever is owed is a continuation. -/
def State.OwesContinuation : State → Prop
  | .start => True
  | .owes _ lo hi => 0x80 ≤ lo ∧ hi ≤ 0xBF

theorem owesContinuation_first {b : UInt8} {st : State} (h : first b = some st) :
    st.OwesContinuation := by
  simp only [first] at h
  split_ifs at h <;> obtain rfl := Option.some_inj.mp h <;>
    simp only [State.OwesContinuation] <;> decide

theorem OwesContinuation.step {st st' : State} {b : UInt8} (hst : st.OwesContinuation)
    (h : step st b = some st') : st'.OwesContinuation := by
  cases st with
  | start => exact owesContinuation_first h
  | owes n lo hi =>
    simp only [Utf8.step] at h
    split_ifs at h with hb hn
    · obtain rfl := Option.some_inj.mp h
      trivial
    · obtain rfl := Option.some_inj.mp h
      exact ⟨UInt8.le_refl _, UInt8.le_refl _⟩

theorem owesContinuation_foldlM {s : Str} {st st' : State} (hst : st.OwesContinuation)
    (h : s.foldlM step st = some st') : st'.OwesContinuation := by
  induction s generalizing st with
  | nil => exact Option.some_inj.mp h ▸ hst
  | cons b s ih =>
    rw [List.foldlM_cons] at h
    obtain ⟨st₁, hstep, hrest⟩ := Option.bind_eq_some_iff.mp h
    exact ih (OwesContinuation.step hst hstep) hrest

/-- No character begins with a continuation. -/
theorem first_of_isContinuation {b : UInt8} (hb : IsContinuation b) : first b = none := by
  -- but for ASCII, the bytes that `first` accepts are all greater
  have hgreater : ∀ c : UInt8, 0xBF < c → ¬ c ≤ b := fun c hc hle ↦
    absurd (UInt8.lt_of_lt_of_le hc (UInt8.le_trans hle hb.2)) (UInt8.lt_irrefl _)
  have hne : ∀ c : UInt8, 0xBF < c → b ≠ c := fun c hc heq ↦
    hgreater c hc (heq ▸ UInt8.le_refl b)
  rw [first, if_neg (UInt8.not_lt.mpr hb.1),
    if_neg fun h ↦ hgreater _ (by decide) h.1, if_neg (hne _ (by decide)),
    if_neg (hne _ (by decide)), if_neg fun h ↦ hgreater _ (by decide) h.1,
    if_neg (hne _ (by decide)), if_neg fun h ↦ hgreater _ (by decide) h.1,
    if_neg (hne _ (by decide))]

/-- **Where a well-formed text may be cut**: where no continuation follows. -/
theorem valid_take_iff {s : Str} (h : valid s = true) (n : ℕ) :
    valid (s.take n) = true ↔ ∀ b, s[n]? = some b → ¬ IsContinuation b := by
  rw [valid_iff, ← List.take_append_drop n s, List.foldlM_append] at h
  obtain ⟨st, htake, hdrop⟩ := Option.bind_eq_some_iff.mp h
  have hstart : State.OwesContinuation .start := trivial
  have howes : st.OwesContinuation := owesContinuation_foldlM hstart htake
  rw [valid_iff, htake, Option.some_inj, ← List.head?_drop]
  cases hrest : s.drop n with
  | nil =>
    rw [hrest] at hdrop
    exact iff_of_true (Option.some_inj.mp hdrop) (by simp)
  | cons b rest =>
    rw [hrest, List.foldlM_cons] at hdrop
    obtain ⟨st', hstep, -⟩ := Option.bind_eq_some_iff.mp hdrop
    simp only [List.head?_cons, Option.some_inj, forall_eq']
    cases st with
    | start =>
      refine iff_of_true rfl fun hb ↦ ?_
      rw [Utf8.step, first_of_isContinuation hb] at hstep
      exact absurd hstep (by simp)
    | owes k lo hi =>
      simp only [Utf8.step] at hstep
      split_ifs at hstep with hb
      all_goals
        exact iff_of_false (by simp)
          (not_not.mpr ⟨UInt8.le_trans howes.1 hb.1, UInt8.le_trans hb.2 howes.2⟩)

end Utf8

theorem toNat_le_of_mem_toDigits {n : ℕ} {c : Char} (hc : c ∈ Nat.toDigits 10 n) :
    c.toNat ≤ 57 := by
  have hd : c.isDigit = true := Nat.isDigit_of_mem_toDigits (by omega) (by omega) hc
  simp only [Char.isDigit, Bool.and_eq_true, decide_eq_true_eq] at hd
  exact hd.2

theorem valid_decimal (n : ℕ) : Utf8.valid (decimal n) = true := by
  apply Utf8.valid_of_ascii
  intro b hb
  obtain ⟨c, hc, rfl⟩ := List.mem_map.mp hb
  have hle := toNat_le_of_mem_toDigits hc
  rw [UInt8.lt_iff_toNat_lt, UInt8.toNat_ofNat']
  have : (0x80 : UInt8).toNat = 128 := rfl
  omega

theorem decimal_injective : Function.Injective decimal := by
  have hback : ∀ n : ℕ, (decimal n).map (fun b ↦ Char.ofNat b.toNat) = Nat.toDigits 10 n := by
    intro n
    have hchar : ∀ c ∈ Nat.toDigits 10 n, Char.ofNat (UInt8.ofNat c.toNat).toNat = c := by
      intro c hc
      have hle := toNat_le_of_mem_toDigits hc
      rw [UInt8.toNat_ofNat_of_lt' (by simp only [UInt8.size]; omega), Char.ofNat_toNat]
    rw [decimal, List.map_map]
    exact (List.map_congr_left hchar).trans (List.map_id' _)
  intro n m h
  rw [← Nat.ofDigitChars_ten_toDigits (n := n), ← hback, h, hback, Nat.ofDigitChars_ten_toDigits]
