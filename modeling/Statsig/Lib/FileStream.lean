import Mathlib.Data.List.Infix
import Mathlib.Tactic.Common

/-!
# Streams on a file

A file is what its path shows: some bytes, or nothing.  An output stream truncates the file when it
is opened, and then appends its content to it piece by piece.  It does not raise its failures: they
set a flag, after which nothing more is put.  An input stream collects what it finds piece by piece,
until there is nothing behind its position.

Neither knows of the other, so an input stream on a file that changes may collect anything.  What
can be said is that an output stream without a failure has put a prefix of its content
(`OutStream.Follows`), all of it once it is closed, and that an input stream collects a prefix of a
file that does not change, all of it once it is at the end (`eq_of_atEnd`).
-/

set_option autoImplicit false

namespace FileStream

universe u

variable {α : Type u}

/-! ## Output -/

/-- How much has been put, and whether something has failed. -/
structure OutStream where
  position : ℕ := 0
  failed : Bool := false
  deriving DecidableEq, Repr

namespace OutStream

/-- Opening truncates the file, if it succeeds. -/
def openFile (file : Option (List α)) (ok : Bool) : Option (List α) × OutStream :=
  if ok then (some [], {}) else (file, { failed := true })

/-- Up to `n` more bytes of the content go to the file. -/
def put (o : OutStream) (content : List α) (file : Option (List α)) (n : ℕ) :
    Option (List α) × OutStream :=
  if o.failed then (file, o)
  else (file.map (· ++ (content.drop o.position).take n), { o with position := o.position + n })

/-- Something fails. -/
def fail (o : OutStream) : OutStream := { o with failed := true }

/-- Closing puts the rest, if it succeeds. -/
def close (o : OutStream) (content : List α) (file : Option (List α)) (ok : Bool) :
    Option (List α) × OutStream :=
  if ok then o.put content file content.length else (file, o.fail)

/-- Without a failure, the file is what the stream has put. -/
def Follows (o : OutStream) (content : List α) (file : Option (List α)) : Prop :=
  o.failed = false → file = some (content.take o.position)

variable {o : OutStream} {content : List α} {file : Option (List α)}

@[simp] theorem failed_fail (o : OutStream) : o.fail.failed = true := rfl

@[simp] theorem failed_openFile (file : Option (List α)) (ok : Bool) :
    (openFile file ok).2.failed = !ok := by
  cases ok <;> rfl

@[simp] theorem failed_put (n : ℕ) : (o.put content file n).2.failed = o.failed := by
  rw [put]
  split <;> rfl

theorem failed_close (ok : Bool) : (o.close content file ok).2.failed = (o.failed || !ok) := by
  cases ok <;> simp [close]

/-- When everything has been put, nothing more happens to the file. -/
theorem put_of_length_le (h : content.length ≤ o.position) (n : ℕ) :
    (o.put content file n).1 = file := by
  rw [put, List.drop_of_length_le h]
  split <;> simp

theorem follows_openFile (content : List α) (file : Option (List α)) (ok : Bool) :
    (openFile file ok).2.Follows content (openFile file ok).1 := by
  cases ok with
  | false => exact fun h ↦ absurd h (by simp)
  | true => exact fun _ ↦ rfl

theorem follows_fail (o : OutStream) (content : List α) (file : Option (List α)) :
    o.fail.Follows content file :=
  fun h ↦ absurd h (by simp)

theorem Follows.put (h : o.Follows content file) (n : ℕ) :
    (o.put content file n).2.Follows content (o.put content file n).1 := by
  intro hfailed
  rw [failed_put] at hfailed
  simp [OutStream.put, hfailed, h hfailed, List.take_add]

theorem Follows.close (h : o.Follows content file) {ok : Bool}
    (hfailed : (o.close content file ok).2.failed = false) :
    (o.close content file ok).1 = some content := by
  obtain ⟨ho, rfl⟩ : o.failed = false ∧ ok = true := by
    simpa [failed_close] using hfailed
  have hput := h.put content.length (by rwa [failed_put])
  rw [OutStream.close, if_pos rfl, hput, List.take_of_length_le]
  simp [OutStream.put, ho]

end OutStream

/-! ## Input -/

/-- What a stream has got after up to `n` more bytes. -/
def fetch (got : List α) (file : Option (List α)) (n : ℕ) : List α :=
  got ++ ((file.getD []).drop got.length).take n

/-- There is nothing behind the position. -/
def AtEnd (got : List α) (file : Option (List α)) : Prop := (file.getD []).length ≤ got.length

instance (got : List α) (file : Option (List α)) : Decidable (AtEnd got file) :=
  inferInstanceAs (Decidable (_ ≤ _))

variable {got bytes : List α}

/-- A stream gets a prefix of a file that does not change. -/
theorem fetch_prefix (h : got <+: bytes) (n : ℕ) : fetch got (some bytes) n <+: bytes := by
  obtain ⟨rest, rfl⟩ := h
  rw [fetch, Option.getD_some, List.drop_left]
  exact (List.prefix_append_right_inj got).mpr (List.take_prefix n rest)

theorem eq_of_atEnd (h : got <+: bytes) (hend : AtEnd got (some bytes)) : got = bytes :=
  h.eq_of_length_le hend

end FileStream
