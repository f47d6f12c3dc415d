import Statsig.EventLogger
import Statsig.Lib.AsyncFile

/-!
# Saves that overlap

`SaveFailedEvents` reads the failed-events file, adds a payload and queues the new content; the
write runs later, on some worker.  Any number of saves, and the two steps of each write, can
interleave in any order.

`saved_of_run` says what is in the file when no save reads it while the write of an earlier one is
outstanding.
-/

set_option autoImplicit false

namespace Statsig

namespace FailedEvents

open EventLogger

/-- A save, with what is saved, or a step of a queued write. -/
inductive Label where
  | save (events : List StatsigEventInternal) (attempt : Int32)
  | task (task : AsyncFile.Task)
  deriving DecidableEq, Repr

variable (lib : JsonText)

/-- One step.  A save that throws ends the process, so nothing follows it. -/
def step (file : AsyncFile UInt8) : Label → Option (AsyncFile UInt8)
  | .save events attempt =>
    (saveFailedEvents lib file.content events attempt).map fun text ↦ file.queue text
  | .task task => file.runTask task

/-- The payloads that were saved, in order. -/
def saved (labels : List Label) : List RetryableEventPayload :=
  labels.filterMap fun
    | .save events attempt => some ⟨attempt, events⟩
    | .task _ => none

/-- A save does not read the file while a write is outstanding. -/
def NoOverlap (file : AsyncFile UInt8) : Label → Prop
  | .save _ _ => file.Idle
  | .task _ => True

instance (file : AsyncFile UInt8) (a : Label) : Decidable (NoOverlap file a) :=
  match a with
  | .save _ _ => inferInstanceAs (Decidable file.Idle)
  | .task _ => isTrue trivial

/-! ## One save -/

/-- **A save**: the payload goes in front of those that could be read. -/
theorem readFailures_saveFailedEvents {lib : JsonText} {content : Option Str} {text : Str}
    {events : List StatsigEventInternal} {attempt : Int32}
    (h : saveFailedEvents lib content events attempt = some text) :
    readFailures lib (some text) =
      (insertFailure ⟨attempt, events⟩ (readFailures lib content)).map
        RetryableEventPayload.canon := by
  obtain ⟨result, hresult, hvalue⟩ := Option.bind_eq_some_iff.mp h
  obtain ⟨written, hdump, rfl⟩ := Option.map_eq_some_iff.mp hresult
  obtain rfl : written = text := Option.some_inj.mp hvalue
  rw [readFailures, retryableEventPayload.deserialize_serialize hresult]
  rfl

theorem insertFailure_eq_take (failure : RetryableEventPayload)
    (failures : List RetryableEventPayload) :
    insertFailure failure failures = (failure :: failures).take
      (max constants.kMaxCachedFailedEventPayloadsCount failures.length) := by
  simp only [insertFailure]
  split
  · rename_i h
    rw [List.dropLast_eq_take]
    congr 1
    simp only [List.length_cons] at h ⊢
    omega
  · rename_i h
    rw [List.take_of_length_le]
    simp only [List.length_cons] at h ⊢
    omega

/-- Adding to a list that was cut off. -/
theorem insertFailure_take (failure : RetryableEventPayload) (n : ℕ)
    {failures : List RetryableEventPayload} (hn : n ≤ failures.length) :
    insertFailure failure
        (failures.take (max constants.kMaxCachedFailedEventPayloadsCount n)) =
      (failure :: failures).take (max constants.kMaxCachedFailedEventPayloadsCount n) := by
  have hpos : 0 < max constants.kMaxCachedFailedEventPayloadsCount n :=
    lt_of_lt_of_le (by decide) (le_max_left _ _)
  obtain ⟨k, hk⟩ := Nat.exists_eq_succ_of_ne_zero hpos.ne'
  have hlen : max constants.kMaxCachedFailedEventPayloadsCount
      (failures.take (max constants.kMaxCachedFailedEventPayloadsCount n)).length =
        max constants.kMaxCachedFailedEventPayloadsCount n := by
    rw [List.length_take]
    omega
  rw [insertFailure_eq_take, hlen, hk, List.take_succ_cons, List.take_succ_cons, List.take_take]
  congr 2
  omega

/-- Every payload in the file can be written again. -/
theorem validUtf8_readFailures (lib : JsonText) (content : Option Str) :
    ∀ p ∈ readFailures lib content, ∀ e ∈ p.events, e.validUtf8 = true := by
  cases content with
  | none => simp [readFailures]
  | some text =>
    cases hread : (retryableEventPayload.deserialize lib text).value with
    | none => simp [readFailures, hread]
    | some failures =>
      simpa [readFailures, hread] using retryableEventPayload.validUtf8_of_deserialize hread

/-- **A save does not throw** when the strings of its events are UTF-8. -/
theorem exists_saveFailedEvents (lib : JsonText) (content : Option Str)
    {events : List StatsigEventInternal} (attempt : Int32)
    (h : ∀ e ∈ events, e.validUtf8 = true) :
    ∃ text, saveFailedEvents lib content events attempt = some text := by
  have hvalid : ∀ p ∈ insertFailure ⟨attempt, events⟩ (readFailures lib content),
      ∀ e ∈ p.events, e.validUtf8 = true := by
    intro p hp
    rw [insertFailure_eq_take] at hp
    rcases List.mem_cons.mp (List.mem_of_mem_take hp) with rfl | hp
    · exact h
    · exact validUtf8_readFailures lib content p hp
  obtain ⟨text, htext⟩ := retryableEventPayload.exists_serialize lib hvalid
  exact ⟨text, by rw [saveFailedEvents, htext]; rfl⟩

/-! ## Whole runs -/

/-- What the file is going to hold: the payloads saved so far, the last one first, then those that
were there before, cut off at the limit. -/
def Holds (before : List RetryableEventPayload) (labels : List Label)
    (file : AsyncFile UInt8) : Prop :=
  file.Exclusive ∧ ∃ rest,
    (rest = before ∨ rest = before.map RetryableEventPayload.canon) ∧
    readFailures lib file.final =
      ((saved labels).reverse.map RetryableEventPayload.canon ++ rest).take
        (max constants.kMaxCachedFailedEventPayloadsCount before.length)

theorem map_canon_canon (failures : List RetryableEventPayload) :
    (failures.map RetryableEventPayload.canon).map RetryableEventPayload.canon =
      failures.map RetryableEventPayload.canon := by
  rw [List.map_map]
  exact List.map_congr_left fun p _ ↦ p.canon_canon

theorem holds_step {before : List RetryableEventPayload} {labels : List Label}
    {file file' : AsyncFile UInt8} {a : Label} (hs : Holds lib before labels file)
    (hok : NoOverlap file a) (h : step lib file a = some file') :
    Holds lib before (labels ++ [a]) file' := by
  obtain ⟨hexcl, rest, hrest, hread⟩ := hs
  cases a with
  | task task =>
    obtain ⟨hexcl', hfinal⟩ := hexcl.runTask h
    refine ⟨hexcl', rest, hrest, ?_⟩
    rw [hfinal, hread, saved, saved, List.filterMap_append]
    simp
  | save events attempt =>
    obtain ⟨text, htext, rfl⟩ := Option.map_eq_some_iff.mp h
    have hidle : file.Idle := hok
    obtain ⟨hexcl', hfinal⟩ := hidle.queue text
    refine ⟨hexcl', before.map RetryableEventPayload.canon, .inr rfl, ?_⟩
    have hlen : before.length ≤
        ((saved labels).reverse.map RetryableEventPayload.canon ++ rest).length := by
      rcases hrest with rfl | rfl <;> simp
    have hcanon : rest.map RetryableEventPayload.canon =
        before.map RetryableEventPayload.canon := by
      rcases hrest with rfl | rfl
      · rfl
      · exact map_canon_canon before
    rw [hfinal, readFailures_saveFailedEvents htext, ← hidle.final_eq, hread,
      insertFailure_take _ _ hlen, List.map_take, List.map_cons, List.map_append,
      map_canon_canon, hcanon, saved, saved, List.filterMap_append]
    simp

/-- **No save is lost**, in every run in which no save reads the file while a write is outstanding:
when all writes have run, the file holds the saved payloads, as the file format gives them back,
the last one first and followed by those that were there before, except those beyond the limit. -/
theorem saved_of_run {content : Option Str} {labels : List Label} {file : AsyncFile UInt8}
    (hrun : Machine.run (step lib) { content } labels = some file)
    (hok : Machine.AllSteps (step lib) NoOverlap { content } labels) (hidle : file.Idle) :
    ∃ rest, (rest = readFailures lib content ∨
        rest = (readFailures lib content).map RetryableEventPayload.canon) ∧
      readFailures lib file.content =
        ((saved labels).reverse.map RetryableEventPayload.canon ++ rest).take
          (max constants.kMaxCachedFailedEventPayloadsCount (readFailures lib content).length) := by
  have hinit : Holds lib (readFailures lib content) [] { content } := by
    refine ⟨.idle content, _, .inl rfl, ?_⟩
    rw [AsyncFile.final, saved, List.take_of_length_le (by simp)]
    rfl
  have hholds : Holds lib (readFailures lib content) ([] ++ labels) file :=
    Machine.run_induct_hist (I := Holds lib (readFailures lib content))
      (fun hs hok h ↦ holds_step lib hs hok h) hinit hok hrun
  rw [List.nil_append] at hholds
  obtain ⟨-, rest, hrest, hread⟩ := hholds
  exact ⟨rest, hrest, hidle.final_eq ▸ hread⟩

/-! ## Two saves -/

open retryableEventPayload (plainPayload plainString toJsonArray)

/-- Another batch, and what the file holds when it is the only one. -/
def otherPayload : RetryableEventPayload where
  attempts := 1
  events := [{ eventName := str "other_event", time := 124 }]

def otherString : Str :=
  str ("[\x7b\"attempts\":1,\"events\":[\x7b\"eventName\":\"other_event\",\"time\":124," ++
    "\"user\":null\x7d]\x7d]")

/-- What it holds with both in it. -/
def bothString : Str :=
  str ("[\x7b\"attempts\":1,\"events\":[\x7b\"eventName\":\"other_event\",\"time\":124," ++
    "\"user\":null\x7d]\x7d,\x7b\"attempts\":1,\"events\":[\x7b\"eventName\":\"my_event\"," ++
    "\"time\":123,\"user\":\x7b\"userID\":\"a-user\"\x7d,\"value\":\"a_string\"\x7d]\x7d]")

/-- A library that writes these as the file has them. -/
noncomputable def batchTexts : JsonText := .ofTable
  [(toJsonArray [plainPayload], plainString), (toJsonArray [otherPayload], otherString),
    (toJsonArray [otherPayload, plainPayload], bothString)] (by decide +kernel)

/-- Two saves, each of which is written before the next one reads. -/
def inTurn : List Label :=
  [.save plainPayload.events 1, .task (.openFile 0), .task (.finish 0),
    .save otherPayload.events 1, .task (.openFile 0), .task (.finish 0)]

theorem saved_of_run_inTurn :
    ∃ rest, (rest = readFailures batchTexts none ∨
        rest = (readFailures batchTexts none).map RetryableEventPayload.canon) ∧
      readFailures batchTexts (some bothString) =
        ([otherPayload, plainPayload].map RetryableEventPayload.canon ++ rest).take
          (max constants.kMaxCachedFailedEventPayloadsCount
            (readFailures batchTexts none).length) := by
  have hrun : Machine.run (step batchTexts) { content := none } inTurn =
      some { content := some bothString } := by
    decide +kernel
  have hsaved := saved_of_run batchTexts hrun (by decide +kernel) ⟨rfl, rfl⟩
  exact hsaved

/-- Two saves that both find no file; then the two writes. -/
def overlapping : List Label :=
  [.save plainPayload.events 1, .save otherPayload.events 1, .task (.openFile 0), .task (.finish 0),
    .task (.openFile 0), .task (.finish 0)]

/-- The first of the two is lost. -/
theorem not_forall_saved :
    ¬ ∀ (lib : JsonText) (content : Option Str) (labels : List Label) (file : AsyncFile UInt8),
      Machine.run (step lib) { content } labels = some file → file.Idle →
      (readFailures lib content).length + (saved labels).length ≤
        constants.kMaxCachedFailedEventPayloadsCount →
      ∀ p ∈ saved labels, p.canon ∈ readFailures lib file.content := by
  intro h
  have hrun : Machine.run (step batchTexts) {} overlapping =
      some { content := some otherString } := by
    decide +kernel
  have hmem := h batchTexts none overlapping _ hrun ⟨rfl, rfl⟩ (by decide) plainPayload
    List.mem_cons_self
  have hsave : saveFailedEvents batchTexts none otherPayload.events 1 = some otherString := by
    decide +kernel
  rw [readFailures_saveFailedEvents hsave] at hmem
  exact absurd (congrArg (fun p ↦ p.events.map StatsigEventInternal.eventName)
    (List.mem_singleton.mp hmem)) (by decide)

end FailedEvents

end Statsig
