import Statsig.InitializeResponse
import Statsig.Lib.Decode

/-!
# Is the decoder of the payload safe?

`initialize_response::FromJson` reads most members with `at`, which throws when the member is
missing, and five of them with `operator[]`, which must not be used then: the three maps, and the
value of a config or a layer.

What is read before such a member decides whether the member is reached at all: an `at` that throws
first makes the rest harmless.  `missesMember` follows the reads in their order, and `safe_iff` says
that it is exact.
-/

set_option autoImplicit false

namespace Json

/-! ## Single reads -/

/-- `j.at(k).get_to(x)` returns. -/
def reads {α : Type} (j : Json) (k : Str) (get : Json → Option α) : Bool :=
  ((j.find? k).bind get).isSome

/-- `if (j.contains(k)) { x = j[k].get<T>(); }` returns. -/
def readsIfPresent {α : Type} (j : Json) (k : Str) (get : Json → Option α) : Bool :=
  (j.find? k).all fun v ↦ (get v).isSome

/-- `j.contains(k)` -/
def has (j : Json) (k : Str) : Bool := (j.find? k).isSome

open Decode

variable {α : Type} {j : Json} {k : Str} {get : Json → Option α}

@[simp] theorem returns_orThrow_iff {o : Option α} : Returns (orThrow o) ↔ o.isSome = true := by
  cases o <;> simp [orThrow, returns_ok]

@[simp] theorem orThrow_ne_undefined (o : Option α) : orThrow o ≠ .error .undefined := by
  cases o <;> simp [orThrow]

@[simp] theorem getTo_ne_undefined : j.getTo k get ≠ .error .undefined := by
  rw [getTo, atKey]
  cases j.find? k with
  | none => exact nofun
  | some v => exact orThrow_ne_undefined (get v)

@[simp] theorem getIfPresent_ne_undefined : j.getIfPresent k get ≠ .error .undefined := by
  rw [getIfPresent]
  cases j.find? k <;> simp

@[simp] theorem returns_getTo_iff : Returns (j.getTo k get) ↔ j.reads k get = true := by
  rw [getTo, atKey, reads]
  cases j.find? k with
  | none => exact iff_of_false (not_returns_error _) nofun
  | some v => exact returns_orThrow_iff

@[simp] theorem returns_getIfPresent_iff :
    Returns (j.getIfPresent k get) ↔ j.readsIfPresent k get = true := by
  rw [getIfPresent, readsIfPresent]
  cases j.find? k <;> simp [returns_ok]

theorem isObject_of_has (h : j.has k = true) : j.isObject = true := by
  cases j <;> first | rfl | exact absurd h (by simp [has, find?, members, lookupKey])

theorem index_of_find? {v : Json} (h : j.find? k = some v) : j.index k = .ok v := by
  have hobj : j.isObject = true := isObject_of_has (k := k) (by rw [has, h]; rfl)
  rw [index, if_pos hobj, h]

@[simp] theorem returns_index_iff : Returns (j.index k) ↔ j.has k = true := by
  rw [has]
  cases hfind : j.find? k with
  | some v =>
    rw [index_of_find? hfind]
    exact iff_of_true (returns_ok v) rfl
  | none =>
    rw [index, hfind]
    refine iff_of_false ?_ (by simp)
    split <;> simp

/-- **The access that must not happen.** -/
@[simp] theorem index_eq_undefined_iff :
    j.index k = .error .undefined ↔ j.isObject = true ∧ j.has k = false := by
  rw [index, has]
  cases j.find? k <;> split <;> simp [*]

theorem isObject_of_reads (h : j.reads k get = true) : j.isObject = true := by
  refine isObject_of_has (k := k) ?_
  rw [reads] at h
  rw [has]
  cases hv : j.find? k with
  | none => rw [hv] at h; exact absurd h (by simp)
  | some v => rfl

end Json

namespace Statsig

open Decode

variable (p : Platform) (lib : JsonText)

/-! ## Evaluations -/

/-- What all three decoders of an evaluation read first. -/
def headReads (j : Json) : Bool :=
  j.reads (str "name") Json.getStr && j.reads (str "rule_id") Json.getStr &&
    j.reads (str "secondary_exposures") Json.getStrMapList

/-- `j["value"]` is reached, and is missing. -/
def lacksValue (j : Json) : Bool := headReads j && !j.has (str "value")

/-- What is read first can only be read from an object. -/
theorem lacksValue_iff {j : Json} : lacksValue j = true ↔
    j.reads (str "name") Json.getStr = true ∧ j.reads (str "rule_id") Json.getStr = true ∧
      j.reads (str "secondary_exposures") Json.getStrMapList = true ∧
      j.isObject = true ∧ j.has (str "value") = false := by
  rw [lacksValue, headReads, Bool.and_eq_true, Bool.and_eq_true, Bool.and_eq_true,
    Bool.not_eq_true', and_assoc, and_assoc]
  refine and_congr_right fun hname ↦ ?_
  rw [Json.isObject_of_reads hname]
  simp only [true_and]

namespace gateEvaluation

/-- All members of a gate can be read. -/
def wellFormed (j : Json) : Bool :=
  headReads j && j.reads (str "value") Json.getBool && j.readsIfPresent (str "id_type") Json.getStr

theorem wellFormed_iff (j : Json) : wellFormed j = true ↔ Returns (fromJson j) := by
  simp only [wellFormed, headReads, fromJson, returns_bind_iff, returns_pure, and_true,
    exists_and_right, exists_eq_ok_iff, Json.returns_getTo_iff, Json.returns_getIfPresent_iff,
    Bool.and_eq_true, and_assoc]

theorem fromJson_ne_undefined (j : Json) : fromJson j ≠ .error .undefined := by
  simp only [fromJson, ne_eq, bind_eq_error_iff, Json.getTo_ne_undefined,
    Json.getIfPresent_ne_undefined, pure_ne_error, and_false, exists_false, or_false,
    not_false_eq_true]

end gateEvaluation

namespace configEvaluation

/-- All members of a config can be read. -/
def wellFormed (j : Json) : Bool :=
  headReads j && j.has (str "value") && j.readsIfPresent (str "group_name") Json.getStr

theorem wellFormed_iff (j : Json) : wellFormed j = true ↔ Returns (fromJson j) := by
  simp only [wellFormed, headReads, fromJson, returns_bind_iff, returns_pure, and_true,
    exists_and_right, exists_eq_ok_iff, Json.returns_getTo_iff, Json.returns_getIfPresent_iff,
    Json.returns_index_iff, Bool.and_eq_true, and_assoc]

theorem fromJson_eq_undefined_iff (j : Json) :
    lacksValue j = true ↔ fromJson j = .error .undefined := by
  simp only [fromJson, bind_eq_error_iff, Json.getTo_ne_undefined,
    Json.getIfPresent_ne_undefined, pure_ne_error, and_false, exists_false, or_false, false_or,
    exists_and_right, exists_eq_ok_iff, Json.returns_getTo_iff, Json.index_eq_undefined_iff,
    lacksValue_iff]

end configEvaluation

namespace layerEvaluation

/-- All members of a layer can be read. -/
def wellFormed (j : Json) : Bool :=
  headReads j && j.has (str "value") && j.reads (str "explicit_parameters") Json.getStrList &&
    j.reads (str "undelegated_secondary_exposures") Json.getStrMapList &&
    j.readsIfPresent (str "group_name") Json.getStr &&
    j.readsIfPresent (str "allocated_experiment_name") Json.getStr

theorem wellFormed_iff (j : Json) : wellFormed j = true ↔ Returns (fromJson j) := by
  simp only [wellFormed, headReads, fromJson, returns_bind_iff, returns_pure, and_true,
    exists_and_right, exists_eq_ok_iff, Json.returns_getTo_iff, Json.returns_getIfPresent_iff,
    Json.returns_index_iff, Bool.and_eq_true, and_assoc]

theorem fromJson_eq_undefined_iff (j : Json) :
    lacksValue j = true ↔ fromJson j = .error .undefined := by
  simp only [fromJson, bind_eq_error_iff, Json.getTo_ne_undefined,
    Json.getIfPresent_ne_undefined, pure_ne_error, and_false, exists_false, or_false, false_or,
    exists_and_right, exists_eq_ok_iff, Json.returns_getTo_iff, Json.index_eq_undefined_iff,
    lacksValue_iff]

end layerEvaluation

/-! ## The payload -/

namespace initializeResponse

/-- The evaluations under a name, in the order in which the loop visits them, if there is an object
of them. -/
def visited (j : Json) (k : Str) : Option (List (Str × Json)) :=
  ((j.find? k).bind Json.getMap).map fun evaluations ↦ p.memberOrder.toFun evaluations.entries

/-- The evaluations under a name can all be read. -/
def readsAll (wellFormed : Json → Bool) (j : Json) (k : Str) : Bool :=
  (visited p j k).any fun entries ↦ entries.all fun entry ↦ wellFormed entry.2

/-- There is nothing under the name, or the loop reaches an evaluation without a value. -/
def goesWrong (wellFormed bad : Json → Bool) (j : Json) (k : Str) : Bool :=
  !j.has k || (visited p j k).any
    (reaches (fun entry ↦ wellFormed entry.2) fun entry ↦ bad entry.2)

section Loops

variable {α : Type} {fromJson : Json → Except Fault α} {wellFormed bad : Json → Bool}
  {j : Json} {k : Str}

/-- What is read when there is an object under the name: its entries, in turn. -/
theorem readEvaluations_of_visited {entries : List (Str × Json)}
    (h : visited p j k = some entries) :
    readEvaluations p fromJson j k =
      (entries.mapM fun entry ↦ (fromJson entry.2).map fun e ↦ (entry.1, e)) >>=
        fun read ↦ pure (UnorderedMap.ofList read) := by
  obtain ⟨evaluations, hmap, rfl⟩ := Option.map_eq_some_iff.mp h
  obtain ⟨v, hv, hget⟩ := Option.bind_eq_some_iff.mp hmap
  rw [readEvaluations, Json.index_of_find? hv]
  simp only [bind, Except.bind, hget, Json.orThrow]

/-- Otherwise reading throws, if there is anything under the name, -/
theorem readEvaluations_of_not_visited (hhas : j.has k = true) (h : visited p j k = none) :
    readEvaluations p fromJson j k = .error .thrown := by
  obtain ⟨v, hv⟩ := Option.isSome_iff_exists.mp hhas
  have hget : v.getMap = none := by simpa [visited, hv] using h
  rw [readEvaluations, Json.index_of_find? hv]
  simp only [bind, Except.bind, hget, Json.orThrow]

/-- and has no defined behaviour, if there is not. -/
theorem readEvaluations_of_lacking (hobj : j.isObject = true) (hhas : j.has k = false) :
    readEvaluations p fromJson j k = .error .undefined := by
  rw [readEvaluations, Json.index_eq_undefined_iff.mpr ⟨hobj, hhas⟩]
  rfl

theorem has_of_visited {entries : List (Str × Json)} (h : visited p j k = some entries) :
    j.has k = true := by
  obtain ⟨evaluations, hmap, -⟩ := Option.map_eq_some_iff.mp h
  obtain ⟨v, hv, -⟩ := Option.bind_eq_some_iff.mp hmap
  rw [Json.has, hv]
  rfl

theorem returns_entry_iff (hwf : ∀ j, wellFormed j = true ↔ Returns (fromJson j))
    (entry : Str × Json) :
    wellFormed entry.2 = true ↔ Returns ((fromJson entry.2).map fun e ↦ (entry.1, e)) :=
  (hwf entry.2).trans returns_map_iff.symm

theorem returns_readEvaluations_iff (hwf : ∀ j, wellFormed j = true ↔ Returns (fromJson j))
    (hobj : j.isObject = true) :
    Returns (readEvaluations p fromJson j k) ↔ readsAll p wellFormed j k = true := by
  cases hvisited : visited p j k with
  | some entries =>
    rw [readEvaluations_of_visited p hvisited, returns_bind_iff, readsAll, hvisited,
      Option.any_some, ← returns_mapM_iff (returns_entry_iff hwf)]
    simp only [returns_pure, and_true]
    rfl
  | none =>
    rw [readsAll, hvisited]
    refine iff_of_false ?_ (by simp)
    cases hhas : j.has k with
    | true => simp [readEvaluations_of_not_visited p hhas hvisited]
    | false => simp [readEvaluations_of_lacking p hobj hhas]

/-- **One of the three loops**: where the source has no defined behaviour. -/
theorem readEvaluations_eq_undefined_iff
    (hwf : ∀ j, wellFormed j = true ↔ Returns (fromJson j))
    (hbad : ∀ j, bad j = true ↔ fromJson j = .error .undefined) (hobj : j.isObject = true) :
    readEvaluations p fromJson j k = .error .undefined ↔
      goesWrong p wellFormed bad j k = true := by
  have hentry : ∀ entry : Str × Json, bad entry.2 = true ↔
      ((fromJson entry.2).map fun e ↦ (entry.1, e)) = .error .undefined :=
    fun entry ↦ (hbad entry.2).trans map_eq_error_iff.symm
  rw [goesWrong, Bool.or_eq_true, Bool.not_eq_true']
  cases hvisited : visited p j k with
  | some entries =>
    rw [readEvaluations_of_visited p hvisited, bind_eq_error_iff, has_of_visited p hvisited,
      Option.any_some, ← mapM_eq_error_iff (returns_entry_iff hwf) hentry]
    simp
  | none =>
    cases hhas : j.has k with
    | true => simp [readEvaluations_of_not_visited p hhas hvisited]
    | false => simp [readEvaluations_of_lacking p hobj hhas]

end Loops

/-- **The reads that must not happen**, in the order of the decoder. -/
def missesMember (j : Json) : Bool :=
  j.reads (str "time") Json.getInt64 && j.reads (str "has_updates") Json.getBool &&
    (goesWrong p gateEvaluation.wellFormed (fun _ ↦ false) j (str "feature_gates") ||
      readsAll p gateEvaluation.wellFormed j (str "feature_gates") &&
        (goesWrong p configEvaluation.wellFormed lacksValue j (str "dynamic_configs") ||
          readsAll p configEvaluation.wellFormed j (str "dynamic_configs") &&
            goesWrong p layerEvaluation.wellFormed lacksValue j (str "layer_configs")))

theorem fromJson_eq_undefined_iff (j : Json) :
    fromJson p j = .error .undefined ↔ missesMember p j = true := by
  by_cases htime : j.reads (str "time") Json.getInt64 = true
  · have hobj := Json.isObject_of_reads htime
    simp only [fromJson, bind_eq_error_iff, Json.getTo_ne_undefined, false_or, exists_and_right,
      exists_eq_ok_iff, Json.returns_getTo_iff, pure_ne_error, exists_false, and_false, or_false,
      returns_readEvaluations_iff p gateEvaluation.wellFormed_iff hobj,
      returns_readEvaluations_iff p configEvaluation.wellFormed_iff hobj,
      readEvaluations_eq_undefined_iff p gateEvaluation.wellFormed_iff
        (fun j ↦ iff_of_false Bool.false_ne_true (gateEvaluation.fromJson_ne_undefined j)) hobj,
      readEvaluations_eq_undefined_iff p configEvaluation.wellFormed_iff
        configEvaluation.fromJson_eq_undefined_iff hobj,
      readEvaluations_eq_undefined_iff p layerEvaluation.wellFormed_iff
        layerEvaluation.fromJson_eq_undefined_iff hobj,
      missesMember, Bool.and_eq_true, Bool.or_eq_true, and_assoc]
  · refine iff_of_false (fun h ↦ ?_) (by simp [missesMember, htime])
    rw [fromJson, bind_eq_error_iff] at h
    rcases h with h | ⟨time, h, -⟩
    · exact Json.getTo_ne_undefined h
    · exact htime (Json.returns_getTo_iff.mp ⟨time, h⟩)

/-! ## Whole texts -/

/-- The body of the `try` block of `Deserialize`. -/
def read (input : Str) : Except Fault InitializeResponse :=
  (Json.orThrow (lib.parse input)).bind (fromJson p)

theorem decode_eq_read (input : Str) : decode p lib input = (read p lib input).toOption := by
  rw [decode, read]
  cases lib.parse input <;> rfl

/-- `initialize_response::Deserialize`; `none` where the source has no defined behaviour. -/
def outcome (input : Str) : Option (StatsigResult InitializeResponse) :=
  match read p lib input with
  | .ok response => some { code := .ok, value := some response }
  | .error .thrown => some { code := .jsonFailureInitializeResponse }
  | .error .undefined => none

theorem deserialize_of_outcome {input : Str} {result : StatsigResult InitializeResponse}
    (h : outcome p lib input = some result) : deserialize p lib input = result := by
  rw [outcome] at h
  rw [deserialize, decode_eq_read]
  cases hread : read p lib input with
  | ok response =>
    rw [hread] at h
    exact Option.some_inj.mp h
  | error fault =>
    rw [hread] at h
    cases fault with
    | thrown => exact Option.some_inj.mp h
    | undefined => exact absurd h (by simp)

/-- The decoder ends, with a value or with the failure code. -/
def Safe (input : Str) : Prop :=
  ∃ result, outcome p lib input = some result ∧ deserialize p lib input = result ∧
    ((result.code = .ok ∧ result.value.isSome = true) ∨
      (result.code = .jsonFailureInitializeResponse ∧ result.value = none))

theorem exists_outcome {input : Str} (h : read p lib input ≠ .error .undefined) :
    ∃ result, outcome p lib input = some result ∧
      ((result.code = .ok ∧ result.value.isSome = true) ∨
        (result.code = .jsonFailureInitializeResponse ∧ result.value = none)) := by
  rw [outcome]
  cases hread : read p lib input with
  | ok response => exact ⟨_, rfl, .inl ⟨rfl, rfl⟩⟩
  | error fault =>
    cases fault with
    | thrown => exact ⟨_, rfl, .inr ⟨rfl, rfl⟩⟩
    | undefined => exact absurd hread h

/-- What there is to be safe from. -/
theorem safe_iff_read (input : Str) :
    Safe p lib input ↔ read p lib input ≠ .error .undefined := by
  constructor
  · rintro ⟨result, houtcome, -⟩ hread
    rw [outcome, hread] at houtcome
    exact absurd houtcome (by simp)
  · intro hread
    obtain ⟨result, houtcome, hresult⟩ := exists_outcome p lib hread
    exact ⟨result, houtcome, deserialize_of_outcome p lib houtcome, hresult⟩

/-- **When the decoder is safe**: exactly on the texts that do not parse, and on the documents from
which no read that must not happen is made. -/
theorem safe_iff (input : Str) :
    Safe p lib input ↔ ∀ j, lib.parse input = some j → missesMember p j = false := by
  rw [safe_iff_read, read]
  cases lib.parse input with
  | none => simp [Json.orThrow, Except.bind]
  | some j =>
    have hmisses := not_congr (fromJson_eq_undefined_iff p j)
    rw [Bool.not_eq_true] at hmisses
    simpa [Json.orThrow, Except.bind] using hmisses

/-! ### A payload without its maps -/

/-- Only what is read with `at`. -/
def headerDoc : Json := .ofFields
  [(str "time", some (.int 7)), (str "has_updates", some (.bool true))]

def headerText : Str := str "\x7b\"time\":7,\"has_updates\":true\x7d"

/-- No member is looked for before it is known to be there, except the three maps. -/
theorem not_forall_safe :
    ¬ ∀ (p : Platform) (lib : JsonText) (input : Str), Safe p lib input := by
  intro h
  have hparse : (JsonText.ofTable [(headerDoc, headerText)] (by decide +kernel)).parse headerText =
      some headerDoc := by
    simp [JsonText.ofTable, JsonText.tableParse]
  have hmisses := (safe_iff .linux _ headerText).mp (h _ _ _) headerDoc hparse
  exact absurd hmisses (by decide +kernel)

end initializeResponse

end Statsig
