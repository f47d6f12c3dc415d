import Statsig.EvaluationStore
import Statsig.Lib.Slots

/-!
# What a store answers, from its history

`StoreContents` is what the store is for: it has the values of a result, or it has none and knows
why.  Its operations are those of `EvaluationStore`, whose two fields it takes for one
(`run_eq_repr`), and what it holds after a list of operations can be read off the list
(`after_eq_loaded_iff`, `after_eq_empty`).
-/

set_option autoImplicit false

namespace Statsig

variable (p : Platform) (lib : JsonText)

/-- An operation on the store. -/
inductive StoreOp where
  | reset
  | finalize
  | setValues (result : Option DataAdapterResult)
  deriving DecidableEq, Repr

/-- Why a store has no values. -/
inductive NoValuesYet where
  | uninitialized
  | loading
  | noValues
  deriving DecidableEq, Repr

/-- What a store has. -/
inductive StoreContents where
  | empty (reason : NoValuesYet)
  | loaded (result : DataAdapterResult) (values : InitializeResponse)
  deriving DecidableEq, Repr

namespace StoreOp

/-- The values that an operation brings, if it brings any. -/
def brought : StoreOp → Option InitializeResponse
  | .setValues result => EvaluationStore.broughtBy p lib result
  | .reset | .finalize => none

end StoreOp

namespace EvaluationStore

/-- An operation. -/
def apply (store : EvaluationStore) : StoreOp → EvaluationStore
  | .reset => store.reset
  | .finalize => store.finalize
  | .setValues result => store.setValues p lib result

/-- The store after the operations. -/
def run (ops : List StoreOp) : EvaluationStore := ops.foldl (apply p lib) {}

end EvaluationStore

namespace StoreContents

/-- The same operation on the contents. -/
def apply (contents : StoreContents) : StoreOp → StoreContents
  | .reset => .empty .loading
  | .finalize =>
    match contents with
    | .empty _ => .empty .noValues
    | .loaded result values => .loaded result values
  | .setValues none => contents
  | .setValues (some result) =>
    match initializeResponse.decode p lib result.data with
    | some values => .loaded result values
    | none => contents

/-- The contents after the operations. -/
def after (ops : List StoreOp) : StoreContents := ops.foldl (apply p lib) (.empty .uninitialized)

/-- The store with these contents. -/
def repr : StoreContents → EvaluationStore
  | .empty .uninitialized => {}
  | .empty .loading => { sourceInfo := { source := .loading } }
  | .empty .noValues => { sourceInfo := { source := .noValues } }
  | .loaded result values => .load result values

/-- Each operation of the store is that of the contents. -/
theorem apply_repr (contents : StoreContents) (op : StoreOp) :
    contents.repr.apply p lib op = (contents.apply p lib op).repr := by
  cases op with
  | reset => rfl
  | finalize =>
    cases contents with
    | empty reason => cases reason <;> rfl
    | loaded result values => rfl
  | setValues result =>
    cases result with
    | none => rfl
    | some result =>
      rw [EvaluationStore.apply, apply]
      cases hdecode : initializeResponse.decode p lib result.data with
      | none => exact EvaluationStore.setValues_of_decode_none p lib hdecode _
      | some values => exact EvaluationStore.setValues_some p lib hdecode _

/-- **The store is its contents.** -/
theorem run_eq_repr (ops : List StoreOp) :
    EvaluationStore.run p lib ops = (after p lib ops).repr := by
  induction ops using List.reverseRecOn with
  | nil => rfl
  | append_singleton ops op ih =>
    rw [EvaluationStore.run, after, List.foldl_append, List.foldl_append]
    show (EvaluationStore.run p lib ops).apply p lib op = ((after p lib ops).apply p lib op).repr
    rw [ih, apply_repr]

theorem after_append_singleton (ops : List StoreOp) (op : StoreOp) :
    after p lib (ops ++ [op]) = (after p lib ops).apply p lib op := by
  rw [after, List.foldl_append]
  rfl

end StoreContents

/-! ## The history -/

/-- The result is that of the last `SetValuesFromDataAdapterResult` that parsed since the last
`Reset`, and these are its values. -/
def LastSet (ops : List StoreOp) (result : DataAdapterResult) (values : InitializeResponse) :
    Prop :=
  ∃ before later, ops = before ++ .setValues (some result) :: later ∧
    initializeResponse.decode p lib result.data = some values ∧
    ∀ op ∈ later, op ≠ .reset ∧ op.brought p lib = none

/-- Nothing has parsed since the last `Reset`. -/
def NothingSet (ops : List StoreOp) : Prop := ∀ result values, ¬ LastSet p lib ops result values

/-- There is a `Reset` that has not been finalised. -/
def ResetOpen (ops : List StoreOp) : Prop :=
  ∃ before later, ops = before ++ .reset :: later ∧ .finalize ∉ later

/-- Why a store is empty. -/
def emptyReason (ops : List StoreOp) : NoValuesYet :=
  ops.foldl (fun reason op ↦
    match op with
    | .reset => .loading
    | .finalize => .noValues
    | .setValues _ => reason) .uninitialized

section History

variable {p lib} {ops : List StoreOp} {op : StoreOp} {result : DataAdapterResult}
  {values : InitializeResponse}

/-- Where `x` stands before elements that all satisfy `Q`, with one element more. -/
theorem split_append_singleton {α : Type} {Q : α → Prop} {l : List α} {a x : α} :
    (∃ before later, l ++ [a] = before ++ x :: later ∧ ∀ b ∈ later, Q b) ↔
      a = x ∨ (Q a ∧ ∃ before later, l = before ++ x :: later ∧ ∀ b ∈ later, Q b) := by
  constructor
  · rintro ⟨before, later, hl, hlater⟩
    rcases List.eq_nil_or_concat later with rfl | ⟨later, last, rfl⟩
    · obtain ⟨-, hx⟩ := List.append_inj' hl rfl
      exact .inl (by simpa using hx)
    · rw [List.concat_eq_append, ← List.cons_append, ← List.append_assoc] at hl
      obtain ⟨rfl, ha⟩ := List.append_inj' hl rfl
      obtain rfl : a = last := by simpa using ha
      exact .inr ⟨hlater a (by simp), before, later, rfl, fun b hb ↦ hlater b (by simp [hb])⟩
  · rintro (rfl | ⟨ha, before, later, rfl, hlater⟩)
    · exact ⟨l, [], rfl, by simp⟩
    · exact ⟨before, later ++ [a], by simp, Slots.forall_mem_append_singleton hlater ha⟩

/-- One operation more: it is the last that counts, or it is none and changes nothing. -/
theorem lastSet_append_singleton :
    LastSet p lib (ops ++ [op]) result values ↔
      (op = .setValues (some result) ∧
        initializeResponse.decode p lib result.data = some values) ∨
      (op ≠ .reset ∧ op.brought p lib = none ∧ LastSet p lib ops result values) := by
  have hset : ∀ ops, LastSet p lib ops result values ↔
      (∃ before later, ops = before ++ .setValues (some result) :: later ∧
        ∀ op ∈ later, op ≠ .reset ∧ op.brought p lib = none) ∧
      initializeResponse.decode p lib result.data = some values := by
    intro ops
    constructor
    · rintro ⟨before, later, hops, hdecode, hlater⟩
      exact ⟨⟨before, later, hops, hlater⟩, hdecode⟩
    · rintro ⟨⟨before, later, hops, hlater⟩, hdecode⟩
      exact ⟨before, later, hops, hdecode, hlater⟩
  rw [hset, hset, split_append_singleton, or_and_right]
  simp only [and_assoc]

theorem emptyReason_append_singleton :
    emptyReason (ops ++ [op]) =
      match op with
      | .reset => .loading
      | .finalize => .noValues
      | .setValues _ => emptyReason ops := by
  rw [emptyReason, List.foldl_append]
  rfl

theorem resetOpen_append_singleton :
    ResetOpen (ops ++ [op]) ↔ op = .reset ∨ (op ≠ .finalize ∧ ResetOpen ops) := by
  simp only [ResetOpen, ← List.forall_mem_ne']
  exact split_append_singleton

/-- **What the store has is what the last Set brought.** -/
theorem after_eq_loaded_iff (ops : List StoreOp) :
    StoreContents.after p lib ops = .loaded result values ↔ LastSet p lib ops result values := by
  induction ops using List.reverseRecOn with
  | nil =>
    refine iff_of_false (by simp [StoreContents.after]) ?_
    rintro ⟨before, later, hops, -⟩
    exact absurd hops (by simp)
  | append_singleton ops op ih =>
    rw [StoreContents.after_append_singleton, lastSet_append_singleton, ← ih]
    cases op with
    | reset => simp [StoreContents.apply]
    | finalize =>
      cases StoreContents.after p lib ops <;> simp [StoreContents.apply, StoreOp.brought]
    | setValues r =>
      cases r with
      | none => simp [StoreContents.apply, StoreOp.brought, EvaluationStore.broughtBy]
      | some r =>
        cases hdecode : initializeResponse.decode p lib r.data with
        | none =>
          have hne : ∀ r', r = r' → initializeResponse.decode p lib r'.data ≠ some values := by
            rintro r' rfl
            simp [hdecode]
          simpa [StoreContents.apply, StoreOp.brought, EvaluationStore.broughtBy, hdecode] using
            fun heq hsome ↦ absurd hsome (hne result heq)
        | some brought =>
          simp only [StoreContents.apply, StoreOp.brought, EvaluationStore.broughtBy, hdecode,
            Option.bind_some, StoreContents.loaded.injEq, StoreOp.setValues.injEq,
            Option.some_inj, reduceCtorEq, false_and, and_false, or_false]
          constructor
          · rintro ⟨rfl, rfl⟩
            exact ⟨rfl, hdecode⟩
          · rintro ⟨rfl, hvalues⟩
            exact ⟨rfl, Option.some_inj.mp (hdecode.symm.trans hvalues)⟩

theorem after_eq_empty (h : NothingSet p lib ops) :
    StoreContents.after p lib ops = .empty (emptyReason ops) := by
  induction ops using List.reverseRecOn with
  | nil => rfl
  | append_singleton ops op ih =>
    rw [StoreContents.after_append_singleton, emptyReason_append_singleton]
    cases op with
    | reset => rfl
    | finalize =>
      have hops : NothingSet p lib ops := fun result values hset ↦
        h result values (lastSet_append_singleton.mpr (.inr ⟨by simp, rfl, hset⟩))
      rw [ih hops]
      rfl
    | setValues r =>
      have hbrought : EvaluationStore.broughtBy p lib r = none := by
        by_contra hsome
        obtain ⟨values, hvalues⟩ := Option.ne_none_iff_exists'.mp hsome
        obtain ⟨result, rfl, hdecode⟩ := Option.bind_eq_some_iff.mp hvalues
        exact h result values (lastSet_append_singleton.mpr (.inl ⟨rfl, hdecode⟩))
      have hops : NothingSet p lib ops := fun result values hset ↦
        h result values (lastSet_append_singleton.mpr (.inr ⟨by simp, hbrought, hset⟩))
      rw [ih hops]
      cases r with
      | none => rfl
      | some r =>
        have hdecode : initializeResponse.decode p lib r.data = none := hbrought
        simp only [StoreContents.apply, hdecode]

/-- Loading means that a `Reset` has not been finalised. -/
theorem emptyReason_eq_loading_iff (ops : List StoreOp) :
    emptyReason ops = .loading ↔ ResetOpen ops := by
  induction ops using List.reverseRecOn with
  | nil =>
    refine iff_of_false (by simp [emptyReason]) ?_
    rintro ⟨before, later, hops, -⟩
    exact absurd hops (by simp)
  | append_singleton ops op ih =>
    rw [emptyReason_append_singleton, resetOpen_append_singleton, ← ih]
    cases op <;> simp

/-- And of the other two reasons, only one needs a `Finalize`. -/
theorem emptyReason_of_not_resetOpen (h : ¬ ResetOpen ops) :
    emptyReason ops = if .finalize ∈ ops then .noValues else .uninitialized := by
  induction ops using List.reverseRecOn with
  | nil => rfl
  | append_singleton ops op ih =>
    rw [resetOpen_append_singleton] at h
    rw [emptyReason_append_singleton]
    cases op with
    | reset => exact absurd (.inl rfl) h
    | finalize => simp
    | setValues r =>
      rw [ih fun hopen ↦ h (.inr ⟨by simp, hopen⟩)]
      simp

end History

/-! ## Lookups -/

/-- The sources that a result may have. -/
def resultSources : List ValueSource := [.cache, .network, .networkNotModified, .bootstrap]

/-- What the lookup of a name is to answer, by the history of the store. -/
structure Specified {α : Type} (ops : List StoreOp)
    (evaluations : InitializeResponse → UnorderedMap Str α) (name : Str)
    (answer : DetailedEvaluation α) : Prop where
  recognized : ∀ result values evaluation, LastSet p lib ops result values →
    (evaluations values).find? (hashing.djb2 p name) = some evaluation →
      answer =
        { evaluation := some evaluation
          details :=
            { reason := getValueSourceString result.source ++ str ":Recognized"
              lcut := values.time
              receivedAt := result.receivedAt } }
  unrecognized : ∀ result values, LastSet p lib ops result values →
    (evaluations values).find? (hashing.djb2 p name) = none →
      answer =
        { evaluation := none
          details :=
            { reason := getValueSourceString result.source ++ str ":Unrecognized"
              lcut := values.time
              receivedAt := result.receivedAt } }
  loading : NothingSet p lib ops → ResetOpen ops →
    answer =
      { evaluation := none
        details := { reason := str "Loading:Unrecognized", lcut := 0, receivedAt := 0 } }
  idle : NothingSet p lib ops → ¬ ResetOpen ops →
    answer =
      { evaluation := none
        details :=
          { reason := if .finalize ∈ ops then str "NoValues" else str "Uninitialized"
            lcut := 0
            receivedAt := 0 } }

/-- The store does what it is for. -/
structure Refines (ops : List StoreOp) : Prop where
  gate : ∀ name, Specified p lib ops InitializeResponse.featureGates name
    ((EvaluationStore.run p lib ops).getGate p name)
  config : ∀ name, Specified p lib ops InitializeResponse.dynamicConfigs name
    ((EvaluationStore.run p lib ops).getConfig p name)
  layer : ∀ name, Specified p lib ops InitializeResponse.layerConfigs name
    ((EvaluationStore.run p lib ops).getLayer p name)
  unparsed : ∀ result, EvaluationStore.broughtBy p lib result = none →
    EvaluationStore.run p lib (ops ++ [.setValues result]) = EvaluationStore.run p lib ops

section Lookups

variable {p lib} {ops : List StoreOp}

theorem lookup_repr_empty {α : Type} (evaluations : InitializeResponse → UnorderedMap Str α)
    (reason : NoValuesYet) (name : Str) :
    (StoreContents.empty reason).repr.lookup p evaluations name =
      { evaluation := none
        details :=
          { reason := match reason with
              | .uninitialized => str "Uninitialized"
              | .loading => str "Loading:Unrecognized"
              | .noValues => str "NoValues"
            lcut := 0
            receivedAt := 0 } } := by
  cases reason with
  | uninitialized => rfl
  | loading =>
    have hreason : getValueSourceString .loading ++ str ":Unrecognized" =
        str "Loading:Unrecognized" := by decide
    rw [← hreason]
    rfl
  | noValues => rfl

theorem specified_lookup {α : Type} (evaluations : InitializeResponse → UnorderedMap Str α)
    (hsources : ∀ result, .setValues (some result) ∈ ops → result.source ∈ resultSources)
    (name : Str) :
    Specified p lib ops evaluations name
      ((EvaluationStore.run p lib ops).lookup p evaluations name) where
  recognized result values evaluation hset hfind := by
    rw [StoreContents.run_eq_repr, (after_eq_loaded_iff ops).mpr hset]
    simp [StoreContents.repr, EvaluationStore.lookup, EvaluationStore.load, hfind,
      recognizedFromSourceInfo]
  unrecognized result values hset hfind := by
    have hsource : result.source ∈ resultSources := by
      obtain ⟨before, later, rfl, -⟩ := hset
      exact hsources result (by simp)
    have hnot : ¬ (result.source = .uninitialized ∨ result.source = .noValues) := by
      rintro (h | h) <;> rw [h] at hsource <;> exact absurd hsource (by decide)
    rw [StoreContents.run_eq_repr, (after_eq_loaded_iff ops).mpr hset]
    simp [StoreContents.repr, EvaluationStore.lookup, EvaluationStore.load, hfind,
      unrecognizedFromSourceInfo, hnot]
  loading hnothing hopen := by
    rw [StoreContents.run_eq_repr, after_eq_empty hnothing,
      (emptyReason_eq_loading_iff ops).mpr hopen, lookup_repr_empty]
  idle hnothing hclosed := by
    rw [StoreContents.run_eq_repr, after_eq_empty hnothing, emptyReason_of_not_resetOpen hclosed,
      lookup_repr_empty]
    by_cases hfinalize : .finalize ∈ ops
    · simp [hfinalize]
    · simp [hfinalize]

/-- An update that finds a cached payload, and gets nothing from the network. -/
def cachedOnly : List StoreOp :=
  [.reset, .setValues (some { source := .cache, data := initializeResponse.emptyText 1,
                              receivedAt := 5, fullUserHash := [] }), .setValues none, .finalize]

end Lookups

end Statsig
