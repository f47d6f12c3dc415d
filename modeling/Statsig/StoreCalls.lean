import Statsig.EvaluationStore
import Statsig.Lib.Linearizable

/-!
# Calls of the evaluation store from many threads

The methods of `EvaluationStore`, each broken up into what it reads and writes under `rw_lock_`.
Any number of calls read at a time; a call that writes is alone.

`storeCalls_linearizable` says that the calls come to the methods of `EvaluationStore` taken one
after the other, with what they return: a lookup never mixes the values of one payload with the
details of another.
-/

set_option autoImplicit false

namespace Statsig

open Concurrent

/-! ## The code -/

/-- What the calls share. -/
structure StoreShared where
  store : EvaluationStore := {}
  writer : Option ℕ := none
  readers : List ℕ := []
  deriving DecidableEq, Repr

/-- The map that a lookup looks into. -/
inductive LookupKind where
  | gate
  | config
  | layer
  deriving DecidableEq, Repr

inductive StoreCall where
  | reset
  | finalize
  | setValues (result : Option DataAdapterResult)
  | getSourceDetails
  | lookup (kind : LookupKind) (name : Str)
  deriving DecidableEq, Repr

/-- An evaluation that was found. -/
inductive Found where
  | gate (evaluation : GateEvaluation)
  | config (evaluation : ConfigEvaluation)
  | layer (evaluation : LayerEvaluation)
  deriving DecidableEq, Repr

inductive StoreResult where
  | done
  | code (code : StatsigResultCode)
  | details (details : EvaluationDetails)
  | gate (gate : DetailedEvaluation GateEvaluation)
  | config (config : DetailedEvaluation ConfigEvaluation)
  | layer (layer : DetailedEvaluation LayerEvaluation)
  deriving DecidableEq, Repr

namespace LookupKind

/-- `MapContains` -/
def contains (values : InitializeResponse) (hash : Str) : LookupKind → Bool
  | gate => (values.featureGates.find? hash).isSome
  | config => (values.dynamicConfigs.find? hash).isSome
  | layer => (values.layerConfigs.find? hash).isSome

/-- `operator[]` of the map, which adds a value where there is none. -/
def subscript (values : InitializeResponse) (hash : Str) : LookupKind → InitializeResponse × Found
  | gate =>
    match values.featureGates.find? hash with
    | some evaluation => (values, .gate evaluation)
    | none =>
      ({ values with featureGates := values.featureGates.emplace (Rehash.id _ _) hash {} },
        .gate {})
  | config =>
    match values.dynamicConfigs.find? hash with
    | some evaluation => (values, .config evaluation)
    | none =>
      ({ values with dynamicConfigs := values.dynamicConfigs.emplace (Rehash.id _ _) hash {} },
        .config {})
  | layer =>
    match values.layerConfigs.find? hash with
    | some evaluation => (values, .layer evaluation)
    | none =>
      ({ values with layerConfigs := values.layerConfigs.emplace (Rehash.id _ _) hash {} },
        .layer {})

/-- What a lookup returns that has found nothing. -/
def unrecognized (details : EvaluationDetails) : LookupKind → StoreResult
  | gate => .gate { evaluation := none, details }
  | config => .config { evaluation := none, details }
  | layer => .layer { evaluation := none, details }

end LookupKind

/-- What a lookup returns that has found something. -/
def Found.recognized (details : EvaluationDetails) : Found → StoreResult
  | gate evaluation => .gate { evaluation := some evaluation, details }
  | config evaluation => .config { evaluation := some evaluation, details }
  | layer evaluation => .layer { evaluation := some evaluation, details }

/-- What a call does next. -/
inductive StorePc where
  /-- `SetValuesFromDataAdapterResult`: it looks whether there is a result. -/
  | testResult (result : Option DataAdapterResult)
  /-- It takes `rw_lock_`, to write. -/
  | lockReset
  | lockFinalize
  | lockSet (result : DataAdapterResult)
  | resetValues
  | resetSource
  | testValues
  | writeNoValues
  | parse (result : DataAdapterResult)
  | writeValues (result : DataAdapterResult) (parsed : InitializeResponse)
  | writeSource (result : DataAdapterResult)
  | writeReceivedAt (result : DataAdapterResult)
  | writeLcut (result : DataAdapterResult)
  | unlock (result : StoreResult)
  /-- It takes `rw_lock_`, to read. -/
  | lockDetails
  | lockLookup (kind : LookupKind) (name : Str)
  | readSource
  | readLcut (reason : Str)
  | readReceivedAt (reason : Str) (lcut : Int64)
  | testContains (kind : LookupKind) (name : Str)
  | unrecognized (kind : LookupKind) (name : Str)
  | subscript (kind : LookupKind) (name : Str)
  | recognized (kind : LookupKind) (name : Str) (found : Found)
  | unlockShared (result : StoreResult)
  deriving DecidableEq, Repr

namespace StorePc

variable (p : Platform) (lib : JsonText)

def start : StoreCall → StorePc
  | .reset => lockReset
  | .finalize => lockFinalize
  | .setValues result => testResult result
  | .getSourceDetails => lockDetails
  | .lookup kind name => lockLookup kind name

/-- `lock` of the shared mutex, by the `i`-th call. -/
def lock (i : ℕ) (pc : StorePc) (s : StoreShared) :
    Option (StoreShared × Status StorePc StoreResult) :=
  if s.writer ≠ none ∨ s.readers ≠ [] then none else some ({ s with writer := some i }, .running pc)

/-- `lock_shared` -/
def lockShared (i : ℕ) (pc : StorePc) (s : StoreShared) :
    Option (StoreShared × Status StorePc StoreResult) :=
  if s.writer ≠ none then none else some ({ s with readers := i :: s.readers }, .running pc)

/-- One step of the `i`-th call. -/
def step (pc : StorePc) (i : ℕ) (s : StoreShared) :
    Option (StoreShared × Status StorePc StoreResult) :=
  match pc with
  | testResult none => some (s, .returned (.code .ok))
  | testResult (some result) => some (s, .running (lockSet result))
  | lockReset => lock i resetValues s
  | lockFinalize => lock i testValues s
  | lockSet result => lock i (parse result) s
  | resetValues => some ({ s with store.values := none }, .running resetSource)
  | resetSource =>
    some ({ s with store.sourceInfo := { source := .loading } }, .running (unlock .done))
  | testValues =>
    if s.store.values.isSome then some (s, .running (unlock .done))
    else some (s, .running writeNoValues)
  | writeNoValues =>
    some ({ s with store.sourceInfo := { source := .noValues } }, .running (unlock .done))
  | parse result =>
    match initializeResponse.decode p lib result.data with
    | none => some (s, .running (unlock (.code .jsonFailureInitializeResponse)))
    | some parsed => some (s, .running (writeValues result parsed))
  | writeValues result parsed =>
    some ({ s with store.values := some parsed }, .running (writeSource result))
  | writeSource result =>
    some ({ s with store.sourceInfo.source := result.source }, .running (writeReceivedAt result))
  | writeReceivedAt result =>
    some ({ s with store.sourceInfo.receivedAt := result.receivedAt }, .running (writeLcut result))
  | writeLcut _ =>
    some ({ s with store.sourceInfo.lcut := (s.store.values.map InitializeResponse.time).getD 0 },
      .running (unlock (.code .ok)))
  | unlock result => some ({ s with writer := none }, .returned result)
  | lockDetails => lockShared i readSource s
  | lockLookup kind name => lockShared i (testContains kind name) s
  | readSource => some (s, .running (readLcut (getValueSourceString s.store.sourceInfo.source)))
  | readLcut reason => some (s, .running (readReceivedAt reason s.store.sourceInfo.lcut))
  | readReceivedAt reason lcut =>
    some (s, .running (unlockShared (.details
      { reason, lcut, receivedAt := s.store.sourceInfo.receivedAt })))
  | testContains kind name =>
    if (s.store.values.any fun values ↦ kind.contains values (hashing.djb2 p name)) then
      some (s, .running (subscript kind name))
    else some (s, .running (unrecognized kind name))
  | unrecognized kind _ =>
    some (s, .running (unlockShared
      (kind.unrecognized (unrecognizedFromSourceInfo s.store.sourceInfo))))
  | subscript kind name =>
    s.store.values.map fun values ↦
      ({ s with store.values := some (kind.subscript values (hashing.djb2 p name)).1 },
        .running (recognized kind name (kind.subscript values (hashing.djb2 p name)).2))
  | recognized _ _ found =>
    some (s, .running (unlockShared
      (found.recognized (recognizedFromSourceInfo s.store.sourceInfo))))
  | unlockShared result =>
    some ({ s with readers := s.readers.filter (· ≠ i) }, .returned result)

/-- It is between taking and releasing the lock to write. -/
def writes : StorePc → Bool
  | resetValues | resetSource | testValues | writeNoValues | parse _ | writeValues _ _
  | writeSource _ | writeReceivedAt _ | writeLcut _ | unlock _ => true
  | _ => false

/-- It is between taking and releasing the lock to read. -/
def reads : StorePc → Bool
  | readSource | readLcut _ | readReceivedAt _ _ | testContains _ _ | unrecognized _ _
  | subscript _ _ | recognized _ _ _ | unlockShared _ => true
  | _ => false

end StorePc

def storeCode (p : Platform) (lib : JsonText) :
    Code StoreShared StoreCall StorePc StoreResult Unit :=
  ⟨StorePc.start, fun i pc _ ↦ pc.step p lib i⟩

/-! ## What the calls come to -/

/-- A lookup as one step. -/
def EvaluationStore.lookupResult (p : Platform) (store : EvaluationStore) (name : Str) :
    LookupKind → StoreResult
  | .gate => .gate (store.getGate p name)
  | .config => .config (store.getConfig p name)
  | .layer => .layer (store.getLayer p name)

/-- The methods as a sequential specification. -/
def EvaluationStore.spec (p : Platform) (lib : JsonText) (store : EvaluationStore) :
    StoreCall → EvaluationStore × StoreResult
  | .reset => (store.reset, .done)
  | .finalize => (store.finalize, .done)
  | .setValues result =>
    ((store.setValuesFromDataAdapterResult p lib result).2,
      .code (store.setValuesFromDataAdapterResult p lib result).1)
  | .getSourceDetails => (store, .details store.getSourceDetails)
  | .lookup kind name => (store, store.lookupResult p name kind)

namespace StorePc

variable (p : Platform) (lib : JsonText)

/-- The step at which a call takes effect: the last one at which it reads or writes. -/
def point (pc : StorePc) (s : StoreShared) : Option StoreCall :=
  match pc with
  | testResult none => some (.setValues none)
  | resetSource => some .reset
  | testValues => if s.store.values.isSome then some .finalize else none
  | writeNoValues => some .finalize
  | parse result =>
    match initializeResponse.decode p lib result.data with
    | none => some (.setValues (some result))
    | some _ => none
  | writeLcut result => some (.setValues (some result))
  | readReceivedAt _ _ => some .getSourceDetails
  | unrecognized kind name | recognized kind name _ => some (.lookup kind name)
  | _ => none

/-- What it has got, if it has. -/
def outcome : StorePc → Option StoreResult
  | unlock result | unlockShared result => some result
  | _ => none

/-- The call, where it has not. -/
def callOf : StorePc → Option StoreCall
  | testResult result => some (.setValues result)
  | lockReset | resetValues | resetSource => some .reset
  | lockFinalize | testValues | writeNoValues => some .finalize
  | lockSet result | parse result | writeValues result _ | writeSource result
  | writeReceivedAt result | writeLcut result => some (.setValues (some result))
  | lockDetails | readSource | readLcut _ | readReceivedAt _ _ => some .getSourceDetails
  | lockLookup kind name | testContains kind name | unrecognized kind name | subscript kind name
  | recognized kind name _ => some (.lookup kind name)
  | unlock _ | unlockShared _ => none

end StorePc

/-! ### What the lock protects -/

namespace StoreShared

variable (p : Platform) (lib : JsonText)

def Free (s : StoreShared) (a : EvaluationStore) : Prop := s.store = a

/-- Some of the members that a result brings have been written. -/
def Loading (result : DataAdapterResult) (info : SourceInfo) (s : StoreShared) : Prop :=
  ∃ parsed, initializeResponse.decode p lib result.data = some parsed ∧
    s.store = { values := some parsed, sourceInfo := info }

/-- The store while the call that writes is at this place. -/
def Held : StorePc → StoreShared → EvaluationStore → Prop
  | .resetSource => fun s a ↦ s.store = { a with values := none }
  | .writeNoValues => fun s a ↦ s.store = a ∧ a.values = none
  | .writeValues result parsed => fun s a ↦
    s.store = a ∧ initializeResponse.decode p lib result.data = some parsed
  | .writeSource result => fun s a ↦ Loading p lib result a.sourceInfo s
  | .writeReceivedAt result => fun s a ↦
    Loading p lib result { a.sourceInfo with source := result.source } s
  | .writeLcut result => fun s a ↦ Loading p lib result
    { a.sourceInfo with source := result.source, receivedAt := result.receivedAt } s
  | _ => Free

/-- What a call that reads knows of the store at this place. -/
def Seen : StorePc → StoreShared → EvaluationStore → Prop
  | .readLcut reason => fun _ a ↦ reason = a.getSourceDetails.reason
  | .readReceivedAt reason lcut => fun _ a ↦
    reason = a.getSourceDetails.reason ∧ lcut = a.getSourceDetails.lcut
  | .unrecognized kind name => fun _ a ↦
    a.lookupResult p name kind = kind.unrecognized (unrecognizedFromSourceInfo a.sourceInfo)
  | .subscript kind name => fun _ a ↦
    ∃ values, a.values = some values ∧ kind.contains values (hashing.djb2 p name) = true
  | .recognized kind name found => fun _ a ↦
    a.lookupResult p name kind = found.recognized (recognizedFromSourceInfo a.sourceInfo)
  | _ => fun _ _ ↦ True

end StoreShared

/-! ### Lookups -/

/-- Nothing is found where the map does not contain the hash. -/
theorem lookupResult_of_not_contains {p : Platform} {a : EvaluationStore} {kind : LookupKind}
    {name : Str}
    (h : ¬ (a.values.any fun values ↦ kind.contains values (hashing.djb2 p name)) = true) :
    a.lookupResult p name kind = kind.unrecognized (unrecognizedFromSourceInfo a.sourceInfo) := by
  cases hvalues : a.values with
  | none =>
    cases kind <;> simp [EvaluationStore.lookupResult, EvaluationStore.getGate,
      EvaluationStore.getConfig, EvaluationStore.getLayer, EvaluationStore.lookup, hvalues,
      LookupKind.unrecognized]
  | some values =>
    rw [hvalues] at h
    cases kind <;> simp_all [EvaluationStore.lookupResult, EvaluationStore.getGate,
      EvaluationStore.getConfig, EvaluationStore.getLayer, EvaluationStore.lookup,
      LookupKind.unrecognized, LookupKind.contains]

/-- Where it does, `operator[]` adds nothing, and the lookup finds what it gives. -/
theorem subscript_of_contains {p : Platform} {a : EvaluationStore} {values : InitializeResponse}
    {kind : LookupKind} {name : Str} (hvalues : a.values = some values)
    (h : kind.contains values (hashing.djb2 p name) = true) :
    (kind.subscript values (hashing.djb2 p name)).1 = values ∧
      a.lookupResult p name kind =
        (kind.subscript values (hashing.djb2 p name)).2.recognized
          (recognizedFromSourceInfo a.sourceInfo) := by
  cases kind with
  | gate =>
    obtain ⟨evaluation, hevaluation⟩ := Option.isSome_iff_exists.mp h
    simp [LookupKind.subscript, hevaluation, EvaluationStore.lookupResult, EvaluationStore.getGate,
      EvaluationStore.lookup, hvalues, Found.recognized]
  | config =>
    obtain ⟨evaluation, hevaluation⟩ := Option.isSome_iff_exists.mp h
    simp [LookupKind.subscript, hevaluation, EvaluationStore.lookupResult,
      EvaluationStore.getConfig, EvaluationStore.lookup, hvalues, Found.recognized]
  | layer =>
    obtain ⟨evaluation, hevaluation⟩ := Option.isSome_iff_exists.mp h
    simp [LookupKind.subscript, hevaluation, EvaluationStore.lookupResult,
      EvaluationStore.getLayer, EvaluationStore.lookup, hvalues, Found.recognized]

/-! ### One step of a call -/

/-- What the steps do, each with the call that takes effect at it. -/
inductive StorePc.Step (p : Platform) (lib : JsonText) (i : ℕ) (s : StoreShared) :
    StorePc → StoreShared × Status StorePc StoreResult → Option StoreCall → Prop where
  | noResult : Step p lib i s (testResult none) (s, .returned (.code .ok)) (some (.setValues none))
  | result {result : DataAdapterResult} :
      Step p lib i s (testResult (some result)) (s, .running (lockSet result)) none
  | lockReset (hwriter : s.writer = none) (hreaders : s.readers = []) :
      Step p lib i s lockReset ({ s with writer := some i }, .running resetValues) none
  | lockFinalize (hwriter : s.writer = none) (hreaders : s.readers = []) :
      Step p lib i s lockFinalize ({ s with writer := some i }, .running testValues) none
  | lockSet {result : DataAdapterResult} (hwriter : s.writer = none) (hreaders : s.readers = []) :
      Step p lib i s (lockSet result) ({ s with writer := some i }, .running (parse result)) none
  | resetValues :
      Step p lib i s resetValues ({ s with store.values := none }, .running resetSource) none
  | resetSource :
      Step p lib i s resetSource
        ({ s with store.sourceInfo := { source := .loading } }, .running (unlock .done))
        (some .reset)
  | someValues (hvalues : s.store.values.isSome = true) :
      Step p lib i s testValues (s, .running (unlock .done)) (some .finalize)
  | noValues (hvalues : s.store.values = none) :
      Step p lib i s testValues (s, .running writeNoValues) none
  | writeNoValues :
      Step p lib i s writeNoValues
        ({ s with store.sourceInfo := { source := .noValues } }, .running (unlock .done))
        (some .finalize)
  | parseFails {result : DataAdapterResult}
      (hparse : initializeResponse.decode p lib result.data = none) :
      Step p lib i s (parse result)
        (s, .running (unlock (.code .jsonFailureInitializeResponse)))
        (some (.setValues (some result)))
  | parsed {result : DataAdapterResult} {parsed : InitializeResponse}
      (hparse : initializeResponse.decode p lib result.data = some parsed) :
      Step p lib i s (parse result) (s, .running (writeValues result parsed)) none
  | writeValues {result : DataAdapterResult} {parsed : InitializeResponse} :
      Step p lib i s (writeValues result parsed)
        ({ s with store.values := some parsed }, .running (writeSource result)) none
  | writeSource {result : DataAdapterResult} :
      Step p lib i s (writeSource result)
        ({ s with store.sourceInfo.source := result.source }, .running (writeReceivedAt result))
        none
  | writeReceivedAt {result : DataAdapterResult} :
      Step p lib i s (writeReceivedAt result)
        ({ s with store.sourceInfo.receivedAt := result.receivedAt },
          .running (writeLcut result)) none
  | writeLcut {result : DataAdapterResult} :
      Step p lib i s (writeLcut result)
        ({ s with store.sourceInfo.lcut :=
            (s.store.values.map InitializeResponse.time).getD 0 },
          .running (unlock (.code .ok))) (some (.setValues (some result)))
  | unlock {result : StoreResult} :
      Step p lib i s (unlock result) ({ s with writer := none }, .returned result) none
  | lockDetails (hwriter : s.writer = none) :
      Step p lib i s lockDetails ({ s with readers := i :: s.readers }, .running readSource) none
  | lockLookup {kind : LookupKind} {name : Str} (hwriter : s.writer = none) :
      Step p lib i s (lockLookup kind name)
        ({ s with readers := i :: s.readers }, .running (testContains kind name)) none
  | readSource :
      Step p lib i s readSource
        (s, .running (readLcut (getValueSourceString s.store.sourceInfo.source))) none
  | readLcut {reason : Str} :
      Step p lib i s (readLcut reason)
        (s, .running (readReceivedAt reason s.store.sourceInfo.lcut)) none
  | readReceivedAt {reason : Str} {lcut : Int64} :
      Step p lib i s (readReceivedAt reason lcut)
        (s, .running (unlockShared (.details
          { reason, lcut, receivedAt := s.store.sourceInfo.receivedAt })))
        (some .getSourceDetails)
  | contains {kind : LookupKind} {name : Str} {values : InitializeResponse}
      (hvalues : s.store.values = some values)
      (hcontains : kind.contains values (hashing.djb2 p name) = true) :
      Step p lib i s (testContains kind name) (s, .running (subscript kind name)) none
  | notContains {kind : LookupKind} {name : Str}
      (hcontains : ¬ (s.store.values.any fun values ↦
        kind.contains values (hashing.djb2 p name)) = true) :
      Step p lib i s (testContains kind name) (s, .running (unrecognized kind name)) none
  | unrecognized {kind : LookupKind} {name : Str} :
      Step p lib i s (unrecognized kind name)
        (s, .running (unlockShared
          (kind.unrecognized (unrecognizedFromSourceInfo s.store.sourceInfo))))
        (some (.lookup kind name))
  | subscript {kind : LookupKind} {name : Str} {values : InitializeResponse}
      (hvalues : s.store.values = some values) :
      Step p lib i s (subscript kind name)
        ({ s with store.values := some (kind.subscript values (hashing.djb2 p name)).1 },
          .running (recognized kind name (kind.subscript values (hashing.djb2 p name)).2)) none
  | recognized {kind : LookupKind} {name : Str} {found : Found} :
      Step p lib i s (recognized kind name found)
        (s, .running (unlockShared
          (found.recognized (recognizedFromSourceInfo s.store.sourceInfo))))
        (some (.lookup kind name))
  | unlockShared {result : StoreResult} :
      Step p lib i s (unlockShared result)
        ({ s with readers := s.readers.filter (· ≠ i) }, .returned result) none

section

variable {p : Platform} {lib : JsonText} {i : ℕ} {pc : StorePc} {s : StoreShared}
  {a : EvaluationStore} {next : StoreShared × Status StorePc StoreResult} {label : Option StoreCall}

open StoreShared

namespace StorePc

theorem of_lock {pc' : StorePc} (h : lock i pc' s = some next) :
    s.writer = none ∧ s.readers = [] ∧ ({ s with writer := some i }, .running pc') = next := by
  rw [lock] at h
  split at h
  · exact absurd h (by simp)
  · rename_i hfree
    obtain ⟨hwriter, hreaders⟩ := not_or.mp hfree
    exact ⟨not_not.mp hwriter, not_not.mp hreaders, Option.some_inj.mp h⟩

theorem of_lockShared {pc' : StorePc} (h : lockShared i pc' s = some next) :
    s.writer = none ∧ ({ s with readers := i :: s.readers }, .running pc') = next := by
  rw [lockShared] at h
  split at h
  · exact absurd h (by simp)
  · rename_i hwriter
    exact ⟨not_not.mp hwriter, Option.some_inj.mp h⟩

/-- **Nothing else happens.** -/
theorem Step.of_step (h : pc.step p lib i s = some next) :
    Step p lib i s pc next (pc.point p lib s) := by
  cases pc with
  | testResult result =>
    cases result <;> obtain rfl := Option.some_inj.mp h
    · exact .noResult
    · exact .result
  | lockReset =>
    obtain ⟨hwriter, hreaders, rfl⟩ := of_lock h
    exact .lockReset hwriter hreaders
  | lockFinalize =>
    obtain ⟨hwriter, hreaders, rfl⟩ := of_lock h
    exact .lockFinalize hwriter hreaders
  | lockSet result =>
    obtain ⟨hwriter, hreaders, rfl⟩ := of_lock h
    exact .lockSet hwriter hreaders
  | lockDetails =>
    obtain ⟨hwriter, rfl⟩ := of_lockShared h
    exact .lockDetails hwriter
  | lockLookup kind name =>
    obtain ⟨hwriter, rfl⟩ := of_lockShared h
    exact .lockLookup hwriter
  | testValues =>
    rw [step] at h
    split at h <;> rename_i hvalues <;> obtain rfl := Option.some_inj.mp h
    · rw [point, if_pos hvalues]
      exact .someValues hvalues
    · rw [point, if_neg hvalues]
      exact .noValues (by simpa using hvalues)
  | parse result =>
    rw [step] at h
    cases hparse : initializeResponse.decode p lib result.data with
    | none =>
      rw [hparse] at h
      obtain rfl := Option.some_inj.mp h
      rw [point, hparse]
      exact .parseFails hparse
    | some parsed =>
      rw [hparse] at h
      obtain rfl := Option.some_inj.mp h
      rw [point, hparse]
      exact .parsed hparse
  | testContains kind name =>
    rw [step] at h
    split at h <;> rename_i hcontains <;> obtain rfl := Option.some_inj.mp h
    · obtain ⟨values, hvalues, hcontains⟩ := (Option.any_eq_true _ _).mp hcontains
      exact .contains hvalues hcontains
    · exact .notContains hcontains
  | subscript kind name =>
    obtain ⟨values, hvalues, rfl⟩ := Option.map_eq_some_iff.mp h
    exact .subscript hvalues
  | _ =>
    obtain rfl := Option.some_inj.mp h
    constructor

theorem Step.writer (h : Step p lib i s pc next label) :
    LockMove i s.writer (writes pc) next.1.writer (holdsIn writes next.2) := by
  cases h with
  | lockReset hwriter _ | lockFinalize hwriter _ | lockSet hwriter _ => exact hwriter ▸ .acquire
  | unlock => exact .release _
  | _ => exact .keep ..

/-! ### The data -/

/-- What has become of the store after a step of a call. -/
def after (p : Platform) (lib : JsonText) (a : EvaluationStore) :
    Option StoreCall → EvaluationStore
  | none => a
  | some label => (a.spec p lib label).1

theorem Step.held (h : Step p lib i s pc next label)
    (hmine : writes pc = true ∨ holdsIn writes next.2 = true)
    (hfree : s.writer = none → Free s a) (hheld : writes pc = true → Held p lib pc s a) :
    guardIn writes Free (Held p lib) next.2 next.1 (after p lib a label) := by
  cases h with
  | lockReset hwriter _ | lockFinalize hwriter _ | lockSet hwriter _ => exact hfree hwriter
  | resetValues =>
    obtain rfl : s.store = a := hheld rfl
    rfl
  | resetSource =>
    have hstore : s.store = { a with values := none } := hheld rfl
    show { s.store with sourceInfo := { source := .loading } } = a.reset
    rw [hstore, EvaluationStore.reset]
  | someValues hvalues =>
    obtain rfl : s.store = a := hheld rfl
    exact (EvaluationStore.finalize_of_isSome hvalues).symm
  | noValues hvalues =>
    obtain rfl : s.store = a := hheld rfl
    exact ⟨rfl, hvalues⟩
  | writeNoValues =>
    obtain ⟨rfl, hvalues⟩ := hheld rfl
    exact (EvaluationStore.finalize_of_none hvalues).symm
  | parseFails hparse =>
    obtain rfl : s.store = a := hheld rfl
    exact (EvaluationStore.setValues_of_decode_none p lib hparse s.store).symm
  | parsed hparse =>
    obtain rfl : s.store = a := hheld rfl
    exact ⟨rfl, hparse⟩
  | @writeValues result parsed =>
    obtain ⟨rfl, hparse⟩ := hheld rfl
    exact ⟨parsed, hparse, rfl⟩
  | writeSource | writeReceivedAt =>
    obtain ⟨parsed, hparse, hstore⟩ := hheld rfl
    exact ⟨parsed, hparse, by simp [hstore, after]⟩
  | @writeLcut result =>
    obtain ⟨parsed, hparse, hstore⟩ := hheld rfl
    show _ = a.setValues p lib (some result)
    rw [EvaluationStore.setValues_some p lib hparse a]
    simp [hstore, EvaluationStore.load]
  | unlock => exact hheld rfl
  | _ => exact absurd hmine (by simp [writes, holdsIn])

/-- It does not read, and begins to write only where nobody reads. -/
theorem Step.readers_of_writes (h : Step p lib i s pc next label)
    (hmine : writes pc = true ∨ holdsIn writes next.2 = true) :
    (writes pc = true ∨ (s.readers = [] ∧ holdsIn writes next.2 = true)) ∧
      holdsIn reads next.2 = false ∧ next.1.readers = s.readers := by
  cases h with
  | lockReset _ hreaders | lockFinalize _ hreaders | lockSet _ hreaders =>
    exact ⟨.inr ⟨hreaders, rfl⟩, rfl, rfl⟩
  | resetValues | resetSource | someValues _ | noValues _ | writeNoValues | parseFails _ | parsed _
  | writeValues | writeSource | writeReceivedAt | writeLcut | unlock => exact ⟨.inl rfl, rfl, rfl⟩
  | _ => exact absurd hmine (by simp [writes, holdsIn])

/-- What a step of a call does that does not write. -/
structure Reads (p : Platform) (lib : JsonText) (i : ℕ) (s : StoreShared) (a : EvaluationStore)
    (next : StoreShared × Status StorePc StoreResult) (label : Option StoreCall) : Prop where
  store : next.1.store = s.store
  writer : next.1.writer = s.writer
  after : after p lib a label = a
  readers : ∀ j, j ∈ next.1.readers ↔
    (j = i ∧ holdsIn reads next.2 = true) ∨ (j ≠ i ∧ j ∈ s.readers)
  exclusive : s.writer ≠ none → holdsIn reads next.2 = false
  seen : ∀ {pc'}, next.2 = .running pc' → reads pc' = true → Seen p pc' next.1 a

theorem Step.reads (h : Step p lib i s pc next label) (hpc : writes pc = false)
    (hnext : holdsIn writes next.2 = false) (hreading : i ∈ s.readers ↔ reads pc = true)
    (hfree : StorePc.reads pc = true → s.writer = none ∧ Free s a)
    (hseen : StorePc.reads pc = true → Seen p pc s a) : Reads p lib i s a next label := by
  -- The readers stay the same where the call goes on reading, or does not read at all.
  have hsame : ∀ {b : Bool}, StorePc.reads pc = b → ∀ j, j ∈ s.readers ↔
      (j = i ∧ b = true) ∨ (j ≠ i ∧ j ∈ s.readers) := by
    rintro b rfl j
    by_cases hji : j = i
    · subst hji
      simpa using hreading
    · simp [hji]
  have hnew : ∀ j, j ∈ i :: s.readers ↔ (j = i ∧ true = true) ∨ (j ≠ i ∧ j ∈ s.readers) := by
    intro j
    by_cases hji : j = i <;> simp [hji]
  cases h with
  | noResult => exact ⟨rfl, rfl, rfl, hsame rfl, fun _ ↦ rfl, fun h ↦ absurd h (by simp)⟩
  | result =>
    refine ⟨rfl, rfl, rfl, hsame rfl, fun _ ↦ rfl, fun h hreads ↦ ?_⟩
    obtain rfl := Status.running.inj h
    exact absurd hreads (by simp [StorePc.reads])
  | lockDetails hwriter | lockLookup hwriter =>
    refine ⟨rfl, rfl, rfl, hnew, fun h ↦ absurd hwriter h, fun h _ ↦ ?_⟩
    obtain rfl := Status.running.inj h
    trivial
  | readSource =>
    obtain ⟨hwriter, rfl⟩ := hfree rfl
    refine ⟨rfl, rfl, rfl, hsame rfl, fun h ↦ absurd hwriter h, fun h _ ↦ ?_⟩
    obtain rfl := Status.running.inj h
    rfl
  | readLcut =>
    obtain ⟨hwriter, rfl⟩ := hfree rfl
    refine ⟨rfl, rfl, rfl, hsame rfl, fun h ↦ absurd hwriter h, fun h _ ↦ ?_⟩
    obtain rfl := Status.running.inj h
    exact ⟨hseen rfl, rfl⟩
  | contains hvalues hcontains =>
    obtain ⟨hwriter, rfl⟩ := hfree rfl
    refine ⟨rfl, rfl, rfl, hsame rfl, fun h ↦ absurd hwriter h, fun h _ ↦ ?_⟩
    obtain rfl := Status.running.inj h
    exact ⟨_, hvalues, hcontains⟩
  | notContains hcontains =>
    obtain ⟨hwriter, rfl⟩ := hfree rfl
    refine ⟨rfl, rfl, rfl, hsame rfl, fun h ↦ absurd hwriter h, fun h _ ↦ ?_⟩
    obtain rfl := Status.running.inj h
    exact lookupResult_of_not_contains hcontains
  | @subscript kind name values hvalues =>
    obtain ⟨hwriter, rfl⟩ := hfree rfl
    obtain ⟨values', hvalues', hcontains⟩ := hseen rfl
    obtain rfl : values = values' := Option.some_inj.mp (hvalues.symm.trans hvalues')
    obtain ⟨hsubscript, hresult⟩ := subscript_of_contains hvalues hcontains
    refine ⟨?_, rfl, rfl, hsame rfl, fun h ↦ absurd hwriter h, fun h _ ↦ ?_⟩
    · simp only [hsubscript, ← hvalues]
    · obtain rfl := Status.running.inj h
      exact hresult
  | readReceivedAt | unrecognized | recognized =>
    obtain ⟨hwriter, rfl⟩ := hfree rfl
    refine ⟨rfl, rfl, rfl, hsame rfl, fun h ↦ absurd hwriter h, fun h _ ↦ ?_⟩
    obtain rfl := Status.running.inj h
    trivial
  | unlockShared =>
    refine ⟨rfl, rfl, rfl, fun j ↦ ?_, fun _ ↦ rfl, fun h ↦ absurd h (by simp)⟩
    simp [holdsIn, and_comm]
  | lockReset _ _ | lockFinalize _ _ | lockSet _ _ => exact absurd hnext (by simp [writes, holdsIn])
  | _ => exact absurd hpc (by simp [writes])

/-! ### The calls themselves -/

theorem Step.outcome_quiet (h : Step p lib i s pc next none) :
    outcomeIn outcome next.2 = pc.outcome := by
  cases h <;> rfl

/-- **What a call gets** when it takes effect is what the method returns. -/
theorem Step.outcome_effect {label : StoreCall} (h : Step p lib i s pc next (some label))
    (hheld : writes pc = true → Held p lib pc s a)
    (hfree : StorePc.reads pc = true → Free s a) (hseen : StorePc.reads pc = true → Seen p pc s a) :
    pc.outcome = none ∧ pc.callOf = some label ∧
      outcomeIn outcome next.2 = some (a.spec p lib label).2 := by
  cases h with
  | noResult | resetSource | someValues _ | writeNoValues => exact ⟨rfl, rfl, rfl⟩
  | parseFails hparse =>
    refine ⟨rfl, rfl, ?_⟩
    simp [outcomeIn, outcome, EvaluationStore.spec,
      EvaluationStore.setValuesFromDataAdapterResult, hparse]
  | writeLcut =>
    obtain ⟨parsed, hparse, -⟩ := hheld rfl
    refine ⟨rfl, rfl, ?_⟩
    simp [outcomeIn, outcome, EvaluationStore.spec,
      EvaluationStore.setValuesFromDataAdapterResult, hparse]
  | readReceivedAt =>
    obtain rfl : s.store = a := hfree rfl
    obtain ⟨rfl, rfl⟩ := hseen rfl
    exact ⟨rfl, rfl, rfl⟩
  | unrecognized | recognized =>
    obtain rfl : s.store = a := hfree rfl
    exact ⟨rfl, rfl, congrArg some (hseen rfl).symm⟩

theorem Step.callOf (h : Step p lib i s pc next label) (pc' : StorePc) (op : StoreCall)
    (hnext : next.2 = .running pc') (hop : pc'.callOf = some op) : pc.callOf = some op := by
  cases h with
  | noResult | unlock | unlockShared => exact absurd hnext (by simp)
  | resetSource | someValues _ | writeNoValues | parseFails _ | writeLcut | readReceivedAt
  | unrecognized | recognized =>
    obtain rfl := Status.running.inj hnext
    exact absurd hop (by simp [StorePc.callOf])
  | _ =>
    obtain rfl := Status.running.inj hnext
    exact hop

end StorePc

end

/-! ## All calls -/

section

variable (p : Platform) (lib : JsonText)

/-- The calls that are in progress, beside the store of the specification. -/
structure StoreRel (s : System StoreShared StoreCall StorePc StoreResult) (a : EvaluationStore) :
    Prop where
  store : SharedGuarded StoreShared.writer StoreShared.readers StorePc.writes StorePc.reads
    StoreShared.Free (StoreShared.Held p lib) (StoreShared.Seen p) s a
  called : Called StorePc.callOf s

namespace StoreRel

variable {p lib} {s : System StoreShared StoreCall StorePc StoreResult} {a : EvaluationStore}
  {i : ℕ} {call : Call StoreCall StorePc StoreResult} {pc : StorePc}
  {next : StoreShared × Status StorePc StoreResult}

theorem init : StoreRel p lib { shared := {} } {} := ⟨.init rfl rfl rfl, .init _⟩

theorem invoke (h : StoreRel p lib s a) (op : StoreCall) :
    StoreRel p lib (s.invoke (storeCode p lib) op) a := by
  have hstart : (StorePc.start op).writes = false ∧ (StorePc.start op).reads = false ∧
      (StorePc.start op).callOf = some op := by
    cases op <;> exact ⟨rfl, rfl, rfl⟩
  exact ⟨h.store.invoke hstart.1 hstart.2.1, h.called.invoke hstart.2.2⟩

/-- While a call reads, the store is what it is in the specification. -/
theorem free (h : StoreRel p lib s a) (hat : s.At i pc) (hreads : pc.reads = true) :
    s.shared.writer = none ∧ s.shared.store = a := by
  refine ⟨?_, h.store.free_of_reads hat hreads⟩
  by_contra hne
  have hmem := (h.store.reading i).mpr ⟨pc, hat, hreads⟩
  rw [h.store.exclusive hne] at hmem
  exact absurd hmem List.not_mem_nil

/-- **One step of a call**, and the method that goes with it. -/
theorem set (h : StoreRel p lib s a) (hcall : s.calls[i]? = some call)
    (hpc : call.status = .running pc) (hnext : pc.step p lib i s.shared = some next) :
    StoreRel p lib (s.set i call next) (StorePc.after p lib a (pc.point p lib s.shared)) := by
  have hstep := StorePc.Step.of_step hnext
  have hat : s.At i pc := ⟨call, hcall, hpc⟩
  refine ⟨?_, h.called.set hcall hpc hstep.callOf⟩
  by_cases hmine : pc.writes = true ∨ holdsIn StorePc.writes next.2 = true
  · obtain ⟨hwrites, hafter, hreaders⟩ := hstep.readers_of_writes hmine
    exact h.store.write hcall hpc hstep.writer hwrites hafter hreaders
      (hstep.held hmine h.store.writing.whenFree (h.store.writing.whenHeld hat))
  · obtain ⟨hbefore, hafter⟩ : pc.writes = false ∧ holdsIn StorePc.writes next.2 = false := by
      simpa using hmine
    have hreading : i ∈ s.shared.readers ↔ pc.reads = true :=
      (h.store.reading i).trans hat.holds_iff
    obtain ⟨hstore, hwriter, ha, hreaders, hexclusive, hseen⟩ :=
      hstep.reads hbefore hafter hreading (h.free hat) (h.store.whenSeen hat)
    rw [ha]
    refine h.store.read hcall hpc hbefore hafter hwriter hreaders hexclusive hstore.trans ?_ ?_
      hseen
    · intro pc' hheld
      cases pc' <;> simp only [StoreShared.Held, StoreShared.Free, StoreShared.Loading, hstore]
        at hheld ⊢ <;> exact hheld
    · intro pc' hseen
      cases pc' <;> exact hseen

end StoreRel

theorem storeSimulation : Simulation (storeCode p lib) (EvaluationStore.spec p lib) id
    (fun pc _ s ↦ pc.point p lib s) StorePc.outcome (StoreRel p lib) where
  start op := by cases op <;> rfl
  invoke h := h.invoke _
  quiet h hcall hpc hnext hpoint := by
    have hset := h.set hcall hpc hnext
    rw [hpoint] at hset
    exact ⟨(hpoint ▸ StorePc.Step.of_step hnext).outcome_quiet, hset⟩
  effect h hcall hpc hnext hpoint := by
    have hset := h.set hcall hpc hnext
    rw [hpoint] at hset
    obtain ⟨hnone, hcallOf, hsome⟩ := (hpoint ▸ StorePc.Step.of_step hnext).outcome_effect
      (h.store.writing.whenHeld ⟨_, hcall, hpc⟩) (fun hreads ↦ (h.free ⟨_, hcall, hpc⟩ hreads).2)
      (h.store.whenSeen ⟨_, hcall, hpc⟩)
    exact ⟨hnone, (h.called _ _ _ _ hcall hpc hcallOf).symm, hsome, hset⟩

/-- **The methods are atomic**: whatever the threads do, there is an order of the calls, in which a
call that has returned before another was made comes first, such that every call has returned what
the method returns when the calls are made one after the other in this order; and as soon as no
call is in progress, the store is what they lead to. -/
theorem storeCalls_linearizable (labels : List (Label StoreCall Unit))
    {s : System StoreShared StoreCall StorePc StoreResult}
    (hrun : Machine.run (step (storeCode p lib)) { shared := {} } labels = some s) :
    ∃ order a, Linearization (EvaluationStore.spec p lib) id {} order s a ∧
      (s.Quiet → s.shared.store = a) := by
  obtain ⟨order, a, hrel, hlinear⟩ := (storeSimulation p lib).linearization .init hrun
  exact ⟨order, a, hlinear, hrel.store.writing.of_quiet⟩

/-- A lookup begins while an update has written the values of a payload, and not where they are
from; it has to wait. -/
def updateAndLookup : List (Label StoreCall Unit) :=
  [.invoke (.setValues (some { source := .cache, data := initializeResponse.emptyText 1,
                               receivedAt := 5, fullUserHash := [] })),
    .invoke (.lookup .gate (str "gate")), .step 0 (), .step 0 (), .step 0 (), .step 0 ()]

/-- It finds what the update has written. -/
theorem storeCalls_linearizable_updateAndLookup :
    ∃ s, Machine.run (step (storeCode .linux initializeResponse.twoTexts)) { shared := {} }
        (updateAndLookup ++ [.step 0 (), .step 0 (), .step 0 (), .step 0 (), .step 1 (),
          .step 1 (), .step 1 (), .step 1 ()]) = some s ∧
      ∃ order a, Linearization (EvaluationStore.spec .linux initializeResponse.twoTexts) id {}
        order s a := by
  obtain ⟨s, hs⟩ := Option.isSome_iff_exists.mp (show (Machine.run
    (step (storeCode .linux initializeResponse.twoTexts)) { shared := {} }
    (updateAndLookup ++ [.step 0 (), .step 0 (), .step 0 (), .step 0 (), .step 1 (),
      .step 1 (), .step 1 (), .step 1 ()])).isSome = true by decide +kernel)
  obtain ⟨order, a, hlinear, -⟩ := storeCalls_linearizable .linux initializeResponse.twoTexts _ hs
  exact ⟨s, hs, order, a, hlinear⟩

/-! ## Every call returns -/

namespace StorePc

/-- What is left to do at most. -/
def fuel : StorePc → ℕ
  | testResult _ => 7
  | lockSet _ => 6
  | parse _ => 5
  | writeValues _ _ | lockDetails | lockLookup _ _ => 4
  | writeSource _ | lockReset | lockFinalize | readSource | testContains _ _ => 3
  | writeReceivedAt _ | resetValues | testValues | readLcut _ | subscript _ _ => 2
  | writeLcut _ | resetSource | writeNoValues | readReceivedAt _ _ | unrecognized _ _
  | recognized _ _ _ => 1
  | unlock _ | unlockShared _ => 0

/-- Whether the lock is held, in either way. -/
def level (pc : StorePc) : ℕ := if pc.writes || pc.reads then 1 else 0

theorem level_le (pc : StorePc) : pc.level ≤ 1 := by
  rw [level]
  split <;> omega

theorem Step.fuel_le {p : Platform} {lib : JsonText} {i : ℕ} {pc : StorePc} {s : StoreShared}
    {next : StoreShared × Status StorePc StoreResult} {label : Option StoreCall}
    (h : Step p lib i s pc next label) : fuelIn fuel next.2 ≤ pc.fuel := by
  cases h <;> simp [fuelIn, fuel]

/-- **What a call can wait for**: the lock. -/
theorem enabled_or_waits (p : Platform) (lib : JsonText) (pc : StorePc) (i : ℕ) (s : StoreShared)
    (hvalues : ∀ kind name, pc = subscript kind name → s.store.values ≠ none) :
    pc.step p lib i s ≠ none ∨ ((s.writer ≠ none ∨ s.readers ≠ []) ∧ pc.level = 0) := by
  cases pc with
  | lockReset | lockFinalize | lockSet _ =>
    by_cases hlock : s.writer ≠ none ∨ s.readers ≠ []
    · exact .inr ⟨hlock, rfl⟩
    · exact .inl (by simp only [step, lock, if_neg hlock]; simp)
  | lockDetails | lockLookup _ _ =>
    by_cases hlock : s.writer ≠ none
    · exact .inr ⟨.inl hlock, rfl⟩
    · exact .inl (by simp only [step, lockShared, if_neg hlock]; simp)
  | testResult result => cases result <;> exact .inl (by simp [step])
  | testValues | testContains _ _ =>
    refine .inl ?_
    rw [step]
    split <;> simp
  | parse result =>
    refine .inl ?_
    rw [step]
    split <;> simp
  | subscript kind name =>
    obtain ⟨values, hsome⟩ := Option.ne_none_iff_exists'.mp (hvalues kind name rfl)
    exact .inl (by simp [step, hsome])
  | _ => exact .inl (by simp [step])

end StorePc

theorem storeReturns :
    AlwaysReturns (storeCode p lib) StorePc.fuel (fun s ↦ ∃ a, StoreRel p lib s a) where
  decreases h := (StorePc.Step.of_step h).fuel_le
  keeps := by
    rintro s t label ⟨a, h⟩ hstep
    cases label with
    | invoke op =>
      obtain rfl := Option.some_inj.mp hstep
      exact ⟨a, h.invoke op⟩
    | step i e =>
      obtain ⟨call, pc, next, hcall, hpc, hnext, rfl⟩ := step_eq_some_iff.mp hstep
      exact ⟨_, h.set hcall hpc hnext⟩
  moves := by
    rintro s i pc ⟨a, h⟩ hat
    refine exists_enabled StorePc.level_le (fun i pc hat ↦ ?_) hat
    have hvalues : ∀ kind name, pc = .subscript kind name → s.shared.store.values ≠ none := by
      rintro kind name rfl hnone
      obtain ⟨values, hvalues, -⟩ := h.store.whenSeen hat rfl
      obtain ⟨-, hstore⟩ := h.free hat rfl
      rw [hstore, hvalues] at hnone
      exact absurd hnone (by simp)
    obtain hstep | ⟨hwriter | hreaders, hlevel⟩ := pc.enabled_or_waits p lib i s.shared hvalues
    · exact .inl (hat.enabled (e := ()) hstep)
    · obtain ⟨j, hj⟩ := Option.ne_none_iff_exists'.mp hwriter
      obtain ⟨pc', hat', hpc'⟩ := (h.store.writing.heldBy j).mp hj
      refine .inr ⟨j, pc', hat', ?_⟩
      rw [hlevel, StorePc.level, hpc']
      simp
    · obtain ⟨j, hj⟩ := List.exists_mem_of_ne_nil _ hreaders
      obtain ⟨pc', hat', hpc'⟩ := (h.store.reading j).mp hj
      refine .inr ⟨j, pc', hat', ?_⟩
      rw [hlevel, StorePc.level, hpc']
      simp

/-- **No call is ever stuck**: from any state that the threads can reach, the calls in progress take
no more than eight steps each, in whatever order they are scheduled, and a schedule only ends when
all of them have returned. -/
theorem storeCalls_return (labels : List (Label StoreCall Unit))
    {s t : System StoreShared StoreCall StorePc StoreResult}
    (hrun : Machine.run (step (storeCode p lib)) { shared := {} } labels = some s)
    (steps : List (ℕ × Unit))
    (hsteps : Machine.run (step (storeCode p lib)) s (AlwaysReturns.schedule steps) = some t) :
    steps.length ≤ 8 * s.inProgress.length ∧
      ((∀ i, ¬ t.Enabled (storeCode p lib) i) → t.Quiet) := by
  have hs : ∃ a, StoreRel p lib s a :=
    Machine.invariant_of_run (storeReturns p lib).keeps ⟨_, .init⟩ hrun
  obtain ⟨hlength, hquiet⟩ := (storeReturns p lib).returns hs hsteps
  refine ⟨hlength.trans (remaining_le (fun pc ↦ ?_) s), hquiet⟩
  cases pc <;> simp [StorePc.fuel]

/-- The lookup goes on as soon as the update has released the lock. -/
theorem storeCalls_return_updateAndLookup :
    ∃ s t, Machine.run (step (storeCode .linux initializeResponse.twoTexts)) { shared := {} }
        updateAndLookup = some s ∧
      Machine.run (step (storeCode .linux initializeResponse.twoTexts)) s
        (AlwaysReturns.schedule [(0, ()), (0, ()), (0, ()), (0, ()), (1, ())]) = some t ∧
      ((∀ i, ¬ t.Enabled (storeCode .linux initializeResponse.twoTexts) i) → t.Quiet) := by
  obtain ⟨t, ht⟩ := Option.isSome_iff_exists.mp (show (Machine.run
    (step (storeCode .linux initializeResponse.twoTexts)) { shared := {} } (updateAndLookup ++
      AlwaysReturns.schedule [(0, ()), (0, ()), (0, ()), (0, ()), (1, ())])).isSome = true by
        decide +kernel)
  obtain ⟨s, hs, hst⟩ := Machine.run_append_eq_some.mp ht
  exact ⟨s, t, hs, hst, (storeCalls_return .linux initializeResponse.twoTexts updateAndLookup hs
    [(0, ()), (0, ()), (0, ()), (0, ()), (1, ())] hst).2⟩

end

end Statsig
