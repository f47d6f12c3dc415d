import Statsig.EventLogger
import Statsig.Shareable

/-!
# Diagnostics of one session after the other

`Diagnostics` of a session are found in a registry by the sdk key.  The logger and the network
services take the instance when the session begins and keep it; the callback that `GetDataAsync`
hands to `FetchLatest` looks it up again when the fetch has ended.  `Shutdown` takes the entry out
of the registry, and then waits for the fetches.

A callback that comes after that finds no entry, and makes a new one: the next session begins with
it, and sends what is in it as its own.  `confined_of_run` says that nothing else goes from one
session to another.

Sessions do not overlap, so each call of `Get` is one step here.
-/

set_option autoImplicit false

namespace Statsig

/-! ## Markers with their session -/

/-- `Diagnostics`, with a record of the session in which each marker was recorded, if there was one
in progress. -/
structure DatedDiagnostics where
  diagnostics : Diagnostics := {}
  dates : List (Option ℕ) := []
  /-- There is a date for each marker. -/
  paired : dates.length = diagnostics.markers.length := by rfl
  deriving DecidableEq, Repr

namespace DatedDiagnostics

/-- `Mark` -/
def mark (d : DatedDiagnostics) (marker : Json) (date : Option ℕ) : DatedDiagnostics where
  diagnostics := d.diagnostics.mark marker
  dates := if constants.kMaxDiagnosticsMarkers < d.diagnostics.markers.length then d.dates
    else d.dates ++ [date]
  paired := by
    rw [Diagnostics.mark]
    split <;> simp [d.paired]

/-- `AppendEvent`, for what is left behind. -/
def appendEvent (d : DatedDiagnostics) (now : Int64) : DatedDiagnostics where
  diagnostics := (d.diagnostics.appendEvent now []).1
  dates := []

theorem mem_dates_mark {d : DatedDiagnostics} {marker : Json} {date date' : Option ℕ}
    (h : date' ∈ (d.mark marker date).dates) : date' ∈ d.dates ∨ date' = date := by
  rw [mark] at h
  dsimp only at h
  split at h
  · exact .inl h
  · simpa using h

end DatedDiagnostics

/-- A diagnostics event that a logger has put into a batch. -/
structure SentDiagnostics where
  session : ℕ
  event : StatsigEventInternal
  /-- The dates of the markers in it. -/
  dates : List (Option ℕ)
  deriving DecidableEq, Repr

/-! ## The machine -/

/-- How far `Shutdown` has come. -/
inductive SessionStage where
  | opened
  /-- The logger has shut down. -/
  | stopped
  /-- The entry has been removed. -/
  | removed
  deriving DecidableEq, Repr

/-- The session in progress, from the beginning of `Initialize` to the end of `Shutdown`. -/
structure OpenSession where
  /-- The instance that the logger and the network services hold. -/
  diagnostics : ℕ
  stage : SessionStage := .opened
  deriving DecidableEq, Repr

/-- A fetch in flight. -/
structure DiagnosticsFetch where
  /-- The instance that its network service holds. -/
  diagnostics : ℕ
  answered : Bool := false
  deriving DecidableEq, Repr

/-- Sessions with one sdk key. -/
structure Sessions where
  registry : Shareable ℕ := {}
  instances : List DatedDiagnostics := []
  /-- The number of sessions that have begun. -/
  begun : ℕ := 0
  current : Option OpenSession := none
  fetches : List DiagnosticsFetch := []
  sent : List SentDiagnostics := []

namespace Sessions

inductive Label where
  /-- `Initialize` -/
  | begin
  /-- A part of the session in progress records a marker. -/
  | mark (marker : Json)
  | fetch
  /-- The network service of a fetch records a marker. -/
  | fetchMark (i : ℕ) (marker : Json)
  /-- The callback of a fetch records a marker with the instance that it looks up. -/
  | lookup (i : ℕ) (marker : Json)
  | fetchDone (i : ℕ)
  | flush (now : Int64)
  /-- `Shutdown`: `EventLogger::Shutdown` -/
  | stopLogger (now : Int64)
  /-- `Shutdown`: `Diagnostics::Shutdown` -/
  | remove
  /-- `Shutdown` returns. -/
  | close
  deriving DecidableEq, Repr

variable (sdkKey : Str)

/-- What is recorded now is recorded in this session. -/
def date (s : Sessions) : Option ℕ := s.current.map fun _ ↦ s.begun

/-- `Diagnostics::Get` -/
def get (s : Sessions) : Sessions × ℕ :=
  match s.registry.get sdkKey with
  | some i => (s, i)
  | none =>
    ({ s with
        registry := s.registry.add sdkKey s.instances.length
        instances := s.instances ++ [{}] }, s.instances.length)

/-- `Mark` of an instance. -/
def markAt (s : Sessions) (i : ℕ) (marker : Json) : Sessions :=
  { s with instances := s.instances.modify i fun d ↦ d.mark marker s.date }

/-- `FlushImpl`, for the diagnostics of the session in progress. -/
def flush (s : Sessions) (i : ℕ) (now : Int64) : Sessions :=
  match s.instances[i]? with
  | none => s
  | some d =>
    { s with
      instances := s.instances.set i (d.appendEvent now)
      sent := s.sent ++ ((d.diagnostics.pendingEvent now).map fun event ↦
        { session := s.begun, event, dates := d.dates : SentDiagnostics }).toList }

/-- One step. -/
def step (s : Sessions) : Label → Option Sessions
  | .begin =>
    match s.current with
    | some _ => none
    | none => some { (s.get sdkKey).1 with
        begun := s.begun + 1, current := some { diagnostics := (s.get sdkKey).2 } }
  | .mark marker => s.current.map fun session ↦ s.markAt session.diagnostics marker
  | .fetch => s.current.map fun session ↦ { s with
      fetches := s.fetches ++ [{ diagnostics := session.diagnostics }] }
  | .fetchMark i marker => (s.fetches[i]?).map fun fetch ↦ s.markAt fetch.diagnostics marker
  | .lookup i marker =>
    match s.fetches[i]? with
    | none => none
    | some fetch =>
      if fetch.answered then none
      else some { (s.get sdkKey).1.markAt (s.get sdkKey).2 marker with
        fetches := s.fetches.set i { fetch with answered := true } }
  | .fetchDone i => (s.fetches[i]?).map fun _ ↦ { s with fetches := s.fetches.eraseIdx i }
  | .flush now => s.current.map fun session ↦ s.flush session.diagnostics now
  | .stopLogger now =>
    match s.current with
    | some ⟨i, .opened⟩ => some { s.flush i now with current := some ⟨i, .stopped⟩ }
    | _ => none
  | .remove =>
    match s.current with
    | some ⟨i, .stopped⟩ =>
      some { s with registry := s.registry.remove sdkKey, current := some ⟨i, .removed⟩ }
    | _ => none
  | .close =>
    match s.current with
    | some ⟨_, .removed⟩ => some { s with current := none }
    | _ => none

/-- What a session sends was recorded in it. -/
def Confined (s : Sessions) : Prop :=
  ∀ sent ∈ s.sent, ∀ date ∈ sent.dates, date = some sent.session

instance (s : Sessions) : Decidable s.Confined :=
  inferInstanceAs (Decidable (∀ sent ∈ s.sent, ∀ date ∈ sent.dates, date = some sent.session))

/-- The callback of a fetch looks the instance up while there is one: not between the removal and
the next session. -/
def LooksUpInSession (s : Sessions) : Label → Prop
  | .lookup _ _ => s.registry.get sdkKey ≠ none
  | _ => True

/-! ## One session -/

/-- What an instance holds has been recorded in the session in progress. -/
def Holds (s : Sessions) (i : ℕ) : Prop :=
  ∀ d, s.instances[i]? = some d → ∀ date ∈ d.dates, date = some s.begun

structure Inv (s : Sessions) : Prop where
  /-- What the registry holds is held by the session in progress. -/
  held : ∀ i, s.registry.get sdkKey = some i → s.current.map OpenSession.diagnostics = some i
  removed : ∀ i, s.current = some ⟨i, .removed⟩ → s.registry.get sdkKey = none
  own : ∀ session, s.current = some session → s.Holds session.diagnostics
  confined : s.Confined

variable {sdkKey} {s t : Sessions} {a : Label}

/-- A marker is recorded in the session in progress, with any instance. -/
theorem holds_markAt {i j : ℕ} {marker : Json} (hdate : s.date = some s.begun) (h : s.Holds j) :
    (s.markAt i marker).Holds j := by
  intro d hd date hmem
  simp only [Sessions.markAt, List.getElem?_modify, Option.map_eq_map,
    Option.map_eq_some_iff] at hd
  obtain ⟨old, hold, rfl⟩ := hd
  split at hmem
  · rcases DatedDiagnostics.mem_dates_mark hmem with hmem | rfl
    · exact h old hold date hmem
    · exact hdate
  · exact h old hold date hmem

theorem holds_flush {i j : ℕ} {now : Int64} (h : s.Holds j) : (s.flush i now).Holds j := by
  rw [Sessions.flush]
  split
  · exact h
  · rename_i d hd
    intro d' hd' date hdate
    rw [Slots.getElem?_set_eq_some_iff hd] at hd'
    rcases hd' with ⟨-, rfl⟩ | ⟨-, hd'⟩
    · exact absurd hdate (by simp [DatedDiagnostics.appendEvent])
    · exact h d' hd' date hdate

/-- What a flush sends was recorded in the session in progress. -/
theorem confined_flush {i : ℕ} {now : Int64} (hs : s.Confined) (h : s.Holds i) :
    (s.flush i now).Confined := by
  rw [Sessions.flush]
  split
  · exact hs
  · rename_i d hd
    intro sent hsent date hdate
    rcases List.mem_append.mp hsent with hsent | hsent
    · exact hs sent hsent date hdate
    · obtain ⟨event, -, rfl⟩ := by simpa using hsent
      exact h d hd date hdate

theorem flush_eq (i : ℕ) (now : Int64) : s.flush i now =
    { s with instances := (s.flush i now).instances, sent := (s.flush i now).sent } := by
  rw [Sessions.flush]
  split <;> rfl

theorem Inv.markAt (hs : s.Inv sdkKey) (i : ℕ) (marker : Json) :
    (s.markAt i marker).Inv sdkKey where
  held := hs.held
  removed := hs.removed
  own session hsession := by
    have hdate : s.date = some s.begun := by
      rw [date, show s.current = some session from hsession]
      rfl
    exact holds_markAt hdate (hs.own session hsession)
  confined := hs.confined

theorem Inv.flush (hs : s.Inv sdkKey) {session : OpenSession} (hsession : s.current = some session)
    (now : Int64) : (s.flush session.diagnostics now).Inv sdkKey := by
  have hown : ∀ current, s.current = some current →
      (s.flush session.diagnostics now).Holds current.diagnostics := fun current hcurrent ↦
    holds_flush (hs.own current hcurrent)
  have hconfined : (s.flush session.diagnostics now).Confined :=
    confined_flush hs.confined (hs.own session hsession)
  rw [flush_eq] at hown hconfined ⊢
  exact ⟨hs.held, hs.removed, hown, hconfined⟩

theorem get_of_ne_none (h : s.registry.get sdkKey ≠ none) : (s.get sdkKey).1 = s := by
  rw [Sessions.get]
  split
  · rfl
  · exact absurd ‹_› h

/-- Nothing is held between two sessions. -/
theorem Inv.get_eq_none (hs : s.Inv sdkKey) (hcurrent : s.current = none) :
    s.registry.get sdkKey = none := by
  cases hget : s.registry.get sdkKey with
  | none => rfl
  | some i =>
    have hheld := hs.held i hget
    rw [hcurrent] at hheld
    exact absurd hheld (by simp)

theorem Inv.begin (hs : s.Inv sdkKey) (hnone : s.registry.get sdkKey = none) :
    Inv sdkKey { (s.get sdkKey).1 with
      begun := s.begun + 1, current := some { diagnostics := (s.get sdkKey).2 } } := by
  rw [Sessions.get, hnone]
  refine ⟨fun i hi ↦ by simpa using hi, by simp, fun session hsession ↦ ?_, hs.confined⟩
  obtain rfl := Option.some_inj.mp hsession
  intro d hd date hdate
  obtain rfl : d = {} := by simpa using hd.symm
  exact absurd hdate (by simp)

/-- `Shutdown` goes on, and what is left of the registry was there before. -/
theorem Inv.moveTo (hs : s.Inv sdkKey) {i : ℕ} {old new : SessionStage} {registry : Shareable ℕ}
    (hcurrent : s.current = some ⟨i, old⟩)
    (hkept : ∀ j, registry.get sdkKey = some j → s.registry.get sdkKey = some j)
    (hremoved : new = .removed → registry.get sdkKey = none) :
    Inv sdkKey { s with registry, current := some ⟨i, new⟩ } where
  held j hj := by
    have hheld := hs.held j (hkept j hj)
    rwa [hcurrent] at hheld
  removed j hj := hremoved (OpenSession.mk.inj (Option.some_inj.mp hj)).2
  own session hsession := by
    obtain rfl := Option.some_inj.mp hsession
    exact hs.own ⟨i, old⟩ hcurrent
  confined := hs.confined

/-- **One step.** -/
theorem inv_step (hs : s.Inv sdkKey) (hok : s.LooksUpInSession sdkKey a)
    (h : step sdkKey s a = some t) : t.Inv sdkKey := by
  cases a with
  | begin =>
    rw [step] at h
    split at h
    · exact absurd h (by simp)
    · rename_i hcurrent
      obtain rfl := Option.some_inj.mp h
      exact hs.begin (hs.get_eq_none hcurrent)
  | mark marker =>
    obtain ⟨session, -, rfl⟩ := Option.map_eq_some_iff.mp h
    exact hs.markAt session.diagnostics marker
  | fetch =>
    obtain ⟨session, -, rfl⟩ := Option.map_eq_some_iff.mp h
    exact { hs with }
  | fetchMark i marker =>
    obtain ⟨fetch, -, rfl⟩ := Option.map_eq_some_iff.mp h
    exact hs.markAt fetch.diagnostics marker
  | lookup i marker =>
    rw [step] at h
    split at h
    · exact absurd h (by simp)
    · split at h
      · exact absurd h (by simp)
      · obtain rfl := Option.some_inj.mp h
        rw [get_of_ne_none hok]
        exact { hs.markAt (s.get sdkKey).2 marker with }
  | fetchDone i =>
    obtain ⟨fetch, -, rfl⟩ := Option.map_eq_some_iff.mp h
    exact { hs with }
  | flush now =>
    obtain ⟨session, hsession, rfl⟩ := Option.map_eq_some_iff.mp h
    exact hs.flush hsession now
  | stopLogger now =>
    rw [step] at h
    split at h
    · rename_i i hcurrent
      obtain rfl := Option.some_inj.mp h
      have hinv := hs.flush hcurrent now
      rw [flush_eq] at hinv ⊢
      exact hinv.moveTo hcurrent (fun _ hj ↦ hj) (by simp)
    · exact absurd h (by simp)
  | remove =>
    rw [step] at h
    split at h
    · rename_i i hcurrent
      obtain rfl := Option.some_inj.mp h
      exact hs.moveTo hcurrent (fun j hj ↦ absurd hj (by simp)) fun _ ↦ by simp
    · exact absurd h (by simp)
  | close =>
    rw [step] at h
    split at h
    · rename_i i hcurrent
      obtain rfl := Option.some_inj.mp h
      refine ⟨fun j hj ↦ ?_, by simp, by simp, hs.confined⟩
      exact absurd ((hs.removed i hcurrent).symm.trans hj) (by simp)
    · exact absurd h (by simp)

/-- **Sessions**: each sends only what was recorded in it, whatever fetches are in flight when it is
shut down, in the runs in which no callback looks the diagnostics up after they have been removed
and before the next session begins. -/
theorem confined_of_run {labels : List Label}
    (hok : Machine.AllSteps (step sdkKey) (LooksUpInSession sdkKey) {} labels)
    (h : Machine.run (step sdkKey) {} labels = some s) : s.Confined := by
  have hinit : Inv sdkKey {} :=
    ⟨fun i hi ↦ absurd hi (by simp [Shareable.get, UnorderedMap.find?, lookupKey]), by simp,
      by simp, fun sent hsent ↦ absurd hsent (by simp)⟩
  exact (Machine.run_induct inv_step hinit hok h).confined

instance (s : Sessions) : ∀ a, Decidable (s.LooksUpInSession sdkKey a)
  | .lookup _ _ => inferInstanceAs (Decidable (_ ≠ _))
  | .begin => .isTrue trivial
  | .mark _ => .isTrue trivial
  | .fetch => .isTrue trivial
  | .fetchMark _ _ => .isTrue trivial
  | .fetchDone _ => .isTrue trivial
  | .flush _ => .isTrue trivial
  | .stopLogger _ => .isTrue trivial
  | .remove => .isTrue trivial
  | .close => .isTrue trivial

/-- A fetch is in flight when the session is shut down, and ends in the next session. -/
def fetchThatWaits : List Label :=
  [.begin, .mark .null, .fetch, .stopLogger 0, .remove, .close, .begin, .lookup 0 .null, .flush 1]

theorem confined_fetchThatWaits :
    ∃ s, Machine.run (step (str "key")) {} fetchThatWaits = some s ∧ s.sent.length = 2 ∧
      s.Confined := by
  have hok : Machine.AllSteps (step (str "key")) (LooksUpInSession (str "key")) {}
      fetchThatWaits := by
    decide
  exact ⟨_, rfl, rfl, confined_of_run hok rfl⟩

/-- A fetch is in flight when the session is shut down, and ends before the next session. -/
theorem not_forall_confined :
    ¬ ∀ (sdkKey : Str) (labels : List Label) (s : Sessions),
      Machine.run (step sdkKey) {} labels = some s → s.Confined := by
  intro h
  have hconfined := h (str "key") [.begin, .fetch, .stopLogger 0, .remove, .lookup 0 .null, .close,
    .begin, .flush 1] _ rfl
  exact absurd hconfined (by decide)

end Sessions

end Statsig
