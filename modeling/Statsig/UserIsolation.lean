import Statsig.Client
import Statsig.Lib.Machine
import Statsig.Lib.Slots

/-!
# Whose values are in the store?

Calls of `UpdateUserSync` and `UpdateUserAsync` and completion callbacks, interleaved: each access
to the current user and each method of the store is a step of its own, as nothing is held between
them.

An update reads the user, asks the adapter, and sets the values; a callback compares users, and sets
the values.  If another update gets to reset the store in between, it resets too early, and the
values that are set afterwards belong to a user who is gone.  `isolated_of_run` shows that this is
the only thing that can go wrong, apart from a collision of fingerprints.
-/

set_option autoImplicit false

namespace Statsig

/-! ## The machine -/

/-- What an update does next. -/
inductive UpdatePhase where
  | writeUser
  | resetStore
  | getDataSync
  /-- It has the adapter's answer for this user. -/
  | setValues (user : StatsigUser) (result : StatsigResult DataAdapterResult)
  /-- `Finalize`, or reading the initiator and queueing the fetch. -/
  | last
  deriving DecidableEq, Repr

/-- A call in progress. -/
structure Update where
  kind : UpdateKind
  user : StatsigUser
  phase : UpdatePhase := .writeUser
  deriving DecidableEq, Repr

/-- What a callback does next. -/
inductive CallbackPhase where
  | compare
  | setValues
  | finalize
  deriving DecidableEq, Repr

/-- A completion callback in progress. -/
structure Callback where
  initiator : StatsigUser
  result : StatsigResult DataAdapterResult
  phase : CallbackPhase := .compare
  deriving DecidableEq, Repr

/-- The client, the activities in progress, the fetches in flight, and a record of what the adapter
has produced, and for whom. -/
structure IsolationRun where
  ctx : ClientState := {}
  updates : List Update := []
  fetches : List StatsigUser := []
  callbacks : List Callback := []
  produced : List (StatsigUser × DataAdapterResult) := []
  deriving DecidableEq, Repr

/-- One step of one activity.  The answers of the adapter and of the server are arbitrary. -/
inductive IsolationLabel where
  | call (kind : UpdateKind) (user : StatsigUser)
  | update (i : ℕ) (answer : StatsigResult DataAdapterResult)
  | fetchDone (i : ℕ) (result : StatsigResult DataAdapterResult)
  | callback (i : ℕ)
  deriving DecidableEq, Repr

variable (p : Platform) (lib : JsonText) (sdkKey : Str)

namespace IsolationRun

/-- The record after the adapter has answered for a user. -/
def record (s : IsolationRun) (user : StatsigUser) (result : StatsigResult DataAdapterResult) :
    List (StatsigUser × DataAdapterResult) :=
  (result.value.map fun r ↦ (user, r)).toList ++ s.produced

/-- The next step of the `i`-th update.  The background refresh that `UpdateUserSync` queues ignores
its result, so it touches neither the user nor the store. -/
def stepUpdate (s : IsolationRun) (i : ℕ) (answer : StatsigResult DataAdapterResult) (u : Update) :
    IsolationRun :=
  match u.phase with
  | .writeUser => { s with
      ctx := s.ctx.writeUser u.user
      updates := s.updates.set i { u with phase := .resetStore } }
  | .resetStore => { s with
      ctx := s.ctx.resetStore
      updates := s.updates.set i { u with phase := .getDataSync } }
  | .getDataSync => { s with
      updates := s.updates.set i { u with phase := .setValues s.ctx.user answer }
      produced := s.record s.ctx.user answer }
  | .setValues _ result => { s with
      ctx := s.ctx.applyResult p lib result
      updates := s.updates.set i { u with phase := .last } }
  | .last =>
    match u.kind with
    | .sync => { s with ctx := s.ctx.finalizeStore, updates := s.updates.eraseIdx i }
    | .async => { s with
        updates := s.updates.eraseIdx i
        fetches := s.fetches ++ [s.ctx.user] }

/-- The next step of the `i`-th callback. -/
def stepCallback (s : IsolationRun) (i : ℕ) (c : Callback) : IsolationRun :=
  match c.phase with
  | .compare => { s with
      callbacks := s.callbacks.set i { c with
        phase := if s.ctx.accepts p c.initiator c.result then .setValues else .finalize } }
  | .setValues => { s with
      ctx := s.ctx.applyResult p lib c.result
      callbacks := s.callbacks.set i { c with phase := .finalize } }
  | .finalize => { s with
      ctx := s.ctx.finalizeStore
      callbacks := s.callbacks.eraseIdx i }

/-- One step. -/
def step (s : IsolationRun) : IsolationLabel → Option IsolationRun
  | .call kind user => some { s with updates := s.updates ++ [{ kind, user }] }
  | .update i answer => (s.updates[i]?).map (stepUpdate p lib s i answer)
  | .fetchDone i result => (s.fetches[i]?).map fun initiator ↦ { s with
      fetches := s.fetches.eraseIdx i
      callbacks := s.callbacks ++ [{ initiator, result }]
      produced := s.record initiator result }
  | .callback i => (s.callbacks[i]?).map (stepCallback p lib s i)

/-- The client before any call. -/
def init (options : StatsigOptions) (user : StatsigUser) : IsolationRun :=
  { ctx := { options, user } }

/-! ## The property and what it takes -/

/-- The user has the cache key of the current user. -/
def SameKey (s : IsolationRun) (user : StatsigUser) : Prop :=
  makeCacheKey p sdkKey user = makeCacheKey p sdkKey s.ctx.user

/-- The values in the store come from a result that the adapter produced for a user with the cache
key of the current user. -/
def Isolated (s : IsolationRun) : Prop :=
  ∀ values, s.ctx.store.values = some values → ∃ e ∈ s.produced,
    initializeResponse.decode p lib e.2.data = some values ∧ SameKey p sdkKey s e.1

/-- Some update has written the user and still has to reset the store. -/
def ResetPending (s : IsolationRun) : Prop := ∃ u ∈ s.updates, u.phase = .resetStore

/-- Whoever has read or compared the user, and is about to set the values, has seen a user with the
cache key of the current user. -/
def SettersCurrent (s : IsolationRun) : Prop :=
  (∀ u ∈ s.updates, ∀ user result, u.phase = .setValues user result → SameKey p sdkKey s user) ∧
    ∀ c ∈ s.callbacks, c.phase = .setValues → SameKey p sdkKey s c.initiator

/-- The two things that must not happen.  An update does not reset the store while values of another
user are about to be set, unless a later reset is certain; and the comparison of users does not
take users with different cache keys for equal. -/
def NotOvertaken (s : IsolationRun) : IsolationLabel → Prop
  | .update i _ => ∀ u, s.updates[i]? = some u → u.phase = .resetStore →
      SettersCurrent p sdkKey s ∨ ∃ j v, j ≠ i ∧ s.updates[j]? = some v ∧ v.phase = .resetStore
  | .callback i => ∀ c, s.callbacks[i]? = some c → c.phase = .compare →
      s.ctx.accepts p c.initiator c.result = true → SameKey p sdkKey s c.initiator
  | _ => True

/-! ## The invariant -/

/-- What the adapter produced is on record. -/
def Recorded (s : IsolationRun) (user : StatsigUser) (result : StatsigResult DataAdapterResult) :
    Prop := ∀ r, result.value = some r → (user, r) ∈ s.produced

/-- Values that are about to be set are on record, and for a user with the current key unless the
store is still to be reset; and so are the values in the store. -/
structure Inv (s : IsolationRun) : Prop where
  updates : ∀ u ∈ s.updates, ∀ user result, u.phase = .setValues user result →
    Recorded s user result ∧ (SameKey p sdkKey s user ∨ ResetPending s)
  callbacks : ∀ c ∈ s.callbacks, Recorded s c.initiator c.result ∧
    (c.phase = .setValues → SameKey p sdkKey s c.initiator ∨ ResetPending s)
  store : Isolated p lib sdkKey s ∨ ResetPending s

theorem inv_init (options : StatsigOptions) (user : StatsigUser) :
    Inv p lib sdkKey (init options user) :=
  ⟨by simp [init], by simp [init], .inl fun values h ↦ absurd h (by simp [init])⟩

theorem recorded_record (s : IsolationRun) (user : StatsigUser)
    (result : StatsigResult DataAdapterResult) (r : DataAdapterResult)
    (h : result.value = some r) : (user, r) ∈ s.record user result := by
  simp [record, h]

theorem mem_record {s : IsolationRun} {e : StatsigUser × DataAdapterResult} (h : e ∈ s.produced)
    (user : StatsigUser) (result : StatsigResult DataAdapterResult) : e ∈ s.record user result :=
  List.mem_append_right _ h

theorem isolated_applyResult {s t : IsolationRun} {user : StatsigUser}
    {result : StatsigResult DataAdapterResult} (hs : Isolated p lib sdkKey s)
    (hctx : t.ctx = s.ctx.applyResult p lib result) (hproduced : t.produced = s.produced)
    (hrec : Recorded s user result) (hkey : SameKey p sdkKey s user) : Isolated p lib sdkKey t := by
  intro values hvalues
  have huser : t.ctx.user = s.ctx.user := by rw [hctx, ClientState.user_applyResult]
  rw [hctx, ClientState.applyResult] at hvalues
  rw [hproduced]
  simp only [SameKey, huser]
  split at hvalues
  · obtain ⟨r, v, hr, hd, -, hset⟩ | ⟨-, hset⟩ :=
      EvaluationStore.setValues_cases p lib s.ctx.store result.value
    · rw [hset, EvaluationStore.values_load, Option.some_inj] at hvalues
      exact ⟨(user, r), hrec r hr, hvalues ▸ hd, hkey⟩
    · rw [hset] at hvalues
      exact hs values hvalues
  · exact hs values hvalues

/-- Nothing but the user, the values and the record matters. -/
theorem isolated_congr {s t : IsolationRun} (hs : Isolated p lib sdkKey s)
    (huser : t.ctx.user = s.ctx.user) (hvalues : t.ctx.store.values = s.ctx.store.values)
    (hproduced : s.produced ⊆ t.produced) : Isolated p lib sdkKey t := by
  intro values h
  obtain ⟨e, he, hd, hkey⟩ := hs values (hvalues ▸ h)
  exact ⟨e, hproduced he, hd, by rw [SameKey, huser]; exact hkey⟩

/-- **Steps that leave the user alone** keep the invariant, when what is new in them obeys it. -/
theorem Inv.transfer {s t : IsolationRun} (hs : Inv p lib sdkKey s)
    (huser : t.ctx.user = s.ctx.user) (hproduced : s.produced ⊆ t.produced)
    (hpending : ResetPending s → ResetPending t)
    (hupdates : ∀ u ∈ t.updates, u ∈ s.updates ∨ ∀ user result, u.phase = .setValues user result →
      Recorded t user result ∧ SameKey p sdkKey t user)
    (hcallbacks : ∀ c ∈ t.callbacks, c ∈ s.callbacks ∨ (Recorded t c.initiator c.result ∧
      (c.phase = .setValues → SameKey p sdkKey t c.initiator ∨ ResetPending t)))
    (hstore : Isolated p lib sdkKey s → Isolated p lib sdkKey t ∨ ResetPending t) :
    Inv p lib sdkKey t := by
  have hrec : ∀ user result, Recorded s user result → Recorded t user result :=
    fun user result h r hr ↦ hproduced (h r hr)
  have hkey : ∀ user, SameKey p sdkKey s user → SameKey p sdkKey t user :=
    fun user h ↦ by rw [SameKey, huser]; exact h
  refine ⟨fun u hu user result hphase ↦ ?_, fun c hc ↦ ?_, ?_⟩
  · rcases hupdates u hu with hold | hnew
    · obtain ⟨h1, h2⟩ := hs.updates u hold user result hphase
      exact ⟨hrec user result h1, h2.imp (hkey user) hpending⟩
    · obtain ⟨h1, h2⟩ := hnew user result hphase
      exact ⟨h1, .inl h2⟩
  · rcases hcallbacks c hc with hold | hnew
    · obtain ⟨h1, h2⟩ := hs.callbacks c hold
      exact ⟨hrec _ _ h1, fun hphase ↦ (h2 hphase).imp (hkey _) hpending⟩
    · exact hnew
  · rcases hs.store with hiso | hreset
    · exact hstore hiso
    · exact .inr (hpending hreset)

/-- Writing the user makes a reset pending, and then there is nothing else to show. -/
theorem inv_writeUser {s : IsolationRun} {i : ℕ} {u : Update} (hs : Inv p lib sdkKey s)
    (hu : s.updates[i]? = some u) :
    Inv p lib sdkKey { s with
      ctx := s.ctx.writeUser u.user
      updates := s.updates.set i { u with phase := .resetStore } } := by
  have hpending : ∃ w ∈ s.updates.set i { u with phase := .resetStore },
      w.phase = .resetStore :=
    ⟨{ u with phase := .resetStore },
      List.mem_set (List.getElem?_eq_some_iff.mp hu).1 _, rfl⟩
  refine ⟨fun v hv user result hphase ↦ ?_, fun c hc ↦ ?_, .inr hpending⟩
  · rcases List.mem_or_eq_of_mem_set hv with hold | rfl
    · exact ⟨(hs.updates v hold user result hphase).1, .inr hpending⟩
    · exact absurd hphase (by simp)
  · exact ⟨(hs.callbacks c hc).1, fun _ ↦ .inr hpending⟩

/-- A reset empties the store; the values that are about to be set are right or another reset is
pending. -/
theorem inv_resetStore {s : IsolationRun} {i : ℕ} {u : Update} (hs : Inv p lib sdkKey s)
    (hok : SettersCurrent p sdkKey s ∨
      ∃ j v, j ≠ i ∧ s.updates[j]? = some v ∧ v.phase = .resetStore) :
    Inv p lib sdkKey { s with
      ctx := s.ctx.resetStore
      updates := s.updates.set i { u with phase := .getDataSync } } := by
  have hother : (∃ j v, j ≠ i ∧ s.updates[j]? = some v ∧ v.phase = .resetStore) →
      ∃ w ∈ s.updates.set i { u with phase := .getDataSync }, w.phase = .resetStore := by
    rintro ⟨j, v, hne, hv, hphase⟩
    exact ⟨v, List.mem_of_getElem? (by rw [List.getElem?_set_ne hne.symm, hv]), hphase⟩
  refine ⟨fun v hv user result hphase ↦ ?_, fun c hc ↦ ⟨(hs.callbacks c hc).1, fun hphase ↦ ?_⟩,
    .inl fun values h ↦ absurd h (by simp)⟩
  · rcases List.mem_or_eq_of_mem_set hv with hold | rfl
    · exact ⟨(hs.updates v hold user result hphase).1,
        hok.imp (fun h ↦ h.1 v hold user result hphase) hother⟩
    · exact absurd hphase (by simp)
  · exact hok.imp (fun h ↦ h.2 c hc hphase) hother

/-- **A step of an update** keeps the invariant. -/
theorem inv_stepUpdate {s : IsolationRun} {i : ℕ} {answer : StatsigResult DataAdapterResult}
    {u : Update} (hs : Inv p lib sdkKey s) (hu : s.updates[i]? = some u)
    (hok : NotOvertaken p sdkKey s (.update i answer)) :
    Inv p lib sdkKey (stepUpdate p lib s i answer u) := by
  rw [stepUpdate]
  cases hphase : u.phase with
  | writeUser => exact inv_writeUser p lib sdkKey hs hu
  | resetStore => exact inv_resetStore p lib sdkKey hs (hok u hu hphase)
  | getDataSync =>
    refine hs.transfer p lib sdkKey rfl (fun e he ↦ mem_record he _ _)
      (Slots.exists_mem_set hu (by simp [hphase])) (fun v hv ↦ ?_) (fun c hc ↦ .inl hc)
      (fun h ↦ .inl (isolated_congr p lib sdkKey h rfl rfl fun e he ↦ mem_record he _ _))
    refine (List.mem_or_eq_of_mem_set hv).imp_right ?_
    rintro rfl user result hset
    obtain ⟨rfl, rfl⟩ : s.ctx.user = user ∧ answer = result := by simpa using hset
    exact ⟨recorded_record s _ _, rfl⟩
  | setValues user result =>
    have hpending : ResetPending s → ∃ w ∈ s.updates.set i { u with phase := .last },
        w.phase = .resetStore :=
      Slots.exists_mem_set hu (by simp [hphase])
    refine hs.transfer p lib sdkKey (by simp) (List.Subset.refl _) hpending (fun v hv ↦ ?_)
      (fun c hc ↦ .inl hc) (fun h ↦ ?_)
    · refine (List.mem_or_eq_of_mem_set hv).imp_right ?_
      rintro rfl user' result' hset
      exact absurd hset (by simp)
    · obtain ⟨hrec, hkey | hreset⟩ :=
        hs.updates u (List.mem_of_getElem? hu) user result hphase
      · exact .inl (isolated_applyResult p lib sdkKey h rfl rfl hrec hkey)
      · exact .inr (hpending hreset)
  | last =>
    have hpending : ResetPending s → ∃ w ∈ s.updates.eraseIdx i, w.phase = .resetStore :=
      Slots.exists_mem_eraseIdx hu (by simp [hphase])
    cases u.kind with
    | sync =>
      exact hs.transfer p lib sdkKey rfl (List.Subset.refl _) hpending
        (fun v hv ↦ .inl (List.mem_of_mem_eraseIdx hv)) (fun c hc ↦ .inl hc)
        (fun h ↦ .inl (isolated_congr p lib sdkKey h rfl (by simp) (List.Subset.refl _)))
    | async =>
      exact hs.transfer p lib sdkKey rfl (List.Subset.refl _) hpending
        (fun v hv ↦ .inl (List.mem_of_mem_eraseIdx hv)) (fun c hc ↦ .inl hc)
        (fun h ↦ .inl (isolated_congr p lib sdkKey h rfl rfl (List.Subset.refl _)))

/-- **A step of a callback** keeps the invariant. -/
theorem inv_stepCallback {s : IsolationRun} {i : ℕ} {c : Callback} (hs : Inv p lib sdkKey s)
    (hc : s.callbacks[i]? = some c) (hok : NotOvertaken p sdkKey s (.callback i)) :
    Inv p lib sdkKey (stepCallback p lib s i c) := by
  obtain ⟨hrec, hkey⟩ := hs.callbacks c (List.mem_of_getElem? hc)
  rw [stepCallback]
  cases hphase : c.phase with
  | compare =>
    refine hs.transfer p lib sdkKey rfl (List.Subset.refl _) id (fun v hv ↦ .inl hv)
      (fun d hd ↦ ?_) .inl
    refine (List.mem_or_eq_of_mem_set hd).imp_right ?_
    rintro rfl
    refine ⟨hrec, fun hset ↦ .inl (hok c hc hphase ?_)⟩
    by_contra hnot
    exact absurd hset (by simp [hnot])
  | setValues =>
    refine hs.transfer p lib sdkKey (by simp) (List.Subset.refl _) id (fun v hv ↦ .inl hv)
      (fun d hd ↦ ?_) (fun h ↦ ?_)
    · refine (List.mem_or_eq_of_mem_set hd).imp_right ?_
      rintro rfl
      exact ⟨hrec, fun hset ↦ absurd hset (by simp)⟩
    · exact (hkey hphase).imp (isolated_applyResult p lib sdkKey h rfl rfl hrec) id
  | finalize =>
    exact hs.transfer p lib sdkKey rfl (List.Subset.refl _) id (fun v hv ↦ .inl hv)
      (fun d hd ↦ .inl (List.mem_of_mem_eraseIdx hd))
      (fun h ↦ .inl (isolated_congr p lib sdkKey h rfl (by simp) (List.Subset.refl _)))

theorem inv_step {s t : IsolationRun} {a : IsolationLabel} (hs : Inv p lib sdkKey s)
    (hok : NotOvertaken p sdkKey s a) (h : step p lib s a = some t) : Inv p lib sdkKey t := by
  cases a with
  | call kind user =>
    simp only [step, Option.some_inj] at h
    subst h
    refine hs.transfer p lib sdkKey rfl (List.Subset.refl _)
      (fun ⟨w, hw, hreset⟩ ↦ ⟨w, List.mem_append_left _ hw, hreset⟩) (fun v hv ↦ ?_)
      (fun c hc ↦ .inl hc) .inl
    refine (List.mem_append.mp hv).imp_right fun hnew user' result hset ↦ ?_
    rw [List.mem_singleton.mp hnew] at hset
    exact absurd hset (by simp)
  | update i answer =>
    obtain ⟨u, hu, rfl⟩ := Option.map_eq_some_iff.mp h
    exact inv_stepUpdate p lib sdkKey hs hu hok
  | fetchDone i result =>
    obtain ⟨initiator, -, rfl⟩ := Option.map_eq_some_iff.mp h
    refine hs.transfer p lib sdkKey rfl (fun e he ↦ mem_record he _ _) id (fun v hv ↦ .inl hv)
      (fun c hc ↦ ?_)
      (fun h ↦ .inl (isolated_congr p lib sdkKey h rfl rfl fun e he ↦ mem_record he _ _))
    refine (List.mem_append.mp hc).imp_right fun hnew ↦ ?_
    rw [List.mem_singleton.mp hnew]
    exact ⟨recorded_record s _ _, fun hset ↦ absurd hset (by simp)⟩
  | callback i =>
    obtain ⟨c, hc, rfl⟩ := Option.map_eq_some_iff.mp h
    exact inv_stepCallback p lib sdkKey hs hc hok

/-- **A user only sees values for a user with the same cache key**, in every state in which no
update is in progress, of every run in which no update resets the store while values of another user
are about to be set, and no comparison takes users with different cache keys for equal. -/
theorem isolated_of_run {options : StatsigOptions} {user : StatsigUser} {s : IsolationRun}
    {labels : List IsolationLabel}
    (hrun : Machine.run (step p lib) (init options user) labels = some s)
    (hok : Machine.AllSteps (step p lib) (NotOvertaken p sdkKey) (init options user) labels)
    (hidle : s.updates = []) : Isolated p lib sdkKey s := by
  have hinv : Inv p lib sdkKey s :=
    Machine.run_induct (inv_step p lib sdkKey) (inv_init p lib sdkKey options user) hok hrun
  refine hinv.store.resolve_right ?_
  rintro ⟨u, hu, -⟩
  rw [hidle] at hu
  exact absurd hu (by simp)

/-- What the adapter produces for a user. -/
def answer (n : ℕ) : StatsigResult DataAdapterResult where
  code := .ok
  value := some { source := .cache, data := initializeResponse.emptyText n, receivedAt := 1,
                  fullUserHash := [] }

/-- All five steps of an update, with this answer of the adapter. -/
def wholeUpdate (answer : StatsigResult DataAdapterResult) : List IsolationLabel :=
  List.replicate 5 (.update 0 answer)

/-- Where there is one update at most, and every callback is for the current user or going to be
turned away, nobody is overtaken. -/
theorem notOvertaken_of_alone {s : IsolationRun} (hupdates : s.updates.length ≤ 1)
    (hcallbacks : ∀ c ∈ s.callbacks, SameKey p sdkKey s c.initiator ∨
      (c.phase ≠ .setValues ∧ s.ctx.accepts p c.initiator c.result = false)) (a : IsolationLabel) :
    NotOvertaken p sdkKey s a := by
  cases a with
  | call kind user => trivial
  | fetchDone i result => trivial
  | update i answer =>
    intro u hu hphase
    refine .inl ⟨fun v hv user result hset ↦ ?_, fun c hc hset ↦ ?_⟩
    · obtain ⟨hi, rfl⟩ := List.getElem?_eq_some_iff.mp hu
      obtain ⟨j, hj, rfl⟩ := List.getElem_of_mem hv
      obtain rfl : i = j := by omega
      exact absurd (hphase.symm.trans hset) (by simp)
    · exact (hcallbacks c hc).resolve_right fun hturned ↦ hturned.1 hset
  | callback i =>
    intro c hc _ haccepts
    refine (hcallbacks c (List.mem_of_getElem? hc)).resolve_right fun hturned ↦ ?_
    exact absurd (hturned.2.symm.trans haccepts) (by simp)

/-- Two users. -/
def userA : StatsigUser := { userId := some (str "a") }
def userB : StatsigUser := { userId := some (str "b") }

/-- The user is updated twice, and both fetches are answered after that: the callback for `userA` is
turned away, and the one for `userB` sets the values. -/
def twoUsers : List IsolationLabel :=
  .call .async userA :: wholeUpdate { code := .ok } ++
    .call .async userB :: wholeUpdate { code := .ok } ++
    [.fetchDone 0 (answer 1), .callback 0, .callback 0,
      .fetchDone 0 (answer 2), .callback 0, .callback 0, .callback 0]

theorem isolated_twoUsers :
    ∃ s, Machine.run (step .linux initializeResponse.twoTexts) (init {} {}) twoUsers = some s ∧
      s.ctx.store.values = some { time := 2, hasUpdates := true } ∧
      Isolated .linux initializeResponse.twoTexts (str "key") s := by
  have halone : Machine.AllSteps (step .linux initializeResponse.twoTexts)
      (fun s _ ↦ s.updates.length ≤ 1 ∧
        ∀ c ∈ s.callbacks, makeCacheKey .linux (str "key") c.initiator =
            makeCacheKey .linux (str "key") s.ctx.user ∨
          (c.phase ≠ .setValues ∧ s.ctx.accepts .linux c.initiator c.result = false))
      (init {} {}) twoUsers := by
    decide +kernel
  have hrun : (Machine.run (step .linux initializeResponse.twoTexts) (init {} {}) twoUsers).map
      (fun s ↦ (s.updates, s.ctx.store.values)) =
        some ([], some { time := 2, hasUpdates := true }) := by
    decide +kernel
  obtain ⟨s, hs, hend⟩ := Option.map_eq_some_iff.mp hrun
  obtain ⟨hidle, hvalues⟩ := Prod.mk.inj hend
  exact ⟨s, hs, hvalues, isolated_of_run .linux initializeResponse.twoTexts (str "key") hs
    (halone.of_invariant (I := fun _ ↦ True) (fun _ _ _ ↦ trivial)
      (fun _ h ↦ notOvertaken_of_alone _ _ h.1 h.2 _) trivial) hidle⟩

/-- A callback for `userA` has compared users, and before it sets the values the update of `userB`
runs from start to end. -/
def crossing : List IsolationLabel :=
  .call .async userA :: wholeUpdate { code := .ok } ++ [.fetchDone 0 (answer 1), .callback 0] ++
    (.call .sync userB :: wholeUpdate { code := .ok }) ++ [.callback 0]

/-- Where `crossing` leads to. -/
def crossed : IsolationRun where
  ctx := { user := userB
           store := { values := some { time := 1, hasUpdates := true }
                      sourceInfo := { source := .cache, lcut := 1, receivedAt := 1 } } }
  callbacks := [{ initiator := userA, result := answer 1, phase := .finalize }]
  produced := (answer 1).value.toList.map fun r ↦ (userA, r)

theorem run_crossing : Machine.run (step .linux initializeResponse.twoTexts) (init {} {}) crossing =
    some crossed := by
  decide +kernel

/-- The values of `userA` are in the store of `userB`. -/
theorem not_forall_isolated :
    ¬ ∀ (p : Platform) (lib : JsonText) (sdkKey : Str) (options : StatsigOptions)
      (user : StatsigUser) (labels : List IsolationLabel) (s : IsolationRun),
      Machine.run (step p lib) (init options user) labels = some s → s.updates = [] →
      Isolated p lib sdkKey s := by
  intro h
  obtain ⟨e, he, -, hkey⟩ := h .linux initializeResponse.twoTexts (str "key") {} {} crossing crossed
    run_crossing rfl { time := 1, hasUpdates := true } rfl
  have hfst : e.1 = userA := by
    rw [List.mem_singleton.mp he]
  rw [SameKey, hfst] at hkey
  exact absurd hkey (by decide +kernel)

end IsolationRun

end Statsig
